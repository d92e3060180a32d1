import Mathlib

/-!
# Arrays of bits

An array of bits is packed into 64-bit words.  A bit is addressed by its position
in the whole array; the number of ones is counted word by word.
-/

namespace BitArray

/-- The bit at position `i`; bits past the end are zero. -/
def get (words : List (BitVec 64)) (i : ℕ) : Bool := (words.getD (i / 64) 0).getLsbD (i % 64)

/-- The number of ones of a word. -/
def countOnes (w : BitVec 64) : ℕ := (List.range 64).countP (w.getLsbD ·)

/-- The number of ones of an array. -/
def popcount (words : List (BitVec 64)) : ℕ := (words.map countOnes).sum

variable {words words' : List (BitVec 64)} {w : BitVec 64}

/-! ## One word -/

theorem getLsbD_zero (i : ℕ) : (0 : BitVec 64).getLsbD i = false := BitVec.getLsbD_zero

/-- A word is tested with a mask. -/
theorem and_mask_ne_zero {j : ℕ} (hj : j < 64) : w &&& (1#64 <<< j) ≠ 0 ↔ w.getLsbD j = true := by
  rw [← BitVec.twoPow_eq, BitVec.and_twoPow]
  have hpow : BitVec.twoPow 64 j ≠ 0 := by
    intro h
    have hbit := BitVec.getLsbD_twoPow (w := 64) j j
    rw [h, getLsbD_zero] at hbit
    simp [hj] at hbit
  split_ifs with h
  · exact iff_of_true hpow h
  · exact iff_of_false (fun hne ↦ hne rfl) h

/-- A mask sets one bit. -/
theorem getLsbD_or_mask {j : ℕ} (hj : j < 64) (i : ℕ) :
    (w ||| (1#64 <<< j)).getLsbD i = (w.getLsbD i || decide (i = j)) := by
  rw [← BitVec.twoPow_eq, BitVec.getLsbD_or, BitVec.getLsbD_twoPow, decide_eq_true hj,
    Bool.true_and, decide_eq_decide.mpr (@eq_comm _ j i)]

theorem countP_range_set {n j : ℕ} (hj : j < n) {p q : ℕ → Bool} (hp : p j = false)
    (hq : q j = true) (hpq : ∀ i, i ≠ j → q i = p i) :
    (List.range n).countP q = (List.range n).countP p + 1 := by
  induction n with
  | zero => exact absurd hj (Nat.not_lt_zero j)
  | succ n ih =>
      rw [List.range_succ, List.countP_append, List.countP_append, List.countP_singleton,
        List.countP_singleton]
      rcases Nat.lt_succ_iff_lt_or_eq.mp hj with hlt | rfl
      · rw [ih hlt, hpq n hlt.ne']
        ring
      · have hsame : (List.range j).countP q = (List.range j).countP p := by
          refine List.countP_congr fun i hi ↦ ?_
          rw [hpq i (List.mem_range.mp hi).ne]
        simp [hsame, hp, hq]

theorem countOnes_or_mask {j : ℕ} (hj : j < 64) (h : w.getLsbD j = false) :
    countOnes (w ||| (1#64 <<< j)) = countOnes w + 1 := by
  refine countP_range_set hj h ?_ fun i hi ↦ ?_
  · rw [getLsbD_or_mask hj, decide_eq_true rfl, Bool.or_true]
  · rw [getLsbD_or_mask hj, decide_eq_false hi, Bool.or_false]

theorem countOnes_le (w : BitVec 64) : countOnes w ≤ 64 := by
  have h : countOnes w ≤ (List.range 64).length := List.countP_le_length
  rwa [List.length_range] at h

theorem countOnes_not (w : BitVec 64) : countOnes (~~~w) = 64 - countOnes w := by
  have hlen := List.length_eq_countP_add_countP (w.getLsbD ·) (l := List.range 64)
  have hnot : countOnes (~~~w) = (List.range 64).countP fun i ↦ ¬ w.getLsbD i := by
    refine List.countP_congr fun i hi ↦ ?_
    rw [BitVec.getLsbD_not, decide_eq_true (List.mem_range.mp hi)]
    simp
  rw [List.length_range] at hlen
  change 64 = countOnes w + _ at hlen
  rw [← hnot] at hlen
  omega

theorem countOnes_eq_zero : countOnes w = 0 ↔ w = 0 := by
  constructor
  · intro h
    apply BitVec.eq_of_getLsbD_eq
    intro i hi
    have hzero := List.countP_eq_zero.mp h i (List.mem_range.mpr hi)
    rw [getLsbD_zero]
    exact eq_false_of_ne_true hzero
  · rintro rfl
    exact List.countP_eq_zero.mpr fun i _ ↦ by
      rw [getLsbD_zero]
      exact Bool.false_ne_true

/-! ## All words -/

@[simp] theorem popcount_nil : popcount [] = 0 := rfl

@[simp] theorem popcount_cons (w : BitVec 64) (words : List (BitVec 64)) :
    popcount (w :: words) = countOnes w + popcount words := by
  rw [popcount, List.map_cons, List.sum_cons, popcount]

theorem popcount_le (words : List (BitVec 64)) : popcount words ≤ 64 * words.length := by
  induction words with
  | nil => exact Nat.zero_le _
  | cons w words ih =>
      have := countOnes_le w
      rw [popcount_cons, List.length_cons]
      omega

/-- No bit is counted exactly if no bit is set. -/
theorem popcount_eq_zero : popcount words = 0 ↔ ∀ w ∈ words, w = 0 := by
  induction words with
  | nil => simp
  | cons w words ih => rw [popcount_cons, Nat.add_eq_zero_iff, ih, countOnes_eq_zero,
      List.forall_mem_cons]

theorem popcount_replicate (n : ℕ) : popcount (List.replicate n 0) = 0 :=
  popcount_eq_zero.mpr fun _ hw ↦ (List.mem_replicate.mp hw).2

theorem popcount_map_not (words : List (BitVec 64)) :
    popcount (words.map (~~~ ·)) = 64 * words.length - popcount words := by
  induction words with
  | nil => rfl
  | cons w words ih =>
      have hw := countOnes_le w
      have hle := popcount_le words
      rw [List.map_cons, popcount_cons, popcount_cons, List.length_cons, ih, countOnes_not]
      omega

/-- Setting a bit that is not set counts one more. -/
theorem popcount_set {k j : ℕ} (hk : k < words.length) (hj : j < 64)
    (h : words[k].getLsbD j = false) :
    popcount (words.set k (words[k] ||| (1#64 <<< j))) = popcount words + 1 := by
  induction words generalizing k with
  | nil => exact absurd hk (Nat.not_lt_zero k)
  | cons w words ih =>
      cases k with
      | zero =>
          rw [List.getElem_cons_zero] at h
          rw [List.getElem_cons_zero, List.set_cons_zero, popcount_cons, popcount_cons,
            countOnes_or_mask hj h]
          ring
      | succ k =>
          rw [List.getElem_cons_succ] at h
          rw [List.getElem_cons_succ, List.set_cons_succ, popcount_cons, popcount_cons,
            ih (Nat.lt_of_succ_lt_succ hk) h]
          ring

/-! ## Single bits -/

theorem get_replicate_zero (n i : ℕ) : get (List.replicate n 0) i = false := by
  rw [get, List.getD_eq_getElem?_getD, List.getElem?_replicate]
  split_ifs <;> exact getLsbD_zero _

/-- Setting a bit sets this bit. -/
theorem get_set {k j : ℕ} (hk : k < words.length) (hj : j < 64) (i : ℕ) :
    get (words.set k (words[k] ||| (1#64 <<< j))) i = (get words i || decide (i = 64 * k + j)) := by
  unfold get
  by_cases hi : i / 64 = k
  · subst hi
    rw [List.getD_eq_getElem _ _ (by rw [List.length_set]; exact hk), List.getElem_set_self,
      List.getD_eq_getElem _ _ hk, getLsbD_or_mask hj]
    congr 1
    rw [decide_eq_decide]
    omega
  · have hne : ¬ i = 64 * k + j := by omega
    rw [decide_eq_false hne, Bool.or_false, List.getD_eq_getElem?_getD,
      List.getElem?_set_ne (Ne.symm hi), ← List.getD_eq_getElem?_getD]

theorem get_zipWith_or (hlen : words.length = words'.length) (i : ℕ) :
    get (List.zipWith (· ||| ·) words words') i = (get words i || get words' i) := by
  unfold get
  simp only [List.getD_eq_getElem?_getD, List.getElem?_zipWith]
  rcases Nat.lt_or_ge (i / 64) words.length with hi | hi
  · rw [List.getElem?_eq_getElem hi, List.getElem?_eq_getElem (hlen ▸ hi)]
    exact BitVec.getLsbD_or
  · rw [List.getElem?_eq_none hi, List.getElem?_eq_none (hlen ▸ hi)]
    simp

theorem get_zipWith_and (hlen : words.length = words'.length) (i : ℕ) :
    get (List.zipWith (· &&& ·) words words') i = (get words i && get words' i) := by
  unfold get
  simp only [List.getD_eq_getElem?_getD, List.getElem?_zipWith]
  rcases Nat.lt_or_ge (i / 64) words.length with hi | hi
  · rw [List.getElem?_eq_getElem hi, List.getElem?_eq_getElem (hlen ▸ hi)]
    exact BitVec.getLsbD_and
  · rw [List.getElem?_eq_none hi, List.getElem?_eq_none (hlen ▸ hi)]
    simp

end BitArray
