import Mathlib

/-!
# Bit strings in bytes, highest bit first

Bit `p` of a list of bytes is bit `7 - p % 8` of byte `p / 8`, so that the bytes
read from left to right spell the string.  `Holds bytes p k x` says that the `k`
bits from position `p` on spell the number `x`, which is what writers establish
and readers use.
-/

namespace BitStream

/-- Bit `p`, highest bit first; zero past the end. -/
def bit (bytes : List ℕ) (p : ℕ) : Bool := (bytes.getD (p / 8) 0).testBit (7 - p % 8)

/-- The `k` bits from position `p` on are the low `k` bits of `x`, highest first. -/
def Holds (bytes : List ℕ) (p k x : ℕ) : Prop := ∀ s < k, bit bytes (p + s) = x.testBit (k - 1 - s)

variable {bytes bytes' : List ℕ} {p k m x y : ℕ}

/-- Bits past the end are zero. -/
theorem bit_of_length_le (h : 8 * bytes.length ≤ p) : bit bytes p = false := by
  rw [bit, List.getD_eq_default _ _ (by omega), Nat.zero_testBit]

theorem holds_zero (bytes : List ℕ) (p x : ℕ) : Holds bytes p 0 x := fun s hs ↦ by omega

/-- The bits determine the number. -/
theorem Holds.unique (hx : Holds bytes p k x) (hy : Holds bytes p k y) (hxk : x < 2 ^ k)
    (hyk : y < 2 ^ k) : x = y := by
  refine Nat.eq_of_testBit_eq fun s ↦ ?_
  by_cases hs : s < k
  · have h : k - 1 - (k - 1 - s) = s := by omega
    have hxs := hx (k - 1 - s) (by omega)
    have hys := hy (k - 1 - s) (by omega)
    rw [h] at hxs hys
    rw [← hxs, hys]
  · have hpow : 2 ^ k ≤ 2 ^ s := Nat.pow_le_pow_right two_pos (not_lt.mp hs)
    rw [Nat.testBit_lt_two_pow (hxk.trans_le hpow), Nat.testBit_lt_two_pow (hyk.trans_le hpow)]

/-- A string of `k + m` bits is one of `k` bits followed by one of `m` bits. -/
theorem holds_add :
    Holds bytes p (k + m) x ↔ Holds bytes p k (x >>> m) ∧ Holds bytes (p + k) m x := by
  constructor
  · intro h
    constructor
    · intro s hs
      rw [h s (by omega), Nat.testBit_shiftRight]
      congr 1
      omega
    · intro s hs
      rw [Nat.add_assoc, h (k + s) (by omega)]
      congr 1
      omega
  · rintro ⟨hk, hm⟩ s hs
    by_cases hsk : s < k
    · rw [hk s hsk, Nat.testBit_shiftRight]
      congr 1
      omega
    · have h := hm (s - k) (by omega)
      rw [show p + k + (s - k) = p + s by omega] at h
      rw [h]
      congr 1
      omega

/-- Only the low bits of the number matter. -/
theorem Holds.congr (h : Holds bytes p k x) (hxy : ∀ s < k, x.testBit s = y.testBit s) :
    Holds bytes p k y := fun s hs ↦ (h s hs).trans (hxy _ (by omega))

/-- Only the bits in range matter. -/
theorem Holds.of_bits (h : Holds bytes p k x)
    (hbits : ∀ q, p ≤ q → q < p + k → bit bytes' q = bit bytes q) : Holds bytes' p k x :=
  fun s hs ↦ (hbits _ (by omega) (by omega)).trans (h s hs)

/-- The bits of a number assembled from two strings. -/
theorem testBit_shiftLeft_or {a b : ℕ} (hb : b < 2 ^ m) (s : ℕ) :
    (a <<< m ||| b).testBit s = if s < m then b.testBit s else a.testBit (s - m) := by
  rw [Nat.testBit_lor, Nat.testBit_shiftLeft]
  split_ifs with hs
  · simp [not_le.mpr hs]
  · have hpow : 2 ^ m ≤ 2 ^ s := Nat.pow_le_pow_right two_pos (not_lt.mp hs)
    simp [not_lt.mp hs, Nat.testBit_lt_two_pow (hb.trans_le hpow)]

/-- Reading `k` bits and then `m` bits. -/
theorem Holds.append {a b : ℕ} (ha : Holds bytes p k a) (hb : Holds bytes (p + k) m b)
    (hbm : b < 2 ^ m) : Holds bytes p (k + m) (a <<< m ||| b) := by
  rw [holds_add]
  constructor
  · refine ha.congr fun s _ ↦ ?_
    rw [Nat.testBit_shiftRight, testBit_shiftLeft_or hbm, if_neg (by omega)]
    congr 1
    omega
  · refine hb.congr fun s hs ↦ ?_
    rw [testBit_shiftLeft_or hbm, if_pos hs]

theorem shiftLeft_or_lt {a b : ℕ} (ha : a < 2 ^ k) (hb : b < 2 ^ m) :
    a <<< m ||| b < 2 ^ (k + m) := by
  refine Nat.or_lt_two_pow ?_ (hb.trans_le (Nat.pow_le_pow_right two_pos (by omega)))
  rw [Nat.shiftLeft_eq, pow_add]
  exact Nat.mul_lt_mul_of_pos_right ha (Nat.two_pow_pos m)

/-- The bits of one byte. -/
theorem holds_byte {i off : ℕ} (h : off + k ≤ 8) :
    Holds bytes (8 * i + off) k (bytes.getD i 0 >>> (8 - off - k)) := by
  intro s hs
  rw [bit, Nat.testBit_shiftRight, show (8 * i + off + s) / 8 = i by omega]
  congr 1
  omega

/-- Changing one byte changes its bits only. -/
theorem bit_set {i b : ℕ} (hi : i < bytes.length) (q : ℕ) :
    bit (bytes.set i b) q = if q / 8 = i then b.testBit (7 - q % 8) else bit bytes q := by
  unfold bit
  split_ifs with h
  · rw [h, List.getD_eq_getElem _ _ (by rw [List.length_set]; exact hi), List.getElem_set_self]
  · rw [List.getD_eq_getElem?_getD, List.getElem?_set_ne (Ne.symm h), ← List.getD_eq_getElem?_getD]

/-- The bits of a string of bytes are those of its part and of the rest. -/
theorem bit_append (bs bs' : List ℕ) (q : ℕ) :
    bit (bs ++ bs') q =
      if q < 8 * bs.length then bit bs q else bit bs' (q - 8 * bs.length) := by
  unfold bit
  split_ifs with h
  · rw [List.getD_append _ _ _ _ (by omega)]
  · rw [List.getD_append_right _ _ _ _ (by omega), show (q - 8 * bs.length) / 8 =
      q / 8 - bs.length by omega, show (q - 8 * bs.length) % 8 = q % 8 by omega]

/-- Bits do not see what is above a byte. -/
theorem bit_map_mod (bytes : List ℕ) (q : ℕ) : bit (bytes.map (· % 256)) q = bit bytes q := by
  unfold bit
  rw [List.getD_eq_getElem?_getD, List.getD_eq_getElem?_getD, List.getElem?_map]
  cases bytes[q / 8]? with
  | none => rfl
  | some b =>
      change (b % 2 ^ 8).testBit _ = b.testBit _
      rw [Nat.testBit_mod_two_pow, decide_eq_true (by omega), Bool.true_and]

/-! ## Sequences of numbers -/

/-- The numbers of a list stand one after the other, each in `k` bits. -/
def HoldsAll (bytes : List ℕ) (k : ℕ) : ℕ → List ℕ → Prop
  | _, [] => True
  | p, x :: xs => Holds bytes p k x ∧ HoldsAll bytes k (p + k) xs

variable {xs ys : List ℕ}

theorem holdsAll_iff :
    HoldsAll bytes k p xs ↔ ∀ i < xs.length, Holds bytes (p + i * k) k (xs.getD i 0) := by
  induction xs generalizing p with
  | nil => exact ⟨fun _ i hi ↦ absurd hi (Nat.not_lt_zero i), fun _ ↦ trivial⟩
  | cons x xs ih =>
      rw [HoldsAll, ih]
      constructor
      · rintro ⟨hx, hxs⟩ i hi
        cases i with
        | zero => simpa using hx
        | succ i =>
            have h := hxs i (Nat.lt_of_succ_lt_succ hi)
            rwa [Nat.add_assoc, Nat.add_comm k, ← Nat.succ_mul] at h
      · intro h
        refine ⟨by simpa using h 0 (Nat.succ_pos _), fun i hi ↦ ?_⟩
        have hi' := h (i + 1) (Nat.succ_lt_succ hi)
        rwa [Nat.succ_mul, Nat.add_comm (i * k), ← Nat.add_assoc] at hi'

theorem holdsAll_append :
    HoldsAll bytes k p (xs ++ ys) ↔
      HoldsAll bytes k p xs ∧ HoldsAll bytes k (p + xs.length * k) ys := by
  induction xs generalizing p with
  | nil => simp [HoldsAll]
  | cons x xs ih =>
      rw [List.cons_append, HoldsAll, HoldsAll, ih, List.length_cons, Nat.succ_mul, and_assoc,
        Nat.add_assoc, Nat.add_comm k]

theorem HoldsAll.of_bits (h : HoldsAll bytes k p xs)
    (hbits : ∀ q, p ≤ q → q < p + xs.length * k → bit bytes' q = bit bytes q) :
    HoldsAll bytes' k p xs := by
  induction xs generalizing p with
  | nil => trivial
  | cons x xs ih =>
      rw [List.length_cons, Nat.succ_mul] at hbits
      refine ⟨h.1.of_bits fun q hq hqk ↦ hbits q hq (by omega), ih h.2 fun q hq hqk ↦ ?_⟩
      exact hbits q (by omega) (by omega)

/-- The bits determine the numbers. -/
theorem HoldsAll.unique (hx : HoldsAll bytes k p xs) (hy : HoldsAll bytes k p ys)
    (hlen : xs.length = ys.length) (hxk : ∀ x ∈ xs, x < 2 ^ k) (hyk : ∀ y ∈ ys, y < 2 ^ k) :
    xs = ys := by
  induction xs generalizing p ys with
  | nil => exact (List.length_eq_zero_iff.mp hlen.symm).symm
  | cons x xs ih =>
      cases ys with
      | nil => cases hlen
      | cons y ys =>
          rw [hx.1.unique hy.1 (hxk x List.mem_cons_self) (hyk y List.mem_cons_self),
            ih hx.2 hy.2 (Nat.succ.inj hlen) (fun x hx ↦ hxk x (List.mem_cons_of_mem _ hx))
              fun y hy ↦ hyk y (List.mem_cons_of_mem _ hy)]

/-- Numbers after a string of bytes. -/
theorem holdsAll_append_right (bs : List ℕ) :
    HoldsAll (bs ++ bytes) k (8 * bs.length + p) xs ↔ HoldsAll bytes k p xs := by
  have hbit : ∀ q, bit (bs ++ bytes) (8 * bs.length + q) = bit bytes q := by
    intro q
    rw [bit_append, if_neg (by omega), Nat.add_sub_cancel_left]
  induction xs generalizing p with
  | nil => exact Iff.rfl
  | cons x xs ih =>
      have hx : Holds (bs ++ bytes) (8 * bs.length + p) k x ↔ Holds bytes p k x := by
        refine forall_congr' fun s ↦ imp_congr_right fun _ ↦ ?_
        rw [Nat.add_assoc, hbit]
      rw [HoldsAll, HoldsAll, Nat.add_assoc, hx]
      exact and_congr_right fun _ ↦ ih

/-- Numbers within the first of two strings of bytes. -/
theorem holdsAll_append_left {bs : List ℕ} (h : HoldsAll bytes k p xs)
    (hroom : p + xs.length * k ≤ 8 * bytes.length) : HoldsAll (bytes ++ bs) k p xs :=
  h.of_bits fun q _ hq ↦ by rw [bit_append, if_pos (by omega)]

end BitStream
