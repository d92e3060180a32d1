import DataSketches.Lib.Comparator

/-!
# Weighted values searched by a comparator

Values with weights are collapsed to the distinct values in order, each with the
weight of all values up to it.  A search of these sums gives the weight below a
value, and the values at a given weight.

## Main definitions

* `weightOf`: the weight of the values that meet a predicate.
* `Cumulative`: the distinct values and the sums that collapse weighted values.
* `lookup`: the sum at the last value that meets a predicate.
-/

open Std (TransCmp OrientedCmp ReflCmp)

namespace Comparator

variable {α : Type} {cmp : α → α → Ordering} {p p' : α → Bool} {ps qs : List (α × ℕ)}
  {items : List α} {sums : List ℕ}

/-! ## Weights -/

/-- The weight of the values that meet a predicate. -/
def weightOf (p : α → Bool) (ps : List (α × ℕ)) : ℕ := ((ps.filter fun q ↦ p q.1).map Prod.snd).sum

/-- The weight of all values. -/
def totalWeight (ps : List (α × ℕ)) : ℕ := (ps.map Prod.snd).sum

@[simp] theorem weightOf_nil (p : α → Bool) : weightOf p [] = 0 := rfl

theorem weightOf_cons (p : α → Bool) (q : α × ℕ) (ps : List (α × ℕ)) :
    weightOf p (q :: ps) = (if p q.1 then q.2 else 0) + weightOf p ps := by
  rw [weightOf, List.filter_cons]
  split_ifs
  · rfl
  · exact (Nat.zero_add _).symm

theorem weightOf_append (p : α → Bool) (ps qs : List (α × ℕ)) :
    weightOf p (ps ++ qs) = weightOf p ps + weightOf p qs := by
  rw [weightOf, List.filter_append, List.map_append, List.sum_append]
  rfl

theorem weightOf_perm (p : α → Bool) (h : ps.Perm qs) : weightOf p ps = weightOf p qs :=
  ((h.filter _).map Prod.snd).sum_eq

theorem totalWeight_perm (h : ps.Perm qs) : totalWeight ps = totalWeight qs := (h.map Prod.snd).sum_eq

theorem totalWeight_append (ps qs : List (α × ℕ)) :
    totalWeight (ps ++ qs) = totalWeight ps + totalWeight qs := by
  rw [totalWeight, List.map_append, List.sum_append]
  rfl

theorem weightOf_congr (h : ∀ q ∈ ps, p q.1 = p' q.1) : weightOf p ps = weightOf p' ps := by
  rw [weightOf, List.filter_congr h]
  rfl

theorem weightOf_le_of_imp (h : ∀ q ∈ ps, p q.1 = true → p' q.1 = true) :
    weightOf p ps ≤ weightOf p' ps := by
  induction ps with
  | nil => exact le_rfl
  | cons q ps ih =>
      have hrest := ih fun q' hq' ↦ h q' (List.mem_cons_of_mem q hq')
      have hhead := h q List.mem_cons_self
      rw [weightOf_cons, weightOf_cons]
      split_ifs with hp hp'
      · exact Nat.add_le_add_left hrest _
      · exact absurd (hhead hp) hp'
      · exact Nat.add_le_add (Nat.zero_le _) hrest
      · exact Nat.add_le_add_left hrest _

theorem weightOf_of_all (h : ∀ q ∈ ps, p q.1 = true) : weightOf p ps = totalWeight ps := by
  rw [weightOf, List.filter_eq_self.mpr h]
  rfl

theorem weightOf_of_none (h : ∀ q ∈ ps, p q.1 = false) : weightOf p ps = 0 := by
  rw [weightOf, List.filter_eq_nil_iff.mpr fun q hq ↦ Bool.eq_false_iff.mp (h q hq)]
  rfl

theorem weightOf_le_totalWeight (p : α → Bool) (ps : List (α × ℕ)) :
    weightOf p ps ≤ totalWeight ps := by
  have hall : weightOf (fun _ ↦ true) ps = totalWeight ps := weightOf_of_all fun _ _ ↦ rfl
  exact (weightOf_le_of_imp fun _ _ _ ↦ rfl).trans_eq hall

/-- A value that meets the predicate counts. -/
theorem weightOf_pos {q : α × ℕ} (hq : q ∈ ps) (hp : p q.1 = true) (hw : 0 < q.2) :
    0 < weightOf p ps :=
  hw.trans_le (List.le_sum_of_mem
    (List.mem_map.mpr ⟨q, List.mem_filter.mpr ⟨hq, hp⟩, rfl⟩))

/-- A value that does not meet the predicate is missing. -/
theorem weightOf_lt_totalWeight {q : α × ℕ} (hq : q ∈ ps) (hp : p q.1 = false) (hw : 0 < q.2) :
    weightOf p ps < totalWeight ps := by
  induction ps with
  | nil => cases hq
  | cons q' ps ih =>
      have htotal : totalWeight (q' :: ps) = q'.2 + totalWeight ps := List.sum_cons
      rw [weightOf_cons, htotal]
      rcases List.mem_cons.mp hq with rfl | hq
      · rw [hp, if_neg Bool.false_ne_true, Nat.zero_add]
        exact (weightOf_le_totalWeight p ps).trans_lt (Nat.lt_add_of_pos_left hw)
      · have hle : (if p q'.1 then q'.2 else 0) ≤ q'.2 := by
          split_ifs
          · exact le_rfl
          · exact Nat.zero_le _
        exact Nat.add_lt_add_of_le_of_lt hle (ih hq)

/-- A list of values with one weight. -/
theorem weightOf_map (p : α → Bool) (xs : List α) (w : ℕ) :
    weightOf p (xs.map fun x ↦ (x, w)) = xs.countP p * w := by
  induction xs with
  | nil => rw [List.map_nil, weightOf_nil, List.countP_nil, Nat.zero_mul]
  | cons x xs ih =>
      rw [List.map_cons, weightOf_cons, ih, List.countP_cons, Nat.add_mul, Nat.add_comm]
      split_ifs
      · rw [Nat.one_mul]
      · rw [Nat.zero_mul]

theorem totalWeight_map (xs : List α) (w : ℕ) :
    totalWeight (xs.map fun x ↦ (x, w)) = xs.length * w := by
  rw [totalWeight, List.map_map]
  exact (congrArg List.sum List.map_const).trans (List.sum_replicate _ _)

/-! ## Collapsing -/

/-- Distinct values in order, each with the weight of all values up to it. -/
structure Cumulative (cmp : α → α → Ordering) (ps : List (α × ℕ)) (items : List α)
    (sums : List ℕ) : Prop where
  length_eq : sums.length = items.length
  strict : items.Pairwise fun a b ↦ cmp a b = .lt
  sum_eq : ∀ (i : ℕ) (a : α), items[i]? = some a →
    sums[i]? = some (weightOf (fun x ↦ (cmp x a).isLE) ps)
  mem : ∀ a ∈ items, ∃ w, (a, w) ∈ ps
  covered : ∀ q ∈ ps, ∃ a ∈ items, cmp q.1 a = .eq

theorem Cumulative.nil : Cumulative cmp [] [] [] where
  length_eq := rfl
  strict := List.Pairwise.nil
  sum_eq i a h := by cases h
  mem a h := by cases h
  covered q h := by cases h

theorem Cumulative.perm (h : Cumulative cmp ps items sums) (hperm : ps.Perm qs) :
    Cumulative cmp qs items sums where
  length_eq := h.length_eq
  strict := h.strict
  sum_eq i a ha := by rw [h.sum_eq i a ha, weightOf_perm _ hperm]
  mem a ha := (h.mem a ha).imp fun w hw ↦ hperm.subset hw
  covered q hq := h.covered q (hperm.symm.subset hq)

section Steps

variable [TransCmp cmp] {x : α} {w : ℕ}

theorem isLE_eq_false_of_lt {a b : α} (h : cmp a b = .lt) : (cmp b a).isLE = false := by
  rw [@OrientedCmp.eq_swap _ cmp _ b a, h]
  rfl

/-- A value above all distinct ones is a new one. -/
theorem Cumulative.push (h : Cumulative cmp ps items sums) (hle : ∀ q ∈ ps, (cmp q.1 x).isLE = true)
    (hlt : ∀ a ∈ items, cmp a x = .lt) :
    Cumulative cmp (ps ++ [(x, w)]) (items ++ [x]) (sums ++ [totalWeight ps + w]) where
  length_eq := by rw [List.length_append, List.length_append, h.length_eq]; rfl
  strict := by
    rw [List.pairwise_append]
    refine ⟨h.strict, List.pairwise_singleton _ _, fun a ha b hb ↦ ?_⟩
    rw [List.mem_singleton.mp hb]
    exact hlt a ha
  sum_eq i a ha := by
    rcases Nat.lt_or_ge i items.length with hi | hi
    · rw [List.getElem?_append_left hi] at ha
      have hxa := isLE_eq_false_of_lt (hlt a (List.mem_of_getElem? ha))
      rw [List.getElem?_append_left (h.length_eq.symm ▸ hi), h.sum_eq i a ha, weightOf_append,
        weightOf_cons, weightOf_nil]
      dsimp only
      rw [hxa, if_neg Bool.false_ne_true]
      rfl
    · rw [List.getElem?_append_right hi, List.getElem?_singleton] at ha
      split_ifs at ha with hzero
      obtain rfl := Option.some.inj ha
      rw [List.getElem?_append_right (h.length_eq.symm ▸ hi), h.length_eq, hzero,
        List.getElem?_cons_zero, weightOf_of_all, totalWeight_append]
      · rfl
      · intro q hq
        rcases List.mem_append.mp hq with hq | hq
        · exact hle q hq
        · rw [List.mem_singleton.mp hq]
          exact ReflCmp.isLE_rfl
  mem a ha := by
    rcases List.mem_append.mp ha with ha | ha
    · obtain ⟨v, hv⟩ := h.mem a ha
      exact ⟨v, List.mem_append_left _ hv⟩
    · rw [List.mem_singleton.mp ha]
      exact ⟨w, List.mem_append_right _ (List.mem_singleton_self _)⟩
  covered q hq := by
    rcases List.mem_append.mp hq with hq | hq
    · obtain ⟨a, ha, heq⟩ := h.covered q hq
      exact ⟨a, List.mem_append_left _ ha, heq⟩
    · rw [List.mem_singleton.mp hq]
      exact ⟨x, List.mem_append_right _ (List.mem_singleton_self x), ReflCmp.compare_self⟩

/-- A value equal to the last distinct one adds its weight there. -/
theorem Cumulative.absorb {a : α} (h : Cumulative cmp ps items sums)
    (hle : ∀ q ∈ ps, (cmp q.1 x).isLE = true) (hlast : items.getLast? = some a)
    (heq : cmp a x = .eq) :
    Cumulative cmp (ps ++ [(x, w)]) items (sums.set (sums.length - 1) (totalWeight ps + w)) where
  length_eq := List.length_set.trans h.length_eq
  strict := h.strict
  sum_eq i b hb := by
    have hi : i < items.length := (List.getElem?_eq_some_iff.mp hb).1
    rw [List.getLast?_eq_getElem?] at hlast
    rcases eq_or_ne i (items.length - 1) with rfl | hne
    · rw [hlast, Option.some_inj] at hb
      subst hb
      rw [h.length_eq, List.getElem?_set_self (h.length_eq.symm ▸ hi), weightOf_of_all,
        totalWeight_append]
      · rfl
      · intro q hq
        rcases List.mem_append.mp hq with hq | hq
        · rw [isLE_congr_right heq]
          exact hle q hq
        · rw [List.mem_singleton.mp hq, @OrientedCmp.eq_swap _ cmp _ x a, heq]
          rfl
    · have hba : cmp b a = .lt := by
        obtain ⟨hj, hja⟩ := List.getElem?_eq_some_iff.mp hlast
        obtain ⟨_, hib⟩ := List.getElem?_eq_some_iff.mp hb
        have hij := List.pairwise_iff_getElem.mp h.strict i (items.length - 1) hi hj (by omega)
        rwa [hib, hja] at hij
      have hxb : (cmp x b).isLE = false := by
        refine isLE_eq_false_of_lt ?_
        rw [← TransCmp.congr_right heq]
        exact hba
      rw [h.length_eq, List.getElem?_set_ne (Ne.symm hne), h.sum_eq i b hb, weightOf_append,
        weightOf_cons, weightOf_nil]
      dsimp only
      rw [hxb, if_neg Bool.false_ne_true]
      rfl
  mem b hb := by
    obtain ⟨v, hv⟩ := h.mem b hb
    exact ⟨v, List.mem_append_left _ hv⟩
  covered q hq := by
    rcases List.mem_append.mp hq with hq | hq
    · exact h.covered q hq
    · rw [List.mem_singleton.mp hq]
      exact ⟨a, List.mem_of_getLast? hlast, OrientedCmp.eq_symm heq⟩

end Steps

/-! ## Searches -/

/-- The sum at the last value that meets the predicate. -/
def lookup (p : α → Bool) (items : List α) (sums : List ℕ) : ℕ :=
  if partitionPoint p items = 0 then 0 else sums.getD (partitionPoint p items - 1) 0

theorem partitionPoint_le (p : α → Bool) (xs : List α) : partitionPoint p xs ≤ xs.length :=
  (List.takeWhile_prefix p).length_le

/-- What comes before the point of a search meets the predicate. -/
theorem of_lt_partitionPoint {xs : List α} {i : ℕ} {a : α} (hi : i < partitionPoint p xs)
    (ha : xs[i]? = some a) : p a = true := by
  induction xs generalizing i with
  | nil => cases ha
  | cons x xs ih =>
      rw [partitionPoint, List.takeWhile_cons] at hi
      split_ifs at hi with hx
      · cases i with
        | zero =>
            rw [List.getElem?_cons_zero, Option.some_inj] at ha
            rwa [← ha]
        | succ i => exact ih (Nat.lt_of_succ_lt_succ hi) ha
      · cases hi

/-- What is at the point of a search does not meet the predicate. -/
theorem not_of_partitionPoint {xs : List α} {a : α} (ha : xs[partitionPoint p xs]? = some a) :
    p a = false := by
  induction xs with
  | nil => cases ha
  | cons x xs ih =>
      rw [partitionPoint, List.takeWhile_cons] at ha
      split_ifs at ha with hx
      · exact ih ha
      · rw [List.length_nil, List.getElem?_cons_zero, Option.some_inj] at ha
        rw [← ha]
        exact Bool.eq_false_iff.mpr hx

/-- A value that does not meet the predicate is not before the point of a search. -/
theorem partitionPoint_le_of_not {xs : List α} {i : ℕ} {a : α} (ha : xs[i]? = some a)
    (hp : p a = false) : partitionPoint p xs ≤ i := by
  by_contra hlt
  have htrue := of_lt_partitionPoint (not_le.mp hlt) ha
  rw [hp] at htrue
  cases htrue

namespace Cumulative

theorem ne_nil (h : Cumulative cmp ps items sums) (hne : ps ≠ []) : items ≠ [] := by
  obtain ⟨q, hq⟩ := List.exists_mem_of_ne_nil ps hne
  obtain ⟨a, ha, -⟩ := h.covered q hq
  exact List.ne_nil_of_mem ha

variable [TransCmp cmp]

theorem isLE_of_le (h : Cumulative cmp ps items sums) {i j : ℕ} {a b : α} (hij : i ≤ j)
    (ha : items[i]? = some a) (hb : items[j]? = some b) : (cmp a b).isLE = true := by
  rcases Nat.lt_or_eq_of_le hij with hlt | rfl
  · obtain ⟨hi, hia⟩ := List.getElem?_eq_some_iff.mp ha
    obtain ⟨hj, hjb⟩ := List.getElem?_eq_some_iff.mp hb
    have hab := List.pairwise_iff_getElem.mp h.strict i j hi hj hlt
    rw [hia, hjb] at hab
    rw [hab]
    rfl
  · rw [ha, Option.some_inj] at hb
    rw [hb]
    exact ReflCmp.isLE_rfl

/-- Looking up a predicate gives the weight of the values that meet it. -/
theorem lookup_eq (h : Cumulative cmp ps items sums) (hp : DownClosed cmp p) :
    lookup p items sums = weightOf p ps := by
  have hcover : ∀ q ∈ ps, p q.1 = true → ∃ i a, i < partitionPoint p items ∧ items[i]? = some a ∧
      cmp q.1 a = .eq := by
    intro q hq hpq
    obtain ⟨a, ha, heq⟩ := h.covered q hq
    obtain ⟨i, hi⟩ := List.mem_iff_getElem?.mp ha
    have hpa : p a = true := by
      refine hp a q.1 ?_ hpq
      rw [OrientedCmp.eq_symm heq]
      rfl
    refine ⟨i, a, ?_, hi, heq⟩
    -- the values before a value that meets the predicate meet it too
    by_contra hge
    have hlt : partitionPoint p items < items.length :=
      (not_lt.mp hge).trans_lt (List.getElem?_eq_some_iff.mp hi).1
    have hat := List.getElem?_eq_getElem hlt
    have hnot := not_of_partitionPoint hat
    rw [hp _ a (h.isLE_of_le (not_lt.mp hge) hat hi) hpa] at hnot
    cases hnot
  rw [lookup]
  split_ifs with hzero
  · rw [weightOf_of_none]
    intro q hq
    by_contra hne
    obtain ⟨i, -, hi, -⟩ := hcover q hq (Bool.eq_true_of_not_eq_false hne)
    omega
  · have hle := partitionPoint_le p items
    have hpos : partitionPoint p items - 1 < items.length := by omega
    have hat := List.getElem?_eq_getElem hpos
    rw [List.getD_eq_getElem?_getD, h.sum_eq _ _ hat, Option.getD_some]
    refine weightOf_congr fun q hq ↦ Bool.eq_iff_iff.mpr ⟨fun hqa ↦ ?_, fun hpq ↦ ?_⟩
    · exact hp _ _ hqa (of_lt_partitionPoint (by omega) hat)
    · obtain ⟨i, a, hi, ha, heq⟩ := hcover q hq hpq
      rw [TransCmp.congr_left heq]
      exact h.isLE_of_le (by omega) ha hat

/-- No value is below the first one. -/
theorem first_isLE (h : Cumulative cmp ps items sums) {a : α} (ha : items[0]? = some a) {q : α × ℕ}
    (hq : q ∈ ps) : (cmp a q.1).isLE = true := by
  obtain ⟨b, hb, heq⟩ := h.covered q hq
  obtain ⟨i, hi⟩ := List.mem_iff_getElem?.mp hb
  rw [isLE_congr_right heq]
  exact h.isLE_of_le (Nat.zero_le i) ha hi

/-- No value is above the last one. -/
theorem isLE_last (h : Cumulative cmp ps items sums) {a : α}
    (ha : items[items.length - 1]? = some a) {q : α × ℕ} (hq : q ∈ ps) :
    (cmp q.1 a).isLE = true := by
  obtain ⟨b, hb, heq⟩ := h.covered q hq
  obtain ⟨i, hi⟩ := List.mem_iff_getElem?.mp hb
  have hlt := (List.getElem?_eq_some_iff.mp hi).1
  rw [TransCmp.congr_left heq]
  exact h.isLE_of_le (by omega) hi ha

/-- The last sum is the weight of all values. -/
theorem last_sum (h : Cumulative cmp ps items sums) {a : α} (ha : items[items.length - 1]? = some a) :
    weightOf (fun x ↦ (cmp x a).isLE) ps = totalWeight ps :=
  weightOf_of_all fun _ hq ↦ h.isLE_last ha hq

/-- The point where the sums reach a weight is at a value. -/
theorem exists_of_partitionPoint (h : Cumulative cmp ps items sums) {f : ℕ → Bool} (hne : ps ≠ [])
    (hf : f (totalWeight ps) = false) :
    ∃ a, items[partitionPoint f sums]? = some a ∧
      f (weightOf (fun x ↦ (cmp x a).isLE) ps) = false := by
  have hpos := List.length_pos_iff.mpr (h.ne_nil hne)
  have hlast := List.getElem?_eq_getElem (show items.length - 1 < items.length by omega)
  have hle : partitionPoint f sums ≤ items.length - 1 := by
    refine partitionPoint_le_of_not (h.sum_eq _ _ hlast) ?_
    rwa [h.last_sum hlast]
  have hat := List.getElem?_eq_getElem (show partitionPoint f sums < items.length by omega)
  exact ⟨_, hat, not_of_partitionPoint (h.sum_eq _ _ hat)⟩

/-- The first value whose sum is at least a weight is the least one with this weight up to it. -/
theorem least_of_weight (h : Cumulative cmp ps items sums) (target : ℕ) (hpos : 0 < target)
    (hle : target ≤ totalWeight ps) :
    ∃ a, items[partitionPoint (fun s ↦ decide (s < target)) sums]? = some a ∧
      target ≤ weightOf (fun x ↦ (cmp x a).isLE) ps ∧
        ∀ b, target ≤ weightOf (fun x ↦ (cmp x b).isLE) ps → (cmp a b).isLE = true := by
  have hne : ps ≠ [] := by
    rintro rfl
    exact absurd (hpos.trans_le hle) (lt_irrefl 0)
  obtain ⟨a, ha, hweight⟩ := h.exists_of_partitionPoint hne
    (f := fun s ↦ decide (s < target)) (decide_eq_false (not_lt.mpr hle))
  refine ⟨a, ha, not_lt.mp (of_decide_eq_false hweight), fun b hb ↦ ?_⟩
  by_contra hab
  have hab' := Bool.eq_false_iff.mpr hab
  have hpoint := partitionPoint_le_of_not (p := fun x ↦ (cmp x b).isLE) ha hab'
  rw [← h.lookup_eq (downClosed_isLE b), lookup] at hb
  split_ifs at hb with hzero
  · omega
  · obtain ⟨hlt, -⟩ := List.getElem?_eq_some_iff.mp ha
    have hat : sums[partitionPoint (fun x ↦ (cmp x b).isLE) items - 1]? =
        some (sums.getD (partitionPoint (fun x ↦ (cmp x b).isLE) items - 1) 0) := by
      have hlen : partitionPoint (fun x ↦ (cmp x b).isLE) items - 1 < sums.length := by
        rw [h.length_eq]
        omega
      rw [List.getD_eq_getElem?_getD, List.getElem?_eq_getElem hlen, Option.getD_some]
    have hsmall := of_lt_partitionPoint (p := fun s ↦ decide (s < target)) (by omega) hat
    exact absurd (of_decide_eq_true hsmall) (not_lt.mpr hb)

/-- The first value whose sum is above a weight is the greatest one with at most this weight
below it. -/
theorem greatest_of_weight (h : Cumulative cmp ps items sums) (target : ℕ)
    (hlt : target < totalWeight ps) :
    ∃ a, items[partitionPoint (fun s ↦ decide (s ≤ target)) sums]? = some a ∧
      weightOf (fun x ↦ (cmp x a).isLT) ps ≤ target ∧
        ∀ b, weightOf (fun x ↦ (cmp x b).isLT) ps ≤ target → (cmp b a).isLE = true := by
  have hne : ps ≠ [] := by
    rintro rfl
    exact absurd hlt (Nat.not_lt_zero target)
  obtain ⟨a, ha, hweight⟩ := h.exists_of_partitionPoint hne
    (f := fun s ↦ decide (s ≤ target)) (decide_eq_false (not_le.mpr hlt))
  refine ⟨a, ha, ?_, fun b hb ↦ ?_⟩
  · have hpoint := partitionPoint_le_of_not (p := fun x ↦ (cmp x a).isLT) ha (by
      have hself : cmp a a = .eq := ReflCmp.compare_self
      rw [hself]
      rfl)
    rw [← h.lookup_eq (downClosed_isLT a), lookup]
    split_ifs with hzero
    · exact Nat.zero_le target
    · obtain ⟨hi, -⟩ := List.getElem?_eq_some_iff.mp ha
      have hlen : partitionPoint (fun x ↦ (cmp x a).isLT) items - 1 < sums.length := by
        rw [h.length_eq]
        omega
      have hat := List.getElem?_eq_getElem hlen
      have hsmall := of_lt_partitionPoint (p := fun s ↦ decide (s ≤ target)) (by omega) hat
      rw [List.getD_eq_getElem?_getD, hat, Option.getD_some]
      exact of_decide_eq_true hsmall
  · by_contra hba
    have hab : cmp a b = .lt := by
      rw [@OrientedCmp.eq_swap _ cmp _ a b]
      cases hcmp : cmp b a with
      | lt => exact absurd (by rw [hcmp]; rfl) hba
      | eq => exact absurd (by rw [hcmp]; rfl) hba
      | gt => rfl
    have hle : weightOf (fun x ↦ (cmp x a).isLE) ps ≤ weightOf (fun x ↦ (cmp x b).isLT) ps := by
      refine weightOf_le_of_imp fun q _ hq ↦ ?_
      rw [Ordering.isLT_iff_eq_lt]
      exact TransCmp.lt_of_isLE_of_lt hq hab
    exact absurd (of_decide_eq_false hweight) (not_not.mpr (hle.trans hb))

end Cumulative

end Comparator
