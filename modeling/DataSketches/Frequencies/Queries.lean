import DataSketches.Frequencies.Sketch

/-!
# Queries of frequent items

The bounds of an item come from its counter, and a row of a query is one counter.
-/

namespace DataSketches

open Runs Counters

namespace FrequentItemsSketch

variable {T Q : Type} [DecidableEq T] [Hash T] [DecidableEq Q] [Hash Q]
variable {s : FrequentItemsSketch T} {truth : T → ℕ} {weight payers : ℕ}

/-- A counter and the error together do not exceed the weight. -/
theorem Summary.total_add_offset_le (h : s.Summary truth weight payers) (hpos : 0 < payers) :
    total s.hashMap.entries + s.offset ≤ weight := by
  have hpaid : s.offset * 1 ≤ s.offset * payers := Nat.mul_le_mul_left _ hpos
  have hbudget : s.offset * payers + total s.hashMap.entries ≤ weight := h.budget
  omega

/-- The bounds are the counter and the counter plus the error. -/
theorem Summary.bounds_outcome [Borrow T Q] (h : s.Summary truth weight payers) (hpos : 0 < payers)
    (hweight : weight < 2 ^ 64) (item : Q) :
    Outcome Drifted (do return (← s.lowerBound item, ← s.upperBound item)) fun r ↦
      r.1 = count s.hashMap.entries (Borrow.toOwned item) ∧ r.2 = r.1 + s.maximumError := by
  have hle := count_le_total s.hashMap.entries (Borrow.toOwned item)
  have htotal := h.total_add_offset_le hpos
  refine (ReversePurgeItemHashMap.get_outcome h.inv.map item).bind fun lower hlower heq ↦ ?_
  have hget : s.hashMap.get item = .ok lower := hlower
  have hadd : checkedAdd 64 lower s.offset = .ok (lower + s.offset) := checkedAdd_of_lt (by omega)
  rw [upperBound, hget, ok_bind, hadd, ok_bind]
  exact Outcome.ok ⟨heq, rfl⟩

/-- The estimate is the upper bound of an item with a counter, and zero otherwise. -/
theorem Summary.estimate_outcome [Borrow T Q] (h : s.Summary truth weight payers) (hpos : 0 < payers)
    (hweight : weight < 2 ^ 64) (item : Q) : Outcome Drifted (s.estimate item) fun e ↦
      e = if count s.hashMap.entries (Borrow.toOwned item) = 0 then 0
        else count s.hashMap.entries (Borrow.toOwned item) + s.offset := by
  have hle := count_le_total s.hashMap.entries (Borrow.toOwned item)
  have htotal := h.total_add_offset_le hpos
  rw [estimate]
  refine (ReversePurgeItemHashMap.get_outcome h.inv.map item).bind fun value _ heq ↦ ?_
  subst heq
  split_ifs with hvalue hzero hzero
  · omega
  · exact Outcome.of_eq_ok (checkedAdd_of_lt (by omega)) rfl
  · exact Outcome.ok rfl
  · omega

/-! ## Rows -/

omit [DecidableEq T] [Hash T] in
/-- The row of a counter. -/
def rowOf (offset : ℕ) (p : T × ℕ) : Row T := ⟨p.1, p.2 + offset, p.2 + offset, p.2⟩

omit [DecidableEq T] [Hash T] in
theorem rowsOf_total {offset threshold : ℕ} {errorType : ErrorType} {items : List (T × ℕ)}
    (h : ∀ p ∈ items, p.2 + offset < 2 ^ 64) : rowsOf offset threshold errorType items =
      .ok ((items.filter fun p ↦ included errorType threshold p.2 (p.2 + offset)).map (rowOf offset)) := by
  induction items with
  | nil => rfl
  | cons p items ih =>
      have hrest := ih fun q hq ↦ h q (List.mem_cons_of_mem p hq)
      have hadd : checkedAdd 64 p.2 offset = .ok (p.2 + offset) :=
        checkedAdd_of_lt (h p List.mem_cons_self)
      rw [rowsOf, hadd, ok_bind, hrest, ok_bind, List.filter_cons]
      split_ifs <;> rfl

/-- A query returns the rows of all included counters, each once and by decreasing estimate. -/
theorem Summary.frequentItems_total (h : s.Summary truth weight payers) (hpos : 0 < payers)
    (hweight : weight < 2 ^ 64) (errorType : ErrorType) (threshold : ℕ) :
    ∃ rows, s.frequentItemsWithThreshold errorType threshold = .ok rows ∧
      (rows.map Row.item).Nodup ∧ rows.Pairwise (fun a b ↦ b.estimate ≤ a.estimate) ∧
      ∀ r, r ∈ rows ↔ ∃ p ∈ s.hashMap.entries,
        included errorType (max threshold s.offset) p.2 (p.2 + s.offset) = true ∧ rowOf s.offset p = r := by
  obtain ⟨items, hiter, hitems⟩ := ReversePurgeItemHashMap.iter_total h.inv.map
  have htotal := h.total_add_offset_le hpos
  have hmem : ∀ p, p ∈ items ↔ p ∈ s.hashMap.entries := fun p ↦ by rw [← hitems, Multiset.mem_coe]
  have hfit : ∀ p ∈ items, p.2 + s.offset < 2 ^ 64 := by
    intro p hp
    have hle : p.2 ≤ total s.hashMap.entries :=
      Multiset.single_le_sum (fun _ _ ↦ Nat.zero_le _) _
        (Multiset.mem_map_of_mem Prod.snd ((hmem p).mp hp))
    omega
  have hnodup : (items.map Prod.fst).Nodup := by
    rw [← Multiset.coe_nodup, ← Multiset.map_coe, hitems]
    exact h.inv.map.nodup
  rw [frequentItemsWithThreshold, hiter, ok_bind, rowsOf_total hfit, ok_bind]
  have hperm := List.mergeSort_perm ((items.filter fun p ↦
    included errorType (max threshold s.offset) p.2 (p.2 + s.offset)).map (rowOf s.offset)) fun a b ↦ decide (b.estimate ≤ a.estimate)
  refine ⟨_, rfl, ?_, ?_, fun r ↦ ?_⟩
  · rw [(hperm.map Row.item).nodup_iff, List.map_map]
    exact hnodup.sublist (List.filter_sublist.map _)
  · have hpair := @List.pairwise_mergeSort (Row T) (fun a b ↦ decide (b.estimate ≤ a.estimate))
      (fun a b c hab hbc ↦ decide_eq_true
        ((of_decide_eq_true hbc).trans (of_decide_eq_true hab)))
      (fun a b ↦ by
        rw [Bool.or_eq_true, decide_eq_true_eq, decide_eq_true_eq]
        exact Nat.le_total _ _)
      ((items.filter fun p ↦
        included errorType (max threshold s.offset) p.2 (p.2 + s.offset)).map (rowOf s.offset))
    exact hpair.imp of_decide_eq_true
  · rw [hperm.mem_iff, List.mem_map]
    refine exists_congr fun p ↦ ?_
    rw [List.mem_filter, hmem, and_assoc]

/-- What is certainly frequent is returned by a query without false negatives. -/
theorem Summary.noFalseNegatives (h : s.Summary truth weight payers) (hpos : 0 < payers)
    (hweight : weight < 2 ^ 64) (threshold : ℕ) : ∃ rows,
      s.frequentItemsWithThreshold .noFalseNegatives threshold = .ok rows ∧
      (rows.map Row.item).Nodup ∧ rows.Pairwise (fun a b ↦ b.estimate ≤ a.estimate) ∧
      ∀ x, max threshold s.maximumError < truth x → ∃ r ∈ rows, r.item = x := by
  obtain ⟨rows, hrows, hnodup, hsorted, hmem⟩ :=
    h.frequentItems_total hpos hweight .noFalseNegatives threshold
  refine ⟨rows, hrows, hnodup, hsorted, fun x hx ↦ ?_⟩
  have hupper := (h.estimates x).2
  have hoffset : s.offset ≤ max threshold s.maximumError := le_max_right _ _
  obtain ⟨v, hv⟩ := mem_of_count_pos (E := s.hashMap.entries) (x := x) (by omega)
  refine ⟨rowOf s.offset (x, v), (hmem _).mpr ⟨(x, v), hv, decide_eq_true ?_, rfl⟩, rfl⟩
  rw [count_eq h.inv.map.nodup hv] at hupper
  exact hx.trans_le hupper

/-- What a query without false positives returns is certainly frequent. -/
theorem Summary.noFalsePositives (h : s.Summary truth weight payers) (hpos : 0 < payers)
    (hweight : weight < 2 ^ 64) (threshold : ℕ) : ∃ rows,
      s.frequentItemsWithThreshold .noFalsePositives threshold = .ok rows ∧
      (rows.map Row.item).Nodup ∧ rows.Pairwise (fun a b ↦ b.estimate ≤ a.estimate) ∧
      ∀ r ∈ rows, max threshold s.maximumError < truth r.item := by
  obtain ⟨rows, hrows, hnodup, hsorted, hmem⟩ :=
    h.frequentItems_total hpos hweight .noFalsePositives threshold
  refine ⟨rows, hrows, hnodup, hsorted, fun r hr ↦ ?_⟩
  obtain ⟨p, hp, hincluded, rfl⟩ := (hmem r).mp hr
  have hlower := (h.estimates p.1).1
  rw [count_eq h.inv.map.nodup hp] at hlower
  have hlt : max threshold s.offset < p.2 := of_decide_eq_true hincluded
  exact hlt.trans_le hlower

end FrequentItemsSketch

end DataSketches
