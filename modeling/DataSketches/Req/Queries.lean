import DataSketches.Req.Run
import DataSketches.Req.SortedView

/-!
# What queries of REQ sketches answer

The rank of an item is the weight of the retained items below it, whether it is
computed from the compactors or looked up in a sorted view.  A quantile is the
least item with at least the weight asked for up to it, or the greatest one with at
most this weight below it.
-/

namespace DataSketches

namespace Req

open Comparator Differences Runs ReqValue

variable {T : Type}

/-! ## Weighted items -/

/-- The items of the compactors with their weights. -/
def pairs (cs : List (Compactor T)) : List (T × ℕ) :=
  cs.flatMap fun c ↦ c.items.map (·, 2 ^ c.lgWeight)

theorem pairs_cons (c : Compactor T) (cs : List (Compactor T)) :
    pairs (c :: cs) = c.items.map (·, 2 ^ c.lgWeight) ++ pairs cs := List.flatMap_cons

theorem totalWeight_pairs (cs : List (Compactor T)) : totalWeight (pairs cs) = weightedCount cs := by
  induction cs with
  | nil => rfl
  | cons c cs ih =>
      rw [pairs_cons, totalWeight_append, totalWeight_map, ih, weightedCount, weightedCount,
        List.map_cons, List.sum_cons]

theorem weightOf_pairs (p : T → Bool) (cs : List (Compactor T)) :
    weightOf p (pairs cs) = (cs.map fun c ↦ c.items.countP p * 2 ^ c.lgWeight).sum := by
  induction cs with
  | nil => rfl
  | cons c cs ih => rw [pairs_cons, weightOf_append, weightOf_map, ih, List.map_cons, List.sum_cons]

theorem pairs_weight_pos (cs : List (Compactor T)) : ∀ q ∈ pairs cs, 0 < q.2 := by
  intro q hq
  obtain ⟨c, -, hmem⟩ := List.mem_flatMap.mp hq
  obtain ⟨x, -, rfl⟩ := List.mem_map.mp hmem
  exact Nat.two_pow_pos _

theorem weightedItems_eq {cs : List (Compactor T)}
    (h : ∀ c ∈ cs, c.weight = .ok (2 ^ c.lgWeight)) :
    ReqSketch.weightedItems cs = .ok (pairs cs) := by
  induction cs with
  | nil => rfl
  | cons c cs ih =>
      rw [ReqSketch.weightedItems, h c List.mem_cons_self, ok_bind,
        ih fun c' hc' ↦ h c' (List.mem_cons_of_mem c hc'), ok_bind, pairs_cons]
      rfl

variable [ReqValue T] {S : UnstableSort}

instance transCmp_fst : Std.TransCmp fun a b : T × ℕ ↦ totalCmp a.1 b.1 where
  eq_swap := Std.OrientedCmp.eq_swap
  isLE_trans := Std.TransCmp.isLE_trans

theorem downClosed_below (item : T) (criteria : SearchCriteria) :
    DownClosed totalCmp (below item criteria) := by
  cases criteria with
  | inclusive => exact downClosed_isLE item
  | exclusive => exact downClosed_isLT item

/-! ## Sorted views -/

namespace SortedView

variable {view view' : SortedView T} {ps : List (T × ℕ)} {item : T} {weight : ℕ}

/-- The view of some weighted items. -/
structure ViewOf (ps : List (T × ℕ)) (view : SortedView T) : Prop where
  cumulative : Cumulative totalCmp ps view.items view.cumulativeWeights
  totalWeight_eq : view.totalWeight = Comparator.totalWeight ps

/-- An item above all others is pushed. -/
theorem push_spec (h : ViewOf ps view) (hle : ∀ q ∈ ps, (totalCmp q.1 item).isLE = true)
    (hroom : Comparator.totalWeight ps + weight < 2 ^ 64) :
    ∃ view', view.push item weight = .ok view' ∧ ViewOf (ps ++ [(item, weight)]) view' := by
  have hsum : Comparator.totalWeight (ps ++ [(item, weight)]) =
      Comparator.totalWeight ps + weight := by
    rw [totalWeight_append]
    rfl
  have hitems : ∀ a ∈ view.items, (totalCmp a item).isLE = true := by
    intro a ha
    obtain ⟨w, hw⟩ := h.cumulative.mem a ha
    exact hle _ hw
  rw [push, h.totalWeight_eq, checkedAdd_of_lt hroom, ok_bind]
  dsimp only
  cases hlast : view.items.getLast? with
  | none =>
      refine ⟨_, rfl, h.cumulative.push hle fun a ha ↦ ?_, hsum.symm⟩
      rw [List.getLast?_eq_none_iff.mp hlast] at ha
      cases ha
  | some last =>
      dsimp only
      split_ifs with heq
      · exact ⟨_, rfl, h.cumulative.absorb hle hlast heq, hsum.symm⟩
      · refine ⟨_, rfl, h.cumulative.push hle fun a ha ↦ ?_, hsum.symm⟩
        -- the last item is strictly below the new one
        have hlt : totalCmp last item = .lt := by
          have hlelast := hitems last (List.mem_of_getLast? hlast)
          cases hcmp : totalCmp last item with
          | lt => rfl
          | eq => exact absurd hcmp heq
          | gt =>
              rw [hcmp] at hlelast
              cases hlelast
        obtain ⟨i, hi⟩ := List.mem_iff_getElem?.mp ha
        have hbound := (List.getElem?_eq_some_iff.mp hi).1
        rw [List.getLast?_eq_getElem?] at hlast
        exact Std.TransCmp.lt_of_isLE_of_lt
          (h.cumulative.isLE_of_le (by omega : i ≤ view.items.length - 1) hi hlast) hlt

/-- The loop of `new` over the items that are left. -/
theorem run_push {qs : List (T × ℕ)} (h : ViewOf ps view)
    (hsorted : Sorted (fun a b : T × ℕ ↦ totalCmp a.1 b.1) (ps ++ qs))
    (hroom : Comparator.totalWeight (ps ++ qs) < 2 ^ 64) :
    ∃ view', run (fun view q ↦ view.push q.1 q.2) view qs = .ok view' ∧ ViewOf (ps ++ qs) view' := by
  induction qs generalizing ps view with
  | nil =>
      rw [List.append_nil]
      exact ⟨view, rfl, h⟩
  | cons q qs ih =>
      have hle : ∀ q' ∈ ps, (totalCmp q'.1 q.1).isLE = true :=
        fun q' hq' ↦ (List.pairwise_append.mp hsorted).2.2 q' hq' q List.mem_cons_self
      have hsplit : ps ++ q :: qs = (ps ++ [q]) ++ qs := by rw [List.append_assoc]; rfl
      rw [hsplit] at hsorted hroom ⊢
      have hroom' : Comparator.totalWeight ps + q.2 < 2 ^ 64 := by
        rw [totalWeight_append, totalWeight_append] at hroom
        exact (Nat.le_add_right _ _).trans_lt hroom
      obtain ⟨view₁, hok₁, h₁⟩ := push_spec h hle hroom'
      obtain ⟨view', hok, h'⟩ := ih h₁ hsorted hroom
      exact ⟨view', by rw [run_cons, hok₁, ok_bind, hok], h'⟩

/-- A view can be built if the weights add up to a `u64`. -/
theorem new_spec (hroom : Comparator.totalWeight ps < 2 ^ 64) :
    ∃ view, new S ps = .ok view ∧ ViewOf ps view := by
  rw [new]
  split_ifs with hempty
  · rw [List.isEmpty_iff.mp hempty]
    exact ⟨_, rfl, Cumulative.nil, rfl⟩
  · have hperm := S.perm (fun a b : T × ℕ ↦ totalCmp a.1 b.1) ps
    have hnil : ViewOf (T := T) [] ⟨[], [], 0⟩ := ⟨Cumulative.nil, rfl⟩
    obtain ⟨view, hok, hview⟩ := run_push hnil (S.sorted _ ps)
      (by rwa [List.nil_append, totalWeight_perm hperm])
    exact ⟨view, hok, hview.cumulative.perm hperm, hview.totalWeight_eq.trans (totalWeight_perm hperm)⟩

theorem getOrPanic_eq {α : Type} {xs : List α} {i : ℕ} {x : α} (h : xs[i]? = some x) :
    getOrPanic xs i = .ok x := by
  rw [getOrPanic, h]
  rfl

namespace ViewOf

variable {criteria : SearchCriteria} {r : ℚ}

theorem isEmpty_eq_false (h : ViewOf ps view) (hne : ps ≠ []) : view.isEmpty = false :=
  List.isEmpty_eq_false_iff.mpr (h.cumulative.ne_nil hne)

/-- The rank of an item is the weight of the items below it. -/
theorem rank_eq (h : ViewOf ps view) (hne : ps ≠ []) (hnan : isNan item = false) :
    view.rank item criteria =
      .ok (weightOf (below item criteria) ps / Comparator.totalWeight ps : ℚ) := by
  rw [rank, h.isEmpty_eq_false hne, if_neg Bool.false_ne_true]
  dsimp only
  rw [hnan, if_neg Bool.false_ne_true, ← h.cumulative.lookup_eq (downClosed_below item criteria), lookup, h.totalWeight_eq]
  split_ifs with hzero
  · rw [Nat.cast_zero, zero_div]
    rfl
  · have hle := partitionPoint_le (below item criteria) view.items
    have hlt : partitionPoint (below item criteria) view.items - 1 <
        view.cumulativeWeights.length := by
      rw [h.cumulative.length_eq]
      omega
    have hat := List.getElem?_eq_getElem hlt
    rw [getOrPanic_eq hat, ok_bind, List.getD_eq_getElem?_getD, hat, Option.getD_some]
    rfl

theorem first_eq (h : ViewOf ps view) (hne : ps ≠ []) : ∃ a, view.items[0]? = some a :=
  ⟨_, List.getElem?_eq_getElem (List.length_pos_iff.mpr (h.cumulative.ne_nil hne))⟩

theorem last_eq (h : ViewOf ps view) (hne : ps ≠ []) :
    ∃ a, view.items[view.items.length - 1]? = some a := by
  have hpos := List.length_pos_iff.mpr (h.cumulative.ne_nil hne)
  exact ⟨_, List.getElem?_eq_getElem (by omega)⟩

/-- What `quantile` gives away from the extreme ranks. -/
theorem quantile_of_index (h : ViewOf ps view) (hne : ps ≠ []) (h0 : 0 < r) (h1 : r < 1) {a : T}
    (ha : view.items[view.targetIndex r criteria]? = some a) : view.quantile r criteria = .ok a := by
  have hlt := (List.getElem?_eq_some_iff.mp ha).1
  rw [quantile, h.isEmpty_eq_false hne, if_neg Bool.false_ne_true,
    if_neg (not_not.mpr ⟨h0.le, h1.le⟩), if_neg (ne_of_gt h0), if_neg (ne_of_lt h1),
    if_neg (not_le.mpr hlt)]
  exact getOrPanic_eq ha

theorem quantile_zero (h : ViewOf ps view) (hne : ps ≠ []) {a : T}
    (ha : view.items[0]? = some a) : view.quantile 0 criteria = .ok a := by
  rw [quantile, h.isEmpty_eq_false hne, if_neg Bool.false_ne_true,
    if_neg (not_not.mpr ⟨le_rfl, zero_le_one⟩), if_pos rfl]
  exact getOrPanic_eq ha

theorem quantile_one (h : ViewOf ps view) (hne : ps ≠ []) {a : T}
    (ha : view.items[view.items.length - 1]? = some a) : view.quantile 1 criteria = .ok a := by
  rw [quantile, h.isEmpty_eq_false hne, if_neg Bool.false_ne_true,
    if_neg (not_not.mpr ⟨zero_le_one, le_rfl⟩), if_neg one_ne_zero, if_pos rfl]
  exact getOrPanic_eq ha

theorem mem_of_getElem? (h : ViewOf ps view) {i : ℕ} {a : T} (ha : view.items[i]? = some a) :
    ∃ w, (a, w) ∈ ps := h.cumulative.mem a (List.mem_of_getElem? ha)

theorem totalWeight_pos (hweights : ∀ q ∈ ps, 0 < q.2) (hne : ps ≠ []) :
    (0 : ℚ) < Comparator.totalWeight ps := by
  obtain ⟨q, hq⟩ := List.exists_mem_of_ne_nil ps hne
  exact Nat.cast_pos.mpr ((hweights q hq).trans_le
    (List.le_sum_of_mem (List.mem_map.mpr ⟨q, hq, rfl⟩)))

/-- An inclusive quantile is the least item whose weight reaches the rank. -/
theorem quantile_inclusive (h : ViewOf ps view) (hweights : ∀ q ∈ ps, 0 < q.2) (hne : ps ≠ [])
    (h0 : 0 ≤ r) (h1 : r ≤ 1) :
    ∃ a, view.quantile r .inclusive = .ok a ∧ (∃ w, (a, w) ∈ ps) ∧
      r * Comparator.totalWeight ps ≤ weightOf (below a .inclusive) ps ∧
        ∀ b, ((∃ w, (b, w) ∈ ps) ∨ 0 < r) →
          r * Comparator.totalWeight ps ≤ weightOf (below b .inclusive) ps → AtMost a b := by
  rcases h0.eq_or_lt with rfl | hpos
  · obtain ⟨a, ha⟩ := h.first_eq hne
    refine ⟨a, h.quantile_zero hne ha, h.mem_of_getElem? ha, ?_, fun b hb _ ↦ ?_⟩
    · rw [zero_mul]
      exact Nat.cast_nonneg _
    · rcases hb with ⟨w, hw⟩ | hlt
      · exact h.cumulative.first_isLE ha hw
      · exact absurd hlt (lt_irrefl 0)
  · rcases h1.eq_or_lt with rfl | hlt
    · obtain ⟨a, ha⟩ := h.last_eq hne
      obtain ⟨w, hw⟩ := h.mem_of_getElem? ha
      refine ⟨a, h.quantile_one hne ha, ⟨w, hw⟩, ?_, fun b _ hb ↦ ?_⟩
      · rw [one_mul, Nat.cast_le]
        exact (h.cumulative.last_sum ha).ge
      · rw [one_mul, Nat.cast_le] at hb
        by_contra hab
        exact absurd (weightOf_lt_totalWeight (p := below b .inclusive) hw
          (Bool.eq_false_iff.mpr hab) (hweights _ hw)) (not_lt.mpr hb)
    · have htotal := totalWeight_pos hweights hne
      have hceil : ∀ m : ℕ, ⌈r * Comparator.totalWeight ps⌉.toNat ≤ m ↔
          r * Comparator.totalWeight ps ≤ m := by
        intro m
        rw [Int.ceil_toNat, Nat.ceil_le]
      obtain ⟨a, ha, hreach, hleast⟩ := h.cumulative.least_of_weight
        ⌈r * Comparator.totalWeight ps⌉.toNat
        (by rw [Int.ceil_toNat, Nat.ceil_pos]; exact mul_pos hpos htotal)
        ((hceil _).mpr (mul_le_of_le_one_left htotal.le h1))
      refine ⟨a, h.quantile_of_index hne hpos hlt
        (by rw [targetIndex, h.totalWeight_eq]; exact ha), h.mem_of_getElem? ha,
        (hceil _).mp hreach, fun b _ hb ↦ ?_⟩
      exact hleast b ((hceil _).mpr hb)

/-- An exclusive quantile is the greatest item whose weight does not exceed the rank. -/
theorem quantile_exclusive (h : ViewOf ps view) (hweights : ∀ q ∈ ps, 0 < q.2) (hne : ps ≠ [])
    (h0 : 0 ≤ r) (h1 : r ≤ 1) :
    ∃ a, view.quantile r .exclusive = .ok a ∧ (∃ w, (a, w) ∈ ps) ∧
      weightOf (below a .exclusive) ps ≤ r * Comparator.totalWeight ps ∧
        ∀ b, (∃ w, (b, w) ∈ ps) →
          weightOf (below b .exclusive) ps ≤ r * Comparator.totalWeight ps → AtMost b a := by
  rcases h0.eq_or_lt with rfl | hpos
  · obtain ⟨a, ha⟩ := h.first_eq hne
    obtain ⟨w, hw⟩ := h.mem_of_getElem? ha
    refine ⟨a, h.quantile_zero hne ha, ⟨w, hw⟩, ?_, ?_⟩
    · rw [zero_mul, weightOf_of_none, Nat.cast_zero]
      intro q hq
      have hle := h.cumulative.first_isLE ha hq
      rw [below]
      dsimp only
      rw [@Std.OrientedCmp.eq_swap _ totalCmp _ q.1 a]
      cases hcmp : totalCmp a q.1 with
      | lt => rfl
      | eq => rfl
      | gt =>
          rw [hcmp] at hle
          cases hle
    · rintro b ⟨v, hv⟩ hb
      rw [zero_mul, ← Nat.cast_zero, Nat.cast_le] at hb
      by_contra hba
      refine absurd (weightOf_pos (p := below b .exclusive) hw ?_ (hweights _ hw)) (not_lt.mpr hb)
      rw [below]
      dsimp only
      rw [@Std.OrientedCmp.eq_swap _ totalCmp _ a b]
      rw [AtMost] at hba
      cases hcmp : totalCmp b a with
      | lt => exact absurd (by rw [hcmp]; rfl) hba
      | eq => exact absurd (by rw [hcmp]; rfl) hba
      | gt => rfl
  · rcases h1.eq_or_lt with rfl | hlt
    · obtain ⟨a, ha⟩ := h.last_eq hne
      refine ⟨a, h.quantile_one hne ha, h.mem_of_getElem? ha, ?_, fun b hb _ ↦ ?_⟩
      · rw [one_mul, Nat.cast_le]
        exact weightOf_le_totalWeight _ ps
      · obtain ⟨w, hw⟩ := hb
        exact h.cumulative.isLE_last ha hw
    · have htotal := totalWeight_pos hweights hne
      have hnonneg : 0 ≤ r * Comparator.totalWeight ps := mul_nonneg h0 htotal.le
      have hfloor : ∀ m : ℕ, m ≤ ⌊r * Comparator.totalWeight ps⌋.toNat ↔
          m ≤ r * Comparator.totalWeight ps := by
        intro m
        rw [Int.floor_toNat, Nat.le_floor_iff hnonneg]
      obtain ⟨a, ha, hreach, hgreatest⟩ := h.cumulative.greatest_of_weight
        ⌊r * Comparator.totalWeight ps⌋.toNat (by
          rw [Int.floor_toNat, Nat.floor_lt hnonneg]
          exact mul_lt_of_lt_one_left htotal hlt)
      refine ⟨a, h.quantile_of_index hne hpos hlt
        (by rw [targetIndex, h.totalWeight_eq]; exact ha), h.mem_of_getElem? ha,
        (hfloor _).mp hreach, fun b _ hb ↦ ?_⟩
      exact hgreatest b ((hfloor _).mpr hb)

/-! ### Distributions -/

/-- The rank of an item among weighted items. -/
def rankIn (ps : List (T × ℕ)) (criteria : SearchCriteria) (item : T) : ℚ :=
  weightOf (below item criteria) ps / Comparator.totalWeight ps

theorem rankIn_nonneg (ps : List (T × ℕ)) (criteria : SearchCriteria) (item : T) :
    0 ≤ rankIn ps criteria item := div_nonneg (Nat.cast_nonneg _) (Nat.cast_nonneg _)

theorem rankIn_le_one (ps : List (T × ℕ)) (criteria : SearchCriteria) (item : T) :
    rankIn ps criteria item ≤ 1 :=
  div_le_one_of_le₀ (Nat.cast_le.mpr (weightOf_le_totalWeight _ ps)) (Nat.cast_nonneg _)

theorem rankIn_mono (ps : List (T × ℕ)) (criteria : SearchCriteria) {x y : T} (h : AtMost x y) :
    rankIn ps criteria x ≤ rankIn ps criteria y := by
  refine div_le_div_of_nonneg_right (Nat.cast_le.mpr (weightOf_le_of_imp fun q _ hq ↦ ?_))
    (Nat.cast_nonneg _)
  cases criteria with
  | inclusive => exact Std.TransCmp.isLE_trans hq h
  | exclusive =>
      rw [below, Ordering.isLT_iff_eq_lt] at hq ⊢
      exact Std.TransCmp.lt_of_lt_of_isLE hq h

theorem validateSplitPoints_ok {splitPoints : List T}
    (h : splitPoints.IsChain fun x y ↦ totalCmp x y = .lt) :
    validateSplitPoints splitPoints = .ok () := by
  induction splitPoints with
  | nil => rfl
  | cons x xs ih =>
      cases xs with
      | nil => rfl
      | cons y ys =>
          obtain ⟨hlt, hrest⟩ := List.isChain_cons_cons.mp h
          rw [validateSplitPoints, hlt, if_neg (by decide)]
          exact ih hrest

theorem masses_eq (h : ViewOf ps view) (hne : ps ≠ []) {splitPoints : List T} (prev : ℚ)
    (hnan : ∀ x ∈ splitPoints, isNan x = false) :
    view.masses criteria prev splitPoints =
      .ok (differences prev (splitPoints.map (rankIn ps criteria) ++ [1])) := by
  induction splitPoints generalizing prev with
  | nil => rfl
  | cons x xs ih =>
      rw [masses, h.rank_eq hne (hnan x List.mem_cons_self), ok_bind,
        ih _ fun y hy ↦ hnan y (List.mem_cons_of_mem x hy), ok_bind]
      rfl

/-- The values of `pmf` are the differences of ranks, and those of `cdf` the ranks. -/
theorem pmf_cdf_eq (h : ViewOf ps view) (criteria : SearchCriteria) (hne : ps ≠ [])
    {splitPoints : List T}
    (hchain : splitPoints.IsChain fun x y ↦ totalCmp x y = .lt)
    (hnan : ∀ x ∈ splitPoints, isNan x = false) :
    view.pmf splitPoints criteria =
        .ok (differences 0 (splitPoints.map (rankIn ps criteria) ++ [1])) ∧
      view.cdf splitPoints criteria = .ok (splitPoints.map (rankIn ps criteria) ++ [1]) := by
  have hpmf : view.pmf splitPoints criteria =
      .ok (differences 0 (splitPoints.map (rankIn ps criteria) ++ [1])) := by
    rw [pmf, h.isEmpty_eq_false hne, if_neg Bool.false_ne_true, validateSplitPoints_ok hchain,
      ok_bind, h.masses_eq hne 0 hnan]
  refine ⟨hpmf, ?_⟩
  rw [cdf, h.isEmpty_eq_false hne, if_neg Bool.false_ne_true, validateSplitPoints_ok hchain, ok_bind,
    hpmf, ok_bind, partialSums_differences]
  rfl

/-- Ranks of ascending split points ascend from 0 to 1. -/
theorem isChain_ranks (ps : List (T × ℕ)) (criteria : SearchCriteria) {splitPoints : List T}
    (hchain : splitPoints.IsChain fun x y ↦ totalCmp x y = .lt) {prev : ℚ} (hprev : prev ≤ 1)
    (hfirst : ∀ x ∈ splitPoints.head?, prev ≤ rankIn ps criteria x) :
    (prev :: (splitPoints.map (rankIn ps criteria) ++ [1])).IsChain (· ≤ ·) := by
  induction splitPoints generalizing prev with
  | nil => exact List.isChain_pair.mpr hprev
  | cons x xs ih =>
      rw [List.map_cons, List.cons_append, List.isChain_cons_cons]
      refine ⟨hfirst x rfl, ih hchain.tail (rankIn_le_one ps criteria x) fun y hy ↦ ?_⟩
      cases xs with
      | nil => cases hy
      | cons z zs =>
          obtain rfl := Option.some.inj hy
          refine rankIn_mono ps criteria ?_
          rw [AtMost, (List.isChain_cons_cons.mp hchain).1]
          rfl

end ViewOf

end SortedView

/-! ## Queries of sketches -/

theorem countBelow_eq {level : ℕ} {rankAccuracy : RankAccuracy} {c : Compactor T}
    (h : c.Inv level rankAccuracy) (item : T) (criteria : SearchCriteria) :
    c.countBelow item (criteria == .inclusive) = c.items.countP (below item criteria) := by
  have hbelow : (fun x ↦ if (criteria == .inclusive) = true then (totalCmp x item).isLE
      else (totalCmp x item).isLT) = below item criteria := by
    cases criteria <;> rfl
  rw [Compactor.countBelow, hbelow]
  split_ifs with hsorted
  · exact partitionPoint_eq_countP (h.sorted hsorted) (downClosed_below item criteria)
  · rfl

namespace ReqSketch

variable {s : ReqSketch T} {xs : List T} {criteria : SearchCriteria} {item : T}

theorem Inv.pairs_ne_nil (h : Inv s xs) (hne : xs ≠ []) : pairs s.compactors ≠ [] := by
  intro hnil
  have hweight := totalWeight_pairs s.compactors
  rw [hnil, h.levels.weight_eq] at hweight
  exact hne (List.length_eq_zero_iff.mp hweight.symm)

theorem Inv.totalWeight_eq (h : Inv s xs) : totalWeight (pairs s.compactors) = s.n := by
  rw [totalWeight_pairs, h.levels.weight_eq, h.n_eq]

theorem Inv.weight_eq (h : Inv s xs) {c : Compactor T} (hc : c ∈ s.compactors) :
    c.weight = .ok (2 ^ c.lgWeight) := by
  obtain ⟨i, hi⟩ := List.mem_iff_getElem?.mp hc
  rw [h.weight_ok hi, (h.levels.inv i c hi).lgWeight_eq]

theorem levelWeight_eq {level : ℕ} {rankAccuracy : RankAccuracy} {c : Compactor T}
    (h : c.Inv level rankAccuracy) (hweight : c.weight = .ok (2 ^ c.lgWeight))
    (hroom : c.items.countP (below item criteria) * 2 ^ c.lgWeight < 2 ^ 64) :
    levelWeight item criteria c = .ok (c.items.countP (below item criteria) * 2 ^ c.lgWeight) := by
  rw [levelWeight, hweight, ok_bind, countBelow_eq h, checkedMul_of_lt hroom]

/-- The weights that `rank` adds up. -/
theorem mapM_levelWeight {cs : List (Compactor T)}
    (hweight : ∀ c ∈ cs, c.weight = .ok (2 ^ c.lgWeight))
    (hinv : ∀ c ∈ cs, ∃ level rankAccuracy, c.Inv level rankAccuracy)
    (hroom : weightOf (below item criteria) (pairs cs) < 2 ^ 64) :
    cs.mapM (levelWeight item criteria) =
      .ok (cs.map fun c ↦ c.items.countP (below item criteria) * 2 ^ c.lgWeight) := by
  induction cs with
  | nil => rfl
  | cons c cs ih =>
      obtain ⟨level, rankAccuracy, hc⟩ := hinv c List.mem_cons_self
      rw [pairs_cons, weightOf_append, weightOf_map] at hroom
      have hrest := ih (fun d hd ↦ hweight d (List.mem_cons_of_mem c hd))
        (fun d hd ↦ hinv d (List.mem_cons_of_mem c hd)) ((Nat.le_add_left _ _).trans_lt hroom)
      rw [List.mapM_cons, levelWeight_eq hc (hweight c List.mem_cons_self)
        ((Nat.le_add_right _ _).trans_lt hroom), ok_bind, hrest, ok_bind]
      rfl

theorem Inv.weightBelow_eq (h : Inv s xs) (item : T) (criteria : SearchCriteria) :
    s.weightBelow item criteria = .ok (weightOf (below item criteria) (pairs s.compactors)) := by
  have hroom : weightOf (below item criteria) (pairs s.compactors) < 2 ^ 64 :=
    (weightOf_le_totalWeight _ _).trans_lt (h.totalWeight_eq ▸ h.n_lt)
  have hinv : ∀ c ∈ s.compactors, ∃ level rankAccuracy, c.Inv level rankAccuracy := by
    intro c hc
    obtain ⟨i, hi⟩ := List.mem_iff_getElem?.mp hc
    exact ⟨i, _, h.levels.inv i c hi⟩
  rw [weightBelow, mapM_levelWeight (fun c hc ↦ h.weight_eq hc) hinv hroom, ok_bind, weightOf_pairs]
  rw [weightOf_pairs] at hroom
  exact checkedSum_of_lt hroom

theorem Inv.isEmpty_eq_false (h : Inv s xs) (hne : xs ≠ []) : s.isEmpty = false :=
  Bool.eq_false_iff.mpr fun hempty ↦ hne (h.isEmpty_iff.mp hempty)

theorem Inv.rank_eq (h : Inv s xs) (criteria : SearchCriteria) (hne : xs ≠ [])
    (hnan : isNan item = false) :
    s.rank item criteria = .ok (SortedView.ViewOf.rankIn (pairs s.compactors) criteria item) := by
  rw [rank, h.isEmpty_eq_false hne, if_neg Bool.false_ne_true, hnan, if_neg Bool.false_ne_true,
    h.weightBelow_eq, ok_mapError, ok_bind, SortedView.ViewOf.rankIn, h.totalWeight_eq]
  rfl

theorem Inv.sortedView_eq (h : Inv s xs) :
    ∃ view, s.sortedView S = .ok view ∧ SortedView.ViewOf (pairs s.compactors) view := by
  rw [sortedView, weightedItems_eq fun c hc ↦ h.weight_eq hc, ok_bind]
  exact SortedView.new_spec (h.totalWeight_eq ▸ h.n_lt)

end ReqSketch

end Req

end DataSketches
