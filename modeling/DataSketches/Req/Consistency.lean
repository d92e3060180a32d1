import DataSketches.Req.Iter
import DataSketches.Req.Primitive

/-!
# Ranks and quantiles agree

In every run, the three ways to find the weight below an item agree, and quantiles
invert ranks.
-/

namespace DataSketches

namespace Req

open Comparator Differences Runs ReqValue

namespace ReqSketch

variable {T : Type} [ReqValue T] {S : UnstableSort} {s : ReqSketch T} {xs : List T}

/-- An item is retained at some level. -/
def Retained (s : ReqSketch T) (x : T) : Prop := ∃ c ∈ s.compactors, x ∈ c.items

theorem retained_iff {x : T} : s.Retained x ↔ ∃ w, (x, w) ∈ pairs s.compactors := by
  constructor
  · rintro ⟨c, hc, hx⟩
    exact ⟨2 ^ c.lgWeight, List.mem_flatMap.mpr ⟨c, hc, List.mem_map.mpr ⟨x, hx, rfl⟩⟩⟩
  · rintro ⟨w, hw⟩
    obtain ⟨c, hc, hmem⟩ := List.mem_flatMap.mp hw
    obtain ⟨y, hy, heq⟩ := List.mem_map.mp hmem
    obtain rfl : y = x := congrArg Prod.fst heq
    exact ⟨c, hc, hy⟩

/-- The iterator gives the items of all levels. -/
theorem Inv.iter_eq (h : Inv s xs) :
    ∃ it, s.iter = .ok it ∧ ∀ fuel, (pairs s.compactors).length < fuel →
      it.collect fuel = .ok (pairs s.compactors) := by
  have hweight : ∀ c ∈ s.compactors, c.weight = .ok (2 ^ c.lgWeight) := fun c hc ↦ h.weight_eq hc
  obtain ⟨it, hok, hcompactors, hpending, -, -⟩ :=
    ReqSketchIterator.advanceToNextLevel_spec ⟨s.compactors, 0, none, 0⟩ hweight
  rw [List.drop_zero] at hpending
  refine ⟨it, hok, fun fuel hfuel ↦ ?_⟩
  rw [← hpending] at hfuel ⊢
  exact ReqSketchIterator.collect_spec (hcompactors ▸ hweight) hfuel

/-- In every run, `rank` adds up the weights of the items of the iterator that are below the item,
the sorted view of the sketch looks up the same weight, and the view weighs as much as the items
seen. -/
theorem ranks_agree (h : Reached S s xs) :
    ∃ view it retained, s.sortedView S = .ok view ∧ s.iter = .ok it ∧
      (∀ fuel, retained.length < fuel → it.collect fuel = .ok retained) ∧ view.totalWeight = s.n ∧
        ∀ item criteria,
          s.weightBelow item criteria = .ok (weightOf (below item criteria) retained) ∧
          lookup (below item criteria) view.items view.cumulativeWeights =
            weightOf (below item criteria) retained ∧
          view.rank item criteria = s.rank item criteria := by
  have hinv := h.inv
  obtain ⟨view, hview, hviewOf⟩ := hinv.sortedView_eq (S := S)
  obtain ⟨it, hit, hcollect⟩ := hinv.iter_eq
  refine ⟨view, it, pairs s.compactors, hview, hit, hcollect,
    hviewOf.totalWeight_eq.trans hinv.totalWeight_eq, fun item criteria ↦
      ⟨hinv.weightBelow_eq item criteria,
        hviewOf.cumulative.lookup_eq (downClosed_below item criteria), ?_⟩⟩
  rcases eq_or_ne xs [] with rfl | hne
  · have hpairs : pairs s.compactors = [] := by
      have hweight := totalWeight_pairs s.compactors
      rw [hinv.levels.weight_eq, List.length_nil] at hweight
      rw [List.eq_nil_iff_forall_not_mem]
      intro q hq
      have hle : q.2 ≤ totalWeight (pairs s.compactors) :=
        List.le_sum_of_mem (List.mem_map.mpr ⟨q, hq, rfl⟩)
      have hpos := pairs_weight_pos s.compactors q hq
      omega
    have hitems : view.isEmpty = true := by
      rw [SortedView.isEmpty, List.isEmpty_iff, List.eq_nil_iff_forall_not_mem]
      intro a ha
      obtain ⟨w, hw⟩ := hviewOf.cumulative.mem a ha
      rw [hpairs] at hw
      cases hw
    rw [SortedView.rank, hitems, if_pos rfl, rank, hinv.isEmpty_iff.mpr rfl, if_pos rfl]
    rfl
  · cases hnan : isNan item with
    | true =>
        rw [SortedView.rank, hviewOf.isEmpty_eq_false (hinv.pairs_ne_nil hne),
          if_neg Bool.false_ne_true, hnan, if_pos rfl, rank, hinv.isEmpty_eq_false hne,
          if_neg Bool.false_ne_true, hnan, if_pos rfl]
        rfl
    | false =>
        rw [hviewOf.rank_eq (hinv.pairs_ne_nil hne) hnan, hinv.rank_eq criteria hne hnan]
        rfl

theorem ranks_agree_pair : ∃ s : ReqSketch UInt32, Reached insertionSort s [7, 3] ∧
    ∃ view, s.sortedView insertionSort = .ok view ∧ view.totalWeight = s.n := by
  obtain ⟨s, hs'⟩ := exists_streamed (S := insertionSort) ([7, 3] : List UInt32) (by decide)
    fun _ _ ↦ rfl
  have hs := hs'.reached
  obtain ⟨view, -, -, hok, -, -, htotal, -⟩ := ranks_agree hs
  exact ⟨s, hs, view, hok, htotal⟩

/-! ## Quantiles -/

/-- The least retained item whose inclusive rank is at least `r`. -/
structure LeastAbove (s : ReqSketch T) (r : ℚ) (q : T) : Prop where
  retained : s.Retained q
  rank_ge : ∃ ρ, s.rank q .inclusive = .ok ρ ∧ r ≤ ρ
  least : ∀ x ρ, s.Retained x → s.rank x .inclusive = .ok ρ → r ≤ ρ → AtMost q x

/-- The greatest retained item whose exclusive rank is at most `r`. -/
structure GreatestBelow (s : ReqSketch T) (r : ℚ) (q : T) : Prop where
  retained : s.Retained q
  rank_le : ∃ ρ, s.rank q .exclusive = .ok ρ ∧ ρ ≤ r
  greatest : ∀ x ρ, s.Retained x → s.rank x .exclusive = .ok ρ → ρ ≤ r → AtMost x q

/-- What quantiles, ranks and distributions have to do with each other. -/
structure QuantilesInvertRanks (S : UnstableSort) (s : ReqSketch T) : Prop where
  inclusive : ∀ r : ℚ, 0 ≤ r → r ≤ 1 → ∃ q, s.quantile S r .inclusive = .ok q ∧ s.LeastAbove r q
  exclusive : ∀ r : ℚ, 0 ≤ r → r ≤ 1 → ∃ q, s.quantile S r .exclusive = .ok q ∧ s.GreatestBelow r q
  galois : ∀ (r : ℚ) q x, 0 < r → s.quantile S r .inclusive = .ok q → isNan x = false →
    ∃ ρ, s.rank x .inclusive = .ok ρ ∧ (AtMost q x ↔ r ≤ ρ)
  quantile_mono : ∀ criteria (r r' : ℚ) q q', r ≤ r' → s.quantile S r criteria = .ok q →
    s.quantile S r' criteria = .ok q' → AtMost q q'
  rank_mono : ∀ criteria x y ρ ρ', AtMost x y → s.rank x criteria = .ok ρ →
    s.rank y criteria = .ok ρ' → ρ ≤ ρ'
  distribution : ∀ criteria splitPoints, (splitPoints.IsChain fun x y ↦ totalCmp x y = .lt) →
    (∀ x ∈ splitPoints, isNan x = false) →
      ∃ ranks masses, splitPoints.mapM (s.rank · criteria) = .ok ranks ∧
        s.cdf S splitPoints criteria = .ok (ranks ++ [1]) ∧
        s.pmf S splitPoints criteria = .ok masses ∧ (∀ m ∈ masses, 0 ≤ m) ∧ masses.sum = 1

section Nonempty

variable {r : ℚ} {q x : T} {criteria : SearchCriteria}

theorem Inv.not_nan (h : Inv s xs) (hx : s.Retained x) : isNan x = false := by
  obtain ⟨c, hc, hmem⟩ := hx
  exact h.notNan x (h.levels.mem hc hmem)

theorem quantile_bounds (h : s.quantile S r criteria = .ok q) : 0 ≤ r ∧ r ≤ 1 := by
  by_contra hbad
  rw [quantile] at h
  split_ifs at h
  · cases h
  · cases h

theorem rank_not_nan {ρ : ℚ} (hinv : Inv s xs) (hne : xs ≠ []) (h : s.rank x criteria = .ok ρ) :
    isNan x = false := by
  rw [rank, hinv.isEmpty_eq_false hne, if_neg Bool.false_ne_true] at h
  cases hnan : isNan x with
  | true =>
      rw [hnan, if_pos rfl] at h
      cases h
  | false => rfl

/-- The rank that a weight stands for. -/
theorem Inv.le_rankIn_iff (h : Inv s xs) (hne : xs ≠ []) :
    r ≤ SortedView.ViewOf.rankIn (pairs s.compactors) criteria x ↔
      r * totalWeight (pairs s.compactors) ≤ weightOf (below x criteria) (pairs s.compactors) :=
  le_div_iff₀ (SortedView.ViewOf.totalWeight_pos (pairs_weight_pos _) (h.pairs_ne_nil hne))

theorem Inv.rankIn_le_iff (h : Inv s xs) (hne : xs ≠ []) :
    SortedView.ViewOf.rankIn (pairs s.compactors) criteria x ≤ r ↔
      weightOf (below x criteria) (pairs s.compactors) ≤ r * totalWeight (pairs s.compactors) :=
  div_le_iff₀ (SortedView.ViewOf.totalWeight_pos (pairs_weight_pos _) (h.pairs_ne_nil hne))

/-- A quantile of the sketch is one of its view. -/
theorem Inv.quantile_eq (h : Inv s xs) (criteria : SearchCriteria) (hne : xs ≠ []) (h0 : 0 ≤ r)
    (h1 : r ≤ 1) :
    ∃ view, SortedView.ViewOf (pairs s.compactors) view ∧
      s.quantile S r criteria = view.quantile r criteria := by
  obtain ⟨view, hok, hview⟩ := h.sortedView_eq (S := S)
  refine ⟨view, hview, ?_⟩
  rw [quantile, h.isEmpty_eq_false hne, if_neg Bool.false_ne_true, if_neg (not_not.mpr ⟨h0, h1⟩), hok,
    ok_mapError, ok_bind]

theorem Inv.quantile_inclusive (h : Inv s xs) (hne : xs ≠ []) (h0 : 0 ≤ r) (h1 : r ≤ 1) :
    ∃ q, s.quantile S r .inclusive = .ok q ∧ s.LeastAbove r q ∧
      (0 < r → ∀ x, isNan x = false → ∃ ρ, s.rank x .inclusive = .ok ρ ∧ (AtMost q x ↔ r ≤ ρ)) := by
  obtain ⟨view, hview, heq⟩ := h.quantile_eq (S := S) .inclusive hne h0 h1
  obtain ⟨q, hok, hmem, hreach, hleast⟩ :=
    hview.quantile_inclusive (pairs_weight_pos _) (h.pairs_ne_nil hne) h0 h1
  have hq : s.Retained q := retained_iff.mpr hmem
  have hrank := h.rank_eq .inclusive hne (h.not_nan hq)
  refine ⟨q, heq.trans hok, ⟨hq, ⟨_, hrank, (h.le_rankIn_iff hne).mpr hreach⟩, ?_⟩, ?_⟩
  · intro x ρ hx hxrank hle
    rw [h.rank_eq _ hne (h.not_nan hx)] at hxrank
    rw [← Except.ok.inj hxrank] at hle
    exact hleast x (.inl (retained_iff.mp hx)) ((h.le_rankIn_iff hne).mp hle)
  · intro hpos x hnan
    refine ⟨_, h.rank_eq _ hne hnan, fun hqx ↦ ?_, fun hle ↦ ?_⟩
    · exact ((h.le_rankIn_iff hne).mpr hreach).trans (SortedView.ViewOf.rankIn_mono _ _ hqx)
    · exact hleast x (.inr hpos) ((h.le_rankIn_iff hne).mp hle)

theorem Inv.quantile_exclusive (h : Inv s xs) (hne : xs ≠ []) (h0 : 0 ≤ r) (h1 : r ≤ 1) :
    ∃ q, s.quantile S r .exclusive = .ok q ∧ s.GreatestBelow r q := by
  obtain ⟨view, hview, heq⟩ := h.quantile_eq (S := S) .exclusive hne h0 h1
  obtain ⟨q, hok, hmem, hreach, hgreatest⟩ :=
    hview.quantile_exclusive (pairs_weight_pos _) (h.pairs_ne_nil hne) h0 h1
  have hq : s.Retained q := retained_iff.mpr hmem
  have hrank := h.rank_eq .exclusive hne (h.not_nan hq)
  refine ⟨q, heq.trans hok, ⟨hq, ⟨_, hrank, (h.rankIn_le_iff hne).mpr hreach⟩, ?_⟩⟩
  intro x ρ hx hxrank hle
  rw [h.rank_eq _ hne (h.not_nan hx)] at hxrank
  rw [← Except.ok.inj hxrank] at hle
  exact hgreatest x (retained_iff.mp hx) ((h.rankIn_le_iff hne).mp hle)

theorem Inv.quantile_mono (h : Inv s xs) (hne : xs ≠ []) {r' : ℚ} {q' : T} (hle : r ≤ r')
    (hq : s.quantile S r criteria = .ok q) (hq' : s.quantile S r' criteria = .ok q') :
    AtMost q q' := by
  obtain ⟨h0, h1⟩ := quantile_bounds hq
  obtain ⟨h0', h1'⟩ := quantile_bounds hq'
  cases criteria with
  | inclusive =>
      obtain ⟨p, hok, hp, -⟩ := h.quantile_inclusive (S := S) hne h0 h1
      obtain ⟨p', hok', hp', -⟩ := h.quantile_inclusive (S := S) hne h0' h1'
      rw [← Except.ok.inj (hok.symm.trans hq), ← Except.ok.inj (hok'.symm.trans hq')]
      obtain ⟨ρ, hrank, hρ⟩ := hp'.rank_ge
      exact hp.least p' ρ hp'.retained hrank (hle.trans hρ)
  | exclusive =>
      obtain ⟨p, hok, hp⟩ := h.quantile_exclusive (S := S) hne h0 h1
      obtain ⟨p', hok', hp'⟩ := h.quantile_exclusive (S := S) hne h0' h1'
      rw [← Except.ok.inj (hok.symm.trans hq), ← Except.ok.inj (hok'.symm.trans hq')]
      obtain ⟨ρ, hrank, hρ⟩ := hp.rank_le
      exact hp'.greatest p ρ hp.retained hrank (hρ.trans hle)

theorem Inv.mapM_rank (h : Inv s xs) (hne : xs ≠ []) {splitPoints : List T}
    (hnan : ∀ x ∈ splitPoints, isNan x = false) :
    splitPoints.mapM (s.rank · criteria) =
      .ok (splitPoints.map (SortedView.ViewOf.rankIn (pairs s.compactors) criteria)) := by
  induction splitPoints with
  | nil => rfl
  | cons x splitPoints ih =>
      rw [List.mapM_cons, h.rank_eq _ hne (hnan x List.mem_cons_self), ok_bind,
        ih fun y hy ↦ hnan y (List.mem_cons_of_mem x hy), ok_bind]
      rfl

theorem Inv.distribution (h : Inv s xs) (hne : xs ≠ []) {splitPoints : List T}
    (hchain : splitPoints.IsChain fun x y ↦ totalCmp x y = .lt)
    (hnan : ∀ x ∈ splitPoints, isNan x = false) :
    ∃ ranks masses, splitPoints.mapM (s.rank · criteria) = .ok ranks ∧
      s.cdf S splitPoints criteria = .ok (ranks ++ [1]) ∧
      s.pmf S splitPoints criteria = .ok masses ∧ (∀ m ∈ masses, 0 ≤ m) ∧ masses.sum = 1 := by
  obtain ⟨view, hok, hview⟩ := h.sortedView_eq (S := S)
  obtain ⟨hpmf, hcdf⟩ :=
    hview.pmf_cdf_eq criteria (h.pairs_ne_nil hne) hchain hnan
  refine ⟨_, differences 0 (splitPoints.map
    (SortedView.ViewOf.rankIn (pairs s.compactors) criteria) ++ [1]), h.mapM_rank hne hnan, ?_, ?_, ?_,
      ?_⟩
  · rw [cdf, h.isEmpty_eq_false hne, if_neg Bool.false_ne_true, hok, ok_mapError, ok_bind, hcdf]
  · rw [pmf, h.isEmpty_eq_false hne, if_neg Bool.false_ne_true, hok, ok_mapError, ok_bind, hpmf]
  · exact differences_nonneg (SortedView.ViewOf.isChain_ranks _ criteria hchain zero_le_one
      fun x _ ↦ SortedView.ViewOf.rankIn_nonneg _ criteria x)
  · rw [sum_differences, List.getLast_cons (List.append_ne_nil_of_right_ne_nil _
      (List.cons_ne_nil 1 [])), List.getLast_append_of_ne_nil _ (List.cons_ne_nil 1 []),
      List.getLast_singleton, sub_zero]

end Nonempty

/-- In every run of a sketch that has seen an item, an inclusive quantile is the least retained item
whose rank reaches the one asked for, an exclusive one the greatest whose rank does not exceed it;
quantiles and ranks ascend, and distributions are made of ranks. -/
theorem quantiles_invert_ranks (h : Reached S s xs) (hne : xs ≠ []) : QuantilesInvertRanks S s where
  inclusive r h0 h1 := by
    obtain ⟨q, hok, hq, -⟩ := h.inv.quantile_inclusive (S := S) hne h0 h1
    exact ⟨q, hok, hq⟩
  exclusive r h0 h1 := h.inv.quantile_exclusive hne h0 h1
  galois r q x hpos hq hnan := by
    obtain ⟨h0, h1⟩ := quantile_bounds hq
    obtain ⟨p, hok, -, hgalois⟩ := h.inv.quantile_inclusive (S := S) hne h0 h1
    rw [← Except.ok.inj (hok.symm.trans hq)]
    exact hgalois hpos x hnan
  quantile_mono criteria r r' q q' hle hq hq' := h.inv.quantile_mono hne hle hq hq'
  rank_mono criteria x y ρ ρ' hle hx hy := by
    rw [h.inv.rank_eq _ hne (rank_not_nan h.inv hne hx)] at hx
    rw [h.inv.rank_eq _ hne (rank_not_nan h.inv hne hy)] at hy
    rw [← Except.ok.inj hx, ← Except.ok.inj hy]
    exact SortedView.ViewOf.rankIn_mono _ criteria hle
  distribution criteria splitPoints hchain hnan := h.inv.distribution hne hchain hnan

theorem quantiles_invert_ranks_pair : ∃ s : ReqSketch UInt32, Reached insertionSort s [7, 3] ∧
    QuantilesInvertRanks insertionSort s := by
  obtain ⟨s, hs'⟩ := exists_streamed (S := insertionSort) ([7, 3] : List UInt32) (by decide)
    fun _ _ ↦ rfl
  have hs := hs'.reached
  exact ⟨s, hs, quantiles_invert_ranks hs (List.cons_ne_nil 7 [3])⟩

end ReqSketch

end Req

end DataSketches
