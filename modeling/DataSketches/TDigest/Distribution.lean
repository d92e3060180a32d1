import DataSketches.Lib.Differences
import DataSketches.TDigest.Tails

/-!
# Distributions

The ranks of split points and the differences of these ranks.  The check of the split
points subtracts one from their number first, so there has to be one.
-/

namespace DataSketches

open Runs FloatFormat StableSort Differences

/-- Split points are unique, monotonically increasing and not NaN. -/
def LegalSplitPoints {M : Type} [FloatFormat M] (splitPoints : List (F64 M)) : Prop :=
  (∀ p ∈ splitPoints, p.isNan = false) ∧ splitPoints.IsChain fun p q ↦ p.lt q = true

section Check

variable {M : Type} [FloatFormat M]

theorem F64.isNan_of_lt {p q : F64 M} (h : p.lt q = true) : p.isNan = false ∧ q.isNan = false := by
  cases p with
  | nan => cases h
  | finite x => cases q with
    | nan => cases h
    | finite y => exact ⟨rfl, rfl⟩
    | infinity => exact ⟨rfl, rfl⟩
    | negInfinity => exact ⟨rfl, rfl⟩
  | infinity => cases q with
    | nan => cases h
    | finite y => exact ⟨rfl, rfl⟩
    | infinity => exact ⟨rfl, rfl⟩
    | negInfinity => exact ⟨rfl, rfl⟩
  | negInfinity => cases q with
    | nan => cases h
    | finite y => exact ⟨rfl, rfl⟩
    | infinity => exact ⟨rfl, rfl⟩
    | negInfinity => exact ⟨rfl, rfl⟩

/-- In a chain of two numbers or more, none is NaN. -/
theorem isNan_of_isChain {p q : F64 M} {rest : List (F64 M)}
    (h : (p :: q :: rest).IsChain fun p q ↦ p.lt q = true) :
    ∀ x ∈ p :: q :: rest, x.isNan = false := by
  induction rest generalizing p q with
  | nil =>
      obtain ⟨hp, hq⟩ := F64.isNan_of_lt (List.isChain_cons_cons.mp h).1
      intro x hx
      rcases List.mem_cons.mp hx with rfl | hx
      · exact hp
      · rw [List.mem_singleton.mp hx]
        exact hq
  | cons r rest ih =>
      obtain ⟨hlt, hrest⟩ := List.isChain_cons_cons.mp h
      intro x hx
      rcases List.mem_cons.mp hx with rfl | hx
      · exact (F64.isNan_of_lt hlt).1
      · exact ih hrest x hx

/-- The check accepts the legal split points, if there are any. -/
theorem checkSplitPoints_eq_ok {splitPoints : List (F64 M)} :
    checkSplitPoints splitPoints = .ok () ↔ splitPoints ≠ [] ∧ LegalSplitPoints splitPoints := by
  match splitPoints with
  | [] =>
      refine iff_of_false (fun h ↦ ?_) fun h ↦ h.1 rfl
      cases h
  | [p] =>
      have hsub : checkedSub [p].length 1 = .ok 0 := rfl
      have hany : [p].any F64.isNan = p.isNan := Bool.or_false _
      rw [checkSplitPoints, hsub, ok_bind, if_pos (List.isChain_singleton p), hany, LegalSplitPoints,
        List.forall_mem_singleton, and_iff_left (List.isChain_singleton p),
        and_iff_right (List.cons_ne_nil p [])]
      cases p.isNan with
      | true => exact iff_of_false (fun h ↦ by cases h) Bool.noConfusion
      | false => exact iff_of_true rfl rfl
  | p :: q :: rest =>
      have hsub : checkedSub (p :: q :: rest).length 1 = .ok (q :: rest).length := rfl
      have hone : ¬ ((p :: q :: rest).length = 1 ∧ (p :: q :: rest).any F64.isNan = true) :=
        fun h ↦ absurd h.1 (by simp)
      rw [checkSplitPoints, if_neg hone, hsub]
      by_cases hchain : (p :: q :: rest).IsChain fun p q ↦ p.lt q = true
      · refine iff_of_true ?_ ⟨List.cons_ne_nil _ _, isNan_of_isChain hchain, hchain⟩
        rw [pure_eq_ok, ok_bind]
        dsimp only
        rw [if_pos hchain]
      · refine iff_of_false (fun h ↦ ?_) fun h ↦ hchain h.2.2
        rw [pure_eq_ok, ok_bind] at h
        dsimp only at h
        rw [if_neg hchain] at h
        cases h

end Check

/-- What is computed for all elements. -/
theorem mapM_eq_ok {α β : Type} {f : α → Checked β} {xs : List α} {ys : List β}
    (h : List.Forall₂ (fun x y ↦ f x = .ok y) xs ys) : xs.mapM f = .ok ys := by
  induction h with
  | nil => rfl
  | cons hx _ ih => rw [List.mapM_cons, hx, ok_bind, ih, ok_bind]; rfl

theorem exists_forall₂ {α β : Type} {r : α → β → Prop} {xs : List α} (h : ∀ x ∈ xs, ∃ y, r x y) :
    ∃ ys, List.Forall₂ r xs ys := by
  induction xs with
  | nil => exact ⟨[], .nil⟩
  | cons x xs ih =>
      obtain ⟨y, hy⟩ := h x List.mem_cons_self
      obtain ⟨ys, hys⟩ := ih fun z hz ↦ h z (List.mem_cons_of_mem _ hz)
      exact ⟨y :: ys, .cons hy hys⟩

namespace TDigestView

variable {v : TDigestView ℚ} {splitPoints : List (F64 ℚ)} {ranks : List ℚ}

/-- The masses are what the loop leaves that subtracts from each bucket the one before it, from the
last bucket down. -/
theorem pmf_eq_subtractBelow (v : TDigestView ℚ) (splitPoints : List (F64 ℚ)) :
    v.pmf splitPoints = (Option.map fun buckets ↦ subtractBelow (buckets.length - 1) buckets) <$>
      v.cdf splitPoints := by
  rw [pmf]
  cases v.cdf splitPoints with
  | error p => rfl
  | ok r =>
      cases r with
      | none => rfl
      | some buckets =>
          rw [ok_bind, ok_map, Option.map_some, subtractBelow_eq]
          rfl

/-- The distribution of a digest whose split points have the given ranks. -/
theorem cdf_eq (hcheck : checkSplitPoints splitPoints = .ok ()) (hne : v.centroids ≠ [])
    (h : List.Forall₂ (fun p r ↦ v.rank p = .ok (some r)) splitPoints ranks) :
    v.cdf splitPoints = .ok (some (ranks ++ [1])) ∧
      v.pmf splitPoints = .ok (some (differences 0 (ranks ++ [1]))) := by
  have hcdf : v.cdf splitPoints = .ok (some (ranks ++ [1])) := by
    rw [cdf, hcheck, ok_bind, List.isEmpty_eq_false_iff.mpr hne, if_neg Bool.false_ne_true,
      mapM_eq_ok (h.imp fun p r hr ↦ by rw [hr]; rfl), ok_bind]
    rfl
  refine ⟨hcdf, ?_⟩
  obtain ⟨b, bs, hbs⟩ := List.exists_cons_of_ne_nil
    (List.append_ne_nil_of_right_ne_nil ranks (List.cons_ne_nil (1 : ℚ) []))
  rw [pmf, hcdf, ok_bind, hbs]
  dsimp only
  rw [List.drop_one, List.tail_cons, zipWith_sub_eq, differences, sub_zero]
  rfl

/-- The ranks of split points ascend, and end below one. -/
theorem isChain_ranks (h : List.Forall₂ (fun p r ↦ v.rank p = .ok (some r) ∧ 0 ≤ r ∧ r ≤ 1)
      splitPoints ranks)
    (hmono : ∀ p q r s, p.lt q = true → v.rank p = .ok (some r) → v.rank q = .ok (some s) → r ≤ s)
    (hchain : splitPoints.IsChain fun p q ↦ p.lt q = true) :
    (0 :: (ranks ++ [1])).IsChain (· ≤ ·) := by
  induction h with
  | nil => exact List.isChain_cons_cons.mpr ⟨zero_le_one, List.isChain_singleton 1⟩
  | @cons p r splitPoints ranks hp hrest ih =>
      obtain ⟨hr, hnn, hle⟩ := hp
      rw [List.cons_append]
      refine List.isChain_cons_cons.mpr ⟨hnn, ?_⟩
      cases hrest with
      | nil => exact List.isChain_cons_cons.mpr ⟨hle, List.isChain_singleton 1⟩
      | cons hq hrest =>
          obtain ⟨hlt, hchain⟩ := List.isChain_cons_cons.mp hchain
          have hrs := hmono _ _ _ _ hlt hr hq.1
          exact List.isChain_cons_cons.mpr ⟨hrs, (List.isChain_cons_cons.mp (ih hchain)).2⟩

end TDigestView

namespace TDigestMut

variable {codec : F64Codec ℚ} {scale : ScaleFunction} {vs : Multiset ℚ} {d d' : TDigestMut ℚ}
  {splitPoints : List (F64 ℚ)}

/-- What the distribution of a digest at some split points is to be. -/
structure Distributed (scale : ScaleFunction) (d : TDigestMut ℚ) (splitPoints : List (F64 ℚ)) :
    Prop where
  cdf_panics : ∀ p, d.cdf scale splitPoints = .error p → ¬ LegalSplitPoints splitPoints
  pmf_panics : ∀ p, d.pmf scale splitPoints = .error p → ¬ LegalSplitPoints splitPoints
  legal : LegalSplitPoints splitPoints → ∃ d' buckets masses,
    d.cdf scale splitPoints = .ok (d', some buckets) ∧
    d.pmf scale splitPoints = .ok (d', some masses) ∧
    buckets.length = splitPoints.length + 1 ∧ masses.length = splitPoints.length + 1 ∧
    buckets.IsChain (· ≤ ·) ∧ (∀ b ∈ buckets, 0 ≤ b ∧ b ≤ 1) ∧ buckets.getLast? = some 1 ∧
    (∀ (j : ℕ) p, splitPoints[j]? = some p →
      ∃ e r, d.rank scale p = .ok (e, some r) ∧ buckets[j]? = some r) ∧
    (∀ m ∈ masses, 0 ≤ m) ∧ masses.sum = 1 ∧ partialSums 0 masses = buckets
  /-- The frozen digest gives the same answers. -/
  frozen : ∃ frozen, d.freeze scale = .ok frozen ∧
    (∀ a, (∃ d', d.cdf scale splitPoints = .ok (d', a)) ↔ frozen.cdf splitPoints = .ok a) ∧
    ∀ a, (∃ d', d.pmf scale splitPoints = .ok (d', a)) ↔ frozen.pmf splitPoints = .ok a

/-! ## Ranks of all numbers -/

/-- Every number has the same rank in a digest of a run and in the view of it, and these ranks
ascend. -/
structure Viewed (scale : ScaleFunction) (d : TDigestMut ℚ) (v : TDigestView ℚ) : Prop where
  rank : ∀ p : F64 ℚ, p.isNan = false → ∃ e r, v.rank p = .ok (some r) ∧
    d.rank scale p = .ok (e, some r) ∧ 0 ≤ r ∧ r ≤ 1
  mono : ∀ p q r s, p.lt q = true → v.rank p = .ok (some r) → v.rank q = .ok (some s) → r ≤ s

/-! ## The distribution -/

/-- A distribution is one of the view. -/
theorem cdf_eq_of_view {v : TDigestView ℚ} (hempty : d.isEmpty = false)
    (hview : d.view scale = .ok (d', v)) (splitPoints : List (F64 ℚ)) :
    d.cdf scale splitPoints = (fun a ↦ (d', a)) <$> v.cdf splitPoints ∧
      d.pmf scale splitPoints = (fun a ↦ (d', a)) <$> v.pmf splitPoints := by
  cases hcheck : checkSplitPoints splitPoints with
  | error p =>
      have hv : v.cdf splitPoints = .error p := by
        rw [TDigestView.cdf, hcheck]
        rfl
      rw [cdf, pmf, hcheck, TDigestView.pmf, hv]
      exact ⟨rfl, rfl⟩
  | ok u =>
      rw [cdf, pmf, hcheck, ok_bind, ok_bind, hempty, if_neg Bool.false_ne_true,
        if_neg Bool.false_ne_true, hview, ok_bind, ok_bind]
      exact ⟨rfl, rfl⟩

/-- Legal split points have a distribution, if there are any. -/
theorem Viewed.legal {v : TDigestView ℚ} (h : Viewed scale d v) (hne : v.centroids ≠ [])
    (hsplit : splitPoints ≠ []) (hlegal : LegalSplitPoints splitPoints)
    (hcdf : d.cdf scale splitPoints = (fun a ↦ (d', a)) <$> v.cdf splitPoints)
    (hpmf : d.pmf scale splitPoints = (fun a ↦ (d', a)) <$> v.pmf splitPoints) :
    ∃ d' buckets masses,
      d.cdf scale splitPoints = .ok (d', some buckets) ∧
      d.pmf scale splitPoints = .ok (d', some masses) ∧
      buckets.length = splitPoints.length + 1 ∧ masses.length = splitPoints.length + 1 ∧
      buckets.IsChain (· ≤ ·) ∧ (∀ b ∈ buckets, 0 ≤ b ∧ b ≤ 1) ∧ buckets.getLast? = some 1 ∧
      (∀ (j : ℕ) p, splitPoints[j]? = some p →
        ∃ e r, d.rank scale p = .ok (e, some r) ∧ buckets[j]? = some r) ∧
      (∀ m ∈ masses, 0 ≤ m) ∧ masses.sum = 1 ∧ partialSums 0 masses = buckets := by
  obtain ⟨ranks, hranks⟩ : ∃ ranks, List.Forall₂ (fun p r ↦ v.rank p = .ok (some r) ∧
      (0 ≤ r ∧ r ≤ 1) ∧ ∃ e, d.rank scale p = .ok (e, some r)) splitPoints ranks :=
    exists_forall₂ fun p hp ↦ by
      obtain ⟨e, r, hv, hd, hmem⟩ := h.rank p (hlegal.1 p hp)
      exact ⟨r, hv, hmem, e, hd⟩
  have hlen := hranks.length_eq
  have hrank := hranks.imp fun p r h ↦ h.1
  have hchain := TDigestView.isChain_ranks (hranks.imp fun p r h ↦ ⟨h.1, h.2.1⟩) h.mono hlegal.2
  obtain ⟨hv, hv'⟩ := TDigestView.cdf_eq (checkSplitPoints_eq_ok.mpr ⟨hsplit, hlegal⟩) hne hrank
  rw [hcdf, hpmf, hv, hv']
  refine ⟨d', ranks ++ [1], differences 0 (ranks ++ [1]), rfl, rfl, ?_, ?_,
    hchain.of_cons, fun b hb ↦ ?_, List.getLast?_concat, fun j p hj ↦ ?_,
    differences_nonneg hchain, ?_, partialSums_differences 0 _⟩
  · rw [List.length_append, List.length_singleton, hlen]
  · rw [length_differences, List.length_append, List.length_singleton, hlen]
  · have hpairwise := List.isChain_iff_pairwise.mp hchain
    obtain ⟨hnn, hrest⟩ := List.pairwise_cons.mp hpairwise
    refine ⟨hnn b hb, ?_⟩
    rcases List.mem_append.mp hb with hb | hb
    · exact (List.pairwise_append.mp hrest).2.2 b hb 1 (List.mem_singleton_self 1)
    · exact (List.mem_singleton.mp hb).le
  · obtain ⟨hlt, rfl⟩ := List.getElem?_eq_some_iff.mp hj
    obtain ⟨-, -, e, he⟩ := (List.forall₂_iff_get.mp hranks).2 j hlt (hlen ▸ hlt)
    exact ⟨e, _, he, by
      rw [List.getElem?_append_left (hlen ▸ hlt)]
      exact List.getElem?_eq_getElem _⟩
  · rw [sum_differences, sub_zero, List.getLast_cons (List.append_ne_nil_of_right_ne_nil _
      (List.cons_ne_nil _ _)), List.getLast_append_singleton]

end TDigestMut

end DataSketches
