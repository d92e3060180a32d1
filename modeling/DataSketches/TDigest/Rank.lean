import DataSketches.TDigest.Merging
import DataSketches.TDigest.Quantile

/-!
# Ranks

A rank is found between the two centroids that a value lies between, or in one of
the tails before the first and after the last centroid.
-/

namespace DataSketches

open Runs FloatFormat StableSort

/-! ## Searching -/

/-- The halving loop ends at its start or at an element that is not greater.  If the greater elements
come last, it ends right before them. -/
theorem halveRange_spec (isGreater : ℕ → Bool) (fuel size base : ℕ) (hsize : 0 < size)
    (hfuel : size ≤ fuel + 1) :
    halveRange isGreater fuel size base < base + size ∧
      (halveRange isGreater fuel size base = base ∨
        isGreater (halveRange isGreater fuel size base) = false) ∧
      ((∀ i j, i ≤ j → j < base + size → isGreater i = true → isGreater j = true) →
        ∀ j, halveRange isGreater fuel size base < j → j < base + size → isGreater j = true) := by
  induction fuel generalizing size base with
  | zero =>
      have hbase : halveRange isGreater 0 size base = base := rfl
      rw [hbase]
      exact ⟨by omega, Or.inl rfl, fun _ j hj hlt ↦ by omega⟩
  | succ fuel ih =>
      rw [halveRange]
      by_cases hone : size > 1
      · rw [if_pos hone]
        dsimp only
        by_cases hmid : isGreater (base + size / 2) = true
        · rw [if_pos hmid]
          obtain ⟨hlt, hend, hrest⟩ := ih (size - size / 2) base (by omega) (by omega)
          refine ⟨by omega, hend, fun hmono j hj hlt' ↦ ?_⟩
          by_cases hin : j < base + (size - size / 2)
          · exact hrest (fun i j hij hlt ↦ hmono i j hij (by omega)) j hj hin
          · exact hmono _ j (by omega) hlt' hmid
        · rw [if_neg hmid]
          obtain ⟨hlt, hend, hrest⟩ := ih (size - size / 2) (base + size / 2) (by omega)
            (by omega)
          refine ⟨by omega, Or.inr ?_, fun hmono j hj hlt' ↦
            hrest (fun i j hij hlt ↦ hmono i j hij (by omega)) j hj (by omega)⟩
          rcases hend with hend | hend
          · rw [hend]
            exact Bool.eq_false_iff.mpr hmid
          · exact hend
      · rw [if_neg hone]
        exact ⟨by omega, Or.inl rfl, fun _ j hj hlt ↦ by omega⟩

section Search

variable {M : Type} {cs : List (Centroid M)} {cmp : Centroid M → Ordering}

/-- A search ends right after a centroid that is less, or at the first one if it is greater. -/
theorem searchBy_cases (hne : cs ≠ []) (heq : ∀ c, cmp c ≠ .eq) :
    (∃ i c, cs[i]? = some c ∧ cmp c = .lt ∧ searchBy cs cmp = i + 1) ∨
      ∃ c, cs[0]? = some c ∧ cmp c = .gt ∧ searchBy cs cmp = 0 := by
  have hlen := List.length_pos_iff.mpr hne
  obtain ⟨hlt, hend, -⟩ := halveRange_spec (fun i ↦ cs[i]?.map cmp = some .gt) cs.length
    cs.length 0 hlen (Nat.le_succ cs.length)
  unfold searchBy
  generalize halveRange (fun i ↦ decide (cs[i]?.map cmp = some .gt)) cs.length cs.length 0 = r
    at hlt hend ⊢
  rw [Nat.zero_add] at hlt
  have hget := List.getElem?_eq_getElem hlt
  cases hcmp : cmp cs[r] with
  | lt =>
      refine Or.inl ⟨r, cs[r], hget, hcmp, ?_⟩
      simp only [hget, Option.map_some, hcmp]
  | eq => exact absurd hcmp (heq _)
  | gt =>
      rcases hend with rfl | hend
      · refine Or.inr ⟨cs[0], hget, hcmp, ?_⟩
        simp only [hget, Option.map_some, hcmp]
      · rw [hget, Option.map_some, hcmp] at hend
        cases hend

/-- If the greater centroids come last, a search separates them from those that are less. -/
theorem searchBy_spec (heq : ∀ c, cmp c ≠ .eq)
    (hsorted : cs.Pairwise fun c c' ↦ cmp c = .gt → cmp c' = .gt) {i : ℕ} {c : Centroid M}
    (hi : cs[i]? = some c) : cmp c = .lt ↔ i < searchBy cs cmp := by
  obtain ⟨hilt, rfl⟩ := List.getElem?_eq_some_iff.mp hi
  have hmono : ∀ (i j : ℕ), i ≤ j → j < 0 + cs.length → decide (cs[i]?.map cmp = some .gt) = true →
      decide (cs[j]?.map cmp = some .gt) = true := by
    intro i j hij hj hgt
    rw [Nat.zero_add] at hj
    rw [List.getElem?_eq_getElem (hij.trans_lt hj), Option.map_some, decide_eq_true_eq,
      Option.some.injEq] at hgt
    rw [List.getElem?_eq_getElem hj, Option.map_some, decide_eq_true_eq, Option.some.injEq]
    rcases hij.eq_or_lt with rfl | hlt
    · exact hgt
    · exact List.pairwise_iff_getElem.mp hsorted i j (hij.trans_lt hj) hj hlt hgt
  have hnot : ∀ o : Ordering, o ≠ .eq → (¬ o = .gt ↔ o = .lt) := by decide
  obtain ⟨hlt, hend, hrest⟩ := halveRange_spec (fun i ↦ cs[i]?.map cmp = some .gt) cs.length
    cs.length 0 (Nat.zero_lt_of_lt hilt) (Nat.le_succ cs.length)
  replace hrest := hrest hmono
  unfold searchBy
  generalize halveRange (fun i ↦ decide (cs[i]?.map cmp = some .gt)) cs.length cs.length 0 = r
    at hlt hend hrest ⊢
  rw [Nat.zero_add] at hlt hrest
  have hget := List.getElem?_eq_getElem hlt
  rw [← hnot _ (heq _)]
  have hgreater : ∀ j, (hj : j < cs.length) → (cmp cs[j] = .gt ↔
      decide (cs[j]?.map cmp = some .gt) = true) := by
    intro j hj
    rw [List.getElem?_eq_getElem hj, Option.map_some, decide_eq_true_eq, Option.some.injEq]
  rw [hgreater i hilt]
  cases hcmp : cmp cs[r] with
  | eq => exact absurd hcmp (heq _)
  | lt =>
      simp only [hget, Option.map_some, hcmp]
      constructor
      · intro hle
        by_contra hge
        exact hle (hrest i (by omega) hilt)
      · intro hle hgt
        have hr := hmono i r (by omega) (by omega) hgt
        rw [← hgreater r hlt, hcmp] at hr
        cases hr
  | gt =>
      rcases hend with rfl | hend
      · simp only [hget, Option.map_some, hcmp, Nat.not_lt_zero, iff_false, not_not]
        exact hmono 0 i (Nat.zero_le i) (by omega) ((hgreater 0 hlt).mp hcmp)
      · rw [hget, Option.map_some, hcmp] at hend
        cases hend

end Search

/-! ## Between the first and the last mean -/

namespace TDigestView

section Between

variable {M : Type} [FloatFormat M] {v : TDigestView M} {x : ℚ}

/-- The interpolation between two centroids at their places. -/
def interpolated (v : TDigestView M) (x : ℚ) (i j : ℕ) (a b : Centroid M) : ℚ :=
  let weightBelow : ℚ := Centroid.totalWeight (v.centroids.take i) + (a.weight : ℕ) / 2
  let weightDelta : ℚ := Centroid.totalWeight ((v.centroids.take j).drop i) -
    (a.weight : ℕ) / 2 + (b.weight : ℕ) / 2
  if val b.mean - val a.mean > 0 then
    (weightBelow + weightDelta * (x - val a.mean) / (val b.mean - val a.mean)) / v.centroidsWeight
  else (weightBelow + weightDelta / 2) / v.centroidsWeight

theorem centroidLowerBound_eq_lt {c : Centroid M} :
    centroidLowerBound x c = .lt ↔ val c.mean < x := by
  unfold centroidLowerBound
  split_ifs with h
  · exact iff_of_true rfl h
  · exact iff_of_false (by decide) h

theorem centroidUpperBound_eq_lt {c : Centroid M} :
    centroidUpperBound x c = .lt ↔ val c.mean ≤ x := by
  unfold centroidUpperBound
  split_ifs with h
  · exact iff_of_false (by decide) (not_le.mpr h)
  · exact iff_of_true rfl (not_lt.mp h)

theorem centroidLowerBound_eq_gt {c : Centroid M} :
    centroidLowerBound x c = .gt ↔ x ≤ val c.mean := by
  unfold centroidLowerBound
  split_ifs with h
  · exact iff_of_false (by decide) (not_le.mpr h)
  · exact iff_of_true rfl (not_lt.mp h)

theorem centroidUpperBound_eq_gt {c : Centroid M} :
    centroidUpperBound x c = .gt ↔ x < val c.mean := by
  unfold centroidUpperBound
  split_ifs with h
  · exact iff_of_true rfl h
  · exact iff_of_false (by decide) h

theorem centroidLowerBound_ne_eq (c : Centroid M) : centroidLowerBound x c ≠ .eq := by
  unfold centroidLowerBound
  split_ifs <;> decide

theorem centroidUpperBound_ne_eq (c : Centroid M) : centroidUpperBound x c ≠ .eq := by
  unfold centroidUpperBound
  split_ifs <;> decide

/-- Where the lower centroid is found: at the end of the search or right before it. -/
def LowerAt (v : TDigestView M) (x : ℚ) (i : ℕ) : Prop :=
  ∃ c, v.centroids[searchBy v.centroids (centroidLowerBound x)]? = some c ∧
    (val c.mean ≤ x ∧ i = searchBy v.centroids (centroidLowerBound x) ∨
      x < val c.mean ∧ i + 1 = searchBy v.centroids (centroidLowerBound x))

/-- Where the upper centroid is found: at the end of the search or right before it. -/
def UpperAt (v : TDigestView M) (x : ℚ) (j : ℕ) : Prop :=
  ∃ i c, v.centroids[i]? = some c ∧ i + 1 = searchBy v.centroids (centroidUpperBound x) ∧
    (j = i ∧ (i + 1 = v.centroids.length ∨ x ≤ val c.mean) ∨
      j = i + 1 ∧ i + 1 ≠ v.centroids.length ∧ val c.mean < x)

/-- Between the first and the last mean, both centroids are found, in whatever order the others
are. -/
theorem rankBetween_eq {first last : Centroid M} (hfirst : v.centroids.head? = some first)
    (hlast : v.centroids.getLast? = some last) (hge : val first.mean ≤ x)
    (hle : x ≤ val last.mean) :
    ∃ i j a b, v.LowerAt x i ∧ v.UpperAt x j ∧ v.centroids[i]? = some a ∧
      v.centroids[j]? = some b ∧ v.rankBetween x = .ok (some (v.interpolated x i j a b)) := by
  have hne : v.centroids ≠ [] := by
    rintro hnil
    rw [hnil] at hfirst
    cases hfirst
  have hlen := List.length_pos_iff.mpr hne
  rw [List.head?_eq_getElem?] at hfirst
  rw [List.getLast?_eq_getElem?] at hlast
  have hat : ∀ {i c}, v.centroids[i]? = some c → centroidAt v.centroids i = .ok c := by
    intro i c hc
    rw [centroidAt, hc]
  -- the search for the lower centroid does not leave the list
  have hlower : searchBy v.centroids (centroidLowerBound x) < v.centroids.length := by
    rcases searchBy_cases hne (centroidLowerBound_ne_eq (x := x)) with
      ⟨i, c, hi, hcmp, heq⟩ | ⟨c, -, -, heq⟩
    · obtain ⟨hilt, -⟩ := List.getElem?_eq_some_iff.mp hi
      rw [heq]
      refine lt_of_le_of_ne hilt fun hend ↦ ?_
      rw [← hend, Nat.add_sub_cancel, hi] at hlast
      cases hlast
      exact absurd (centroidLowerBound_eq_lt.mp hcmp) (not_lt.mpr hle)
    · rwa [heq]
  obtain ⟨c, hc⟩ : ∃ c, v.centroids[searchBy v.centroids (centroidLowerBound x)]? = some c :=
    ⟨_, List.getElem?_eq_getElem hlower⟩
  obtain ⟨i, a, hi, ha, hlowerAt⟩ : ∃ i a, v.LowerAt x i ∧ v.centroids[i]? = some a ∧
      ∀ f : ℕ → Checked (Option ℚ), (if x < val c.mean then
        checkedSub (searchBy v.centroids (centroidLowerBound x)) 1 >>= f
          else f (searchBy v.centroids (centroidLowerBound x))) = f i := by
    by_cases hlt : x < val c.mean
    · have hpos : 1 ≤ searchBy v.centroids (centroidLowerBound x) := by
        refine Nat.one_le_iff_ne_zero.mpr fun hzero ↦ ?_
        rw [hzero, hfirst] at hc
        cases hc
        exact absurd hlt (not_lt.mpr hge)
      refine ⟨_, _, ⟨c, hc, Or.inr ⟨hlt, Nat.sub_add_cancel hpos⟩⟩,
        List.getElem?_eq_getElem ((Nat.sub_le _ 1).trans_lt hlower), fun f ↦ ?_⟩
      rw [if_pos hlt, checkedSub_of_le hpos, ok_bind]
    · exact ⟨_, c, ⟨c, hc, Or.inl ⟨not_lt.mp hlt, rfl⟩⟩, hc, fun f ↦ if_neg hlt⟩
  -- nor does the search for the upper one
  obtain ⟨k, d, hk, hd, hupper⟩ : ∃ k d, v.centroids[k]? = some d ∧ val d.mean ≤ x ∧
      searchBy v.centroids (centroidUpperBound x) = k + 1 := by
    rcases searchBy_cases hne (centroidUpperBound_ne_eq (x := x)) with
      ⟨k, d, hk, hcmp, heq⟩ | ⟨d, hd, hcmp, -⟩
    · exact ⟨k, d, hk, centroidUpperBound_eq_lt.mp hcmp, heq⟩
    · rw [hfirst] at hd
      cases hd
      rw [centroidUpperBound_eq_lt.mpr hge] at hcmp
      cases hcmp
  obtain ⟨hklt, -⟩ := List.getElem?_eq_some_iff.mp hk
  obtain ⟨j, b, hj, hb, hupperAt⟩ : ∃ j b, v.UpperAt x j ∧ v.centroids[j]? = some b ∧
      ∀ f : ℕ → Checked (Option ℚ), (if k + 1 = v.centroids.length then checkedSub (k + 1) 1 >>= f
        else if val d.mean ≥ x then checkedSub (k + 1) 1 >>= f else f (k + 1)) = f j := by
    have hsub : checkedSub (k + 1) 1 = .ok k := checkedSub_of_le (Nat.le_add_left 1 k)
    by_cases hend : k + 1 = v.centroids.length
    · refine ⟨k, d, ⟨k, d, hk, hupper.symm, Or.inl ⟨rfl, Or.inl hend⟩⟩, hk, fun f ↦ ?_⟩
      rw [if_pos hend, hsub, ok_bind]
    · by_cases hge' : val d.mean ≥ x
      · refine ⟨k, d, ⟨k, d, hk, hupper.symm, Or.inl ⟨rfl, Or.inr hge'⟩⟩, hk, fun f ↦ ?_⟩
        rw [if_neg hend, if_pos hge', hsub, ok_bind]
      · refine ⟨k + 1, _, ⟨k, d, hk, hupper.symm, Or.inr ⟨rfl, hend, not_le.mp hge'⟩⟩,
          List.getElem?_eq_getElem (lt_of_le_of_ne hklt hend), fun f ↦ ?_⟩
        rw [if_neg hend, if_neg hge']
  refine ⟨i, j, a, b, hi, hj, ha, hb, ?_⟩
  unfold rankBetween
  dsimp only
  rw [assert_pos hlower.ne, ok_bind, hupper, assert_pos (Nat.succ_ne_zero k), ok_bind, hat hc,
    ok_bind, Nat.add_sub_cancel, hat hk]
  refine (hlowerAt fun i ↦ _).trans ?_
  rw [ok_bind]
  refine (hupperAt fun j ↦ _).trans ?_
  rw [hat ha, ok_bind, hat hb, ok_bind]
  rfl

/-! ## All values -/

/-- The rank of a value before the first mean. -/
def leftTail (v : TDigestView M) (x : ℚ) (first : Centroid M) : ℚ :=
  if val first.mean - v.min.toRat > 0 then
    if x = v.min.toRat then 1 / 2 / v.centroidsWeight
    else 1 + (x - v.min.toRat) / (val first.mean - v.min.toRat) * ((first.weight : ℕ) / 2 - 1)
  else 0

/-- The rank of a value after the last mean. -/
def rightTail (v : TDigestView M) (x : ℚ) (last : Centroid M) : ℚ :=
  if v.max.toRat - val last.mean > 0 then
    if x = v.max.toRat then 1 - 1 / 2 / v.centroidsWeight
    else 1 - (1 + (v.max.toRat - x) / (v.max.toRat - val last.mean) *
      ((last.weight : ℕ) / 2 - 1)) / v.centroidsWeight
  else 1

variable {value : F64 M} {first last : Centroid M}

/-- Where the rank of a value between the extremes is found. -/
theorem rank_eq (hfirst : v.centroids.head? = some first) (hlast : v.centroids.getLast? = some last)
    (hnan : value.isNan = false) (hmin : value.lt v.min = false) (hmax : v.max.lt value = false) :
    v.rank value = if v.centroids.length = 1 then .ok (some (1 / 2))
      else if value.toRat < val first.mean then .ok (some (v.leftTail value.toRat first))
      else if val last.mean < value.toRat then .ok (some (v.rightTail value.toRat last))
      else v.rankBetween value.toRat := by
  have hempty : v.centroids.isEmpty = false := by
    rw [List.isEmpty_eq_false_iff]
    rintro hnil
    rw [hnil] at hfirst
    cases hfirst
  obtain ⟨hzero, hend⟩ := TDigestMut.centroidAt_ends hfirst hlast
  have hassert : (!value.isNan) = true := by rw [hnan]; rfl
  rw [rank, assert_pos hassert, ok_bind, hempty, hmin, hmax, if_neg Bool.false_ne_true,
    if_neg Bool.false_ne_true, if_neg Bool.false_ne_true]
  by_cases hone : v.centroids.length = 1
  · rw [if_pos hone, if_pos hone]
    rfl
  · rw [if_neg hone, if_neg hone]
    dsimp only
    rw [hzero, ok_bind, hend, ok_bind]
    unfold leftTail rightTail
    split_ifs <;> rfl

/-- Ranks beyond the extremes. -/
theorem rank_of_lt_min (hne : v.centroids ≠ []) (hnan : value.isNan = false)
    (hmin : value.lt v.min = true) : v.rank value = .ok (some 0) := by
  have hempty : v.centroids.isEmpty = false := List.isEmpty_eq_false_iff.mpr hne
  have hassert : (!value.isNan) = true := by rw [hnan]; rfl
  rw [rank, assert_pos hassert, ok_bind, hempty, if_neg Bool.false_ne_true, if_pos hmin]
  rfl

theorem rank_of_max_lt (hne : v.centroids ≠ []) (hnan : value.isNan = false)
    (hmin : value.lt v.min = false) (hmax : v.max.lt value = true) : v.rank value = .ok (some 1) := by
  have hempty : v.centroids.isEmpty = false := List.isEmpty_eq_false_iff.mpr hne
  have hassert : (!value.isNan) = true := by rw [hnan]; rfl
  rw [rank, assert_pos hassert, ok_bind, hempty, if_neg Bool.false_ne_true, hmin,
    if_neg Bool.false_ne_true, if_pos hmax]
  rfl

/-- Digests with centroids have a rank for every number. -/
theorem exists_rank (hne : v.centroids ≠ []) (hnan : value.isNan = false) :
    ∃ r, v.rank value = .ok (some r) := by
  obtain ⟨first, hfirst⟩ : ∃ c, v.centroids.head? = some c :=
    Option.ne_none_iff_exists'.mp fun hnone ↦ hne (List.head?_eq_none_iff.mp hnone)
  obtain ⟨last, hlast⟩ : ∃ c, v.centroids.getLast? = some c :=
    Option.ne_none_iff_exists'.mp fun hnone ↦ hne (List.getLast?_eq_none_iff.mp hnone)
  cases hmin : value.lt v.min with
  | true => exact ⟨0, rank_of_lt_min hne hnan hmin⟩
  | false =>
      cases hmax : v.max.lt value with
      | true => exact ⟨1, rank_of_max_lt hne hnan hmin hmax⟩
      | false =>
          rw [rank_eq hfirst hlast hnan hmin hmax]
          split_ifs with hone hleft hright
          · exact ⟨_, rfl⟩
          · exact ⟨_, rfl⟩
          · exact ⟨_, rfl⟩
          · obtain ⟨i, j, a, b, -, -, -, -, hok⟩ :=
              rankBetween_eq hfirst hlast (not_lt.mp hleft) (not_lt.mp hright)
            exact ⟨_, hok⟩

end Between

/-! ## Ranks in exact arithmetic -/

section Exact

variable {v : TDigestView ℚ} {x y : ℚ} {i j : ℕ} {a b : Centroid ℚ}

/-- The weight up to the middle of a centroid. -/
def centre (v : TDigestView ℚ) (i : ℕ) (c : Centroid ℚ) : ℚ :=
  Centroid.totalWeight (v.centroids.take i) + (c.weight : ℕ) / 2

theorem centre_le_centre (ha : v.centroids[i]? = some a) (hb : v.centroids[j]? = some b)
    (hij : i ≤ j) : v.centre i a ≤ v.centre j b := by
  rcases hij.eq_or_lt with rfl | hlt
  · rw [ha] at hb
    cases hb
    exact le_rfl
  · obtain ⟨hi, rfl⟩ := List.getElem?_eq_some_iff.mp ha
    have hsplit : v.centroids.take j =
        v.centroids.take i ++ [v.centroids[i]] ++ (v.centroids.take j).drop (i + 1) := by
      rw [← List.take_succ_eq_append_getElem hi]
      nth_rewrite 1 [← List.take_append_drop (i + 1) (v.centroids.take j)]
      rw [List.take_take, Nat.min_eq_left hlt]
    have hle : Centroid.totalWeight (v.centroids.take i) + (v.centroids[i].weight : ℕ) ≤
        Centroid.totalWeight (v.centroids.take j) := by
      rw [hsplit, Centroid.totalWeight_append, Centroid.totalWeight_append,
        Centroid.totalWeight_cons, Centroid.totalWeight_nil]
      omega
    have hcast : (Centroid.totalWeight (v.centroids.take i) : ℚ) + (v.centroids[i].weight : ℕ) ≤
      Centroid.totalWeight (v.centroids.take j) := by exact_mod_cast hle
    have ha := one_le_weight v.centroids[i]
    have hb := one_le_weight b
    unfold centre
    linarith

/-- The last middle is half of the last weight away from the whole. -/
theorem centre_le (hb : v.centroids[j]? = some b) {last : Centroid ℚ}
    (hlast : v.centroids.getLast? = some last) :
    v.centre j b ≤ Centroid.totalWeight v.centroids - (last.weight : ℕ) / 2 := by
  rw [List.getLast?_eq_getElem?] at hlast
  obtain ⟨hlt, -⟩ := List.getElem?_eq_some_iff.mp hb
  refine (centre_le_centre hb hlast (Nat.le_sub_one_of_lt hlt)).trans_eq ?_
  obtain ⟨hend, rfl⟩ := List.getElem?_eq_some_iff.mp hlast
  have hsplit : v.centroids.take (v.centroids.length - 1) ++
      [v.centroids[v.centroids.length - 1]] = v.centroids := by
    rw [← List.take_succ_eq_append_getElem hend, Nat.sub_add_cancel (Nat.one_le_of_lt hlt),
      List.take_length]
  have hsum : Centroid.totalWeight v.centroids =
      Centroid.totalWeight (v.centroids.take (v.centroids.length - 1)) +
        (v.centroids[v.centroids.length - 1].weight : ℕ) := by
    conv_lhs => rw [← hsplit]
    rw [Centroid.totalWeight_append, Centroid.totalWeight_cons, Centroid.totalWeight_nil,
      Nat.add_zero]
  rw [centre, hsum]
  push_cast
  ring

theorem centre_pos : 0 < v.centre i a := by
  have ha := one_le_weight a
  have hnn : (0 : ℚ) ≤ Centroid.totalWeight (v.centroids.take i) := Nat.cast_nonneg _
  unfold centre
  linarith

/-- The centroids at both ends of a run of means that are equal to the value, or two neighbours that
the value is strictly between. -/
def Straddles (x : ℚ) (i j : ℕ) (a b : Centroid ℚ) : Prop :=
  i ≤ j ∧ (a.mean = x ∧ b.mean = x ∨ j = i + 1 ∧ a.mean < x ∧ x < b.mean)

/-- In sorted centroids, the searches find the centroids around the value. -/
theorem straddles_of_at (hsorted : v.centroids.Pairwise fun c c' ↦ c.mean ≤ c'.mean)
    (hi : v.LowerAt x i) (hj : v.UpperAt x j) (ha : v.centroids[i]? = some a)
    (hb : v.centroids[j]? = some b) : Straddles x i j a b := by
  have hlower : ∀ {k c}, v.centroids[k]? = some c →
      (c.mean < x ↔ k < searchBy v.centroids (centroidLowerBound x)) := by
    intro k c hk
    rw [← searchBy_spec centroidLowerBound_ne_eq ?_ hk, centroidLowerBound_eq_lt, val_rat]
    exact hsorted.imp fun hle hgt ↦
      centroidLowerBound_eq_gt.mpr ((centroidLowerBound_eq_gt.mp hgt).trans hle)
  have hupper : ∀ {k c}, v.centroids[k]? = some c →
      (c.mean ≤ x ↔ k < searchBy v.centroids (centroidUpperBound x)) := by
    intro k c hk
    rw [← searchBy_spec centroidUpperBound_ne_eq ?_ hk, centroidUpperBound_eq_lt, val_rat]
    exact hsorted.imp fun hle hgt ↦
      centroidUpperBound_eq_gt.mpr ((centroidUpperBound_eq_gt.mp hgt).trans_le hle)
  obtain ⟨c, hc, hcase⟩ := hi
  obtain ⟨k, d, hk, hend, hcase'⟩ := hj
  have hdx : d.mean ≤ x := (hupper hk).mpr (by omega)
  rcases hcase with ⟨hle, rfl⟩ | ⟨hgt, hiL⟩
  · -- the value is a mean
    cases ha.symm.trans hc
    have hax : a.mean = x :=
      le_antisymm hle (not_lt.mp fun hlt ↦ absurd ((hlower hc).mp hlt) (lt_irrefl _))
    have hik := (hupper hc).mp hle
    have hdx' : d.mean = x :=
      le_antisymm hdx (not_lt.mp fun hlt ↦ absurd ((hlower hk).mp hlt) (by omega))
    rcases hcase' with ⟨rfl, -⟩ | ⟨-, -, hlt⟩
    · cases hb.symm.trans hk
      exact ⟨by omega, Or.inl ⟨hax, hdx'⟩⟩
    · exact absurd hlt (by rw [val_rat, hdx']; exact lt_irrefl x)
  · -- the value is strictly between two means
    have hax : a.mean < x := (hlower ha).mpr (by omega)
    have hik := (hupper ha).mp hax.le
    have hge : ¬ searchBy v.centroids (centroidLowerBound x) <
      searchBy v.centroids (centroidUpperBound x) := fun hlt ↦
        absurd ((hupper hc).mpr hlt) (not_le.mpr hgt)
    obtain rfl : k = i := by omega
    rcases hcase' with ⟨rfl, hlast | hle⟩ | ⟨rfl, -, -⟩
    · rw [← hiL, hlast, List.getElem?_length] at hc
      cases hc
    · cases ha.symm.trans hk
      exact absurd hle (not_le.mpr hax)
    · rw [hiL] at hb
      cases hb.symm.trans hc
      exact ⟨Nat.le_succ k, Or.inr ⟨rfl, hax, hgt⟩⟩

/-- The rank of a value that two centroids straddle, times the whole weight. -/
theorem interpolated_mul (h : Straddles x i j a b) (hpos : 0 < v.centroidsWeight) :
    v.interpolated x i j a b * v.centroidsWeight = if a.mean < b.mean then
      v.centre i a + (v.centre j b - v.centre i a) * ((x - a.mean) / (b.mean - a.mean))
    else (v.centre i a + v.centre j b) / 2 := by
  have hweight : (v.centroidsWeight : ℚ) ≠ 0 := Nat.cast_ne_zero.mpr hpos.ne'
  have hsplit : Centroid.totalWeight (v.centroids.take i) +
      Centroid.totalWeight ((v.centroids.take j).drop i) =
        Centroid.totalWeight (v.centroids.take j) := by
    rw [← Centroid.totalWeight_append]
    conv_rhs => rw [← List.take_append_drop i (v.centroids.take j)]
    rw [List.take_take, Nat.min_eq_left h.1]
  have hdelta : (Centroid.totalWeight ((v.centroids.take j).drop i) : ℚ) =
      Centroid.totalWeight (v.centroids.take j) - Centroid.totalWeight (v.centroids.take i) := by
    rw [← hsplit]
    push_cast
    ring
  rw [interpolated, val_rat, val_rat, hdelta]
  by_cases hlt : a.mean < b.mean
  · rw [if_pos (sub_pos.mpr hlt), if_pos hlt, div_mul_cancel₀ _ hweight, centre, centre]
    ring
  · rw [if_neg fun hsub ↦ hlt (sub_pos.mp hsub), if_neg hlt, div_mul_cancel₀ _ hweight, centre,
      centre]
    ring

/-- The rank lies between the middles of the two centroids. -/
theorem interpolated_mem (h : Straddles x i j a b) (ha : v.centroids[i]? = some a)
    (hb : v.centroids[j]? = some b) (hpos : 0 < v.centroidsWeight) :
    v.centre i a ≤ v.interpolated x i j a b * v.centroidsWeight ∧
      v.interpolated x i j a b * v.centroidsWeight ≤ v.centre j b := by
  have hle := centre_le_centre ha hb h.1
  rw [interpolated_mul h hpos]
  rcases h.2 with ⟨hax, hbx⟩ | ⟨-, hax, hxb⟩
  · rw [hax, hbx, if_neg (lt_irrefl x)]
    constructor <;> linarith
  · have hratio : 0 ≤ (x - a.mean) / (b.mean - a.mean) ∧ (x - a.mean) / (b.mean - a.mean) ≤ 1 :=
      ⟨div_nonneg (sub_nonneg.mpr hax.le) (sub_nonneg.mpr (hax.trans hxb).le),
        div_le_one_of_le₀ (by linarith) (sub_nonneg.mpr (hax.trans hxb).le)⟩
    rw [if_pos (hax.trans hxb)]
    have hstep := mul_le_mul_of_nonneg_left hratio.2 (sub_nonneg.mpr hle)
    have hstep' := mul_nonneg (sub_nonneg.mpr hle) hratio.1
    constructor <;> linarith

/-- Two values that two pairs of centroids straddle in sorted centroids. -/
theorem interpolated_mono (hsorted : v.centroids.Pairwise fun c c' ↦ c.mean ≤ c'.mean)
    (hpos : 0 < v.centroidsWeight) (h : Straddles x i j a b) (ha : v.centroids[i]? = some a)
    (hb : v.centroids[j]? = some b) {i' j' : ℕ} {a' b' : Centroid ℚ}
    (h' : Straddles y i' j' a' b') (ha' : v.centroids[i']? = some a')
    (hb' : v.centroids[j']? = some b') (hxy : x < y) :
    v.interpolated x i j a b ≤ v.interpolated y i' j' a' b' := by
  have hweight : (0 : ℚ) < v.centroidsWeight := Nat.cast_pos.mpr hpos
  have hmono : ∀ {k l : ℕ} {c d : Centroid ℚ}, v.centroids[k]? = some c → v.centroids[l]? = some d → k ≤ l →
      c.mean ≤ d.mean := by
    intro k l c d hk hl hkl
    obtain ⟨hklt, rfl⟩ := List.getElem?_eq_some_iff.mp hk
    obtain ⟨hllt, rfl⟩ := List.getElem?_eq_some_iff.mp hl
    rcases hkl.eq_or_lt with rfl | hlt
    · exact le_rfl
    · exact List.pairwise_iff_getElem.mp hsorted k l hklt hllt hlt
  refine le_of_mul_le_mul_right ?_ hweight
  by_cases hji : j ≤ i'
  · -- the pairs come one after the other
    exact (interpolated_mem h ha hb hpos).2.trans
      ((centre_le_centre hb ha' hji).trans (interpolated_mem h' ha' hb' hpos).1)
  · -- the values lie between the same two neighbours
    rcases h.2 with ⟨-, hbx⟩ | ⟨rfl, hax, -⟩ <;> rcases h'.2 with ⟨hay, -⟩ | ⟨rfl, hay, hyb⟩
    · have hle := hmono ha' hb (not_le.mp hji).le
      rw [hay, hbx] at hle
      exact absurd hxy (not_lt.mpr hle)
    · have hle := hmono hb' hb (not_le.mp hji)
      rw [hbx] at hle
      exact absurd (hxy.trans hyb) (not_lt.mpr hle)
    · have hle := hmono ha' ha (Nat.le_of_lt_succ (not_le.mp hji))
      rw [hay] at hle
      exact absurd (hax.trans hxy) (not_lt.mpr hle)
    · rcases (Nat.le_of_lt_succ (not_le.mp hji)).eq_or_lt with rfl | hlt
      · cases ha.symm.trans ha'
        cases hb.symm.trans hb'
        have hab := hay.trans hyb
        rw [interpolated_mul h hpos, interpolated_mul h' hpos, if_pos hab, if_pos hab]
        have hstep := sub_nonneg.mpr (centre_le_centre ha hb h.1)
        have hwidth := sub_nonneg.mpr hab.le
        gcongr
      · have hle := hmono hb' ha hlt
        exact absurd (hyb.trans_le hle) (not_lt.mpr (hax.trans hxy).le)

end Exact

/-! ## The tails -/

/-- A view of a digest whose extremes were the given ones before it was compressed. -/
structure Framed (v : TDigestView ℚ) (lo hi : ℚ) (first last : Centroid ℚ) : Prop where
  head_eq : v.centroids.head? = some first
  last_eq : v.centroids.getLast? = some last
  sorted : v.centroids.Pairwise fun c c' ↦ c.mean ≤ c'.mean
  weight_eq : v.centroidsWeight = Centroid.totalWeight v.centroids
  min_eq : v.min = .finite (Min.min lo first.mean)
  max_eq : v.max = .finite (Max.max hi last.mean)

section Framed

variable {v : TDigestView ℚ} {lo hi x y r : ℚ} {first last : Centroid ℚ}

theorem Framed.weight_pos (h : v.Framed lo hi first last) : 0 < v.centroidsWeight := by
  rw [h.weight_eq]
  refine Nat.pos_of_ne_zero fun hzero ↦ ?_
  have hhead := h.head_eq
  rw [TDigestMut.totalWeight_eq_zero_iff.mp hzero] at hhead
  cases hhead

/-- Half of the last weight is less than the whole. -/
theorem Framed.half_lt (h : v.Framed lo hi first last) :
    (last.weight : ℕ) / 2 < (v.centroidsWeight : ℚ) := by
  have hlast := h.last_eq
  rw [List.getLast?_eq_getElem?] at hlast
  have hle := (centre_pos (v := v) (a := last)).trans_le (centre_le hlast h.last_eq)
  rw [h.weight_eq]
  linarith

theorem Framed.first_le_last (h : v.Framed lo hi first last) : first.mean ≤ last.mean := by
  obtain ⟨rest, hrest⟩ := List.head?_eq_some_iff.mp h.head_eq
  have hmem := List.mem_of_getLast? h.last_eq
  have hsorted := h.sorted
  rw [hrest] at hmem hsorted
  rcases List.mem_cons.mp hmem with rfl | hmem
  · exact le_rfl
  · exact (List.pairwise_cons.mp hsorted).1 last hmem

/-- The rank of a value between the extremes. -/
theorem Framed.rank_eq (h : v.Framed lo hi first last) (hlo : lo ≤ x) (hhi : x ≤ hi) :
    v.rank (.finite x) = if v.centroids.length = 1 then .ok (some (1 / 2))
      else if x < first.mean then .ok (some (v.leftTail x first))
      else if last.mean < x then .ok (some (v.rightTail x last))
      else v.rankBetween x := by
  have hmin : F64.lt (.finite x) v.min = false := by
    rw [h.min_eq]
    exact decide_eq_false (not_lt.mpr ((min_le_left lo first.mean).trans hlo))
  have hmax : v.max.lt (.finite x) = false := by
    rw [h.max_eq]
    exact decide_eq_false (not_lt.mpr (hhi.trans (le_max_left hi last.mean)))
  exact TDigestView.rank_eq h.head_eq h.last_eq rfl hmin hmax

theorem Framed.leftTail_eq (h : v.Framed lo hi first last) (hlo : lo ≤ x) (hlt : x < first.mean) :
    v.leftTail x first = if x = lo then 1 / 2 / (v.centroidsWeight : ℚ)
      else 1 + (x - lo) / (first.mean - lo) * ((first.weight : ℕ) / 2 - 1) := by
  have hmin : v.min.toRat = lo := by
    rw [h.min_eq, min_eq_left (hlo.trans hlt.le)]
    rfl
  rw [leftTail, val_rat, hmin, if_pos (sub_pos.mpr (hlo.trans_lt hlt))]

/-- The weight above a value in the right tail. -/
def weightAbove (hi x : ℚ) (last : Centroid ℚ) : ℚ :=
  if x = hi then 1 / 2 else 1 + (hi - x) / (hi - last.mean) * ((last.weight : ℕ) / 2 - 1)

theorem weightAbove_mem (hhi : x ≤ hi) (hlt : last.mean < x)
    (hheavy : x = hi ∨ 2 ≤ (last.weight : ℕ)) :
    0 ≤ weightAbove hi x last ∧ weightAbove hi x last ≤ (last.weight : ℕ) / 2 := by
  unfold weightAbove
  have hone := one_le_weight last
  by_cases hend : x = hi
  · rw [if_pos hend]
    constructor <;> linarith
  · have htwo : (2 : ℚ) ≤ (last.weight : ℕ) := by exact_mod_cast hheavy.resolve_left hend
    have hwidth : 0 < hi - last.mean := sub_pos.mpr (hlt.trans_le hhi)
    have hratio : 0 ≤ (hi - x) / (hi - last.mean) ∧ (hi - x) / (hi - last.mean) ≤ 1 :=
      ⟨div_nonneg (sub_nonneg.mpr hhi) hwidth.le, div_le_one_of_le₀ (by linarith) hwidth.le⟩
    have hextra : (0 : ℚ) ≤ (last.weight : ℕ) / 2 - 1 := by linarith
    have hlower := mul_nonneg hratio.1 hextra
    have hupper := mul_le_mul_of_nonneg_right hratio.2 hextra
    rw [if_neg hend]
    constructor <;> linarith

theorem weightAbove_anti (hheavy : 2 ≤ (last.weight : ℕ)) (hlt : last.mean < x) (hxy : x ≤ y)
    (hhi : y ≤ hi) : weightAbove hi y last ≤ weightAbove hi x last := by
  have htwo : (2 : ℚ) ≤ (last.weight : ℕ) := by exact_mod_cast hheavy
  have hextra : (0 : ℚ) ≤ (last.weight : ℕ) / 2 - 1 := by linarith
  have hwidth : 0 < hi - last.mean := sub_pos.mpr ((hlt.trans_le hxy).trans_le hhi)
  unfold weightAbove
  by_cases hx : x = hi
  · rw [if_pos hx, if_pos (le_antisymm hhi (hx.symm.trans_le hxy))]
  · rw [if_neg hx]
    have hx' := mul_nonneg (div_nonneg (sub_nonneg.mpr (hxy.trans hhi)) hwidth.le) hextra
    by_cases hy : y = hi
    · rw [if_pos hy]
      linarith
    · rw [if_neg hy]
      gcongr

theorem Framed.rightTail_eq (h : v.Framed lo hi first last) (hhi : x ≤ hi) (hlt : last.mean < x) :
    v.rightTail x last = 1 - weightAbove hi x last / v.centroidsWeight := by
  have hmax : v.max.toRat = hi := by
    rw [h.max_eq, max_eq_left (hlt.le.trans hhi)]
    rfl
  rw [rightTail, weightAbove, val_rat, hmax, if_pos (sub_pos.mpr (hlt.trans_le hhi))]
  split_ifs <;> rfl

/-- Between the first and the last mean, ranks stay below the last middle. -/
theorem Framed.exists_straddling (h : v.Framed lo hi first last) (hge : first.mean ≤ x)
    (hle : x ≤ last.mean) : ∃ i j a b, Straddles x i j a b ∧ v.centroids[i]? = some a ∧
      v.centroids[j]? = some b ∧ v.rankBetween x = .ok (some (v.interpolated x i j a b)) ∧
      0 ≤ v.interpolated x i j a b ∧
      v.interpolated x i j a b ≤ 1 - (last.weight : ℕ) / 2 / v.centroidsWeight := by
  have hpos : (0 : ℚ) < v.centroidsWeight := Nat.cast_pos.mpr h.weight_pos
  obtain ⟨i, j, a, b, hi, hj, ha, hb, hok⟩ := rankBetween_eq h.head_eq h.last_eq hge hle
  have hstraddles := straddles_of_at h.sorted hi hj ha hb
  obtain ⟨hlower, hupper⟩ := interpolated_mem hstraddles ha hb h.weight_pos
  refine ⟨i, j, a, b, hstraddles, ha, hb, hok, ?_, ?_⟩
  · exact le_of_mul_le_mul_right (by rw [zero_mul]; exact centre_pos.le.trans hlower) hpos
  · have hend := centre_le hb h.last_eq
    rw [← h.weight_eq] at hend
    refine le_of_mul_le_mul_right ((hupper.trans hend).trans_eq ?_) hpos
    rw [sub_mul, one_mul, div_mul_cancel₀ _ hpos.ne']

theorem Framed.rightTail_mem (h : v.Framed lo hi first last) (hhi : x ≤ hi)
    (hlt : last.mean < x) (hheavy : x = hi ∨ 2 ≤ (last.weight : ℕ)) :
    1 - (last.weight : ℕ) / 2 / v.centroidsWeight ≤ v.rightTail x last ∧
      0 ≤ v.rightTail x last ∧ v.rightTail x last ≤ 1 := by
  have hpos : (0 : ℚ) < v.centroidsWeight := Nat.cast_pos.mpr h.weight_pos
  obtain ⟨hnn, hle⟩ := weightAbove_mem hhi hlt hheavy
  have hdiv := div_le_div_of_nonneg_right hle hpos.le
  have hnn' := div_nonneg hnn hpos.le
  have hhalf := (div_lt_one hpos).mpr h.half_lt
  rw [h.rightTail_eq hhi hlt]
  refine ⟨?_, ?_, ?_⟩ <;> linarith

/-- A last centroid of two values or more has a tail that ascends. -/
theorem Framed.rightTail_mono (h : v.Framed lo hi first last) (hheavy : 2 ≤ (last.weight : ℕ))
    (hlt : last.mean < x) (hxy : x ≤ y) (hhi : y ≤ hi) :
    v.rightTail x last ≤ v.rightTail y last := by
  rw [h.rightTail_eq (hxy.trans hhi) hlt, h.rightTail_eq hhi (hlt.trans_le hxy)]
  exact sub_le_sub_left (div_le_div_of_nonneg_right (weightAbove_anti hheavy hlt hxy hhi)
    (Nat.cast_nonneg _)) 1

/-- There are no tails, or they ascend. -/
def TailsFit (n : ℕ) (lo hi : ℚ) (first last : Centroid ℚ) : Prop :=
  n = 1 ∨ hi ≤ lo ∨ first.mean ≤ lo ∧ (hi ≤ last.mean ∨ 2 ≤ (last.weight : ℕ))

/-- The rank of a value between the extremes, if the tails fit. -/
theorem Framed.rank_mem (h : v.Framed lo hi first last)
    (hfit : TailsFit v.centroids.length lo hi first last) (hlo : lo ≤ x) (hhi : x ≤ hi) :
    ∃ r, v.rank (.finite x) = .ok (some r) ∧ 0 ≤ r ∧ r ≤ 1 := by
  have hpos : (0 : ℚ) < v.centroidsWeight := Nat.cast_pos.mpr h.weight_pos
  have hone : (1 : ℚ) ≤ v.centroidsWeight := by exact_mod_cast h.weight_pos
  rw [h.rank_eq hlo hhi]
  split_ifs with hsingle hleft hright
  · exact ⟨1 / 2, rfl, by norm_num, by norm_num⟩
  · have hx : x = lo := by
      rcases hfit with hn | hle | ⟨hfirst, -⟩
      · exact absurd hn hsingle
      · exact le_antisymm (hhi.trans hle) hlo
      · exact absurd (hfirst.trans hlo) (not_le.mpr hleft)
    refine ⟨_, rfl, ?_⟩
    rw [h.leftTail_eq hlo hleft, if_pos hx]
    refine ⟨by positivity, ?_⟩
    rw [div_le_one hpos]
    linarith
  · have hheavy : x = hi ∨ 2 ≤ (last.weight : ℕ) := by
      rcases hfit with hn | hle | ⟨-, hle | hheavy⟩
      · exact absurd hn hsingle
      · exact Or.inl (le_antisymm hhi (hle.trans hlo))
      · exact absurd (hhi.trans hle) (not_le.mpr hright)
      · exact Or.inr hheavy
    exact ⟨_, rfl, (h.rightTail_mem hhi hright hheavy).2⟩
  · obtain ⟨i, j, a, b, -, -, -, hok, hnn, hle⟩ :=
      h.exists_straddling (not_lt.mp hleft) (not_lt.mp hright)
    have hhalf : (0 : ℚ) ≤ (last.weight : ℕ) / 2 / v.centroidsWeight := by positivity
    exact ⟨_, hok, hnn, by linarith⟩

/-- Ranks of values between the extremes ascend, if the tails fit. -/
theorem Framed.rank_mono (h : v.Framed lo hi first last)
    (hfit : TailsFit v.centroids.length lo hi first last) (hlo : lo ≤ x) (hxy : x ≤ y)
    (hhi : y ≤ hi) {s : ℚ} (hr : v.rank (.finite x) = .ok (some r))
    (hs : v.rank (.finite y) = .ok (some s)) : r ≤ s := by
  have hsame : x = y → r ≤ s := by
    rintro rfl
    cases hr.symm.trans hs
    exact le_rfl
  by_cases heq : x = y
  · exact hsame heq
  have hlt := lt_of_le_of_ne hxy heq
  rw [h.rank_eq hlo (hxy.trans hhi)] at hr
  rw [h.rank_eq (hlo.trans hxy) hhi] at hs
  by_cases hsingle : v.centroids.length = 1
  · rw [if_pos hsingle] at hr hs
    cases hr
    cases hs
    exact le_rfl
  rw [if_neg hsingle] at hr hs
  obtain ⟨hfirst, hright⟩ : first.mean ≤ lo ∧ (hi ≤ last.mean ∨ 2 ≤ (last.weight : ℕ)) := by
    rcases hfit with hn | hle | hfit
    · exact absurd hn hsingle
    · exact absurd (hlo.trans_lt (hlt.trans_le hhi)) (not_lt.mpr hle)
    · exact hfit
  rw [if_neg (not_lt.mpr (hfirst.trans hlo))] at hr
  rw [if_neg (not_lt.mpr (hfirst.trans (hlo.trans hxy)))] at hs
  have hheavy : last.mean < y → 2 ≤ (last.weight : ℕ) := fun habove ↦
    hright.resolve_left fun hle ↦ absurd (hhi.trans hle) (not_le.mpr habove)
  by_cases hx : last.mean < x
  · -- both are in the right tail
    rw [if_pos hx] at hr
    rw [if_pos (hx.trans hlt)] at hs
    cases hr
    cases hs
    exact h.rightTail_mono (hheavy (hx.trans hlt)) hx hxy hhi
  · rw [if_neg hx] at hr
    obtain ⟨i, j, a, b, hstraddles, ha, hb, hok, -, hle⟩ :=
      h.exists_straddling (hfirst.trans hlo) (not_lt.mp hx)
    cases hok.symm.trans hr
    by_cases hy : last.mean < y
    · rw [if_pos hy] at hs
      cases hs
      exact hle.trans (h.rightTail_mem hhi hy (Or.inr (hheavy hy))).1
    · rw [if_neg hy] at hs
      obtain ⟨i', j', a', b', hstraddles', ha', hb', hok', -, -⟩ :=
        h.exists_straddling (hfirst.trans (hlo.trans hxy)) (not_lt.mp hy)
      cases hok'.symm.trans hs
      exact interpolated_mono h.sorted h.weight_pos hstraddles ha hb hstraddles' ha' hb' hlt

/-- Tails that do not fit have a rank above one, or ranks that descend. -/
theorem Framed.exists_descent (h : v.Framed lo hi first last)
    (hfit : ¬ TailsFit v.centroids.length lo hi first last)
    (hheavy : 2 ≤ (first.weight : ℕ) → first.mean ≤ hi) :
    ∃ x y r s, lo ≤ x ∧ x < y ∧ y ≤ hi ∧ v.rank (.finite x) = .ok (some r) ∧
      v.rank (.finite y) = .ok (some s) ∧ s < r := by
  have hpos : (0 : ℚ) < v.centroidsWeight := Nat.cast_pos.mpr h.weight_pos
  obtain ⟨hsingle, hlohi, hrest⟩ : v.centroids.length ≠ 1 ∧ lo < hi ∧
      ¬ (first.mean ≤ lo ∧ (hi ≤ last.mean ∨ 2 ≤ (last.weight : ℕ))) := by
    unfold TailsFit at hfit
    push Not at hfit
    exact ⟨hfit.1, hfit.2.1, fun ⟨hle, hor⟩ ↦ hor.elim (not_le.mpr (hfit.2.2 hle).1)
      (not_le.mpr (hfit.2.2 hle).2)⟩
  have hfirstLast := h.first_le_last
  by_cases hleft : lo < first.mean
  · have hrank : ∀ {x}, lo < x → x < first.mean → x ≤ hi → v.rank (.finite x) =
        .ok (some (1 + (x - lo) / (first.mean - lo) * ((first.weight : ℕ) / 2 - 1))) := by
      intro x hx hlt hxhi
      rw [h.rank_eq hx.le hxhi, if_neg hsingle, if_pos hlt, h.leftTail_eq hx.le hlt,
        if_neg hx.ne']
    obtain ⟨t, hloT, htfirst, hthi⟩ : ∃ t, lo < t ∧ t < first.mean ∧ t ≤ hi := by
      obtain ⟨t, ht, ht'⟩ := exists_between (lt_min hleft hlohi)
      exact ⟨t, ht, ht'.trans_le (min_le_left _ _), (ht'.trans_le (min_le_right _ _)).le⟩
    by_cases htwo : 2 ≤ (first.weight : ℕ)
    · -- the rank is one at least, and falls below it at the first mean
      have hge := hheavy htwo
      obtain ⟨i, j, a, b, -, -, -, hok, -, hle⟩ := h.exists_straddling le_rfl hfirstLast
      have hfirst : v.rank (.finite first.mean) = .ok (some (v.interpolated first.mean i j a b)) := by
        rw [h.rank_eq hleft.le hge, if_neg hsingle, if_neg (lt_irrefl _),
          if_neg (not_lt.mpr hfirstLast), hok]
      refine ⟨t, first.mean, _, _, hloT.le, htfirst, hge, hrank hloT htfirst hthi, hfirst, ?_⟩
      have hhalf : (0 : ℚ) < (last.weight : ℕ) / 2 / v.centroidsWeight := by
        have hone := one_le_weight last
        positivity
      have htwo' : (2 : ℚ) ≤ (first.weight : ℕ) := by exact_mod_cast htwo
      have hextra : 0 ≤ (t - lo) / (first.mean - lo) * (((first.weight : ℕ) : ℚ) / 2 - 1) :=
        mul_nonneg (div_nonneg (sub_nonneg.mpr hloT.le) (sub_nonneg.mpr hleft.le)) (by linarith)
      linarith
    · -- the rank of a tail of one value falls from one to a half
      obtain ⟨s, hs, hst⟩ := exists_between hloT
      refine ⟨s, t, _, _, hs.le, hst, hthi, hrank hs (hst.trans htfirst) (hst.le.trans hthi),
        hrank hloT htfirst hthi, ?_⟩
      have hone : (first.weight : ℕ) = 1 := by
        have hpos := first.weight.pos
        omega
      rw [hone]
      have hratio : (s - lo) / (first.mean - lo) < (t - lo) / (first.mean - lo) :=
        div_lt_div_of_pos_right (by linarith) (sub_pos.mpr hleft)
      push_cast
      linarith
  · -- the rank of a tail of one value falls as its value goes up to the maximum
    obtain ⟨hlast, hone⟩ : last.mean < hi ∧ (last.weight : ℕ) = 1 := by
      push Not at hrest
      obtain ⟨hlt, hle⟩ := hrest (not_lt.mp hleft)
      have hpos := last.weight.pos
      exact ⟨hlt, by omega⟩
    have hrank : ∀ {x}, lo ≤ x → last.mean < x → x < hi → v.rank (.finite x) =
        .ok (some (1 - (1 + (hi - x) / (hi - last.mean) * (((last.weight : ℕ) : ℚ) / 2 - 1)) /
          v.centroidsWeight)) := by
      intro x hx hlt hxhi
      rw [h.rank_eq hx hxhi.le, if_neg hsingle,
        if_neg (not_lt.mpr (hfirstLast.trans hlt.le)), if_pos hlt, h.rightTail_eq hxhi.le hlt,
        weightAbove, if_neg hxhi.ne]
    obtain ⟨t, ht, hthi⟩ := exists_between (max_lt hlast hlohi)
    obtain ⟨s, hs, hst⟩ := exists_between ht
    obtain ⟨hslast, hslo⟩ := max_lt_iff.mp hs
    refine ⟨s, t, _, _, hslo.le, hst, hthi.le, hrank hslo.le hslast (hst.trans hthi),
      hrank (hslo.trans hst).le (hslast.trans hst) hthi, ?_⟩
    have hratio : (hi - t) / (hi - last.mean) < (hi - s) / (hi - last.mean) :=
      div_lt_div_of_pos_right (by linarith) (sub_pos.mpr hlast)
    rw [hone]
    refine sub_lt_sub_left (div_lt_div_of_pos_right ?_ hpos) 1
    push_cast
    linarith

end Framed

end TDigestView

end DataSketches
