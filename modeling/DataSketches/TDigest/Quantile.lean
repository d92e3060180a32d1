import DataSketches.TDigest.Bounded
import DataSketches.TDigest.Exact

/-!
# Quantiles

Between two neighbouring centroids a quantile is a weighted mean, in which each
mean is weighted with the distance to itself.  So it moves from the greater mean to
the lesser one: quantiles ascend only where nothing is interpolated, between single
values and between equal means.
-/

namespace DataSketches

open Runs FloatFormat StableSort

/-! ## A weighted mean -/

theorem weightedAverage_eq {x y v w : ℚ} (h : v + w ≠ 0) :
    weightedAverage x v y w = (x * v + y * w) / (v + w) := by
  unfold weightedAverage
  dsimp only
  split_ifs
  · field_simp
    ring
  · field_simp
    ring

/-- The mean lies between the numbers. -/
theorem weightedAverage_mem {x y v w : ℚ} (hxy : x ≤ y) (hv : 0 ≤ v) (hw : 0 < w) :
    x ≤ weightedAverage x v y w ∧ weightedAverage x v y w ≤ y := by
  have hsum : 0 < v + w := add_pos_of_nonneg_of_pos hv hw
  rw [weightedAverage_eq hsum.ne']
  constructor
  · rw [le_div_iff₀ hsum]
    linarith [mul_le_mul_of_nonneg_right hxy hw.le]
  · rw [div_le_iff₀ hsum]
    linarith [mul_le_mul_of_nonneg_right hxy hv]

theorem weightedAverage_self {x v w : ℚ} (h : v + w ≠ 0) : weightedAverage x v x w = x := by
  rw [weightedAverage_eq h, ← mul_add, mul_div_assoc, div_self h, mul_one]

namespace TDigestView

/-! ## Between two centroids -/

instance (a b : Centroid ℚ) : Decidable (Level a b) := inferInstanceAs (Decidable (_ ∨ _))

variable {w w' s : ℚ} {a b : Centroid ℚ} {rest : List (Centroid ℚ)}

theorem one_le_weight (c : Centroid ℚ) : (1 : ℚ) ≤ (c.weight : ℕ) := by
  exact_mod_cast c.weight.pos

theorem one_le_step (a b : Centroid ℚ) : 1 ≤ step a b := by
  have ha := one_le_weight a
  have hb := one_le_weight b
  rw [step]
  linarith

/-- Both distances that are weighted with. -/
theorem distances (hs : s ≤ w) (hlt : w < s + step a b) (ha : ¬ ((a.weight : ℕ) = 1 ∧ w - s < 1 / 2))
    (hb : ¬ ((b.weight : ℕ) = 1 ∧ s + step a b - w ≤ 1 / 2)) :
    0 ≤ w - s - unitHalf a ∧ 0 < s + step a b - w - unitHalf b := by
  unfold unitHalf
  constructor
  · split_ifs with hone
    · have hge := not_lt.mp fun h ↦ ha ⟨hone, h⟩
      linarith
    · linarith
  · split_ifs with hone
    · have hgt := not_le.mp fun h ↦ hb ⟨hone, h⟩
      linarith
    · linarith

theorem between_mem (hs : s ≤ w) (hlt : w < s + step a b) (hab : a.mean ≤ b.mean) :
    a.mean ≤ between w s a b ∧ between w s a b ≤ b.mean := by
  unfold between
  split_ifs with ha hb
  · exact ⟨le_rfl, hab⟩
  · exact ⟨hab, le_rfl⟩
  · obtain ⟨hv, hw⟩ := distances hs hlt ha hb
    exact weightedAverage_mem hab hv hw

/-- Where nothing is interpolated, quantiles ascend. -/
theorem between_mono (h : Level a b) (hab : a.mean ≤ b.mean) (hs : s ≤ w) (hww' : w ≤ w')
    (hlt : w' < s + step a b) : between w s a b ≤ between w' s a b := by
  rcases h with ⟨ha, hb⟩ | heq
  · have hstep : step a b = 1 := by
      rw [step, ha, hb]
      norm_num
    unfold between
    rw [hstep]
    by_cases hlow : w - s < 1 / 2
    · rw [if_pos ⟨ha, hlow⟩]
      split_ifs with ha' hb'
      · exact le_rfl
      · exact hab
      · exact absurd ⟨hb, by linarith [not_lt.mp fun h ↦ ha' ⟨ha, h⟩]⟩ hb'
    · have hge := not_lt.mp hlow
      rw [if_neg fun h ↦ hlow h.2, if_pos ⟨hb, by linarith⟩,
        if_neg fun h ↦ absurd h.2 (by linarith), if_pos ⟨hb, by linarith⟩]
  · have hlow := (between_mem hs (hww'.trans_lt hlt) hab).2
    have hhigh := (between_mem (hs.trans hww') hlt hab).1
    rw [← heq] at hlow
    exact hlow.trans hhigh

/-- Where two different means are interpolated, they do not. -/
theorem exists_descent (h : ¬ Level a b) (hab : a.mean ≤ b.mean) (s : ℚ) :
    ∃ w w', s + unitHalf a ≤ w ∧ w < w' ∧ w' ≤ s + step a b - unitHalf b ∧ w' < s + step a b ∧
      between w' s a b < between w s a b := by
  have hne : a.mean < b.mean := lt_of_le_of_ne hab fun heq ↦ h (.inr heq)
  obtain ⟨L, hL⟩ : ∃ L, step a b - unitHalf a - unitHalf b = L := ⟨_, rfl⟩
  have hpos : 0 < L := by
    rw [← hL, step, unitHalf, unitHalf]
    have ha := one_le_weight a
    have hb := one_le_weight b
    split_ifs with hone hone' hone'
    · exact absurd (.inl ⟨hone, hone'⟩) h
    all_goals linarith
  have hhalf : ∀ c : Centroid ℚ, 0 ≤ unitHalf c := by
    intro c
    unfold unitHalf
    split_ifs <;> norm_num
  have hone : ∀ {c : Centroid ℚ}, (c.weight : ℕ) = 1 → unitHalf c = 1 / 2 := fun hc ↦ if_pos hc
  have ha := hhalf a
  have hb := hhalf b
  -- a third and two thirds of the way
  have hvalue : ∀ x y, 0 < x → 0 < y → x + y = L →
      between (s + unitHalf a + x) s a b = (a.mean * x + b.mean * y) / L := by
    intro x y hx hy hxy
    have hv : s + unitHalf a + x - s - unitHalf a = x := by ring
    have hw : s + step a b - (s + unitHalf a + x) - unitHalf b = y := by linarith
    rw [between, if_neg, if_neg, hv, hw, weightedAverage_eq (by linarith), hxy]
    · rintro ⟨hb1, hle⟩
      rw [hone hb1] at hw
      linarith
    · rintro ⟨ha1, hlt⟩
      rw [hone ha1] at hlt
      linarith
  refine ⟨s + unitHalf a + L / 3, s + unitHalf a + 2 * L / 3, by linarith, by linarith,
    by linarith, by linarith, ?_⟩
  rw [hvalue (L / 3) (2 * L / 3) (by linarith) (by linarith) (by ring),
    hvalue (2 * L / 3) (L / 3) (by linarith) (by linarith) (by ring)]
  rw [div_lt_div_iff_of_pos_right hpos]
  linarith [mul_pos (sub_pos.mpr hne) hpos]

/-! ## Between the first and the last centroid -/

/-- The weight from the middle of the first centroid to the middle of the last one. -/
def span : Centroid ℚ → List (Centroid ℚ) → ℚ
  | _, [] => 0
  | a, b :: rest => step a b + span b rest

theorem span_nonneg (a : Centroid ℚ) (rest : List (Centroid ℚ)) : 0 ≤ span a rest := by
  induction rest generalizing a with
  | nil => exact le_rfl
  | cons b rest ih =>
      have hstep := one_le_step a b
      have hrest := ih b
      rw [span]
      linarith

theorem span_eq {last : Centroid ℚ} (h : (a :: rest).getLast? = some last) :
    span a rest = Centroid.totalWeight (a :: rest) - (a.weight : ℕ) / 2 - (last.weight : ℕ) / 2 := by
  induction rest generalizing a with
  | nil =>
      obtain rfl : a = last := Option.some.inj h
      rw [span, Centroid.totalWeight_cons, Centroid.totalWeight_nil, Nat.add_zero]
      ring
  | cons b rest ih =>
      rw [List.getLast?_cons_cons] at h
      rw [span, ih h, step, Centroid.totalWeight_cons a]
      push_cast
      ring

/-- A weight that the centroids cover has a quantile, between their means. -/
theorem quantileBetween_mem (h : (a :: rest).Pairwise fun c c' ↦ c.mean ≤ c'.mean) (hs : s ≤ w)
    (hlt : w < s + span a rest) : ∃ q, quantileBetween w s a rest = some q ∧ a.mean ≤ q ∧
      ∀ y, (∀ c ∈ a :: rest, c.mean ≤ y) → q ≤ y := by
  induction rest generalizing a s with
  | nil =>
      rw [span, add_zero] at hlt
      exact absurd hs (not_le.mpr hlt)
  | cons b rest ih =>
      obtain ⟨hfirst, htail⟩ := List.pairwise_cons.mp h
      have hab := hfirst b List.mem_cons_self
      rw [quantileBetween_cons]
      by_cases hcell : w < s + step a b
      · rw [if_pos hcell]
        obtain ⟨hlow, hhigh⟩ := between_mem hs hcell hab
        exact ⟨_, rfl, hlow, fun y hy ↦ hhigh.trans (hy b (by simp))⟩
      · rw [if_neg hcell]
        rw [span, ← add_assoc] at hlt
        obtain ⟨q, hq, hlow, hhigh⟩ := ih htail (not_lt.mp hcell) hlt
        exact ⟨q, hq, hab.trans hlow, fun y hy ↦ hhigh y fun c hc ↦ hy c (List.mem_cons_of_mem _ hc)⟩

/-- Where nothing is interpolated between any two neighbours, quantiles ascend. -/
theorem quantileBetween_mono (h : (a :: rest).Pairwise fun c c' ↦ c.mean ≤ c'.mean)
    (hlevel : (a :: rest).IsChain Level) (hs : s ≤ w) (hww' : w ≤ w') (hlt : w' < s + span a rest)
    {q q' : ℚ} (hq : quantileBetween w s a rest = some q)
    (hq' : quantileBetween w' s a rest = some q') : q ≤ q' := by
  induction rest generalizing a s with
  | nil => cases hq
  | cons b rest ih =>
      obtain ⟨hfirst, htail⟩ := List.pairwise_cons.mp h
      obtain ⟨hlevel_ab, hlevel_tail⟩ := List.isChain_cons_cons.mp hlevel
      have hab := hfirst b List.mem_cons_self
      rw [span, ← add_assoc] at hlt
      rw [quantileBetween_cons] at hq hq'
      by_cases hcell' : w' < s + step a b
      · rw [if_pos (hww'.trans_lt hcell')] at hq
        rw [if_pos hcell'] at hq'
        cases hq
        cases hq'
        exact between_mono hlevel_ab hab hs hww' hcell'
      · rw [if_neg hcell'] at hq'
        by_cases hcell : w < s + step a b
        · rw [if_pos hcell] at hq
          cases hq
          obtain ⟨q'', hq'', hlow, -⟩ := quantileBetween_mem htail (not_lt.mp hcell') hlt
          cases hq'.symm.trans hq''
          exact (between_mem hs hcell hab).2.trans hlow
        · rw [if_neg hcell] at hq
          exact ih htail hlevel_tail (not_lt.mp hcell) hlt hq hq'

/-- Where something is, they do not; the two weights are at least half a single value away from
the ends if these are single values. -/
theorem exists_descent_between (h : (a :: rest).Pairwise fun c c' ↦ c.mean ≤ c'.mean)
    (hlevel : ¬ (a :: rest).IsChain Level) (hlast : ∀ c ∈ (a :: rest).getLast?, (c.weight : ℕ) = 1)
    (s : ℚ) : ∃ w w' q q', s + unitHalf a ≤ w ∧ w < w' ∧ w' ≤ s + span a rest - 1 / 2 ∧
      quantileBetween w s a rest = some q ∧ quantileBetween w' s a rest = some q' ∧ q' < q := by
  induction rest generalizing a s with
  | nil => exact absurd (List.isChain_singleton a) hlevel
  | cons b rest ih =>
      obtain ⟨hfirst, htail⟩ := List.pairwise_cons.mp h
      have hab := hfirst b List.mem_cons_self
      rw [List.getLast?_cons_cons] at hlast
      rw [List.isChain_cons_cons, not_and_or] at hlevel
      by_cases hlevel_ab : Level a b
      · obtain ⟨w, w', q, q', hw, hww', hw', hq, hq', hlt⟩ :=
          ih htail (hlevel.resolve_left (not_not.mpr hlevel_ab)) hlast (s + step a b)
        have hhalf : ∀ c, 0 ≤ unitHalf c ∧ unitHalf c ≤ 1 / 2 := by
          intro c
          unfold unitHalf
          split_ifs <;> norm_num
        have hstep := one_le_step a b
        have hcell : ∀ v, w ≤ v → ¬ v < s + step a b := fun v hv ↦
          not_lt.mpr (by linarith [(hhalf b).1])
        refine ⟨w, w', q, q', ?_, hww', ?_, ?_, ?_, hlt⟩
        · linarith [(hhalf a).2, (hhalf b).1]
        · rw [span]
          linarith
        · rw [quantileBetween_cons, if_neg (hcell w le_rfl), hq]
        · rw [quantileBetween_cons, if_neg (hcell w' hww'.le), hq']
      · obtain ⟨w, w', hw, hww', hw', hcell, hlt⟩ := exists_descent hlevel_ab hab s
        refine ⟨w, w', _, _, hw, hww', ?_, ?_, ?_, hlt⟩
        · -- the last centroid is `b`, or follows it at some distance
          cases rest with
          | nil =>
              have hb : unitHalf b = 1 / 2 := if_pos (hlast b rfl)
              rw [span, span]
              linarith
          | cons c rest =>
              have hstep := one_le_step b c
              have hrest := span_nonneg c rest
              rw [span, span]
              linarith
        · rw [quantileBetween_cons, if_pos (hww'.trans hcell)]
        · rw [quantileBetween_cons, if_pos hcell]

/-! ## All weights -/

/-- A view of a digest whose extreme values are centroids of their own. -/
structure Ended (v : TDigestView ℚ) (x y : ℚ) : Prop where
  min_eq : v.min = .finite x
  max_eq : v.max = .finite y
  sorted : v.centroids.Pairwise fun c c' ↦ c.mean ≤ c'.mean
  first : ∃ c, v.centroids.head? = some c ∧ (c.weight : ℕ) = 1 ∧ c.mean = x
  last : ∃ c, v.centroids.getLast? = some c ∧ (c.weight : ℕ) = 1 ∧ c.mean = y
  weight_eq : v.centroidsWeight = Centroid.totalWeight v.centroids

variable {v : TDigestView ℚ} {x y r : ℚ}

/-- The only centroid is every quantile. -/
theorem Ended.quantile_single (h : v.Ended x y) (hr : 0 ≤ r ∧ r ≤ 1)
    (hone : v.centroids.length = 1) : v.quantile r = .ok (some x) ∧ x = y := by
  obtain ⟨c, hc⟩ := List.length_eq_one_iff.mp hone
  obtain ⟨f, hf, -, hfx⟩ := h.first
  obtain ⟨l, hl, -, hly⟩ := h.last
  rw [hc] at hf hl
  obtain rfl : c = f := Option.some.inj hf
  obtain rfl : c = l := Option.some.inj hl
  refine ⟨?_, hfx.symm.trans hly⟩
  rw [quantile, assert_pos hr, ok_bind, hc]
  change (Except.ok (some (val c.mean)) : Checked (Option ℚ)) = _
  rw [hfx]
  rfl

/-- Of several centroids, the extreme values are the quantiles of the weights of one at both ends,
and those between are found between the centroids. -/
theorem Ended.quantile_eq (h : v.Ended x y) (hr : 0 ≤ r ∧ r ≤ 1) {a b : Centroid ℚ}
    {rest : List (Centroid ℚ)} (hcs : v.centroids = a :: b :: rest) :
    (r * v.centroidsWeight < 1 → v.quantile r = .ok (some x)) ∧
    (1 ≤ r * v.centroidsWeight → r * v.centroidsWeight > v.centroidsWeight - 1 →
      v.quantile r = .ok (some y)) ∧
    ∀ q, 1 ≤ r * v.centroidsWeight → r * v.centroidsWeight ≤ v.centroidsWeight - 1 →
      quantileBetween (r * v.centroidsWeight) (1 / 2) a (b :: rest) = some q →
      v.quantile r = .ok (some q) := by
  obtain ⟨f, hf, hfone, -⟩ := h.first
  obtain ⟨l, hl, hlone, -⟩ := h.last
  obtain ⟨hfirst, hlast⟩ := TDigestMut.centroidAt_ends hf hl
  rw [hcs] at hf
  obtain rfl : a = f := Option.some.inj hf
  have hne : v.centroids.isEmpty = false := by
    rw [hcs]
    rfl
  have hlen : ¬ v.centroids.length = 1 := by
    rw [hcs]
    exact fun hone ↦ by cases hone
  have hmin : v.min.toRat = x := by
    rw [h.min_eq]
    rfl
  have hmax : v.max.toRat = y := by
    rw [h.max_eq]
    rfl
  have ha : ¬ ((a.weight : ℕ) : ℚ) > 1 := by
    rw [hfone]
    norm_num
  have hl : ¬ ((l.weight : ℕ) : ℚ) > 1 := by
    rw [hlone]
    norm_num
  have hhalf : ((a.weight : ℕ) : ℚ) / 2 = 1 / 2 := by
    rw [hfone]
    norm_num
  rw [quantile, assert_pos hr, ok_bind, hne, if_neg Bool.false_ne_true, hfirst, ok_bind, if_neg hlen]
  refine ⟨fun hlow ↦ ?_, fun hge hhigh ↦ ?_, fun q hge hle hq ↦ ?_⟩
  · rw [if_pos hlow, hmin]
    rfl
  · rw [if_neg (not_lt.mpr hge), if_pos hhigh, hmax]
    rfl
  · rw [if_neg (not_lt.mpr hge), if_neg (not_lt.mpr hle), if_neg fun hbad ↦ ha hbad.1, hlast,
      ok_bind, if_neg fun hbad ↦ hl hbad.1, hhalf]
    have hdrop : v.centroids.drop 1 = b :: rest := by
      rw [hcs]
      rfl
    rw [hdrop, hq]
    rfl

/-- The middles of the first and the last of several centroids are half a value away from the
ends. -/
theorem Ended.several (h : v.Ended x y) {a b : Centroid ℚ} {rest : List (Centroid ℚ)}
    (hcs : v.centroids = a :: b :: rest) :
    ((a.weight : ℕ) = 1 ∧ a.mean = x) ∧ (∀ c ∈ (a :: b :: rest).getLast?, (c.weight : ℕ) = 1) ∧
      1 / 2 + span a (b :: rest) = v.centroidsWeight - 1 / 2 ∧ 2 ≤ (v.centroidsWeight : ℚ) := by
  obtain ⟨f, hf, hfone, hfx⟩ := h.first
  obtain ⟨l, hl, hlone, -⟩ := h.last
  rw [hcs] at hf hl
  obtain rfl : a = f := Option.some.inj hf
  have hspan : 1 / 2 + span a (b :: rest) = v.centroidsWeight - 1 / 2 := by
    rw [span_eq hl, hfone, hlone, ← hcs, ← h.weight_eq]
    push_cast
    ring
  refine ⟨⟨hfone, hfx⟩, fun c hc ↦ ?_, hspan, ?_⟩
  · cases hl.symm.trans hc
    exact hlone
  · have hstep := one_le_step a b
    have hrest := span_nonneg b rest
    rw [span] at hspan
    linarith

/-- All means lie between the extreme values. -/
theorem Ended.means (h : v.Ended x y) : x ≤ y ∧ ∀ c ∈ v.centroids, c.mean ≤ y := by
  obtain ⟨f, hf, -, hfx⟩ := h.first
  obtain ⟨l, hl, -, hly⟩ := h.last
  have hsorted := h.sorted
  have hle : ∀ c ∈ v.centroids, c.mean ≤ y := by
    intro c hc
    rw [← List.dropLast_append_getLast? l hl] at hc hsorted
    rcases List.mem_append.mp hc with hc | hc
    · exact hly ▸ (List.pairwise_append.mp hsorted).2.2 c hc l List.mem_cons_self
    · rw [List.mem_singleton.mp hc]
      exact hly.le
  exact ⟨hfx ▸ hle f (List.mem_of_mem_head? hf), hle⟩

/-- A weight that is not at the ends has a quantile between the centroids. -/
theorem Ended.quantile_middle (h : v.Ended x y) (hr : 0 ≤ r ∧ r ≤ 1) {a b : Centroid ℚ}
    {rest : List (Centroid ℚ)} (hcs : v.centroids = a :: b :: rest)
    (hge : 1 ≤ r * v.centroidsWeight) (hle : r * v.centroidsWeight ≤ v.centroidsWeight - 1) :
    ∃ q, quantileBetween (r * v.centroidsWeight) (1 / 2) a (b :: rest) = some q ∧
      v.quantile r = .ok (some q) ∧ x ≤ q ∧ q ≤ y := by
  obtain ⟨⟨-, hfx⟩, -, hspan, -⟩ := h.several hcs
  obtain ⟨q, hq, hlow, hhigh⟩ := quantileBetween_mem (w := r * v.centroidsWeight) (s := 1 / 2)
    (hcs ▸ h.sorted) (by linarith) (by linarith)
  exact ⟨q, hq, (h.quantile_eq hr hcs).2.2 q hge hle hq, hfx ▸ hlow,
    hhigh y (hcs ▸ h.means.2)⟩

theorem Ended.quantile_mem (h : v.Ended x y) (hr : 0 ≤ r ∧ r ≤ 1) :
    ∃ q, v.quantile r = .ok (some q) ∧ x ≤ q ∧ q ≤ y := by
  have hxy := h.means.1
  obtain ⟨f, hf, -⟩ := h.first
  match hcs : v.centroids with
  | [] =>
      rw [hcs] at hf
      cases hf
  | [a] => exact ⟨x, (h.quantile_single hr (by rw [hcs]; rfl)).1, le_rfl, hxy⟩
  | a :: b :: rest =>
      obtain ⟨hmin, hmax, -⟩ := h.quantile_eq hr hcs
      by_cases hlow : r * v.centroidsWeight < 1
      · exact ⟨x, hmin hlow, le_rfl, hxy⟩
      · by_cases hhigh : r * v.centroidsWeight > v.centroidsWeight - 1
        · exact ⟨y, hmax (not_lt.mp hlow) hhigh, hxy, le_rfl⟩
        · obtain ⟨q, -, hq⟩ := h.quantile_middle hr hcs (not_lt.mp hlow) (not_lt.mp hhigh)
          exact ⟨q, hq⟩

theorem Ended.quantile_ends (h : v.Ended x y) :
    v.quantile 0 = .ok (some x) ∧ v.quantile 1 = .ok (some y) := by
  obtain ⟨f, hf, -⟩ := h.first
  match hcs : v.centroids with
  | [] =>
      rw [hcs] at hf
      cases hf
  | [a] =>
      have hone : v.centroids.length = 1 := by
        rw [hcs]
        rfl
      obtain ⟨hzero, hxy⟩ := h.quantile_single ⟨le_rfl, zero_le_one⟩ hone
      exact ⟨hzero, hxy ▸ (h.quantile_single ⟨zero_le_one, le_rfl⟩ hone).1⟩
  | a :: b :: rest =>
      obtain ⟨-, -, -, hpos⟩ := h.several hcs
      exact ⟨(h.quantile_eq ⟨le_rfl, zero_le_one⟩ hcs).1 (by linarith),
        (h.quantile_eq ⟨zero_le_one, le_rfl⟩ hcs).2.1 (by linarith) (by linarith)⟩

/-- Where nothing is interpolated, quantiles ascend, -/
theorem Ended.quantile_mono (h : v.Ended x y) (hlevel : v.centroids.IsChain Level) {r' q q' : ℚ}
    (hr : 0 ≤ r) (hrr' : r ≤ r') (hr' : r' ≤ 1) (hq : v.quantile r = .ok (some q))
    (hq' : v.quantile r' = .ok (some q')) : q ≤ q' := by
  have hrange : 0 ≤ r ∧ r ≤ 1 := ⟨hr, hrr'.trans hr'⟩
  have hrange' : 0 ≤ r' ∧ r' ≤ 1 := ⟨hr.trans hrr', hr'⟩
  obtain ⟨p, hp, -, hpy⟩ := h.quantile_mem hrange
  obtain ⟨p', hp', hxp', -⟩ := h.quantile_mem hrange'
  cases hq.symm.trans hp
  cases hq'.symm.trans hp'
  obtain ⟨f, hf, -⟩ := h.first
  match hcs : v.centroids with
  | [] =>
      rw [hcs] at hf
      cases hf
  | [a] =>
      have hone : v.centroids.length = 1 := by
        rw [hcs]
        rfl
      cases hq.symm.trans (h.quantile_single hrange hone).1
      exact hxp'
  | a :: b :: rest =>
      obtain ⟨-, -, hspan, hpos⟩ := h.several hcs
      have hww' : r * v.centroidsWeight ≤ r' * v.centroidsWeight :=
        mul_le_mul_of_nonneg_right hrr' (by linarith)
      by_cases hlow : r * v.centroidsWeight < 1
      · cases hq.symm.trans ((h.quantile_eq hrange hcs).1 hlow)
        exact hxp'
      · have hge := not_lt.mp hlow
        by_cases hhigh : r' * v.centroidsWeight > v.centroidsWeight - 1
        · cases hq'.symm.trans ((h.quantile_eq hrange' hcs).2.1 (hge.trans hww') hhigh)
          exact hpy
        · have hle := not_lt.mp hhigh
          obtain ⟨m, hm, hqm, -⟩ := h.quantile_middle hrange hcs hge (hww'.trans hle)
          obtain ⟨m', hm', hqm', -⟩ := h.quantile_middle hrange' hcs (hge.trans hww') hle
          cases hq.symm.trans hqm
          cases hq'.symm.trans hqm'
          exact quantileBetween_mono (hcs ▸ h.sorted) (hcs ▸ hlevel) (by linarith) hww'
            (by linarith) hm hm'

/-- and where something is, they do not. -/
theorem Ended.exists_descent (h : v.Ended x y) (hlevel : ¬ v.centroids.IsChain Level) :
    ∃ r r' q q', 0 ≤ r ∧ r ≤ r' ∧ r' ≤ 1 ∧ v.quantile r = .ok (some q) ∧
      v.quantile r' = .ok (some q') ∧ q' < q := by
  match hcs : v.centroids with
  | [] =>
      rw [hcs] at hlevel
      exact absurd List.isChain_nil hlevel
  | [a] =>
      rw [hcs] at hlevel
      exact absurd (List.isChain_singleton a) hlevel
  | a :: b :: rest =>
      obtain ⟨⟨hone, -⟩, hlast, hspan, hpos⟩ := h.several hcs
      obtain ⟨w, w', q, q', hw, hww', hw', hq, hq', hlt⟩ :=
        exists_descent_between (hcs ▸ h.sorted) (hcs ▸ hlevel) hlast (1 / 2)
      have hhalf : unitHalf a = 1 / 2 := if_pos hone
      have hweight : w / v.centroidsWeight * v.centroidsWeight = w :=
        div_mul_cancel₀ _ (by linarith)
      have hweight' : w' / v.centroidsWeight * v.centroidsWeight = w' :=
        div_mul_cancel₀ _ (by linarith)
      have hr : 0 ≤ w / v.centroidsWeight := div_nonneg (by linarith) (by linarith)
      have hrr' : w / v.centroidsWeight ≤ w' / v.centroidsWeight :=
        div_le_div_of_nonneg_right hww'.le (by linarith)
      have hr' : w' / v.centroidsWeight ≤ 1 := (div_le_one (by linarith)).mpr (by linarith)
      have hread := (h.quantile_eq ⟨hr, hrr'.trans hr'⟩ hcs).2.2 q
      have hread' := (h.quantile_eq ⟨hr.trans hrr', hr'⟩ hcs).2.2 q'
      rw [hweight] at hread
      rw [hweight'] at hread'
      exact ⟨_, _, q, q', hr, hrr', hr', hread (by linarith) (by linarith) hq,
        hread' (by linarith) (by linarith) hq', hlt⟩

end TDigestView

/-! ## Quantiles of a digest -/

namespace TDigestMut

variable {scale : ScaleFunction} {codec : F64Codec ℚ} {vs : Multiset ℚ} {d d' : TDigestMut ℚ}

/-- What quantiles are to be of a digest with the given minimum and maximum. -/
structure Ascending (scale : ScaleFunction) (d : TDigestMut ℚ) (x y : ℚ) : Prop where
  within : ∀ r, 0 ≤ r ∧ r ≤ 1 →
    ∃ d' q, d.quantile scale r = .ok (d', some q) ∧ x ≤ q ∧ q ≤ y
  zero : ∃ d', d.quantile scale 0 = .ok (d', some x)
  one : ∃ d', d.quantile scale 1 = .ok (d', some y)
  mono : ∀ r r' d₁ d₂ q q', 0 ≤ r → r ≤ r' → r' ≤ 1 → d.quantile scale r = .ok (d₁, some q) →
    d.quantile scale r' = .ok (d₂, some q') → q ≤ q'

/-- The extreme values of a compressed digest are centroids of their own. -/
theorem Stands.ended (h : Stands vs d) (hd : d.Shape) (hnil : d.buffer.unmerged = [])
    {x y : ℚ} (hx : d.min = .finite x) (hy : d.max = .finite y) :
    TDigestView.Ended ⟨d.min, d.max, d.buffer.compressed, d.compressedWeight⟩ x y := by
  have hrep := h.contents
  rw [TDigestMut.contents, hnil, List.nil_append] at hrep
  have hmin := h.isMin
  have hmax := h.isMax
  rw [hx] at hmin
  rw [hy] at hmax
  have hne : d.buffer.compressed ≠ [] := by
    intro hempty
    rw [hempty] at hrep
    rw [hrep.eq_zero] at hmin
    exact absurd hmin.1 (Multiset.notMem_zero x)
  refine ⟨hx, hy, h.sorted, ?_, ?_, hd.compressedWeight_eq⟩
  · obtain ⟨c, hc⟩ : ∃ c, d.buffer.compressed.head? = some c :=
      Option.ne_none_iff_exists'.mp fun hnone ↦ hne (List.head?_eq_none_iff.mp hnone)
    obtain ⟨hone, hmem, hle⟩ := hrep.first c ((firstMin_of_pairwise h.sorted).trans hc)
    exact ⟨c, hc, PNat.coe_eq_one_iff.mpr hone, le_antisymm (hle x hmin.1) (hmin.2 _ hmem)⟩
  · obtain ⟨c, hc⟩ : ∃ c, d.buffer.compressed.getLast? = some c :=
      Option.ne_none_iff_exists'.mp fun hnone ↦ hne (List.getLast?_eq_none_iff.mp hnone)
    obtain ⟨hone, hmem, hle⟩ := hrep.last c ((lastMax_of_pairwise h.sorted).trans hc)
    exact ⟨c, hc, PNat.coe_eq_one_iff.mpr hone, le_antisymm (hmax.2 _ hmem) (hle y hmax.1)⟩

theorem quantile_eq (hne : d.isEmpty = false) {r : ℚ} (hr : 0 ≤ r ∧ r ≤ 1) {v : TDigestView ℚ}
    (hview : d.view scale = .ok (d', v)) :
    d.quantile scale r = (fun q ↦ (d', q)) <$> v.quantile r := by
  rw [quantile, assert_pos hr, ok_bind, hne, if_neg Bool.false_ne_true, hview, ok_bind]
  rfl

/-! ## Quantiles that descend -/

/-- Receives one value after the other. -/
def updates (scale : ScaleFunction) (d : TDigestMut ℚ) (us : List ℚ) : Checked (TDigestMut ℚ) :=
  us.foldlM (fun d u ↦ d.update scale (.finite u)) d

theorem reachable_updates {us : List ℚ} (h : Reachable codec scale vs d)
    (hok : updates scale d us = .ok d') : Reachable codec scale (us + vs) d' := by
  induction us generalizing vs d with
  | nil =>
      cases hok
      rw [Multiset.coe_nil, zero_add]
      exact h
  | cons u us ih =>
      obtain ⟨d₁, hstep, hok⟩ := bind_eq_ok.mp hok
      have hrest := ih (h.update (.finite u) hstep) hok
      rw [← Multiset.cons_coe, ← Multiset.singleton_add, add_assoc, add_left_comm]
      exact hrest

/-- The numbers from 0 to 19, which a digest of `k = 10` takes into twice its compression
parameter, so that the logarithm of the scale function is that of one. -/
def twenty : List ℚ := (List.range 20).map fun n ↦ (n : ℚ)

end TDigestMut

end DataSketches
