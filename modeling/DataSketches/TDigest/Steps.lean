import DataSketches.TDigest.Reload

/-!
# What each operation does

Every operation is made of three: a value is received, contents are compressed, or
the buffer changes its form.
-/

namespace DataSketches

open Runs FloatFormat StableSort

/-- A panic other than a reached `unreachable!`. -/
def Panic.Reachless (p : Panic) : Prop := ∀ msg, p ≠ .unreachable msg

namespace Panic

theorem reachless_overflow : overflow.Reachless := fun _ h ↦ by cases h

theorem reachless_assertion (msg : String) : (assertion msg).Reachless := fun _ h ↦ by cases h

theorem outcome_assert {c : Prop} [Decidable c] (msg : String) :
    Outcome Reachless (assert c msg) fun _ ↦ c := by
  by_cases h : c
  · rw [assert_pos h]
    exact Outcome.ok h
  · rw [assert_neg h]
    exact Outcome.error (reachless_assertion msg)

theorem outcome_ite {α : Type} {c : Prop} [Decidable c] {x y : Checked α} {post : α → Prop}
    (hx : Outcome Reachless x post) (hy : Outcome Reachless y post) :
    Outcome Reachless (if c then x else y) post := by
  split_ifs
  · exact hx
  · exact hy

theorem outcome_checkedSub (a b : ℕ) : Outcome Reachless (checkedSub a b) fun _ ↦ True := by
  unfold checkedSub
  split_ifs
  · exact Outcome.ok trivial
  · exact Outcome.error reachless_overflow

/-- A place that is moved down. -/
theorem outcome_move_down {α : Type} (a : ℕ) {f : ℕ → Checked α} {post : α → Prop}
    (h : ∀ a, Outcome Reachless (f a) post) : Outcome Reachless (checkedSub a 1 >>= f) post :=
  (outcome_checkedSub a 1).bind fun a' _ _ ↦ h a'

/-- A place that may be moved down. -/
theorem outcome_move {α : Type} {c : Prop} [Decidable c] (a : ℕ) {f : ℕ → Checked α}
    {post : α → Prop} (h : ∀ a, Outcome Reachless (f a) post) :
    Outcome Reachless (if c then checkedSub a 1 >>= f else pure a >>= f) post :=
  outcome_ite (outcome_move_down a h) (h a)

theorem outcome_centroidAt {M : Type} (cs : List (Centroid M)) (i : ℕ) :
    Outcome Reachless (centroidAt cs i) fun _ ↦ True := by
  unfold centroidAt
  cases cs[i]? with
  | some c => exact Outcome.ok trivial
  | none => exact Outcome.error fun _ h ↦ by cases h

end Panic

namespace TDigestMut

variable {M : Type} [FloatFormat M] {scale : ScaleFunction} {d e : TDigestMut M}

/-! ## Updates and merges -/

theorem update_of_not_finite {value : F64 M} (h : value.isFinite = false) :
    d.update scale value = .ok d := by
  cases value with
  | finite x => cases h
  | infinity => rfl
  | negInfinity => rfl
  | nan => rfl

section Lawful

variable [LawfulFloat M]

variable (scale) in
/-- A finite value is received, if need be after a compression that makes room for it. -/
theorem update_spec (h : d.Shape) (hlt : d.weight < 2 ^ 64) (value : M) :
    ∃ d', (d' = d ∨ CompressedFrom scale d d.contents d') ∧ d'.Shape ∧
      d'.buffer.unmerged.length < d'.maxUnmerged ∧
      d.update scale (.finite value) = .ok (d'.pushed value) := by
  obtain ⟨d', hok, h', hnil, hd'⟩ := h.compress_spec scale hlt
  have hcentroids : ∀ d'', d.compress scale = .ok d'' → d.buffer.unmerged ≠ [] →
      ∃ cs, d''.buffer = .centroids cs 0 := by
    intro d'' hok'' hne
    cases hok.symm.trans hok''
    rcases hd' with rfl | ⟨first, last, compressed, -, -, -, rfl⟩
    · exact absurd hnil hne
    · exact ⟨compressed, rfl⟩
  rw [update_finite h.fits' value hcentroids]
  by_cases hroom : d.buffer.unmerged.length < d.maxUnmerged
  · rw [if_pos hroom]
    exact ⟨d, Or.inl rfl, h, hroom, rfl⟩
  · rw [if_neg hroom, hok]
    exact ⟨d', hd', h', by rw [hnil]; exact maxUnmerged_pos d', rfl⟩

/-- The contents that a merge compresses. -/
def mergedContents (d other : TDigestMut M) : List (Centroid M) :=
  d.buffer.unmerged ++ other.contents ++ d.buffer.compressed

omit [LawfulFloat M] in
theorem totalWeight_mergedContents (d other : TDigestMut M) :
    Centroid.totalWeight (d.mergedContents other) = d.weight + other.weight := by
  rw [mergedContents, weight, weight, contents.eq_1 d]
  simp only [Centroid.totalWeight_append]
  omega

variable (scale) in
/-- A merge compresses the contents of both digests, unless the other one is empty. -/
theorem Counted.merge_spec {other : TDigestMut M} (h : d.Counted) (ho : other.Counted)
    (hlt : d.weight + other.weight < 2 ^ 64) :
    ∃ d', d.merge scale other = .ok d' ∧ (other.contents = [] ∧ d' = d ∨
      other.contents ≠ [] ∧ CompressedFrom scale d (d.mergedContents other) d') := by
  rw [merge_eq h.fits ho.fits]
  by_cases hempty : other.contents = []
  · rw [if_pos (ho.isEmpty_iff.mpr hempty)]
    exact ⟨d, rfl, Or.inl ⟨hempty, rfl⟩⟩
  · have hd := h.weight_eq
    obtain ⟨d', hok, hfrom⟩ := @compressCentroids_spec M _ scale d (d.mergedContents other)
      (d.buffer.unmerged.length + other.weight) _
      (List.append_ne_nil_of_left_ne_nil (List.append_ne_nil_of_right_ne_nil _ hempty) _)
      (by rw [totalWeight_mergedContents, hd]; omega) (by rwa [totalWeight_mergedContents])
    rw [if_neg fun htrue ↦ hempty (ho.isEmpty_iff.mp htrue), ho.totalWeight_eq (by omega), ok_bind,
      checkedAdd_of_lt (by omega), ok_bind]
    exact ⟨d', hok, Or.inr ⟨hempty, hfrom⟩⟩

variable (scale) in
theorem merge_spec {other : TDigestMut M} (h : d.Shape) (ho : other.Shape)
    (hlt : d.weight + other.weight < 2 ^ 64) :
    ∃ d', d.merge scale other = .ok d' ∧ d'.Shape ∧
      (other.contents = [] ∧ d' = d ∨
        other.contents ≠ [] ∧ CompressedFrom scale d (d.mergedContents other) d') := by
  obtain ⟨d', hok, ⟨hempty, rfl⟩ | ⟨hempty, hfrom⟩⟩ := h.counted.merge_spec scale ho.counted hlt
  · exact ⟨d', hok, h, Or.inl ⟨hempty, rfl⟩⟩
  · refine ⟨d', hok, h.compressedFrom hfrom fun c hc ↦ Or.inr ?_, Or.inr ⟨hempty, hfrom⟩⟩
    -- A single value is the one of the other digest.
    have hlen := congrArg List.length hc
    have hpos := List.length_pos_iff.mpr hempty
    rw [mergedContents, List.length_append, List.length_append, List.length_singleton] at hlen
    rw [contents, List.append_eq_nil_iff]
    exact ⟨List.eq_nil_of_length_eq_zero (by omega), List.eq_nil_of_length_eq_zero (by omega)⟩

end Lawful

/-! ## Freezing -/

/-- Freezing and unfreezing is compressing. -/
theorem unfreeze_spec (h : d.Shape) (hnil : d.buffer.unmerged = []) {frozen : TDigest M}
    (hfrozen : e.freeze scale = .ok frozen) (hcompress : e.compress scale = .ok d) :
    ∃ d', frozen.unfreeze = .ok d' ∧ Same d d' ∧ d'.buffer.Fits := by
  rw [freeze, hcompress, ok_bind, compressedCentroids_eq h.fits hnil] at hfrozen
  cases hfrozen
  have hfits : bufferFits (.centroids d.buffer.compressed 0) d.compressedWeight = true :=
    decide_eq_true (Nat.zero_le d.buffer.compressed.length)
  refine ⟨⟨d.k, d.reverseMerge, d.min, d.max, .centroids d.buffer.compressed 0,
    d.compressedWeight⟩, ?_, ?_, Nat.zero_le _⟩
  · rw [TDigest.unfreeze, make, assert_pos h.k_range.1, ok_bind, assert_pos hfits]
    rfl
  · exact ⟨rfl, rfl, rfl, rfl, rfl, TDigestBuffer.compressed_centroids_zero _,
      (TDigestBuffer.unmerged_centroids_zero _).trans hnil.symm⟩

theorem freeze_spec (h : d.Shape) (hnil : d.buffer.unmerged = [])
    (hcompress : e.compress scale = .ok d) : ∃ frozen, e.freeze scale = .ok frozen := by
  rw [freeze, hcompress, ok_bind, compressedCentroids_eq h.fits hnil]
  exact ⟨_, rfl⟩

end TDigestMut

/-! ## Queries -/

namespace TDigestQuery

variable {M : Type} [FloatFormat M]

/-- The conditions on the arguments of queries. -/
def Valid : TDigestQuery M → Prop
  | .rank value => value.isNan = false
  | .quantile q => 0 ≤ q ∧ q ≤ 1
  | .cdf splitPoints => checkSplitPoints splitPoints = .ok ()
  | .pmf splitPoints => checkSplitPoints splitPoints = .ok ()

end TDigestQuery

namespace TDigestView

open Panic

variable {M : Type} [FloatFormat M] (v : TDigestView M)

theorem outcome_rankBetween (value : ℚ) :
    Outcome Reachless (v.rankBetween value) fun r ↦ r.isSome = true := by
  unfold rankBetween
  refine (outcome_assert _).bind fun _ _ _ ↦ (outcome_assert _).bind fun _ _ _ ↦
    (outcome_centroidAt _ _).bind fun _ _ _ ↦ ?_
  -- Both ends are moved down by one at most, and read.
  refine outcome_move _ fun lower ↦ (outcome_centroidAt _ _).bind fun _ _ _ ↦
    outcome_ite (outcome_move_down _ fun upper ↦ ?_) (outcome_move _ fun upper ↦ ?_)
  · exact (outcome_centroidAt _ _).bind fun _ _ _ ↦
      (outcome_centroidAt _ _).bind fun _ _ _ ↦ Outcome.ok rfl
  · exact (outcome_centroidAt _ _).bind fun _ _ _ ↦
      (outcome_centroidAt _ _).bind fun _ _ _ ↦ Outcome.ok rfl

/-- A digest with centroids answers. -/
theorem outcome_rank (value : F64 M) :
    Outcome Reachless (v.rank value) fun r ↦ v.centroids ≠ [] → r.isSome = true := by
  unfold rank
  refine (outcome_assert _).bind fun _ _ _ ↦ ?_
  split_ifs with hempty
  · exact Outcome.ok fun hne ↦ absurd (List.isEmpty_iff.mp hempty) hne
  · exact Outcome.ok fun _ ↦ rfl
  · exact Outcome.ok fun _ ↦ rfl
  · exact Outcome.ok fun _ ↦ rfl
  · refine (outcome_centroidAt _ _).bind fun first _ _ ↦
      (outcome_centroidAt _ _).bind fun last _ _ ↦ ?_
    refine outcome_ite (outcome_ite ?_ ?_) (outcome_ite (outcome_ite ?_ ?_) ?_)
    · exact Outcome.ok fun _ ↦ rfl
    · exact Outcome.ok fun _ ↦ rfl
    · exact Outcome.ok fun _ ↦ rfl
    · exact Outcome.ok fun _ ↦ rfl
    · exact (v.outcome_rankBetween _).mono fun r _ hr _ ↦ hr

theorem outcome_quantile (rank : ℚ) : Outcome Reachless (v.quantile rank) fun _ ↦ True := by
  unfold quantile
  have hok : ∀ q, Outcome Reachless (pure (some q) : Checked (Option ℚ)) fun _ ↦ True :=
    fun q ↦ Outcome.ok trivial
  refine (outcome_assert _).bind fun _ _ _ ↦ outcome_ite (Outcome.ok trivial) <|
    (outcome_centroidAt _ _).bind fun first _ _ ↦ outcome_ite (hok _) <| outcome_ite (hok _) <|
      outcome_ite (hok _) <| outcome_ite (hok _) <|
        (outcome_centroidAt _ _).bind fun last _ _ ↦ outcome_ite (hok _) ?_
  split
  · exact hok _
  · exact hok _

/-- The ranks of the split points, each of which is answered. -/
theorem outcome_ranks (hne : v.centroids ≠ []) (splitPoints : List (F64 M)) :
    Outcome Reachless (splitPoints.mapM fun p ↦ do
      match ← v.rank p with
      | some rank => return rank
      | none => throw (.unreachable "checked non-empty above")) fun _ ↦ True := by
  induction splitPoints with
  | nil => exact Outcome.ok trivial
  | cons p splitPoints ih =>
      rw [List.mapM_cons]
      have hanswer : Outcome Reachless (do
          match ← v.rank p with
          | some rank => return rank
          | none => throw (.unreachable "checked non-empty above")) fun _ ↦ True := by
        refine (v.outcome_rank p).bind fun r _ hr ↦ ?_
        obtain ⟨rank, rfl⟩ := Option.isSome_iff_exists.mp (hr hne)
        exact Outcome.ok trivial
      exact hanswer.bind fun _ _ _ ↦ ih.bind fun _ _ _ ↦ Outcome.ok trivial

theorem outcome_cdf {splitPoints : List (F64 M)} (hvalid : checkSplitPoints splitPoints = .ok ()) :
    Outcome Reachless (v.cdf splitPoints) fun _ ↦ True := by
  rw [cdf, hvalid, ok_bind]
  split_ifs with hempty
  · exact Outcome.ok trivial
  · exact (v.outcome_ranks (fun hnil ↦ hempty (List.isEmpty_iff.mpr hnil)) splitPoints).bind
      fun _ _ _ ↦ Outcome.ok trivial

theorem outcome_pmf {splitPoints : List (F64 M)} (hvalid : checkSplitPoints splitPoints = .ok ()) :
    Outcome Reachless (v.pmf splitPoints) fun _ ↦ True := by
  refine (v.outcome_cdf hvalid).bind fun r _ _ ↦ ?_
  cases r with
  | none => exact Outcome.ok trivial
  | some buckets => exact Outcome.ok trivial

end TDigestView

namespace TDigestMut

open Panic

variable {M : Type} [FloatFormat M] {scale : ScaleFunction} {d d' : TDigestMut M}

/-- A view is taken of the compressed digest. -/
theorem view_spec (h' : d'.Shape) (hnil : d'.buffer.unmerged = [])
    (hcompress : d.compress scale = .ok d') :
    d.view scale = .ok (d', ⟨d'.min, d'.max, d'.buffer.compressed, d'.compressedWeight⟩) := by
  rw [view, hcompress, ok_bind, compressedCentroids_eq h'.fits hnil]
  rfl

/-- A query that is not answered at once compresses the digest, and goes on with a view of it. -/
theorem outcome_view {α : Type} (h' : d'.Shape) (hnil : d'.buffer.unmerged = [])
    (hcompress : d.compress scale = .ok d') {answer : TDigestView M → Checked α}
    (hanswer : ∀ v, Outcome Reachless (answer v) fun _ ↦ True) :
    Outcome Reachless (do
      let (d, v) ← d.view scale
      return (d, ← answer v)) fun r ↦ r.1 = d ∨ d.compress scale = .ok r.1 := by
  rw [view_spec h' hnil hcompress, ok_bind]
  exact (hanswer _).bind fun _ _ _ ↦ Outcome.ok (Or.inr hcompress)

/-- A query leaves the digest as it is or compresses it. -/
theorem ask_spec [LawfulFloat M] (h : d.Shape) (hlt : d.weight < 2 ^ 64) (q : TDigestQuery M) :
    Outcome (fun p ↦ q.Valid → p.Reachless) (d.ask scale q)
      fun e ↦ e = d ∨ d.compress scale = .ok e := by
  obtain ⟨d', hok, h', hnil, -⟩ := h.compress_spec scale hlt
  have hfst : ∀ {α : Type} {x : Checked (TDigestMut M × α)},
      (q.Valid → Outcome Reachless x fun r ↦ r.1 = d ∨ d.compress scale = .ok r.1) →
        (∀ r, x = .ok r → q.Valid) → Outcome (fun p ↦ q.Valid → p.Reachless) (Prod.fst <$> x)
          fun e ↦ e = d ∨ d.compress scale = .ok e := by
    intro α x hx hvalid
    cases x with
    | error p => exact fun hq ↦ hx hq
    | ok r => exact hx (hvalid r rfl)
  cases q with
  | rank value =>
      have hok' : ∀ r, Outcome Reachless (.ok (d, r) : Checked (TDigestMut M × Option ℚ))
          fun r ↦ r.1 = d ∨ d.compress scale = .ok r.1 := fun r ↦ Outcome.ok (Or.inl rfl)
      refine hfst (fun _ ↦ ?_) fun r hr ↦ ?_
      · exact (outcome_assert _).bind fun _ _ _ ↦ outcome_ite (hok' _) <| outcome_ite (hok' _) <|
          outcome_ite (hok' _) <| outcome_ite (hok' _) <| outcome_view h' hnil hok fun v ↦
            (v.outcome_rank value).mono fun _ _ _ ↦ trivial
      · exact (Bool.not_eq_true' _).mp (assert_bind_eq_ok.mp hr).1
  | quantile rank =>
      refine hfst (fun _ ↦ ?_) fun r hr ↦ (assert_bind_eq_ok.mp hr).1
      exact (outcome_assert _).bind fun _ _ _ ↦ outcome_ite (Outcome.ok (Or.inl rfl)) <|
        outcome_view h' hnil hok fun v ↦ v.outcome_quantile rank
  | cdf splitPoints =>
      refine hfst (fun hq ↦ ?_) fun r hr ↦ ?_
      · have hchecked : checkSplitPoints splitPoints = .ok () := hq
        rw [cdf, hchecked, ok_bind]
        exact outcome_ite (Outcome.ok (Or.inl rfl))
          (outcome_view h' hnil hok fun v ↦ v.outcome_cdf hchecked)
      · obtain ⟨u, hu, -⟩ := bind_eq_ok.mp hr
        exact hu
  | pmf splitPoints =>
      refine hfst (fun hq ↦ ?_) fun r hr ↦ ?_
      · have hchecked : checkSplitPoints splitPoints = .ok () := hq
        rw [pmf, hchecked, ok_bind]
        exact outcome_ite (Outcome.ok (Or.inl rfl))
          (outcome_view h' hnil hok fun v ↦ v.outcome_pmf hchecked)
      · obtain ⟨u, hu, -⟩ := bind_eq_ok.mp hr
        exact hu

end TDigestMut

end DataSketches
