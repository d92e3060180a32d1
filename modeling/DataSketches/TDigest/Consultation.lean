import DataSketches.TDigest.Rank

/-!
# Digests that were read answer

The reader does not check that centroids are sorted, or that they lie between the
extremes.  The two searches of a rank stay in the list all the same: the tails are
cut off before, and a search never goes past a centroid that it was told to stop at.
-/

namespace DataSketches

open Runs FloatFormat StableSort SketchBytes

namespace TDigestView

variable {M : Type} [FloatFormat M] {v : TDigestView M}

/-- Every rank between zero and one has a quantile, if there are centroids. -/
theorem exists_quantile (hne : v.centroids ≠ []) {r : ℚ} (hr : 0 ≤ r ∧ r ≤ 1) :
    ∃ q, v.quantile r = .ok (some q) := by
  obtain ⟨first, hfirst⟩ : ∃ c, v.centroids.head? = some c :=
    Option.ne_none_iff_exists'.mp fun hnone ↦ hne (List.head?_eq_none_iff.mp hnone)
  obtain ⟨last, hlast⟩ : ∃ c, v.centroids.getLast? = some c :=
    Option.ne_none_iff_exists'.mp fun hnone ↦ hne (List.getLast?_eq_none_iff.mp hnone)
  have hempty : v.centroids.isEmpty = false := List.isEmpty_eq_false_iff.mpr hne
  obtain ⟨hzero, hend⟩ := TDigestMut.centroidAt_ends hfirst hlast
  rw [quantile, assert_pos hr, ok_bind, hempty, if_neg Bool.false_ne_true, hzero, ok_bind]
  dsimp only
  rw [hend, ok_bind]
  split_ifs
  · exact ⟨_, rfl⟩
  · exact ⟨_, rfl⟩
  · exact ⟨_, rfl⟩
  · exact ⟨_, rfl⟩
  · exact ⟨_, rfl⟩
  · split
    · exact ⟨_, rfl⟩
    · exact ⟨_, rfl⟩

end TDigestView

namespace TDigestMut

variable {M : Type} [FloatFormat M] {codec : F64Codec M} {scale : ScaleFunction}
  {d d' e : TDigestMut M}

/-! ## Compression -/

/-- A digest of some weight has finite extremes. -/
theorem Loaded.finite_extremes (h : d.Loaded) (hne : d.contents ≠ []) :
    ∃ x y, d.min = .finite x ∧ d.max = .finite y := h.extremes.resolve_left fun hnil ↦ hne hnil.1

section Lawful

variable [LawfulFloat M]

variable (scale) in
/-- A digest that was read is compressed, and could have been read compressed. -/
theorem Accepted.compress_spec (h : d.Accepted) :
    ∃ d', d.compress scale = .ok d' ∧ d'.Accepted ∧ d'.buffer.unmerged = [] ∧
      (d.contents = [] ↔ d'.contents = []) := by
  obtain ⟨d', hok, hcounted, hnil, ⟨-, rfl⟩ | hfrom⟩ := h.toCounted.compress_spec scale h.weight_lt
  · exact ⟨d', hok, h, hnil, Iff.rfl⟩
  · have hne' := hfrom.contents_ne_nil
    have hweight := hfrom.weight_eq
    have hne : d.contents ≠ [] := fun hempty ↦
      hne' (totalWeight_eq_zero_iff.mp (hweight.trans (totalWeight_eq_zero_iff.mpr hempty)))
    obtain ⟨x, y, hx, hy⟩ := h.finite_extremes hne
    refine ⟨d', hok, ⟨⟨hcounted, Or.inr ?_⟩, ?_, hweight ▸ h.weight_lt⟩, hnil, iff_of_false hne hne'⟩
    · obtain ⟨first, last, compressed, -, -, -, rfl⟩ := hfrom
      exact ⟨_, _, (congrArg (F64.min · _) hx).trans (F64.min_finite x first.mean),
        (congrArg (F64.max · _) hy).trans (F64.max_finite y last.mean)⟩
    · obtain ⟨first, last, compressed, -, -, -, rfl⟩ := hfrom
      exact h.k_le

end Lawful

/-- What a query of a compressed digest sees. -/
theorem Counted.view_eq (h : d'.Counted) (hnil : d'.buffer.unmerged = [])
    (hcompress : d.compress scale = .ok d') :
    d.view scale = .ok (d', ⟨d'.min, d'.max, d'.buffer.compressed, d'.compressedWeight⟩) ∧
      d.freeze scale = .ok ⟨d'.k, d'.reverseMerge, d'.min, d'.max, d'.buffer.compressed,
        d'.compressedWeight⟩ := by
  constructor
  · rw [view, hcompress, ok_bind, compressedCentroids_eq h.fits.1 hnil]
    rfl
  · rw [freeze, hcompress, ok_bind, compressedCentroids_eq h.fits.1 hnil]
    rfl

/-! ## Calls -/

/-- The digests that calls leave: ranks of numbers, quantiles, freezing and unfreezing, and
writing. -/
inductive Consulted (codec : F64Codec M) (scale : ScaleFunction) (d : TDigestMut M) :
    TDigestMut M → Prop where
  | refl : Consulted codec scale d d
  | rank {e e' : TDigestMut M} {value : F64 M} {r : Option ℚ} (h : Consulted codec scale d e)
      (hok : e.rank scale value = .ok (e', r)) : Consulted codec scale d e'
  | quantile {e e' : TDigestMut M} {rank : ℚ} {q : Option ℚ} (h : Consulted codec scale d e)
      (hok : e.quantile scale rank = .ok (e', q)) : Consulted codec scale d e'
  | unfreeze {e e' : TDigestMut M} {frozen : TDigest M} (h : Consulted codec scale d e)
      (hfreeze : e.freeze scale = .ok frozen) (hok : frozen.unfreeze = .ok e') :
      Consulted codec scale d e'
  | serialize {e e' : TDigestMut M} {bytes : List UInt8} (h : Consulted codec scale d e)
      (hok : e.serialize codec scale = .ok (e', bytes)) : Consulted codec scale d e'

/-- Every call returns. -/
structure Answers (codec : F64Codec M) (scale : ScaleFunction) (d : TDigestMut M) : Prop where
  rank : ∀ value : F64 M, value.isNan = false → ∃ r, d.rank scale value = .ok r
  quantile : ∀ r : ℚ, 0 ≤ r ∧ r ≤ 1 → ∃ q, d.quantile scale r = .ok q
  freeze : ∃ frozen, d.freeze scale = .ok frozen ∧
    (∀ value : F64 M, value.isNan = false → ∃ r, frozen.rank value = .ok r) ∧
    (∀ r : ℚ, 0 ≤ r ∧ r ≤ 1 → ∃ q, frozen.quantile r = .ok q) ∧ ∃ d', frozen.unfreeze = .ok d'
  serialize : ∃ r, d.serialize codec scale = .ok r

/-! ## What calls keep -/

/-- A view is one of the compressed digest. -/
theorem compress_of_view {v : TDigestView M} (h : d.view scale = .ok (d', v)) :
    d.compress scale = .ok d' := by
  obtain ⟨e, hok, h⟩ := bind_eq_ok.mp h
  obtain ⟨cs, -, h⟩ := bind_eq_ok.mp h
  cases h
  exact hok

/-- Queries leave the digest as it is or compress it. -/
theorem compress_of_rank {value : F64 M} {r : Option ℚ} (h : d.rank scale value = .ok (d', r)) :
    d' = d ∨ d.compress scale = .ok d' := by
  obtain ⟨-, h⟩ := assert_bind_eq_ok.mp h
  split_ifs at h
  · cases h
    exact Or.inl rfl
  · cases h
    exact Or.inl rfl
  · cases h
    exact Or.inl rfl
  · cases h
    exact Or.inl rfl
  · obtain ⟨⟨e, v⟩, hview, h⟩ := bind_eq_ok.mp h
    obtain ⟨q, -, h⟩ := bind_eq_ok.mp h
    cases h
    exact Or.inr (compress_of_view hview)

theorem compress_of_quantile {r : ℚ} {q : Option ℚ} (h : d.quantile scale r = .ok (d', q)) :
    d' = d ∨ d.compress scale = .ok d' := by
  obtain ⟨-, h⟩ := assert_bind_eq_ok.mp h
  split_ifs at h
  · cases h
    exact Or.inl rfl
  · obtain ⟨⟨e, v⟩, hview, h⟩ := bind_eq_ok.mp h
    obtain ⟨q, -, h⟩ := bind_eq_ok.mp h
    cases h
    exact Or.inr (compress_of_view hview)

theorem compress_of_serialize {bytes : List UInt8} (h : d.serialize codec scale = .ok (d', bytes)) :
    d.compress scale = .ok d' := by
  obtain ⟨e, hok, h⟩ := bind_eq_ok.mp h
  obtain ⟨cs, -, h⟩ := bind_eq_ok.mp h
  obtain ⟨weight, -, h⟩ := bind_eq_ok.mp h
  obtain ⟨single, -, h⟩ := bind_eq_ok.mp h
  rcases ite_eq_iff.mp h with ⟨-, h⟩ | ⟨-, h⟩
  · cases h
    exact hok
  · rcases ite_eq_iff.mp h with ⟨-, h⟩ | ⟨-, h⟩
    · cases h
      exact hok
    · cases h
      exact hok

variable [LawfulFloat M]

theorem Accepted.of_compress (h : d.Accepted) (hok : d.compress scale = .ok d') : d'.Accepted := by
  obtain ⟨e, he, h', -⟩ := h.compress_spec scale
  cases he.symm.trans hok
  exact h'

/-- Unfreezing makes the compressed digest again. -/
theorem Accepted.unfreeze_spec (h : d.Accepted) {frozen : TDigest M}
    (hfrozen : d.freeze scale = .ok frozen) : ∃ d', frozen.unfreeze = .ok d' ∧ d'.Accepted := by
  obtain ⟨e, hok, h', hnil, -⟩ := h.compress_spec scale
  rw [(h'.toCounted.view_eq hnil hok).2] at hfrozen
  cases hfrozen
  have hfits : bufferFits (.centroids e.buffer.compressed 0) e.compressedWeight = true :=
    decide_eq_true (Nat.zero_le e.buffer.compressed.length)
  have hunmerged := TDigestBuffer.unmerged_centroids_zero e.buffer.compressed
  have hcompressed := TDigestBuffer.compressed_centroids_zero e.buffer.compressed
  have hcontents : contents ⟨e.k, e.reverseMerge, e.min, e.max, .centroids e.buffer.compressed 0,
      e.compressedWeight⟩ = e.contents := by
    rw [contents, contents, hunmerged, hcompressed, hnil]
  refine ⟨⟨e.k, e.reverseMerge, e.min, e.max, .centroids e.buffer.compressed 0,
    e.compressedWeight⟩, ?_, ?_⟩
  · rw [TDigest.unfreeze, make, assert_pos h'.k_le, ok_bind, assert_pos hfits]
    rfl
  · refine ⟨⟨⟨⟨Nat.zero_le _, fun values hvalues ↦ by cases hvalues⟩, fun c hc ↦ ?_, ?_⟩, ?_⟩,
      h'.k_le, ?_⟩
    · rw [hunmerged] at hc
      exact absurd hc List.not_mem_nil
    · rw [hcompressed, h'.compressedWeight_eq]
    · rw [hcontents]
      exact h'.extremes
    · rw [weight, hcontents]
      exact h'.weight_lt

/-- Calls keep what holds of a digest that was read. -/
theorem Consulted.accepted (h : Consulted codec scale d e) (hd : d.Accepted) : e.Accepted := by
  induction h with
  | refl => exact hd
  | rank _ hok ih =>
      rcases compress_of_rank hok with rfl | hcompress
      · exact ih
      · exact ih.of_compress hcompress
  | quantile _ hok ih =>
      rcases compress_of_quantile hok with rfl | hcompress
      · exact ih
      · exact ih.of_compress hcompress
  | unfreeze _ hfreeze hok ih =>
      obtain ⟨e', hok', he'⟩ := ih.unfreeze_spec hfreeze
      cases hok.symm.trans hok'
      exact he'
  | serialize _ hok ih => exact ih.of_compress (compress_of_serialize hok)

/-! ## Calls return -/

theorem Accepted.answers (h : d.Accepted) : d.Answers codec scale := by
  obtain ⟨d', hok, h', hnil, hempty⟩ := h.compress_spec scale
  obtain ⟨hview, hfreeze⟩ := h'.toCounted.view_eq hnil hok
  have hcontents : d'.contents = d'.buffer.compressed := by
    rw [contents, hnil, List.nil_append]
  have hne : d.isEmpty = false → d'.buffer.compressed ≠ [] := by
    intro hfalse hcompressed
    have hnil' := hempty.mpr (hcontents.trans hcompressed)
    rw [h.isEmpty_iff.mpr hnil'] at hfalse
    cases hfalse
  have hassert : ∀ {value : F64 M}, value.isNan = false → (!value.isNan) = true := by
    intro value hnan
    rw [hnan]
    rfl
  have hrank : ∀ value : F64 M, value.isNan = false → ∃ r, TDigestView.rank
      ⟨d'.min, d'.max, d'.buffer.compressed, d'.compressedWeight⟩ value = .ok r := by
    intro value hnan
    by_cases hcompressed : d'.buffer.compressed = []
    · refine ⟨none, ?_⟩
      rw [TDigestView.rank, assert_pos (hassert hnan), ok_bind, hcompressed]
      rfl
    · obtain ⟨r, hr⟩ := TDigestView.exists_rank (v := ⟨d'.min, d'.max, d'.buffer.compressed,
        d'.compressedWeight⟩) hcompressed hnan
      exact ⟨some r, hr⟩
  have hquantile : ∀ r : ℚ, 0 ≤ r ∧ r ≤ 1 → ∃ q, TDigestView.quantile
      ⟨d'.min, d'.max, d'.buffer.compressed, d'.compressedWeight⟩ r = .ok q := by
    intro r hr
    by_cases hcompressed : d'.buffer.compressed = []
    · refine ⟨none, ?_⟩
      rw [TDigestView.quantile, assert_pos hr, ok_bind, hcompressed]
      rfl
    · obtain ⟨q, hq⟩ := TDigestView.exists_quantile (v := ⟨d'.min, d'.max, d'.buffer.compressed,
        d'.compressedWeight⟩) hcompressed hr
      exact ⟨some q, hq⟩
  constructor
  case rank =>
    intro value hnan
    obtain ⟨r, hr⟩ := hrank value hnan
    rw [rank, assert_pos (hassert hnan), ok_bind]
    split_ifs
    · exact ⟨_, rfl⟩
    · exact ⟨_, rfl⟩
    · exact ⟨_, rfl⟩
    · exact ⟨_, rfl⟩
    · rw [hview, ok_bind]
      dsimp only
      rw [hr]
      exact ⟨_, rfl⟩
  case quantile =>
    intro r hr
    obtain ⟨q, hq⟩ := hquantile r hr
    rw [quantile, assert_pos hr, ok_bind]
    split_ifs
    · exact ⟨_, rfl⟩
    · rw [hview, ok_bind]
      dsimp only
      rw [hq]
      exact ⟨_, rfl⟩
  case freeze =>
    obtain ⟨e, he, -⟩ := h.unfreeze_spec hfreeze
    refine ⟨_, hfreeze, fun value hnan ↦ ?_, fun r hr ↦ ?_, e, he⟩
    · rw [TDigest.rank, assert_pos (hassert hnan), ok_bind]
      exact hrank value hnan
    · rw [TDigest.quantile, assert_pos hr, ok_bind]
      exact hquantile r hr
  case serialize =>
    have htotal := h'.toCounted.totalWeight_eq h'.weight_lt
    rw [serialize, hok, ok_bind, compressedCentroids_eq h'.fits.1 hnil, ok_bind, isSingleValue,
      htotal, ok_bind, ok_bind, pure_eq_ok, ok_bind]
    dsimp only
    by_cases hnone : d'.isEmpty = true
    · rw [if_pos hnone]
      exact ⟨_, rfl⟩
    · rw [if_neg hnone]
      by_cases hsingle : decide (d'.weight = 1) = true
      · rw [if_pos hsingle]
        exact ⟨_, rfl⟩
      · rw [if_neg hsingle]
        exact ⟨_, rfl⟩

end TDigestMut

end DataSketches
