import DataSketches.TDigest.Consultation

/-!
# Ranks that ascend

Between the first and the last mean ranks ascend.  The rank in the left tail is not
divided by the weight, and a last centroid of one value has a right tail that
descends; a digest that received its values itself has no tails.
-/

namespace DataSketches

open Runs FloatFormat StableSort SketchBytes

namespace F64

theorem min_rat (x y : ℚ) : F64.min (.finite x) (.finite y) = .finite (Min.min x y) := by
  rw [min_finite, val_rat, val_rat]
  split_ifs with h
  · rw [min_eq_right h.le]
  · rw [min_eq_left (not_lt.mp h)]

theorem max_rat (x y : ℚ) : F64.max (.finite x) (.finite y) = .finite (Max.max x y) := by
  rw [max_finite, val_rat, val_rat]
  split_ifs with h
  · rw [max_eq_right h.le]
  · rw [max_eq_left (not_lt.mp h)]

end F64

namespace TDigestMut

variable {codec : F64Codec ℚ} {scale : ScaleFunction} {vs : Multiset ℚ} {d d' : TDigestMut ℚ}
  {lo hi : ℚ} {first last : Centroid ℚ}

/-- What ranks are to be of a digest with the given minimum and maximum. -/
structure RanksAscend (scale : ScaleFunction) (d : TDigestMut ℚ) (lo hi : ℚ) : Prop where
  within : ∀ x, ∃ d' r, d.rank scale (.finite x) = .ok (d', some r) ∧ 0 ≤ r ∧ r ≤ 1 ∧
    (x < lo → r = 0) ∧ (hi < x → r = 1)
  mono : ∀ x y d₁ d₂ r s, x ≤ y → d.rank scale (.finite x) = .ok (d₁, some r) →
    d.rank scale (.finite y) = .ok (d₂, some s) → r ≤ s

/-- Compressed centroids are sorted and lie between the extremes. -/
structure Ordered (d : TDigestMut ℚ) (lo hi : ℚ) : Prop where
  sorted : d.buffer.compressed.Pairwise fun c c' ↦ c.mean ≤ c'.mean
  between : ∀ c ∈ d.buffer.compressed, lo ≤ c.mean ∧ c.mean ≤ hi
  le : lo ≤ hi

/-- Digests of runs of fewer than `2 ^ 64` values, and digests that were read and are ordered. -/
inductive Ranked (codec : F64Codec ℚ) (scale : ScaleFunction) (d : TDigestMut ℚ) (lo hi : ℚ) :
    Prop where
  | reached {vs : Multiset ℚ} (h : Reachable codec scale vs d) (hlt : vs.card < 2 ^ 64)
  | decoded {bytes : List UInt8} {isF32 : Bool} (hok : deserialize codec bytes isF32 = .ok d)
      (hordered : d.Ordered lo hi)

/-! ## The view of a digest -/

theorem mergeFrom_ne_nil {normalizer whole weightSoFar : ℚ} {fresh : Bool} {c : Centroid ℚ}
    {rest merged : List (Centroid ℚ)}
    (h : mergeFrom scale normalizer whole fresh weightSoFar c rest = .ok merged) : merged ≠ [] := by
  induction rest generalizing fresh weightSoFar c merged with
  | nil =>
      cases h
      exact List.cons_ne_nil _ _
  | cons c' rest ih =>
      rw [mergeFrom] at h
      split_ifs at h
      · obtain ⟨m, -, h⟩ := bind_eq_ok.mp h
        exact ih h
      · obtain ⟨more, -, h⟩ := bind_eq_ok.mp h
        cases h
        exact List.cons_ne_nil _ _

/-- Compression never merges the second centroid into the first. -/
theorem Compresses.length_eq_one_iff {k : ℕ} {reverse : Bool} {cs compressed : List (Centroid ℚ)}
    (h : Compresses scale k reverse cs compressed) :
    compressed.length = 1 ↔ cs.length = 1 := by
  obtain ⟨c, rest, merged, horder, hmerged, hcompressed⟩ := h.merged
  have hlen : cs.length = rest.length + 1 := by
    rw [← (perm_mergingOrder reverse cs).length_eq, horder, List.length_cons]
  have hsame : compressed.length = merged.length := by
    rw [hcompressed]
    split_ifs
    · exact List.length_reverse
    · rfl
  cases rest with
  | nil =>
      cases hmerged
      exact iff_of_true hsame hlen
  | cons c' rest =>
      refine iff_of_false (fun hone ↦ ?_) fun hone ↦ ?_
      · rw [mergeFrom, if_neg fun hand ↦ Bool.noConfusion hand.1] at hmerged
        obtain ⟨more, hmore, hmerged⟩ := bind_eq_ok.mp hmerged
        cases hmerged
        rw [hsame, List.length_cons, Nat.add_eq_right, List.length_eq_zero_iff] at hone
        exact mergeFrom_ne_nil hmore hone
      · rw [hlen, List.length_cons] at hone
        omega

variable (scale) in
/-- What queries of a digest see. -/
theorem Accepted.framed (h : d.Accepted) (hlo : d.min = .finite lo) (hhi : d.max = .finite hi)
    (hordered : d.Ordered lo hi) (hne : d.contents ≠ []) :
    ∃ d' v first last, d.view scale = .ok (d', v) ∧
      d.freeze scale = .ok ⟨d'.k, d'.reverseMerge, v.min, v.max, v.centroids, v.centroidsWeight⟩ ∧
      v.Framed lo hi first last ∧ (v.centroids.length = 1 ↔ d.contents.length = 1) ∧
      firstMin meanVal d.contents = some first ∧ lastMax meanVal d.contents = some last := by
  obtain ⟨d', hok, hcounted, hnil, hd'⟩ := h.toCounted.compress_spec scale h.weight_lt
  obtain ⟨hview, hfreeze⟩ := hcounted.view_eq hnil hok
  rcases hd' with ⟨-, rfl⟩ | ⟨first, last, compressed, hfirst, hlast, hc, rfl⟩
  · have hcontents : d'.contents = d'.buffer.compressed := by
      rw [contents, hnil, List.nil_append]
    rw [hcontents] at hne ⊢
    have hmin : firstMin meanVal d'.buffer.compressed = d'.buffer.compressed.head? :=
      firstMin_of_pairwise hordered.sorted
    have hmax : lastMax meanVal d'.buffer.compressed = d'.buffer.compressed.getLast? :=
      lastMax_of_pairwise hordered.sorted
    obtain ⟨first, hfirst⟩ : ∃ c, d'.buffer.compressed.head? = some c :=
      Option.ne_none_iff_exists'.mp fun hnone ↦ hne (List.head?_eq_none_iff.mp hnone)
    obtain ⟨last, hlast⟩ : ∃ c, d'.buffer.compressed.getLast? = some c :=
      Option.ne_none_iff_exists'.mp fun hnone ↦ hne (List.getLast?_eq_none_iff.mp hnone)
    refine ⟨d', _, first, last, hview, hfreeze, ⟨hfirst, hlast, hordered.sorted,
      hcounted.compressedWeight_eq, ?_, ?_⟩, Iff.rfl, hmin.trans hfirst, hmax.trans hlast⟩
    · rw [min_eq_left (hordered.between first (List.mem_of_head? hfirst)).1]
      exact hlo
    · rw [max_eq_left (hordered.between last (List.mem_of_getLast? hlast)).2]
      exact hhi
  · refine ⟨_, _, first, last, hview, hfreeze, ⟨?_, ?_, ?_, hcounted.compressedWeight_eq, ?_, ?_⟩,
      ?_, hfirst, hlast⟩
    · rw [compressedTo, TDigestBuffer.compressed_centroids_zero, hc.head?_eq, hfirst]
    · rw [compressedTo, TDigestBuffer.compressed_centroids_zero, hc.getLast?_eq, hlast]
    · rw [compressedTo, TDigestBuffer.compressed_centroids_zero]
      exact hc.sorted
    · exact (congrArg (F64.min · _) hlo).trans (F64.min_rat lo first.mean)
    · exact (congrArg (F64.max · _) hhi).trans (F64.max_rat hi last.mean)
    · rw [compressedTo, TDigestBuffer.compressed_centroids_zero]
      exact hc.length_eq_one_iff

/-- A rank is known at once, or is one of the view. -/
theorem Accepted.rank_cases (h : d.Accepted) (hlo : d.min = .finite lo) (hhi : d.max = .finite hi)
    (hne : d.contents ≠ []) {v : TDigestView ℚ} (hview : d.view scale = .ok (d', v))
    (hv : v.Framed lo hi first last) (hone : v.centroids.length = 1 ↔ d.contents.length = 1) (x : ℚ) :
    (x < lo → d.rank scale (.finite x) = .ok (d, some 0)) ∧
      (lo ≤ x → hi < x → d.rank scale (.finite x) = .ok (d, some 1)) ∧
      (lo ≤ x → x ≤ hi → ∃ e,
        d.rank scale (.finite x) = (fun r ↦ (e, r)) <$> v.rank (.finite x)) := by
  have hassert : (!F64.isNan (.finite x)) = true := rfl
  have hempty : d.isEmpty = false :=
    Bool.eq_false_iff.mpr fun htrue ↦ hne (h.isEmpty_iff.mp htrue)
  have hmin : F64.lt (.finite x) (.finite lo) = decide (x < lo) := rfl
  have hmax : F64.lt (.finite hi) (.finite x) = decide (hi < x) := rfl
  rw [rank, assert_pos hassert, ok_bind, hempty, if_neg Bool.false_ne_true, hlo, hhi, hmin, hmax]
  refine ⟨fun hlt ↦ ?_, fun hle hlt ↦ ?_, fun hle hle' ↦ ?_⟩
  · rw [decide_eq_true hlt, if_pos rfl]
    rfl
  · rw [decide_eq_false (not_lt.mpr hle), if_neg Bool.false_ne_true, decide_eq_true hlt, if_pos rfl]
    rfl
  · rw [decide_eq_false (not_lt.mpr hle), if_neg Bool.false_ne_true,
      decide_eq_false (not_lt.mpr hle'), if_neg Bool.false_ne_true]
    have hlen : d.buffer.len = d.contents.length := by
      rw [TDigestBuffer.len_eq h.fits.1, contents, List.length_append, Nat.add_comm]
    by_cases hsingle : d.buffer.len = 1
    · refine ⟨d, ?_⟩
      rw [if_pos hsingle, hv.rank_eq hle hle', if_pos (hone.mpr (hlen.symm.trans hsingle))]
      rfl
    · refine ⟨d', ?_⟩
      rw [if_neg hsingle, hview, ok_bind]
      rfl

variable (scale) in
/-- Ranks of a digest that is ordered ascend exactly if its tails fit. -/
theorem Accepted.ranksAscend_iff (h : d.Accepted) (hlo : d.min = .finite lo)
    (hhi : d.max = .finite hi) (hordered : d.Ordered lo hi) (hne : d.contents ≠ []) :
    ∃ first last, firstMin meanVal d.contents = some first ∧
      lastMax meanVal d.contents = some last ∧
      (d.RanksAscend scale lo hi ↔ TDigestView.TailsFit d.contents.length lo hi first last) := by
  obtain ⟨d', v, first, last, hview, -, hv, hone, hfirst, hlast⟩ :=
    h.framed scale hlo hhi hordered hne
  have hcases := h.rank_cases hlo hhi hne hview hv hone
  have hfit : TDigestView.TailsFit d.contents.length lo hi first last ↔
      TDigestView.TailsFit v.centroids.length lo hi first last := by
    rw [TDigestView.TailsFit, TDigestView.TailsFit, hone]
  refine ⟨first, last, hfirst, hlast, ?_⟩
  rw [hfit]
  constructor
  · intro hasc
    by_contra hnot
    have hheavy : 2 ≤ (first.weight : ℕ) → first.mean ≤ hi := by
      intro htwo
      rcases List.mem_append.mp (firstMin_spec hfirst).1 with hmem | hmem
      · rw [h.unmerged_weight first hmem] at htwo
        exact absurd htwo (by decide)
      · exact (hordered.between first hmem).2
    obtain ⟨x, y, r, s, hlox, hxy, hyhi, hr, hs, hlt⟩ := hv.exists_descent hnot hheavy
    obtain ⟨d₁, hd₁⟩ := (hcases x).2.2 hlox (hxy.le.trans hyhi)
    obtain ⟨d₂, hd₂⟩ := (hcases y).2.2 (hlox.trans hxy.le) hyhi
    rw [hr] at hd₁
    rw [hs] at hd₂
    exact absurd (hasc.mono x y d₁ d₂ r s hxy.le hd₁ hd₂) (not_le.mpr hlt)
  · intro hfit
    have hwithin : ∀ x, ∃ d' r, d.rank scale (.finite x) = .ok (d', some r) ∧ 0 ≤ r ∧ r ≤ 1 ∧
        (x < lo → r = 0) ∧ (hi < x → r = 1) := by
      intro x
      rcases lt_or_ge x lo with hlt | hge
      · exact ⟨d, 0, (hcases x).1 hlt, le_rfl, zero_le_one, fun _ ↦ rfl,
          fun habove ↦ absurd (habove.trans hlt) (not_lt.mpr hordered.le)⟩
      rcases lt_or_ge hi x with hlt | hle
      · exact ⟨d, 1, (hcases x).2.1 hge hlt, zero_le_one, le_rfl,
          fun hbelow ↦ absurd hbelow (not_lt.mpr hge), fun _ ↦ rfl⟩
      obtain ⟨e, he⟩ := (hcases x).2.2 hge hle
      obtain ⟨r, hr, hnn, hone⟩ := hv.rank_mem hfit hge hle
      rw [hr] at he
      exact ⟨e, r, he, hnn, hone, fun hbelow ↦ absurd hbelow (not_lt.mpr hge),
        fun habove ↦ absurd habove (not_lt.mpr hle)⟩
    refine ⟨hwithin, fun x y d₁ d₂ r s hxy hr hs ↦ ?_⟩
    obtain ⟨d₁', r', hr', hnn, hle, hzero, -⟩ := hwithin x
    obtain ⟨d₂', s', hs', hnn', hle', -, hone⟩ := hwithin y
    cases hr.symm.trans hr'
    cases hs.symm.trans hs'
    rcases lt_or_ge x lo with hlt | hge
    · rw [hzero hlt]
      exact hnn'
    rcases lt_or_ge hi y with hlt | hyhi
    · rw [hone hlt]
      exact hle
    -- both values are between the extremes
    obtain ⟨e₁, he₁⟩ := (hcases x).2.2 hge (hxy.trans hyhi)
    obtain ⟨e₂, he₂⟩ := (hcases y).2.2 (hge.trans hxy) hyhi
    obtain ⟨r', hr', -⟩ := hv.rank_mem hfit hge (hxy.trans hyhi)
    obtain ⟨s', hs', -⟩ := hv.rank_mem hfit (hge.trans hxy) hyhi
    rw [hr', hr] at he₁
    rw [hs', hs] at he₂
    cases he₁
    cases he₂
    exact hv.rank_mono hfit hge hxy hyhi hr' hs'

theorem Shape.accepted (h : d.Shape) (hlt : d.weight < 2 ^ 64) : d.Accepted :=
  ⟨h.loaded, h.k_range.1, hlt⟩

/-- A digest of a run is ordered. -/
theorem Stands.ordered (h : Stands vs d) (hlo : d.min = .finite lo) (hhi : d.max = .finite hi) :
    d.Ordered lo hi := by
  obtain ⟨hwithin, ⟨c, hc, rfl⟩, c', hc', rfl⟩ := h.extremes_mem hlo hhi
  exact ⟨h.sorted, fun e he ↦ hwithin _ _ hlo hhi e (List.mem_append_right _ he),
    (hwithin _ _ hlo hhi c hc).2⟩

/-- A digest of a run has no tails. -/
theorem Stands.tailless (h : Stands vs d) (hlo : d.min = .finite lo) (hhi : d.max = .finite hi)
    (hfirst : firstMin meanVal d.contents = some first)
    (hlast : lastMax meanVal d.contents = some last) : first.mean = lo ∧ last.mean = hi := by
  obtain ⟨hwithin, ⟨c, hc, hclo⟩, c', hc', hchi⟩ := h.extremes_mem hlo hhi
  obtain ⟨hmem, hle⟩ := firstMin_spec hfirst
  obtain ⟨hmem', hle'⟩ := lastMax_spec hlast
  exact ⟨le_antisymm ((hle c hc).trans_eq hclo) (hwithin lo hi hlo hhi first hmem).1,
    le_antisymm (hwithin lo hi hlo hhi last hmem').2 (hchi.symm.trans_le (hle' c' hc'))⟩

/-! ## Two heavy centroids -/

/-- A digest of eight values as a writer leaves it that merges the extreme ones. -/
def blunt : TDigestMut ℚ :=
  ⟨10, false, .finite (-1), .finite 2, .centroids [⟨0, 4⟩, ⟨1, 4⟩] 0, 8⟩

end TDigestMut

end DataSketches
