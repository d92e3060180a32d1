import DataSketches.TDigest.Queries

/-!
# What holds of every t-digest

The invariants that do not depend on the arithmetic: the weights add up, a digest
without values is as new, one of a single value has it as its only mean, minimum
and maximum.  Two digests that differ in the form of their buffers only are the
`Same`.
-/

namespace DataSketches

open Runs FloatFormat StableSort

namespace TDigestMut

variable {M : Type}

/-! ## Two forms of the same digest -/

/-- Unmerged values and compressed centroids, in the order in which they are sorted. -/
def contents (d : TDigestMut M) : List (Centroid M) := d.buffer.unmerged ++ d.buffer.compressed

/-- The digests differ in the form of their buffers at most. -/
structure Same (d e : TDigestMut M) : Prop where
  k_eq : e.k = d.k
  reverseMerge_eq : e.reverseMerge = d.reverseMerge
  min_eq : e.min = d.min
  max_eq : e.max = d.max
  compressedWeight_eq : e.compressedWeight = d.compressedWeight
  compressed_eq : e.buffer.compressed = d.buffer.compressed
  unmerged_eq : e.buffer.unmerged = d.buffer.unmerged

theorem Same.refl (d : TDigestMut M) : Same d d := ⟨rfl, rfl, rfl, rfl, rfl, rfl, rfl⟩

theorem Same.symm {d e : TDigestMut M} (h : Same d e) : Same e d :=
  ⟨h.k_eq.symm, h.reverseMerge_eq.symm, h.min_eq.symm, h.max_eq.symm, h.compressedWeight_eq.symm,
    h.compressed_eq.symm, h.unmerged_eq.symm⟩

theorem Same.contents_eq {d e : TDigestMut M} (h : Same d e) : e.contents = d.contents := by
  rw [contents, contents, h.unmerged_eq, h.compressed_eq]

theorem Same.maxUnmerged_eq {d e : TDigestMut M} (h : Same d e) : e.maxUnmerged = d.maxUnmerged := by
  rw [maxUnmerged, maxUnmerged, targetCentroids, targetCentroids, h.k_eq]

variable [FloatFormat M]

/-- The number of values that a digest stands for. -/
def weight (d : TDigestMut M) : ℕ := Centroid.totalWeight d.contents

/-- A digest whose buffer is in order and whose weights add up. -/
structure Counted (d : TDigestMut M) : Prop where
  fits : d.Fits
  /-- Unmerged values are single ones. -/
  unmerged_weight : ∀ c ∈ d.buffer.unmerged, c.weight = 1
  compressedWeight_eq : d.compressedWeight = Centroid.totalWeight d.buffer.compressed

/-! ## The invariant -/

/-- What holds of every digest. -/
structure Shape (d : TDigestMut M) : Prop where
  k_range : 10 ≤ d.k ∧ d.k < 2 ^ 16
  fits : d.buffer.Fits
  /-- Unmerged values are single ones. -/
  unmerged_weight : ∀ c ∈ d.buffer.unmerged, c.weight = 1
  compressedWeight_eq : d.compressedWeight = Centroid.totalWeight d.buffer.compressed
  empty : d.contents = [] → d.min = .infinity ∧ d.max = .negInfinity ∧ d.reverseMerge = false
  nonempty : d.contents ≠ [] → ∃ x y, d.min = .finite x ∧ d.max = .finite y
  single : ∀ x, d.contents = [⟨x, 1⟩] → d.min = .finite x ∧ d.max = .finite x

variable {scale : ScaleFunction} {d e : TDigestMut M}

/-- Centroids of weight one are counted by their number. -/
theorem totalWeight_of_units {cs : List (Centroid M)} (h : ∀ c ∈ cs, c.weight = 1) :
    Centroid.totalWeight cs = cs.length := by
  induction cs with
  | nil => rfl
  | cons c cs ih =>
      rw [Centroid.totalWeight_cons, h c List.mem_cons_self,
        ih fun d hd ↦ h d (List.mem_cons_of_mem _ hd), List.length_cons, Nat.add_comm]
      rfl

/-- One value is one centroid. -/
theorem eq_singleton_of_totalWeight {cs : List (Centroid M)} (h : Centroid.totalWeight cs = 1) :
    ∃ x, cs = [⟨x, 1⟩] := by
  match cs, h with
  | [c], h =>
      rw [Centroid.totalWeight_cons, Centroid.totalWeight_nil, Nat.add_zero] at h
      exact ⟨c.mean, congrArg (fun w ↦ [Centroid.mk c.mean w]) (PNat.coe_eq_one_iff.mp h)⟩
  | c :: c' :: cs, h =>
      have hlen := Centroid.length_le_totalWeight (c :: c' :: cs)
      rw [h] at hlen
      simp only [List.length_cons] at hlen
      omega

theorem totalWeight_eq_zero_iff {cs : List (Centroid M)} :
    Centroid.totalWeight cs = 0 ↔ cs = [] := by
  constructor
  · intro h
    exact List.length_eq_zero_iff.mp (Nat.le_zero.mp (h ▸ Centroid.length_le_totalWeight cs))
  · rintro rfl
    rfl

namespace Counted

theorem length_unmerged_eq (h : d.Counted) :
    Centroid.totalWeight d.buffer.unmerged = d.buffer.unmerged.length :=
  totalWeight_of_units h.unmerged_weight

/-- The weights add up. -/
theorem weight_eq (h : d.Counted) : d.weight = d.compressedWeight + d.buffer.unmerged.length := by
  rw [weight, contents, Centroid.totalWeight_append, h.length_unmerged_eq, h.compressedWeight_eq,
    Nat.add_comm]

theorem totalWeight_eq (h : d.Counted) (hlt : d.weight < 2 ^ 64) :
    d.totalWeight = .ok d.weight := by
  rw [totalWeight, ← TDigestBuffer.length_unmerged h.fits.1, checkedAdd_of_lt (h.weight_eq ▸ hlt),
    h.weight_eq]

theorem weight_of_totalWeight (h : d.Counted) {v : ℕ} (hv : d.totalWeight = .ok v) :
    d.weight = v := by
  obtain ⟨-, hv⟩ := checkedAdd_eq_ok.mp hv
  rw [h.weight_eq, TDigestBuffer.length_unmerged h.fits.1, hv]

theorem isEmpty_iff (h : d.Counted) : d.isEmpty = true ↔ d.contents = [] := by
  rw [isEmpty, TDigestBuffer.isEmpty_iff h.fits.1, contents, List.append_eq_nil_iff, and_comm]

end Counted

namespace Shape

theorem fits' (h : d.Shape) : d.Fits := by
  refine ⟨h.fits, fun values hvalues ↦ ?_⟩
  rw [h.compressedWeight_eq, hvalues]
  rfl

theorem counted (h : d.Shape) : d.Counted := ⟨h.fits', h.unmerged_weight, h.compressedWeight_eq⟩

theorem weight_eq (h : d.Shape) : d.weight = d.compressedWeight + d.buffer.unmerged.length :=
  h.counted.weight_eq

theorem totalWeight_eq (h : d.Shape) (hlt : d.weight < 2 ^ 64) : d.totalWeight = .ok d.weight :=
  h.counted.totalWeight_eq hlt

theorem isEmpty_iff (h : d.Shape) : d.isEmpty = true ↔ d.contents = [] := h.counted.isEmpty_iff

theorem isEmpty_iff_weight (h : d.Shape) : d.isEmpty = true ↔ d.weight = 0 :=
  h.isEmpty_iff.trans totalWeight_eq_zero_iff.symm

/-- A digest in another form keeps the invariant. -/
theorem of_same (h : d.Shape) (hs : Same d e) (hfits : e.buffer.Fits) : e.Shape where
  k_range := hs.k_eq ▸ h.k_range
  fits := hfits
  unmerged_weight := hs.unmerged_eq ▸ h.unmerged_weight
  compressedWeight_eq := by rw [hs.compressedWeight_eq, hs.compressed_eq, h.compressedWeight_eq]
  empty := by
    rw [hs.contents_eq, hs.min_eq, hs.max_eq, hs.reverseMerge_eq]
    exact h.empty
  nonempty := by
    rw [hs.contents_eq, hs.min_eq, hs.max_eq]
    exact h.nonempty
  single := by
    rw [hs.contents_eq, hs.min_eq, hs.max_eq]
    exact h.single

end Shape

/-- A new digest. -/
theorem shape_new {k : ℕ} (hk : k < 2 ^ 16) (h : new k = .ok d) : d.Shape ∧ d.contents = [] := by
  obtain ⟨hten, h⟩ := assert_bind_eq_ok.mp h
  cases h
  exact ⟨⟨⟨hten, hk⟩, trivial, fun c hc ↦ absurd hc List.not_mem_nil, rfl,
    fun _ ↦ ⟨rfl, rfl, rfl⟩, fun hne ↦ absurd rfl hne, fun x hx ↦ by cases hx⟩, rfl⟩

/-! ## The steps -/

variable [LawfulFloat M]

@[simp] theorem contents_compressedTo (d : TDigestMut M) (first last : M) (cs : List (Centroid M)) :
    (d.compressedTo first last cs).contents = cs := by
  rw [contents, compressedTo, TDigestBuffer.unmerged_centroids_zero, List.nil_append,
    TDigestBuffer.compressed_centroids_zero]

theorem CompressedFrom.unmerged_eq {cs : List (Centroid M)} (h : CompressedFrom scale d cs e) :
    e.buffer.unmerged = [] := by
  obtain ⟨first, last, compressed, -, -, -, rfl⟩ := h
  exact TDigestBuffer.unmerged_centroids_zero compressed

/-- Compression keeps the total weight. -/
theorem CompressedFrom.weight_eq {cs : List (Centroid M)} (h : CompressedFrom scale d cs e) :
    e.weight = Centroid.totalWeight cs := by
  obtain ⟨first, last, compressed, -, -, hc, rfl⟩ := h
  rw [weight, contents_compressedTo, hc.totalWeight_eq]

theorem CompressedFrom.contents_ne_nil {cs : List (Centroid M)} (h : CompressedFrom scale d cs e) :
    e.contents ≠ [] := by
  obtain ⟨first, last, compressed, hfirst, -, hc, rfl⟩ := h
  rw [contents_compressedTo]
  rintro rfl
  have hhead := hc.head?_eq
  rw [hfirst] at hhead
  cases hhead

/-- What is compressed is in order, and its weights add up. -/
theorem CompressedFrom.counted {cs : List (Centroid M)} (h : CompressedFrom scale d cs e) :
    e.Counted := by
  obtain ⟨first, last, compressed, -, -, -, rfl⟩ := h
  refine ⟨⟨Nat.zero_le _, fun values hvalues ↦ by cases hvalues⟩, fun c hc ↦ ?_, ?_⟩
  · rw [TDigestMut.compressedTo, TDigestBuffer.unmerged_centroids_zero] at hc
    exact absurd hc List.not_mem_nil
  · rw [TDigestMut.compressedTo, TDigestBuffer.compressed_centroids_zero]

/-- Compression keeps the invariant, of the values of this digest or of more. -/
theorem Shape.compressedFrom (h : d.Shape) {cs : List (Centroid M)} (hd : CompressedFrom scale d cs e)
    (hsingle : ∀ c, cs = [c] → d.contents = cs ∨ d.contents = []) : e.Shape := by
  have hcounted := hd.counted
  have hne := hd.contents_ne_nil
  obtain ⟨first, last, compressed, hfirst, hlast, hc, rfl⟩ := hd
  have hcontents := contents_compressedTo d first.mean last.mean compressed
  have hends : ∀ m, ∃ x, F64.min d.min (.finite m) = .finite x := by
    intro m
    by_cases hd : d.contents = []
    · exact ⟨m, by rw [(h.empty hd).1]; rfl⟩
    · obtain ⟨x, y, hx, -⟩ := h.nonempty hd
      exact ⟨_, by rw [hx, F64.min_finite]⟩
  have hends' : ∀ m, ∃ x, F64.max d.max (.finite m) = .finite x := by
    intro m
    by_cases hd : d.contents = []
    · exact ⟨m, by rw [(h.empty hd).2.1]; rfl⟩
    · obtain ⟨x, y, -, hy⟩ := h.nonempty hd
      exact ⟨_, by rw [hy, F64.max_finite]⟩
  constructor
  case k_range => exact h.k_range
  case fits => exact Nat.zero_le _
  case unmerged_weight => exact hcounted.unmerged_weight
  case compressedWeight_eq => exact hcounted.compressedWeight_eq
  case empty =>
    intro hnil
    exact absurd hnil hne
  case nonempty =>
    intro _
    obtain ⟨x, hx⟩ := hends first.mean
    obtain ⟨y, hy⟩ := hends' last.mean
    exact ⟨x, y, hx, hy⟩
  case single =>
    -- A single value was one before, of this digest or of the other.
    intro x hx
    rw [hcontents] at hx
    have hone : Centroid.totalWeight cs = 1 := by
      rw [← hc.totalWeight_eq, hx]
      rfl
    obtain ⟨x', hcs⟩ := eq_singleton_of_totalWeight hone
    have hhead := hc.head?_eq
    have hlast' := hc.getLast?_eq
    rw [hx] at hhead hlast'
    have hxx : x' = x := by
      rw [hcs] at hhead
      exact (congrArg Centroid.mean (Option.some.inj hhead)).symm
    have hfx : first.mean = x :=
      (congrArg Centroid.mean (Option.some.inj (hhead.trans hfirst))).symm
    have hlx : last.mean = x :=
      (congrArg Centroid.mean (Option.some.inj (hlast'.trans hlast))).symm
    change F64.min d.min (.finite first.mean) = _ ∧ F64.max d.max (.finite last.mean) = _
    rw [hfx, hlx]
    rcases hsingle _ hcs with heq | hnil
    · obtain ⟨hmin, hmax⟩ := h.single x (by rw [heq, hcs, hxx])
      rw [hmin, hmax, F64.min_finite, F64.max_finite, if_neg (lt_irrefl _)]
      exact ⟨rfl, rfl⟩
    · obtain ⟨hmin, hmax, -⟩ := h.empty hnil
      rw [hmin, hmax]
      exact ⟨rfl, rfl⟩

variable (scale) in
/-- Compression does nothing without unmerged values, and else compresses the contents. -/
theorem Counted.compress_spec (h : d.Counted) (hlt : d.weight < 2 ^ 64) :
    ∃ d', d.compress scale = .ok d' ∧ d'.Counted ∧ d'.buffer.unmerged = [] ∧
      (d.buffer.unmerged = [] ∧ d' = d ∨ CompressedFrom scale d d.contents d') := by
  rw [compress_eq h.fits]
  by_cases hnil : d.buffer.unmerged = []
  · rw [if_pos hnil]
    exact ⟨d, rfl, h, hnil, Or.inl ⟨hnil, rfl⟩⟩
  · have hne : d.contents ≠ [] := List.append_ne_nil_of_left_ne_nil hnil _
    obtain ⟨d', hok, hfrom⟩ := @compressCentroids_spec M _ scale d d.contents _ _ hne h.weight_eq hlt
    rw [if_neg hnil]
    exact ⟨d', hok, hfrom.counted, hfrom.unmerged_eq, Or.inr hfrom⟩

variable (scale) in
theorem Shape.compress_spec (h : d.Shape) (hlt : d.weight < 2 ^ 64) :
    ∃ d', d.compress scale = .ok d' ∧ d'.Shape ∧ d'.buffer.unmerged = [] ∧
      (d' = d ∨ CompressedFrom scale d d.contents d') := by
  obtain ⟨d', hok, -, hnil, ⟨-, rfl⟩ | hfrom⟩ := h.counted.compress_spec scale hlt
  · exact ⟨d', hok, h, hnil, Or.inl rfl⟩
  · exact ⟨d', hok, h.compressedFrom hfrom fun c _ ↦ Or.inl rfl, hnil, Or.inr hfrom⟩

/-- A value that is received. -/
def pushed (d : TDigestMut M) (value : M) : TDigestMut M := { d with
  buffer := d.buffer.push value
  min := d.min.min (.finite value)
  max := d.max.max (.finite value) }

theorem Shape.contents_pushed (h : d.Shape) (value : M) : (d.pushed value).contents =
    d.buffer.unmerged ++ (.ofValue value :: d.buffer.compressed) := by
  rw [contents, TDigestMut.pushed, TDigestBuffer.unmerged_push h.fits,
    TDigestBuffer.compressed_push h.fits, List.append_assoc, List.singleton_append]

theorem Shape.weight_pushed (h : d.Shape) (value : M) : (d.pushed value).weight = d.weight + 1 := by
  rw [weight, weight, h.contents_pushed, contents, Centroid.totalWeight_append,
    Centroid.totalWeight_append, Centroid.totalWeight_cons, Nat.add_assoc,
    Nat.add_comm (Centroid.totalWeight d.buffer.compressed) 1]
  rfl

theorem Shape.pushed (h : d.Shape) (value : M) : (d.pushed value).Shape := by
  have hcontents := h.contents_pushed value
  constructor
  case k_range => exact h.k_range
  case fits => exact TDigestBuffer.fits_push h.fits value
  case unmerged_weight =>
    intro c hc
    rw [TDigestMut.pushed, TDigestBuffer.unmerged_push h.fits] at hc
    rcases List.mem_append.mp hc with hc | hc
    · exact h.unmerged_weight c hc
    · rw [List.mem_singleton.mp hc]
      rfl
  case compressedWeight_eq =>
    rw [TDigestMut.pushed, TDigestBuffer.compressed_push h.fits]
    exact h.compressedWeight_eq
  case empty =>
    intro hnil
    rw [hcontents] at hnil
    exact absurd hnil (List.append_ne_nil_of_right_ne_nil _ (List.cons_ne_nil _ _))
  case nonempty =>
    intro _
    change ∃ x y, F64.min d.min (.finite value) = _ ∧ F64.max d.max (.finite value) = _
    by_cases hd : d.contents = []
    · obtain ⟨hmin, hmax, -⟩ := h.empty hd
      rw [hmin, hmax]
      exact ⟨value, value, rfl, rfl⟩
    · obtain ⟨x, y, hx, hy⟩ := h.nonempty hd
      rw [hx, hy, F64.min_finite, F64.max_finite]
      exact ⟨_, _, rfl, rfl⟩
  case single =>
    intro x hx
    rw [hcontents] at hx
    obtain ⟨hunmerged, htail⟩ := List.append_eq_singleton_iff.mp hx |>.resolve_right fun hbad ↦
      List.cons_ne_nil _ _ hbad.2
    obtain ⟨hhead, hcompressed⟩ := List.cons.inj htail
    have hnil : d.contents = [] := by rw [contents, hunmerged, hcompressed, List.nil_append]
    obtain ⟨hmin, hmax, -⟩ := h.empty hnil
    have hvx : value = x := congrArg Centroid.mean hhead
    change F64.min d.min (.finite value) = _ ∧ F64.max d.max (.finite value) = _
    rw [hmin, hmax, hvx]
    exact ⟨rfl, rfl⟩

end TDigestMut

end DataSketches
