import DataSketches.TDigest.Run

/-!
# What a t-digest knows exactly

With exact means, whatever the scale function: the number of the values, their
minimum and their maximum.  The centroids at both ends stand for these values alone,
since sorting is stable and neither end of a list of centroids is merged.
-/

namespace DataSketches

open Runs FloatFormat StableSort ByteReader SketchSlice SketchBytes

/-! ## Extremes -/

/-- The number is the minimum of the values, infinite if there are none. -/
def IsMin : F64 ℚ → Multiset ℚ → Prop
  | .finite x, vs => x ∈ vs ∧ ∀ v ∈ vs, x ≤ v
  | .infinity, vs => vs = 0
  | _, _ => False

/-- The number is the maximum of the values, infinite if there are none. -/
def IsMax : F64 ℚ → Multiset ℚ → Prop
  | .finite x, vs => x ∈ vs ∧ ∀ v ∈ vs, v ≤ x
  | .negInfinity, vs => vs = 0
  | _, _ => False

/-- The minimum of more values, those of which that are new are not below one of them. -/
theorem IsMin.min {m : F64 ℚ} {vs us : Multiset ℚ} {x : ℚ} (h : IsMin m vs) (hle : vs ≤ us)
    (hx : x ∈ us) (hnew : ∀ u ∈ us, u ∈ vs ∨ x ≤ u) : IsMin (m.min (.finite x)) us := by
  match m, h with
  | .infinity, h =>
      cases (show vs = 0 from h)
      exact ⟨hx, fun u hu ↦ (hnew u hu).resolve_left (Multiset.notMem_zero u)⟩
  | .finite y, ⟨hy, hleast⟩ =>
      rw [F64.min_finite, val_rat, val_rat]
      have hall : ∀ u ∈ us, y ≤ u ∨ x ≤ u := fun u hu ↦ (hnew u hu).imp_left (hleast u)
      split_ifs with hxy
      · exact ⟨hx, fun u hu ↦ (hall u hu).elim hxy.le.trans id⟩
      · exact ⟨Multiset.mem_of_le hle hy, fun u hu ↦ (hall u hu).elim id (not_lt.mp hxy).trans⟩

/-- The maximum of more values, those of which that are new are not above one of them. -/
theorem IsMax.max {m : F64 ℚ} {vs us : Multiset ℚ} {x : ℚ} (h : IsMax m vs) (hle : vs ≤ us)
    (hx : x ∈ us) (hnew : ∀ u ∈ us, u ∈ vs ∨ u ≤ x) : IsMax (m.max (.finite x)) us := by
  match m, h with
  | .negInfinity, h =>
      cases (show vs = 0 from h)
      exact ⟨hx, fun u hu ↦ (hnew u hu).resolve_left (Multiset.notMem_zero u)⟩
  | .finite y, ⟨hy, hgreatest⟩ =>
      rw [F64.max_finite, val_rat, val_rat]
      have hall : ∀ u ∈ us, u ≤ y ∨ u ≤ x := fun u hu ↦ (hnew u hu).imp_left (hgreatest u)
      split_ifs with hyx
      · exact ⟨hx, fun u hu ↦ (hall u hu).elim (fun h ↦ h.trans hyx.le) id⟩
      · exact ⟨Multiset.mem_of_le hle hy,
          fun u hu ↦ (hall u hu).elim id fun h ↦ h.trans (not_lt.mp hyx)⟩

namespace TDigestMut

/-! ## Centroids and the values they stand for -/

/-- The centroids stand for the values, the extreme ones for the extreme values alone. -/
structure Represents (cs : List (Centroid ℚ)) (vs : Multiset ℚ) : Prop where
  totalWeight_eq : Centroid.totalWeight cs = vs.card
  first : ∀ c, firstMin meanVal cs = some c → c.weight = 1 ∧ c.mean ∈ vs ∧ ∀ v ∈ vs, c.mean ≤ v
  last : ∀ c, lastMax meanVal cs = some c → c.weight = 1 ∧ c.mean ∈ vs ∧ ∀ v ∈ vs, v ≤ c.mean

namespace Represents

variable {cs ds : List (Centroid ℚ)} {vs ws : Multiset ℚ}

theorem eq_zero (h : Represents [] vs) : vs = 0 :=
  Multiset.card_eq_zero.mp h.totalWeight_eq.symm

theorem of_values (us : List ℚ) : Represents (us.map Centroid.ofValue) us where
  totalWeight_eq := Centroid.totalWeight_map_ofValue us
  first := by
    intro c hc
    obtain ⟨hmem, hle⟩ := firstMin_spec hc
    obtain ⟨u, hu, rfl⟩ := List.mem_map.mp hmem
    exact ⟨rfl, hu, fun v hv ↦ hle _ (List.mem_map_of_mem hv)⟩
  last := by
    intro c hc
    obtain ⟨hmem, hle⟩ := lastMax_spec hc
    obtain ⟨u, hu, rfl⟩ := List.mem_map.mp hmem
    exact ⟨rfl, hu, fun v hv ↦ hle _ (List.mem_map_of_mem hv)⟩

/-- There is a least value below all centroids. -/
theorem exists_first (h : Represents cs vs) {v : ℚ} (hv : v ∈ vs) :
    ∃ c ∈ cs, c.mean ≤ v := by
  cases hc : firstMin meanVal cs with
  | none =>
      rw [firstMin_eq_none_iff.mp hc] at h
      rw [h.eq_zero] at hv
      exact absurd hv (Multiset.notMem_zero v)
  | some c => exact ⟨c, (firstMin_spec hc).1, (h.first c hc).2.2 v hv⟩

theorem exists_last (h : Represents cs vs) {v : ℚ} (hv : v ∈ vs) :
    ∃ c ∈ cs, v ≤ c.mean := by
  cases hc : lastMax meanVal cs with
  | none =>
      rw [lastMax_eq_none_iff.mp hc] at h
      rw [h.eq_zero] at hv
      exact absurd hv (Multiset.notMem_zero v)
  | some c => exact ⟨c, (lastMax_spec hc).1, (h.last c hc).2.2 v hv⟩

/-- Two lists stand for the values of both. -/
theorem append (h : Represents cs vs) (h' : Represents ds ws) :
    Represents (cs ++ ds) (vs + ws) where
  totalWeight_eq := by
    rw [Centroid.totalWeight_append, h.totalWeight_eq, h'.totalWeight_eq, Multiset.card_add]
  first := by
    intro c hc
    have hbelow : ∀ v ∈ vs + ws, c.mean ≤ v := by
      intro v hv
      have hle := (firstMin_spec hc).2
      rcases Multiset.mem_add.mp hv with hv | hv
      · obtain ⟨d, hd, hdv⟩ := h.exists_first hv
        exact (hle d (List.mem_append_left _ hd)).trans hdv
      · obtain ⟨d, hd, hdv⟩ := h'.exists_first hv
        exact (hle d (List.mem_append_right _ hd)).trans hdv
    rcases firstMin_append hc with hc | hc
    · obtain ⟨hone, hmem, -⟩ := h.first c hc
      exact ⟨hone, Multiset.mem_add.mpr (Or.inl hmem), hbelow⟩
    · obtain ⟨hone, hmem, -⟩ := h'.first c hc
      exact ⟨hone, Multiset.mem_add.mpr (Or.inr hmem), hbelow⟩
  last := by
    intro c hc
    have habove : ∀ v ∈ vs + ws, v ≤ c.mean := by
      intro v hv
      have hle := (lastMax_spec hc).2
      rcases Multiset.mem_add.mp hv with hv | hv
      · obtain ⟨d, hd, hvd⟩ := h.exists_last hv
        exact hvd.trans (hle d (List.mem_append_left _ hd))
      · obtain ⟨d, hd, hvd⟩ := h'.exists_last hv
        exact hvd.trans (hle d (List.mem_append_right _ hd))
    rcases lastMax_append hc with hc | hc
    · obtain ⟨hone, hmem, -⟩ := h.last c hc
      exact ⟨hone, Multiset.mem_add.mpr (Or.inl hmem), habove⟩
    · obtain ⟨hone, hmem, -⟩ := h'.last c hc
      exact ⟨hone, Multiset.mem_add.mpr (Or.inr hmem), habove⟩

end Represents

/-! ## Compression of exact means -/

variable {scale : ScaleFunction} {d d' : TDigestMut ℚ}

theorem Compresses.sorted {k : ℕ} {reverse : Bool} {cs compressed : List (Centroid ℚ)}
    (h : Compresses scale k reverse cs compressed) :
    compressed.Pairwise fun c c' ↦ c.mean ≤ c'.mean := by
  obtain ⟨first, rest, merged, horder, hmerged, rfl⟩ := h.merged
  have hsorted := pairwise_insertionSort meanVal cs
  cases reverse with
  | false =>
      rw [mergingOrder, if_neg Bool.false_ne_true] at horder
      rw [horder] at hsorted
      have hpairwise : (first :: rest).Pairwise fun c c' ↦ c.mean ≤ c'.mean := hsorted
      exact (mergeFrom_pairwise (r := (· ≤ ·)) (fun x y v w hv hw hxy ↦
        Centroid.le_combinedMean hv hw hxy) hpairwise hmerged).1
  | true =>
      rw [mergingOrder, if_pos rfl] at horder
      have hreverse : (first :: rest).Pairwise fun c c' ↦ c.mean ≥ c'.mean := by
        rw [← horder]
        exact List.pairwise_reverse.mpr hsorted
      have hmergedPairwise := (mergeFrom_pairwise (r := (· ≥ ·)) (fun x y v w hv hw hxy ↦
        (Centroid.combinedMean_le hv hw hxy).symm) hreverse hmerged).1
      exact List.pairwise_reverse.mpr hmergedPairwise

/-- Compressed, contents stand for the same values. -/
theorem Compresses.represents {k : ℕ} {reverse : Bool} {cs compressed : List (Centroid ℚ)}
    {vs : Multiset ℚ} (h : Compresses scale k reverse cs compressed) (hcs : Represents cs vs) :
    Represents compressed vs where
  totalWeight_eq := h.totalWeight_eq.trans hcs.totalWeight_eq
  first := by
    have hfirst : firstMin meanVal compressed = compressed.head? := firstMin_of_pairwise h.sorted
    rw [hfirst, h.head?_eq]
    exact hcs.first
  last := by
    have hlast : lastMax meanVal compressed = compressed.getLast? := lastMax_of_pairwise h.sorted
    rw [hlast, h.getLast?_eq]
    exact hcs.last

/-! ## The invariant -/

/-- The digest stands for the values, unmerged ones and compressed ones. -/
structure Stands (vs : Multiset ℚ) (d : TDigestMut ℚ) : Prop where
  parts : ∃ (us : List ℚ) (ws : Multiset ℚ), vs = us + ws ∧
    d.buffer.unmerged = us.map Centroid.ofValue ∧ Represents d.buffer.compressed ws
  sorted : d.buffer.compressed.Pairwise fun c c' ↦ c.mean ≤ c'.mean
  isMin : IsMin d.min vs
  isMax : IsMax d.max vs
  unmerged_le : d.buffer.unmerged.length ≤ d.maxUnmerged

variable {vs ws : Multiset ℚ}

theorem Stands.contents (h : Stands vs d) : Represents d.contents vs := by
  obtain ⟨us, ws, rfl, hunmerged, hcompressed⟩ := h.parts
  rw [TDigestMut.contents, hunmerged]
  exact (Represents.of_values us).append hcompressed

/-- Compressing contents that stand for the values of the digest and more. -/
theorem Stands.compressedFrom (h : Stands vs d) {cs : List (Centroid ℚ)} {us : Multiset ℚ}
    (hle : vs ≤ us) (hcs : Represents cs us) (hd : CompressedFrom scale d cs d') : Stands us d' := by
  obtain ⟨first, last, compressed, hfirst, hlast, hc, rfl⟩ := hd
  have hcompressed : (d.compressedTo first.mean last.mean compressed).buffer.compressed =
    compressed := TDigestBuffer.compressed_centroids_zero compressed
  have hunmerged : (d.compressedTo first.mean last.mean compressed).buffer.unmerged = [] :=
    TDigestBuffer.unmerged_centroids_zero compressed
  obtain ⟨-, hmin, hbelow⟩ := hcs.first first hfirst
  obtain ⟨-, hmax, habove⟩ := hcs.last last hlast
  constructor
  case parts =>
    rw [hcompressed]
    exact ⟨[], us, (zero_add us).symm, hunmerged, hc.represents hcs⟩
  case sorted =>
    rw [hcompressed]
    exact hc.sorted
  case isMin => exact h.isMin.min hle hmin fun u hu ↦ Or.inr (hbelow u hu)
  case isMax => exact h.isMax.max hle hmax fun u hu ↦ Or.inr (habove u hu)
  case unmerged_le =>
    rw [hunmerged]
    exact Nat.zero_le _

/-- What a merge compresses stands for the values of both digests. -/
theorem Stands.mergedContents {other : TDigestMut ℚ} (h : Stands vs d) (ho : Stands ws other) :
    Represents (d.mergedContents other) (vs + ws) := by
  obtain ⟨us, us', rfl, hunmerged, hcompressed⟩ := h.parts
  rw [TDigestMut.mergedContents, hunmerged, add_right_comm]
  exact ((Represents.of_values us).append ho.contents).append hcompressed

/-- The digest keeps standing for the values of its run. -/
theorem kept_stands (scale : ScaleFunction) : Kept scale Stands := by
  constructor
  case new =>
    intro d h hnil
    obtain ⟨hunmerged, hcompressed⟩ := List.append_eq_nil_iff.mp hnil
    obtain ⟨hmin, hmax, -⟩ := h.empty hnil
    constructor
    case parts =>
      rw [hcompressed]
      exact ⟨[], 0, (add_zero 0).symm, hunmerged, Represents.of_values []⟩
    case sorted =>
      rw [hcompressed]
      exact List.Pairwise.nil
    case isMin =>
      rw [hmin]
      rfl
    case isMax =>
      rw [hmax]
      rfl
    case unmerged_le =>
      rw [hunmerged]
      exact Nat.zero_le _
  case push =>
    intro vs d hd h hroom value
    have hcompressed : (d.pushed value).buffer.compressed = d.buffer.compressed :=
      TDigestBuffer.compressed_push hd.fits value
    have hunmerged : (d.pushed value).buffer.unmerged = d.buffer.unmerged ++ [.ofValue value] :=
      TDigestBuffer.unmerged_push hd.fits value
    have hnew : ∀ u ∈ {value} + vs, u ∈ vs ∨ u = value := fun u hu ↦
      (Multiset.mem_add.mp hu).symm.imp_right Multiset.mem_singleton.mp
    have hmem : value ∈ {value} + vs :=
      Multiset.mem_add.mpr (Or.inl (Multiset.mem_singleton_self value))
    constructor
    case parts =>
      obtain ⟨us, ws, rfl, hus, hws⟩ := h.parts
      rw [hcompressed, hunmerged, hus]
      refine ⟨us ++ [value], ws, ?_, by rw [List.map_append]; rfl, hws⟩
      rw [← Multiset.coe_add, Multiset.coe_singleton, add_comm (us : Multiset ℚ) {value}, add_assoc]
    case sorted =>
      rw [hcompressed]
      exact h.sorted
    case isMin =>
      exact h.isMin.min (Multiset.le_add_left _ _) hmem fun u hu ↦
        (hnew u hu).imp_right fun heq ↦ heq.ge
    case isMax =>
      exact h.isMax.max (Multiset.le_add_left _ _) hmem fun u hu ↦
        (hnew u hu).imp_right fun heq ↦ heq.le
    case unmerged_le =>
      have hmax : (d.pushed value).maxUnmerged = d.maxUnmerged := rfl
      rw [hunmerged, List.length_append, List.length_singleton, hmax]
      exact Nat.succ_le_of_lt hroom
  case compress =>
    intro vs d d' _ _ h hfrom
    exact h.compressedFrom le_rfl h.contents hfrom
  case merge =>
    intro vs ws d other d' _ _ _ h ho _ hfrom
    exact h.compressedFrom (Multiset.le_add_right _ _) (h.mergedContents ho) hfrom
  case same =>
    intro vs d e _ h hsame _
    constructor
    case parts =>
      rw [hsame.compressed_eq, hsame.unmerged_eq]
      exact h.parts
    case sorted =>
      rw [hsame.compressed_eq]
      exact h.sorted
    case isMin =>
      rw [hsame.min_eq]
      exact h.isMin
    case isMax =>
      rw [hsame.max_eq]
      exact h.isMax
    case unmerged_le =>
      rw [hsame.unmerged_eq, hsame.maxUnmerged_eq]
      exact h.unmerged_le

/-! ## Runs -/

/-- What a digest knows of the values that were received for it. -/
structure Exact (vs : Multiset ℚ) (d : TDigestMut ℚ) : Prop where
  totalWeight_eq : d.totalWeight = .ok vs.card
  minValue_eq : vs = 0 ∧ d.minValue = none ∨
    ∃ x, d.minValue = some (.finite x) ∧ IsLeast {v | v ∈ vs} x
  maxValue_eq : vs = 0 ∧ d.maxValue = none ∨
    ∃ x, d.maxValue = some (.finite x) ∧ IsGreatest {v | v ∈ vs} x
  compressedWeight_eq : d.compressedWeight = Centroid.totalWeight d.buffer.compressed
  sorted : d.buffer.compressed.Pairwise fun c c' ↦ c.mean ≤ c'.mean
  within : ∃ x y, (∀ c ∈ d.buffer.compressed, x ≤ c.mean ∧ c.mean ≤ y) ∧
    (d.isEmpty = false → d.min = .finite x ∧ d.max = .finite y)
  /-- The unmerged values are those of the tail, the others are compressed: their extremes are
  centroids of their own. -/
  ends : ∃ (us : List ℚ) (ws : Multiset ℚ), vs = us + ws ∧
    d.buffer.unmerged = us.map Centroid.ofValue ∧ ws.card = d.compressedWeight ∧
    (∀ c ∈ d.buffer.compressed.head?, c.weight = 1 ∧ IsLeast {v | v ∈ ws} c.mean) ∧
    ∀ c ∈ d.buffer.compressed.getLast?, c.weight = 1 ∧ IsGreatest {v | v ∈ ws} c.mean
  unmergedLen_le : d.buffer.unmergedLen ≤ d.maxUnmerged

/-- The operations return, and queries reach no unreachable arm. -/
structure Proceeds (codec : F64Codec ℚ) (scale : ScaleFunction) (vs : Multiset ℚ)
    (d : TDigestMut ℚ) : Prop where
  update : ∀ value, ∃ d', d.update scale value = .ok d'
  merge : ∀ ws other, Reachable codec scale ws other → (vs + ws).card < 2 ^ 64 →
    ∃ d', d.merge scale other = .ok d'
  ask : ∀ query : TDigestQuery ℚ, query.Valid → ∀ msg, d.ask scale query ≠ .error (.unreachable msg)
  freeze : ∃ frozen d', d.freeze scale = .ok frozen ∧ frozen.unfreeze = .ok d'
  serialize : ∃ d' bytes, d.serialize codec scale = .ok (d', bytes) ∧
    (d'.buffer.len < 2 ^ 32 → ∃ e, deserialize codec bytes false = .ok e)

/-- The centroids lie between the values at both ends, whether there are any or not. -/
theorem Stands.within (h : Stands vs d) (hd : d.Shape) (hweight : d.weight = vs.card) :
    ∃ x y, (∀ c ∈ d.buffer.compressed, x ≤ c.mean ∧ c.mean ≤ y) ∧
      (d.isEmpty = false → d.min = .finite x ∧ d.max = .finite y) := by
  by_cases hnil : d.contents = []
  · refine ⟨0, 0, fun c hc ↦ ?_, fun hfalse ↦ ?_⟩
    · rw [(List.append_eq_nil_iff.mp hnil).2] at hc
      exact absurd hc List.not_mem_nil
    · exact absurd (hd.isEmpty_iff.mpr hnil) (ne_true_of_eq_false hfalse)
  · obtain ⟨x, y, hx, hy⟩ := hd.nonempty hnil
    refine ⟨x, y, fun c hc ↦ ?_, fun _ ↦ ⟨hx, hy⟩⟩
    have hmin := h.isMin
    have hmax := h.isMax
    rw [hx] at hmin
    rw [hy] at hmax
    obtain ⟨us, ws, rfl, -, hrep⟩ := h.parts
    constructor
    · obtain ⟨f, hf⟩ : ∃ f, firstMin meanVal d.buffer.compressed = some f :=
        Option.ne_none_iff_exists'.mp fun hnone ↦
          List.ne_nil_of_mem hc (firstMin_eq_none_iff.mp hnone)
      obtain ⟨-, hmem, -⟩ := hrep.first f hf
      exact (hmin.2 _ (Multiset.mem_add.mpr (Or.inr hmem))).trans ((firstMin_spec hf).2 c hc)
    · obtain ⟨l, hl⟩ : ∃ l, lastMax meanVal d.buffer.compressed = some l :=
        Option.ne_none_iff_exists'.mp fun hnone ↦
          List.ne_nil_of_mem hc (lastMax_eq_none_iff.mp hnone)
      obtain ⟨-, hmem, -⟩ := hrep.last l hl
      exact ((lastMax_spec hl).2 c hc).trans (hmax.2 _ (Multiset.mem_add.mpr (Or.inr hmem)))

theorem Stands.exact (h : Stands vs d) (hd : d.Shape) (hweight : d.weight = vs.card)
    (hlt : vs.card < 2 ^ 64) : d.Exact vs := by
  have hempty : d.isEmpty = true ↔ vs = 0 := by
    rw [hd.isEmpty_iff_weight, hweight, Multiset.card_eq_zero]
  constructor
  case totalWeight_eq => rw [hd.totalWeight_eq (hweight ▸ hlt), hweight]
  case minValue_eq =>
    by_cases hvs : vs = 0
    · exact Or.inl ⟨hvs, if_pos (hempty.mpr hvs)⟩
    · obtain ⟨x, y, hx, -⟩ := hd.nonempty fun hnil ↦ hvs (hempty.mp (hd.isEmpty_iff.mpr hnil))
      have hmin := h.isMin
      rw [hx] at hmin
      exact Or.inr ⟨x, by rw [minValue, if_neg fun htrue ↦ hvs (hempty.mp htrue), hx], hmin⟩
  case maxValue_eq =>
    by_cases hvs : vs = 0
    · exact Or.inl ⟨hvs, if_pos (hempty.mpr hvs)⟩
    · obtain ⟨x, y, -, hy⟩ := hd.nonempty fun hnil ↦ hvs (hempty.mp (hd.isEmpty_iff.mpr hnil))
      have hmax := h.isMax
      rw [hy] at hmax
      exact Or.inr ⟨y, by rw [maxValue, if_neg fun htrue ↦ hvs (hempty.mp htrue), hy], hmax⟩
  case compressedWeight_eq => exact hd.compressedWeight_eq
  case sorted => exact h.sorted
  case within => exact h.within hd hweight
  case ends =>
    obtain ⟨us, ws, hvs, hunmerged, hrep⟩ := h.parts
    have hfirst : firstMin meanVal d.buffer.compressed = d.buffer.compressed.head? :=
      firstMin_of_pairwise h.sorted
    have hlast : lastMax meanVal d.buffer.compressed = d.buffer.compressed.getLast? :=
      lastMax_of_pairwise h.sorted
    refine ⟨us, ws, hvs, hunmerged, ?_, fun c hc ↦ ?_, fun c hc ↦ ?_⟩
    · rw [hd.compressedWeight_eq, hrep.totalWeight_eq]
    · obtain ⟨hone, hleast⟩ := hrep.first c (hfirst.trans hc)
      exact ⟨hone, hleast⟩
    · obtain ⟨hone, hgreatest⟩ := hrep.last c (hlast.trans hc)
      exact ⟨hone, hgreatest⟩
  case unmergedLen_le =>
    rw [← TDigestBuffer.length_unmerged hd.fits]
    exact h.unmerged_le

theorem Shape.proceeds (codec : F64Codec ℚ) (hd : d.Shape) (hweight : d.weight = vs.card)
    (hlt : vs.card < 2 ^ 64) : d.Proceeds codec scale vs := by
  have hlt' : d.weight < 2 ^ 64 := hweight ▸ hlt
  obtain ⟨d₁, hcompress, h₁, hnil, hd₁⟩ := hd.compress_spec scale hlt'
  have hweight₁ : d₁.weight = d.weight := by
    rcases hd₁ with rfl | hfrom
    · rfl
    · exact hfrom.weight_eq
  constructor
  case update =>
    intro value
    cases value with
    | finite x =>
        obtain ⟨d', -, -, -, hok⟩ := update_spec scale hd hlt' x
        exact ⟨_, hok⟩
    | infinity => exact ⟨d, rfl⟩
    | negInfinity => exact ⟨d, rfl⟩
    | nan => exact ⟨d, rfl⟩
  case merge =>
    intro ws other ho hsum
    rw [Multiset.card_add] at hsum
    obtain ⟨hother, hweight', -⟩ := ho.kept (kept_stands scale) (by omega)
    obtain ⟨d', hok, -⟩ := merge_spec scale hd hother (by omega)
    exact ⟨d', hok⟩
  case ask =>
    intro query hvalid msg hreached
    exact (ask_spec hd hlt' query).bad_of_error hreached hvalid msg rfl
  case freeze =>
    obtain ⟨frozen, hfrozen⟩ := freeze_spec h₁ hnil hcompress
    obtain ⟨d', hok, -⟩ := unfreeze_spec h₁ hnil hfrozen hcompress
    exact ⟨frozen, d', hfrozen, hok⟩
  case serialize =>
    refine ⟨d₁, image codec d₁, serialize_eq_image hd hlt' hcompress h₁ hnil hweight₁, fun hlen ↦ ?_⟩
    rw [TDigestBuffer.len_eq h₁.fits] at hlen
    obtain ⟨e, hok, -⟩ := deserialize_image codec h₁ hnil (by omega) (by omega)
    exact ⟨e, hok⟩

/-! ## A format for all rational numbers -/

/-- The number of a rational number. -/
def exactCode : F64 ℚ → ℕ
  | .infinity => 0
  | .negInfinity => 1
  | .nan => 2
  | .finite x => Encodable.encode x + 3

/-- The rational number of a number. -/
def exactDecode : ℕ → Option (F64 ℚ)
  | 0 => some .infinity
  | 1 => some .negInfinity
  | 2 => some .nan
  | n + 3 => (Encodable.decode n).map .finite

theorem exactDecode_exactCode (x : F64 ℚ) : exactDecode (exactCode x) = some x := by
  cases x with
  | finite x => rw [exactCode, exactDecode, Encodable.encodek, Option.map_some]
  | infinity => rfl
  | negInfinity => rfl
  | nan => rfl

/-- Zero in its eight bytes, and other numbers in unary after an escape. -/
def exactWrite (x : F64 ℚ) : List UInt8 :=
  if x = .finite 0 then List.replicate 8 0
  else List.replicate 8 255 ++ (List.replicate (exactCode x) 0 ++ [1])

def exactRead (bs : List UInt8) : Option (F64 ℚ × List UInt8) :=
  if bs.take 8 = List.replicate 8 0 then some (.finite 0, bs.drop 8)
  else (exactDecode ((bs.drop 8).takeWhile (· = 0)).length).map
    (·, ((bs.drop 8).dropWhile (· = 0)).drop 1)

theorem exactRead_exactWrite (x : F64 ℚ) (rest : List UInt8) :
    exactRead (exactWrite x ++ rest) = some (x, rest) := by
  rw [exactWrite]
  split_ifs with hzero
  · rw [exactRead, List.take_left' List.length_replicate, List.drop_left' List.length_replicate,
      if_pos rfl, hzero]
  · have hzeros : ∀ b ∈ List.replicate (exactCode x) (0 : UInt8), decide (b = 0) = true :=
      fun b hb ↦ decide_eq_true (List.eq_of_mem_replicate hb)
    have htake : ((List.replicate (exactCode x) 0 ++ [1]) ++ rest).takeWhile
        (fun b : UInt8 ↦ b = 0) = List.replicate (exactCode x) 0 := by
      rw [List.append_assoc, List.takeWhile_append_of_pos hzeros]
      exact List.append_nil _
    have hdrop : ((List.replicate (exactCode x) 0 ++ [1]) ++ rest).dropWhile
        (fun b : UInt8 ↦ b = 0) = 1 :: rest := by
      rw [List.append_assoc, List.dropWhile_append_of_pos hzeros]
      rfl
    rw [exactRead, List.append_assoc, List.take_left' List.length_replicate,
      List.drop_left' List.length_replicate, if_neg (by decide), htake, hdrop,
      List.length_replicate, exactDecode_exactCode]
    rfl

/-- A format in which every rational number is a double. -/
def exactCodec : F64Codec ℚ where
  writeF64Le := exactWrite
  readF64Le := exactRead
  read_write := exactRead_exactWrite
  eight_le_length x := by
    rw [exactWrite]
    split_ifs
    · exact List.length_replicate.ge
    · rw [List.length_append, List.length_replicate]
      exact Nat.le_add_right 8 _
  readF32Le := exactRead
  readF64Be := exactRead
  readF32Be := exactRead

/-! ## The bounds of runs -/

/-- A scale function that merges no centroids. -/
def keepAll : ScaleFunction := ⟨fun _ _ ↦ -1, fun _ _ ↦ 1⟩

theorem mergeFrom_keepAll (normalizer : ℚ) {compressedWeight : ℚ} (hpos : 0 ≤ compressedWeight)
    (fresh : Bool) (weightSoFar : ℚ) (last : Centroid ℚ) (rest : List (Centroid ℚ)) :
    mergeFrom keepAll normalizer compressedWeight fresh weightSoFar last rest =
      .ok (last :: rest) := by
  induction rest generalizing fresh weightSoFar last with
  | nil => rfl
  | cons c rest ih =>
      have hadmits : ¬ keepAll.admits normalizer compressedWeight weightSoFar
          ((last.weight : ℕ) + (c.weight : ℕ)) = true := by
        have hlast : (0 : ℚ) < (last.weight : ℕ) := by exact_mod_cast last.weight.pos
        have hc : (0 : ℚ) < (c.weight : ℕ) := by exact_mod_cast c.weight.pos
        rw [ScaleFunction.admits, decide_eq_true_eq, not_le]
        change compressedWeight * Min.min (-1 : ℚ) (-1) < _
        rw [min_self]
        linarith
      rw [mergeFrom, if_neg fun h ↦ hadmits h.2.2, ih]
      rfl

/-- Without merging, all centroids stay single values. -/
theorem kept_singles : Kept keepAll fun _ (d : TDigestMut ℚ) ↦ ∀ c ∈ d.contents, c.weight = 1 := by
  have hfrom : ∀ {d d' : TDigestMut ℚ} {cs : List (Centroid ℚ)}, (∀ c ∈ cs, c.weight = 1) →
      CompressedFrom keepAll d cs d' → ∀ c ∈ d'.contents, c.weight = 1 := by
    rintro d d' cs hcs ⟨first, last, compressed, -, -, hc, rfl⟩ c hmem
    rw [contents_compressedTo] at hmem
    obtain ⟨c₀, rest, merged, horder, hmerged, rfl⟩ := hc.merged
    rw [mergeFrom_keepAll _ (Nat.cast_nonneg _)] at hmerged
    cases hmerged
    have hmem' : c ∈ c₀ :: rest := by
      split_ifs at hmem
      · exact List.mem_reverse.mp hmem
      · exact hmem
    rw [← horder] at hmem'
    exact hcs c ((perm_mergingOrder _ cs).mem_iff.mp hmem')
  constructor
  case new =>
    intro d _ hnil c hc
    rw [hnil] at hc
    exact absurd hc List.not_mem_nil
  case push =>
    intro vs d hd h _ value c hc
    rw [hd.contents_pushed] at hc
    rcases List.mem_append.mp hc with hc | hc
    · exact h c (List.mem_append_left _ hc)
    · rcases List.mem_cons.mp hc with rfl | hc
      · rfl
      · exact h c (List.mem_append_right _ hc)
  case compress =>
    intro vs d d' _ _ h hd
    exact hfrom h hd
  case merge =>
    intro vs ws d other d' _ _ _ h ho _ hd
    refine hfrom (fun c hc ↦ ?_) hd
    rcases List.mem_append.mp hc with hc | hc
    · rcases List.mem_append.mp hc with hc | hc
      · exact h c (List.mem_append_left _ hc)
      · exact ho c hc
    · exact h c (List.mem_append_right _ hc)
  case same =>
    intro vs d e _ h hsame _
    rw [hsame.contents_eq]
    exact h

/-- A digest of `2 ^ 32` centroids is written as one of none. -/
theorem deserialize_image_of_full {d : TDigestMut ℚ} (h : d.Shape) (hnil : d.buffer.unmerged = [])
    (hlen : d.buffer.compressed.length = 2 ^ 32) (hweight : d.compressedWeight = 2 ^ 32) :
    ∃ e, deserialize exactCodec (image exactCodec d) false = .ok e ∧ e.totalWeight = .ok 0 := by
  have hne : d.contents ≠ [] := by
    intro hempty
    have hzero := totalWeight_eq_zero_iff.mpr hempty
    rw [← weight, h.weight_of_compressed hnil, hweight] at hzero
    exact absurd hzero (by decide)
  obtain ⟨x, y, hmin, hmax⟩ := h.nonempty hne
  -- The number of centroids wraps around.
  have hfield : writeU32Le (2 ^ 32) = writeU32Le 0 := by decide
  have hmake : make d.k d.reverseMerge (.finite x) (.finite y) (.staging []) 0 =
      .ok ⟨d.k, d.reverseMerge, .finite x, .finite y, .staging [], 0⟩ := by
    rw [make, assert_pos h.k_range.1]
    rfl
  have hsum : checkedWeightSum 0 0 = .ok 0 := rfl
  refine ⟨⟨d.k, d.reverseMerge, .finite x, .finite y, .staging [], 0⟩, ?_, rfl⟩
  rw [image, readNative_header h.k_range, hweight, if_neg (by decide), if_neg (by decide),
    if_neg (by decide), if_neg (by decide), hlen, hfield, hmin, hmax]
  simp only [List.append_assoc]
  rw [readMultiple, bind_of_ok (readU32Le_write (show 0 < 2 ^ 32 by decide) _ _),
    bind_of_ok (readU32Le_write (show 0 < 2 ^ 32 by decide) _ _),
    bind_of_ok (readFloat_write exactCodec (.finite x) _ _),
    bind_of_ok (readFloat_write exactCodec (.finite y) _ _)]
  rw [show checkNonNan (.finite x : F64 ℚ) "min" = .ok () from rfl,
    show checkNonNan (.finite y : F64 ℚ) "max" = .ok () from rfl,
    show checkFinite (.finite x : F64 ℚ) "min" = .ok () from rfl,
    show checkFinite (.finite y : F64 ℚ) "max" = .ok () from rfl,
    bind_of_ok (liftResult_ok () _), bind_of_ok (liftResult_ok () _),
    bind_of_ok (liftResult_ok () _), bind_of_ok (liftResult_ok () _)]
  dsimp only
  rw [if_neg (by decide), bind_of_ok (remaining_apply _), if_neg (by omega), if_pos rfl, hsum,
    bind_of_ok (liftResult_ok _ _), readBuffered, bind_of_ok (pure_apply _ _), hmake, liftChecked_ok]
  rfl

end TDigestMut

end DataSketches
