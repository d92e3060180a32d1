import DataSketches.Lib.StableSort
import DataSketches.TDigest.Centroid

/-!
# The t-digest

Values are buffered and compressed into centroids when the buffer is full.  The
buffer has two forms, for values that were never compressed and for centroids with
a tail of single values; `parts` forgets which form it is, and every operation only
depends on it.
-/

namespace DataSketches

open Runs FloatFormat

/-- The update buffer: values before the first compression, or centroids of which the last ones
are an unmerged tail of single values. -/
inductive TDigestBuffer (M : Type) where
  | staging (values : List M)
  | centroids (centroids : List (Centroid M)) (unmergedTailLen : ℕ)
deriving DecidableEq

namespace TDigestBuffer

variable {M : Type}

def len : TDigestBuffer M → ℕ
  | staging values => values.length
  | centroids cs _ => cs.length

def isEmpty (b : TDigestBuffer M) : Bool := b.len = 0

def unmergedLen : TDigestBuffer M → ℕ
  | staging values => values.length
  | centroids _ unmergedTailLen => unmergedTailLen

/-- Returns compressed centroids after the caller has processed staged values.  The consuming form
does the same. -/
def compressedCentroids : TDigestBuffer M → Checked (List (Centroid M))
  | staging [] => .ok []
  | centroids cs 0 => .ok cs
  | _ => .error (.unreachable "t-digest buffer must be compressed before reading centroids")

/-- What a merge starts from: the centroids, the length of the compressed prefix, and the unmerged
weight. -/
def mergeBuffer : TDigestBuffer M → Checked (List (Centroid M) × ℕ × ℕ)
  | staging values => return (values.map Centroid.ofValue, 0, values.length)
  | centroids cs unmergedTailLen =>
      return (cs, ← checkedSub cs.length unmergedTailLen, unmergedTailLen)

/-- What a merge adds of the other buffer: the tail, then the compressed prefix. -/
def tailFirst : TDigestBuffer M → Checked (List (Centroid M))
  | staging values => return values.map Centroid.ofValue
  | centroids cs unmergedTailLen => do
      let otherPrefixLen ← checkedSub cs.length unmergedTailLen
      return cs.drop otherPrefixLen ++ cs.take otherPrefixLen

/-- The compressed centroids, in either form. -/
def compressed : TDigestBuffer M → List (Centroid M)
  | staging _ => []
  | centroids cs unmergedTailLen => cs.take (cs.length - unmergedTailLen)

/-- The unmerged values, in either form. -/
def unmerged : TDigestBuffer M → List (Centroid M)
  | staging values => values.map Centroid.ofValue
  | centroids cs unmergedTailLen => cs.drop (cs.length - unmergedTailLen)

/-- One more unmerged value. -/
def push (b : TDigestBuffer M) (value : M) : TDigestBuffer M :=
  match b with
  | staging values => staging (values ++ [value])
  | centroids cs unmergedTailLen => centroids (cs ++ [.ofValue value]) (unmergedTailLen + 1)

/-- The tail is a part of the centroids. -/
def Fits : TDigestBuffer M → Prop
  | staging _ => True
  | centroids cs unmergedTailLen => unmergedTailLen ≤ cs.length

variable {b : TDigestBuffer M}

theorem length_unmerged (h : b.Fits) : b.unmerged.length = b.unmergedLen := by
  cases b with
  | staging values => exact List.length_map _
  | centroids cs n =>
      rw [unmerged, List.length_drop]
      exact Nat.sub_sub_self h

theorem len_eq (h : b.Fits) : b.len = b.compressed.length + b.unmerged.length := by
  cases b with
  | staging values => simp [len, compressed, unmerged]
  | centroids cs n =>
      rw [compressed, unmerged, ← List.length_append, List.take_append_drop]
      rfl

theorem isEmpty_iff (h : b.Fits) : b.isEmpty = true ↔ b.compressed = [] ∧ b.unmerged = [] := by
  rw [isEmpty, decide_eq_true_eq, len_eq h, Nat.add_eq_zero_iff, List.length_eq_zero_iff,
    List.length_eq_zero_iff]

theorem fits_push (h : b.Fits) (value : M) : (b.push value).Fits := by
  cases b with
  | staging values => trivial
  | centroids cs n =>
      change n + 1 ≤ (cs ++ [Centroid.ofValue value]).length
      rw [List.length_append, List.length_singleton]
      exact Nat.succ_le_succ h

theorem compressed_push (h : b.Fits) (value : M) : (b.push value).compressed = b.compressed := by
  cases b with
  | staging values => rfl
  | centroids cs n =>
      have hn : n ≤ cs.length := h
      rw [push, compressed, compressed, List.length_append, List.length_singleton,
        Nat.add_sub_add_right, List.take_append_of_le_length (Nat.sub_le _ _)]

theorem unmerged_push (h : b.Fits) (value : M) :
    (b.push value).unmerged = b.unmerged ++ [.ofValue value] := by
  cases b with
  | staging values => exact List.map_append
  | centroids cs n =>
      have hn : n ≤ cs.length := h
      rw [push, unmerged, unmerged, List.length_append, List.length_singleton,
        Nat.add_sub_add_right, List.drop_append_of_le_length (Nat.sub_le _ _)]

theorem tailFirst_eq (h : b.Fits) : b.tailFirst = .ok (b.unmerged ++ b.compressed) := by
  cases b with
  | staging values =>
      change Except.ok _ = Except.ok (_ ++ [])
      rw [List.append_nil]
      rfl
  | centroids cs n =>
      rw [tailFirst, checkedSub_of_le h]
      rfl

/-- Rotated by the length of its compressed prefix, what a merge starts from has the unmerged
values first. -/
theorem mergeBuffer_eq (h : b.Fits) : ∃ cs, b.mergeBuffer =
      .ok (cs, b.compressed.length, b.unmerged.length) ∧
    ∀ ds, (cs ++ ds).rotate b.compressed.length = b.unmerged ++ ds ++ b.compressed := by
  cases b with
  | staging values =>
      refine ⟨values.map Centroid.ofValue, ?_, fun ds ↦ ?_⟩
      · rw [mergeBuffer, compressed, unmerged, List.length_map]
        rfl
      · rw [compressed, unmerged, List.length_nil, List.rotate_zero, List.append_nil]
  | centroids cs n =>
      have hlen : (cs.take (cs.length - n)).length = cs.length - n := by
        rw [List.length_take, Nat.min_eq_left (Nat.sub_le _ _)]
      refine ⟨cs, ?_, fun ds ↦ ?_⟩
      · rw [length_unmerged h, mergeBuffer, checkedSub_of_le h, compressed, hlen]
        rfl
      · rw [compressed, unmerged, hlen, List.rotate_eq_drop_append_take
            (by rw [List.length_append]; omega), List.drop_append_of_le_length (Nat.sub_le _ _),
          List.take_append_of_le_length (Nat.sub_le _ _)]

@[simp] theorem compressed_centroids_zero (cs : List (Centroid M)) :
    (centroids cs 0).compressed = cs := List.take_length

@[simp] theorem unmerged_centroids_zero (cs : List (Centroid M)) :
    (centroids cs 0).unmerged = [] := List.drop_length

end TDigestBuffer

/-- T-Digest sketch for estimating quantiles and ranks. -/
structure TDigestMut (M : Type) where
  k : ℕ
  reverseMerge : Bool
  min : F64 M
  max : F64 M
  buffer : TDigestBuffer M
  /-- Weight represented by the compressed prefix. -/
  compressedWeight : ℕ
deriving DecidableEq

/-- Immutable (frozen) T-Digest sketch. -/
structure TDigest (M : Type) where
  k : ℕ
  reverseMerge : Bool
  min : F64 M
  max : F64 M
  centroids : List (Centroid M)
  centroidsWeight : ℕ

/-- What queries read. -/
structure TDigestView (M : Type) where
  min : F64 M
  max : F64 M
  centroids : List (Centroid M)
  centroidsWeight : ℕ

namespace TDigestMut

variable {M : Type}

/-- The checks of `make` on the buffer. -/
def bufferFits (buffer : TDigestBuffer M) (compressedWeight : ℕ) : Bool :=
  match buffer with
  | .staging _ => compressedWeight = 0
  | .centroids cs unmergedTailLen => unmergedTailLen ≤ cs.length

def make (k : ℕ) (reverseMerge : Bool) (min max : F64 M) (buffer : TDigestBuffer M)
    (compressedWeight : ℕ) : Checked (TDigestMut M) := do
  assert (k ≥ 10) "k must be at least 10"
  assert (bufferFits buffer compressedWeight) "assertion failed: the buffer fits its weight"
  return ⟨k, reverseMerge, min, max, buffer, compressedWeight⟩

/-- Creates a mutable t-digest with the given `k` value. -/
def new (k : ℕ) : Checked (TDigestMut M) := make k false .infinity .negInfinity (.staging []) 0

def tryNew (k : ℕ) : Checked (Except Error (TDigestMut M)) :=
  if k < 10 then return .error (.invalidArgument s!"k must be at least 10, got {k}")
  else return .ok (← make k false .infinity .negInfinity (.staging []) 0)

/-- Multiplier for unmerged values relative to the target number of centroids. -/
def unmergedMultiplier : ℕ := 4

def targetCentroids (d : TDigestMut M) : ℕ := d.k * 2 + if d.k < 30 then 30 else 10

def maxUnmerged (d : TDigestMut M) : ℕ := d.targetCentroids * unmergedMultiplier

/-- Returns `true` if this t-digest has not seen any data. -/
def isEmpty (d : TDigestMut M) : Bool := d.buffer.isEmpty

/-- Returns the minimum value seen by this t-digest, or `none` if it is empty. -/
def minValue (d : TDigestMut M) : Option (F64 M) := if d.isEmpty then none else some d.min

/-- Returns the maximum value seen by this t-digest, or `none` if it is empty. -/
def maxValue (d : TDigestMut M) : Option (F64 M) := if d.isEmpty then none else some d.max

/-- Returns the total weight. -/
def totalWeight (d : TDigestMut M) : Checked ℕ :=
  checkedAdd 64 d.compressedWeight d.buffer.unmergedLen

variable [FloatFormat M] (scale : ScaleFunction)

/-- Compresses the given centroids into this t-digest. -/
def compressCentroids (d : TDigestMut M) (centroids : List (Centroid M)) (additionalWeight : ℕ) :
    Checked (TDigestMut M) := do
  assert (!centroids.isEmpty) "assertion failed: !centroids.is_empty()"
  let sorted := centroids.insertionSort (val ·.mean ≤ val ·.mean)
  let ordered := if d.reverseMerge then sorted.reverse else sorted
  let compressedWeight ← checkedAdd 64 d.compressedWeight additionalWeight
  let normalizer := scale.normalizer (2 * d.k) compressedWeight
  let merged ← mergeLoop scale normalizer compressedWeight (ordered.length - 1) 1 1 0 ordered
  let centroids := if d.reverseMerge then merged.reverse else merged
  let first ← centroidAt centroids 0
  let last ← centroidAt centroids (centroids.length - 1)
  return { d with
    min := d.min.min (.finite first.mean)
    max := d.max.max (.finite last.mean)
    reverseMerge := !d.reverseMerge
    buffer := .centroids centroids 0
    compressedWeight := compressedWeight }

/-- Processes unmerged values and merges centroids if needed. -/
def compress (d : TDigestMut M) : Checked (TDigestMut M) :=
  match d.buffer with
  | .staging [] => return d
  | .staging (value :: values) => do
      assert (d.compressedWeight = 0) "assertion failed: self.compressed_weight == 0"
      d.compressCentroids scale ((value :: values).map Centroid.ofValue) (value :: values).length
  | .centroids _ 0 => return d
  | .centroids centroids (n + 1) => do
      let compressedPrefixLen ← checkedSub centroids.length (n + 1)
      d.compressCentroids scale (centroids.rotate compressedPrefixLen) (n + 1)

/-- The part of `update` for a buffer of centroids. -/
def updateCentroids (d : TDigestMut M) (value : M) : Checked (TDigestMut M) := do
  let d ← match d.buffer with
    | .centroids _ unmergedTailLen =>
        if unmergedTailLen ≥ d.maxUnmerged then d.compress scale else pure d
    | .staging _ => pure d
  match d.buffer with
  | .centroids centroids unmergedTailLen => return { d with
      buffer := .centroids (centroids ++ [.ofValue value]) (unmergedTailLen + 1)
      min := d.min.min (.finite value)
      max := d.max.max (.finite value) }
  | .staging _ => throw (.unreachable
      "a full staging buffer must become centroid-backed after compression")

/-- Updates this t-digest with the given value, unless it is not finite. -/
def update (d : TDigestMut M) (value : F64 M) : Checked (TDigestMut M) :=
  match value with
  | .finite value =>
      match d.buffer with
      | .staging values =>
          if values.length < d.maxUnmerged then return { d with
            buffer := .staging (values ++ [value])
            min := d.min.min (.finite value)
            max := d.max.max (.finite value) }
          else do (← d.compress scale).updateCentroids scale value
      | .centroids _ _ => d.updateCentroids scale value
  | _ => return d

/-- Merges the given t-digest into this one. -/
def merge (d other : TDigestMut M) : Checked (TDigestMut M) := do
  if other.isEmpty then
    return d
  let (mergeBuffer, existingPrefixLen, selfUnmergedWeight) ← d.buffer.mergeBuffer
  let mergeBuffer := mergeBuffer ++ (← other.buffer.tailFirst)
  let additionalWeight ← checkedAdd 64 selfUnmergedWeight (← other.totalWeight)
  { d with buffer := .staging [] }.compressCentroids scale (mergeBuffer.rotate existingPrefixLen)
    additionalWeight

/-- Converts this mutable t-digest into an immutable one. -/
def freeze (d : TDigestMut M) : Checked (TDigest M) := do
  let d ← d.compress scale
  return ⟨d.k, d.reverseMerge, d.min, d.max, ← d.buffer.compressedCentroids, d.compressedWeight⟩

/-- The digest after the compression that a view needs, and the view. -/
def view (d : TDigestMut M) : Checked (TDigestMut M × TDigestView M) := do
  let d ← d.compress scale
  return (d, ⟨d.min, d.max, ← d.buffer.compressedCentroids, d.compressedWeight⟩)

/-! ## Either form of the buffer -/

variable {scale}

theorem maxUnmerged_pos (d : TDigestMut M) : 0 < d.maxUnmerged := by
  unfold maxUnmerged targetCentroids unmergedMultiplier
  split_ifs <;> omega

/-- A digest whose buffer is in order. -/
def Fits (d : TDigestMut M) : Prop :=
  d.buffer.Fits ∧ ∀ values, d.buffer = .staging values → d.compressedWeight = 0

/-- Compression sorts the unmerged values before the compressed centroids. -/
theorem compress_eq {d : TDigestMut M} (h : d.Fits) :
    d.compress scale = if d.buffer.unmerged = [] then .ok d
      else d.compressCentroids scale (d.buffer.unmerged ++ d.buffer.compressed)
        d.buffer.unmerged.length := by
  obtain ⟨hfits, hweight⟩ := h
  rw [compress]
  cases hb : d.buffer with
  | staging values =>
      cases values with
      | nil => rfl
      | cons value values =>
          rw [if_neg (show ¬ (TDigestBuffer.staging (value :: values)).unmerged = [] by nofun),
            assert_pos (hweight _ hb)]
          have hunmerged : (TDigestBuffer.staging (value :: values)).unmerged =
            (value :: values).map Centroid.ofValue := rfl
          have hcompressed : (TDigestBuffer.staging (value :: values)).compressed = [] := rfl
          rw [hunmerged, hcompressed, List.append_nil, List.length_map]
          rfl
  | centroids cs n =>
      rw [hb] at hfits
      cases n with
      | zero => rw [TDigestBuffer.unmerged_centroids_zero, if_pos rfl]; rfl
      | succ n =>
          have hlen := TDigestBuffer.length_unmerged hfits
          have hne : ¬ (TDigestBuffer.centroids cs (n + 1)).unmerged = [] := by
            intro hnil
            rw [hnil] at hlen
            cases hlen
          dsimp only
          rw [if_neg hne, hlen, checkedSub_of_le hfits, ok_bind,
            List.rotate_eq_drop_append_take (Nat.sub_le _ _)]
          rfl

/-- An update with a finite value makes room for it first. -/
theorem update_finite {d : TDigestMut M} (h : d.Fits) (value : M)
    (hcompress : ∀ d', d.compress scale = .ok d' → d.buffer.unmerged ≠ [] →
      ∃ cs, d'.buffer = .centroids cs 0) :
    d.update scale (.finite value) =
      ((if d.buffer.unmerged.length < d.maxUnmerged then .ok d else d.compress scale) >>= fun d' ↦
        .ok { d' with
          buffer := d'.buffer.push value
          min := d'.min.min (.finite value)
          max := d'.max.max (.finite value) }) := by
  have hlen := TDigestBuffer.length_unmerged h.1
  rw [update]
  -- After a compression there is room in a buffer of centroids.
  have hroom : ¬ d.buffer.unmerged.length < d.maxUnmerged → ∀ d', d.compress scale = .ok d' →
      ∃ cs, d'.buffer = .centroids cs 0 := by
    intro hfull d' hok
    refine hcompress d' hok fun hnil ↦ hfull ?_
    rw [hnil]
    exact maxUnmerged_pos d
  cases hb : d.buffer with
  | staging values =>
      rw [hb] at hlen hroom
      have hvalues : (TDigestBuffer.staging values).unmerged.length = values.length := hlen
      dsimp only
      rw [hvalues] at hroom ⊢
      split_ifs with hfull
      · rw [ok_bind, hb]
        rfl
      · cases hok : d.compress scale with
        | error e => rfl
        | ok d' =>
            obtain ⟨cs, hcs⟩ := hroom hfull d' hok
            rw [ok_bind, ok_bind, updateCentroids, hcs]
            dsimp only
            rw [if_neg (not_le.mpr (maxUnmerged_pos d')), pure_eq_ok, ok_bind, hcs]
            rfl
  | centroids cs n =>
      rw [hb] at hlen hroom
      have hn : (TDigestBuffer.centroids cs n).unmerged.length = n := hlen
      dsimp only
      rw [hn] at hroom ⊢
      rw [updateCentroids, hb]
      dsimp only
      by_cases hfull : n < d.maxUnmerged
      · rw [if_neg (not_le.mpr hfull), if_pos hfull, pure_eq_ok, ok_bind, ok_bind, hb]
        rfl
      · rw [if_pos (not_lt.mp hfull), if_neg hfull]
        cases hok : d.compress scale with
        | error e => rfl
        | ok d' =>
            obtain ⟨cs', hcs⟩ := hroom hfull d' hok
            rw [ok_bind, ok_bind, hcs]
            rfl

/-- A merge sorts the unmerged values of both digests before the centroids of the other one, and
these before its own. -/
theorem merge_eq {d other : TDigestMut M} (h : d.Fits) (ho : other.Fits) :
    d.merge scale other = if other.isEmpty then .ok d
      else other.totalWeight >>= fun weight ↦
        checkedAdd 64 d.buffer.unmerged.length weight >>= fun additionalWeight ↦
          d.compressCentroids scale (d.buffer.unmerged ++ (other.buffer.unmerged ++
            other.buffer.compressed) ++ d.buffer.compressed) additionalWeight := by
  obtain ⟨cs, hcs, hrotate⟩ := TDigestBuffer.mergeBuffer_eq h.1
  rw [merge]
  split_ifs with hempty
  · rfl
  · rw [hcs, ok_bind]
    dsimp only
    rw [TDigestBuffer.tailFirst_eq ho.1, ok_bind, hrotate]
    rfl

end TDigestMut

/-- Converts this immutable t-digest into a mutable one. -/
def TDigest.unfreeze {M : Type} (d : TDigest M) : Checked (TDigestMut M) :=
  TDigestMut.make d.k d.reverseMerge d.min d.max (.centroids d.centroids 0) d.centroidsWeight

end DataSketches
