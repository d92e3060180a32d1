import DataSketches.TDigest.Serialization
import DataSketches.TDigest.Shape

/-!
# Reading back what was written

A compressed digest is read back as it was, up to the form of an empty buffer, as
long as the number of its centroids fits in its field.
-/

namespace DataSketches

open Runs FloatFormat ByteReader SketchSlice SketchBytes

/-- A number that was written, whatever follows. -/
theorem readOr_write {M : Type} (codec : F64Codec M) (x : F64 M) (e : Error) (rest : List UInt8) :
    readOr codec.readF64Le e (codec.writeF64Le x ++ rest) = .ok (x, rest) := by
  rw [readOr, codec.read_write]

theorem readFloat_write {M : Type} (codec : F64Codec M) (x : F64 M) (tag : String)
    (rest : List UInt8) :
    TDigestMut.readFloat codec false tag (codec.writeF64Le x ++ rest) = .ok (x, rest) :=
  readOr_write codec x (.insufficientData tag) rest

namespace TDigestMut

variable {M : Type}

/-! ## The image of a compressed digest -/

/-- The flags of a digest of the given weight. -/
def flagsOf (weight : ℕ) (reverseMerge : Bool) : ℕ :=
  (if weight = 0 then flagsIsEmpty else 0) ||| (if weight = 1 then flagsIsSingleValue else 0) |||
    (if reverseMerge then flagsReverseMerge else 0)

/-- The flags tell what they were made of. -/
theorem flagsOf_spec (weight : ℕ) (reverseMerge : Bool) :
    (flagsOf weight reverseMerge &&& flagsIsEmpty ≠ 0 ↔ weight = 0) ∧
      (flagsOf weight reverseMerge &&& flagsIsSingleValue ≠ 0 ↔ weight = 1) ∧
      (flagsOf weight reverseMerge &&& flagsReverseMerge ≠ 0 ↔ reverseMerge = true) ∧
      flagsOf weight reverseMerge < 2 ^ 8 := by
  unfold flagsOf
  by_cases hzero : weight = 0
  · subst hzero
    cases reverseMerge <;> decide
  · by_cases hone : weight = 1
    · subst hone
      cases reverseMerge <;> decide
    · simp only [hzero, hone, if_false, iff_false]
      cases reverseMerge <;> decide

def header (k weight : ℕ) (reverseMerge : Bool) : List UInt8 :=
  writeU8 (if weight = 0 ∨ weight = 1 then preambleLongsEmptyOrSingle else preambleLongsMultiple) ++
    writeU8 serialVersion ++ writeU8 Family.tdigest.id ++ writeU16Le k ++
    writeU8 (flagsOf weight reverseMerge) ++ writeU16Le 0

/-- What is written of a compressed digest. -/
def image (codec : F64Codec M) (d : TDigestMut M) : List UInt8 :=
  let cs := d.buffer.compressed
  header d.k d.compressedWeight d.reverseMerge ++
    if d.compressedWeight = 0 then []
    else if d.compressedWeight = 1 then codec.writeF64Le d.min
    else writeU32Le cs.length ++ writeU32Le 0 ++ codec.writeF64Le d.min ++
      codec.writeF64Le d.max ++ cs.flatMap (writeCentroid codec)

variable [FloatFormat M] {codec : F64Codec M} {scale : ScaleFunction} {d e : TDigestMut M}

/-- Digests in two forms have one image. -/
theorem Same.image_eq (h : Same d e) : image codec e = image codec d := by
  rw [image, image, h.k_eq, h.compressedWeight_eq, h.reverseMerge_eq, h.compressed_eq, h.min_eq,
    h.max_eq]

/-- The centroids of a compressed digest. -/
theorem compressedCentroids_eq (h : d.buffer.Fits) (hnil : d.buffer.unmerged = []) :
    d.buffer.compressedCentroids = .ok d.buffer.compressed := by
  have hlen := TDigestBuffer.length_unmerged h
  rw [hnil] at hlen
  cases hb : d.buffer with
  | staging values =>
      rw [hb] at hlen
      rw [List.eq_nil_of_length_eq_zero hlen.symm]
      rfl
  | centroids cs n =>
      rw [hb] at hlen
      cases (show 0 = n from hlen)
      rw [TDigestBuffer.compressed_centroids_zero]
      rfl

/-- Without unmerged values, all weight is compressed. -/
theorem Shape.weight_of_compressed (h : d.Shape) (hnil : d.buffer.unmerged = []) :
    d.weight = d.compressedWeight := by
  rw [h.weight_eq, hnil, List.length_nil, Nat.add_zero]

/-- Serializing compresses, and writes the image of what it leaves. -/
theorem serialize_eq_image [LawfulFloat M] (h : d.Shape) (hlt : d.weight < 2 ^ 64) {d' : TDigestMut M}
    (hcompress : d.compress scale = .ok d') (h' : d'.Shape) (hnil : d'.buffer.unmerged = [])
    (hweight : d'.weight = d.weight) :
    d.serialize codec scale = .ok (d', image codec d') := by
  have hcompressed := h'.weight_of_compressed hnil
  have htotal := h'.totalWeight_eq (hweight ▸ hlt)
  rw [hcompressed] at htotal
  have hempty : d'.isEmpty = true ↔ d'.compressedWeight = 0 := by
    rw [h'.isEmpty_iff_weight, hcompressed]
  rw [serialize, hcompress, ok_bind, compressedCentroids_eq h'.fits hnil, ok_bind, isSingleValue, htotal,
    ok_bind, ok_bind, pure_eq_ok, ok_bind, image, header, flagsOf]
  simp only [hempty, decide_eq_true_eq]
  by_cases hzero : d'.compressedWeight = 0
  · simp only [hzero, reduceIte, List.append_nil, true_or]
    rfl
  · by_cases hone : d'.compressedWeight = 1
    · simp only [hone, reduceIte, Nat.one_ne_zero, or_true]
      rfl
    · simp only [hzero, hone, reduceIte, or_self, List.append_assoc]
      rfl

/-! ## Reading -/

variable (codec) in
/-- Centroids that were written, after some of the given weight. -/
theorem readCentroids_write (cs : List (Centroid M)) {weight : ℕ}
    (h : weight + Centroid.totalWeight cs < 2 ^ 64) (rest : List UInt8) :
    readCentroids codec false cs.length weight (cs.flatMap (writeCentroid codec) ++ rest) =
      .ok ((cs, weight + Centroid.totalWeight cs), rest) := by
  induction cs generalizing weight with
  | nil => rfl
  | cons c cs ih =>
      rw [Centroid.totalWeight_cons] at h
      have hc : (c.weight : ℕ) < 2 ^ 64 := by omega
      have hsum : checkedWeightSum weight c.weight = .ok (weight + c.weight) :=
        if_pos (by omega)
      have hnonzero : checkNonzero c.weight "centroid weight" = .ok c.weight := by
        rw [checkNonzero, dif_pos c.weight.pos]
        rfl
      have hmean : finiteValue (.finite c.mean) "centroid mean" "centroid" = .ok c.mean := rfl
      rw [List.flatMap_cons, writeCentroid, List.length_cons, readCentroids, List.append_assoc,
        List.append_assoc, bind_of_ok (readFloat_write codec (.finite c.mean) "mean" _)]
      dsimp only
      rw [if_neg Bool.false_ne_true, bind_of_ok (readU64Le_write hc "weight" _), hmean, hnonzero,
        bind_of_ok (liftResult_ok c.mean _), bind_of_ok (liftResult_ok c.weight _), hsum,
        bind_of_ok (liftResult_ok _ _), bind_of_ok (ih (by omega)), Centroid.totalWeight_cons,
        Nat.add_assoc]
      rfl

/-- The number of bytes of a centroid. -/
theorem sixteen_mul_le_length (codec : F64Codec M) (cs : List (Centroid M)) :
    16 * cs.length ≤ (cs.flatMap (writeCentroid codec)).length := by
  induction cs with
  | nil => exact Nat.le_refl 0
  | cons c cs ih =>
      have height := codec.eight_le_length (.finite c.mean)
      rw [List.flatMap_cons, List.length_append, writeCentroid, List.length_append, writeU64Le,
        LittleEndian.length_leBytes, List.length_cons]
      omega

/-- The part of the image that has centroids. -/
theorem readMultiple_write {k : ℕ} (hk : 10 ≤ k) (reverseMerge : Bool) (x y : M)
    {cs : List (Centroid M)} (hne : cs ≠ []) (hlen : cs.length < 2 ^ 32)
    (hlt : Centroid.totalWeight cs < 2 ^ 64) :
    readMultiple codec false k reverseMerge (writeU32Le cs.length ++ writeU32Le 0 ++
      codec.writeF64Le (.finite x) ++ codec.writeF64Le (.finite y) ++
      cs.flatMap (writeCentroid codec)) =
      .ok (⟨k, reverseMerge, .finite x, .finite y, .centroids cs 0, Centroid.totalWeight cs⟩,
        []) := by
  have hbytes := sixteen_mul_le_length codec cs
  have hread := readCentroids_write codec cs (show 0 + Centroid.totalWeight cs < 2 ^ 64 by omega) []
  rw [List.append_nil, Nat.zero_add] at hread
  have hsum : checkedWeightSum (Centroid.totalWeight cs) 0 = .ok (Centroid.totalWeight cs) :=
    if_pos hlt
  have hmake : make k reverseMerge (.finite x) (.finite y)
      (.centroids (cs ++ [].map Centroid.ofValue) 0) (Centroid.totalWeight cs) =
        .ok ⟨k, reverseMerge, .finite x, .finite y, .centroids cs 0, Centroid.totalWeight cs⟩ := by
    have hfits : bufferFits (.centroids cs 0) (Centroid.totalWeight cs) = true :=
      decide_eq_true (Nat.zero_le cs.length)
    rw [List.map_nil, List.append_nil, make, assert_pos hk, ok_bind, assert_pos hfits]
    rfl
  have hzero : cs.length ≠ 0 := fun h ↦ hne (List.eq_nil_of_length_eq_zero h)
  simp only [List.append_assoc]
  rw [readMultiple, bind_of_ok (readU32Le_write hlen _ _),
    bind_of_ok (readU32Le_write (show 0 < 2 ^ 32 by decide) _ _),
    bind_of_ok (readFloat_write codec (.finite x) _ _),
    bind_of_ok (readFloat_write codec (.finite y) _ _)]
  rw [show checkNonNan (.finite x : F64 M) "min" = .ok () from rfl,
    show checkNonNan (.finite y : F64 M) "max" = .ok () from rfl,
    show checkFinite (.finite x : F64 M) "min" = .ok () from rfl,
    show checkFinite (.finite y : F64 M) "max" = .ok () from rfl,
    bind_of_ok (liftResult_ok () _), bind_of_ok (liftResult_ok () _),
    bind_of_ok (liftResult_ok () _), bind_of_ok (liftResult_ok () _)]
  dsimp only
  rw [if_neg Bool.false_ne_true, if_neg Bool.false_ne_true, if_neg (by omega),
    bind_of_ok (remaining_apply _), if_neg (by omega), if_neg hzero, bind_of_ok hread]
  dsimp only
  rw [hsum, bind_of_ok (liftResult_ok _ _), readBuffered, bind_of_ok (pure_apply _ _), hmake,
    liftChecked_ok]

/-- The header, read up to what depends on the flags. -/
theorem readNative_header {k weight : ℕ} {reverseMerge : Bool} (hk : 10 ≤ k ∧ k < 2 ^ 16)
    (rest : List UInt8) :
    deserialize codec (header k weight reverseMerge ++ rest) false = Prod.fst <$>
      (if weight = 0 then liftChecked (new k)
        else if weight = 1 then do
          let value ← readFloat codec false "single_value"
          let x ← liftResult (finiteValue value "single_value" "single_value")
          liftChecked (make k reverseMerge (.finite x) (.finite x) (.centroids [.ofValue x] 0) 1)
        else readMultiple codec false k reverseMerge) rest := by
  obtain ⟨hempty, hsingle, hreverse, hflags⟩ := flagsOf_spec weight reverseMerge
  have hpre : (if weight = 0 ∨ weight = 1 then preambleLongsEmptyOrSingle
      else preambleLongsMultiple) < 2 ^ 8 := by
    split_ifs <;> decide
  have hexpected : ∀ preLongs, ensurePreambleLongsIn [preLongs] preLongs = .ok () := fun preLongs ↦
    if_pos (List.mem_singleton.mpr rfl)
  have hvalid : Family.tdigest.validateId Family.tdigest.id = .ok () := rfl
  have hserial : ensureSerialVersionIs serialVersion serialVersion = .ok () := rfl
  rw [deserialize, deserializer, header]
  simp only [List.append_assoc]
  rw [bind_of_ok (readU8_write hpre _ _), bind_of_ok (readU8_write (by decide) _ _),
    bind_of_ok (readU8_write (by decide) _ _), hvalid]
  dsimp only
  rw [readNative, hserial, bind_of_ok (liftResult_ok () _), bind_of_ok (readU16Le_write hk.2 _ _),
    if_neg (not_lt.mpr hk.1), bind_of_ok (readU8_write hflags _ _)]
  simp only [decide_eq_true_eq, hempty, hsingle, hreverse, Bool.decide_eq_true]
  rw [hexpected, bind_of_ok (liftResult_ok () _),
    bind_of_ok (readU16Le_write (show 0 < 2 ^ 16 by decide) _ _)]

variable (codec) in
/-- A compressed digest is read back. -/
theorem deserialize_image (h : d.Shape) (hnil : d.buffer.unmerged = []) (hlt : d.weight < 2 ^ 64)
    (hlen : d.buffer.compressed.length < 2 ^ 32) :
    ∃ e, deserialize codec (image codec d) false = .ok e ∧ Same d e ∧ e.buffer.Fits := by
  have hweight := h.weight_of_compressed hnil
  have hcontents : d.contents = d.buffer.compressed := by rw [contents, hnil, List.nil_append]
  rw [image, readNative_header h.k_range]
  rcases hw : d.compressedWeight with _ | _ | w
  · -- A digest without values is as new.
    have hempty : d.contents = [] := totalWeight_eq_zero_iff.mp (hweight.trans hw)
    obtain ⟨hmin, hmax, hreverse⟩ := h.empty hempty
    refine ⟨⟨d.k, false, .infinity, .negInfinity, .staging [], 0⟩, ?_, ?_, trivial⟩
    · rw [if_pos rfl, if_pos rfl, new, make, assert_pos h.k_range.1]
      rfl
    · exact ⟨rfl, hreverse.symm, hmin.symm, hmax.symm, hw.symm,
        (hcontents.symm.trans hempty).symm, hnil.symm⟩
  · -- A single value is the minimum, the maximum and the only mean.
    obtain ⟨x, hx⟩ := eq_singleton_of_totalWeight (hweight.trans hw)
    obtain ⟨hmin, hmax⟩ := h.single x hx
    refine ⟨⟨d.k, d.reverseMerge, .finite x, .finite x, .centroids [.ofValue x] 0, 1⟩, ?_, ?_,
      Nat.zero_le _⟩
    · have hmake : make d.k d.reverseMerge (.finite x) (.finite x) (.centroids [.ofValue x] 0) 1 =
          .ok ⟨d.k, d.reverseMerge, .finite x, .finite x, .centroids [.ofValue x] 0, 1⟩ := by
        rw [make, assert_pos h.k_range.1]
        rfl
      have hvalue : finiteValue (.finite x) "single_value" "single_value" = .ok x := rfl
      have hread := readFloat_write codec (.finite x) "single_value" []
      rw [List.append_nil] at hread
      rw [if_neg (Nat.succ_ne_zero _), if_pos rfl, if_neg (Nat.succ_ne_zero _), if_pos rfl, hmin,
        bind_of_ok hread, hvalue, bind_of_ok (liftResult_ok x _), hmake, liftChecked_ok]
      rfl
    · refine ⟨rfl, rfl, hmin.symm, hmax.symm, hw.symm, ?_, ?_⟩
      · rw [TDigestBuffer.compressed_centroids_zero, ← hcontents, hx]
        rfl
      · rw [TDigestBuffer.unmerged_centroids_zero, hnil]
  · have hne : d.contents ≠ [] := by
      intro hempty
      have hzero := totalWeight_eq_zero_iff.mpr hempty
      exact absurd (hw.symm.trans (hweight.symm.trans hzero)) (Nat.succ_ne_zero _)
    obtain ⟨x, y, hmin, hmax⟩ := h.nonempty hne
    refine ⟨⟨d.k, d.reverseMerge, .finite x, .finite y, .centroids d.buffer.compressed 0,
      Centroid.totalWeight d.buffer.compressed⟩, ?_, ?_, Nat.zero_le _⟩
    · rw [if_neg (Nat.succ_ne_zero _), if_neg (Nat.succ_succ_ne_one w),
        if_neg (Nat.succ_ne_zero _), if_neg (Nat.succ_succ_ne_one w), hmin, hmax,
        readMultiple_write h.k_range.1 d.reverseMerge x y (hcontents ▸ hne) hlen
          (h.compressedWeight_eq ▸ hweight ▸ hlt)]
      rfl
    · exact ⟨rfl, rfl, hmin.symm, hmax.symm, h.compressedWeight_eq.symm,
        TDigestBuffer.compressed_centroids_zero _,
        (TDigestBuffer.unmerged_centroids_zero _).trans hnil.symm⟩

end TDigestMut

end DataSketches
