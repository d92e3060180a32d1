import DataSketches.Common.Codec
import DataSketches.TDigest.Queries

/-!
# Serialization of t-digests

Serializing compresses a digest, and turns the direction of its merging around
with it.  Three layouts are written, for no value, one value and more; the reader
also takes single precision and two layouts of the reference implementation.
-/

namespace DataSketches

open Runs FloatFormat ByteReader SketchSlice SketchBytes LittleEndian

/-- How floating-point numbers are stored.  What is written is read back, whatever follows; the
formats that are only read come without a promise. -/
structure F64Codec (M : Type) where
  writeF64Le : F64 M → List UInt8
  readF64Le : List UInt8 → Option (F64 M × List UInt8)
  read_write : ∀ x rest, readF64Le (writeF64Le x ++ rest) = some (x, rest)
  eight_le_length : ∀ x, 8 ≤ (writeF64Le x).length
  readF32Le : List UInt8 → Option (F64 M × List UInt8)
  readF64Be : List UInt8 → Option (F64 M × List UInt8)
  readF32Be : List UInt8 → Option (F64 M × List UInt8)

/-- A reader that fails for want of data. -/
def readOr {α : Type} (read : List UInt8 → Option (α × List UInt8)) (e : Error) : SketchSlice α :=
  fun bs ↦
    match read bs with
    | some r => .ok r
    | none => .error (.error e)

/-- Big-endian numbers. -/
def readBe (e : Error) (n : ℕ) : SketchSlice ℕ := do
  return leNat (← readExact (.error e) n).reverse

namespace TDigestMut

variable {M : Type}

/-! ## The format -/

def preambleLongsEmptyOrSingle : ℕ := 1

def preambleLongsMultiple : ℕ := 2

def serialVersion : ℕ := 1

def flagsIsEmpty : ℕ := 1 <<< 0

def flagsIsSingleValue : ℕ := 1 <<< 1

def flagsReverseMerge : ℕ := 1 <<< 2

/-- the format of the reference implementation is using double (f64) precision -/
def compatDouble : ℕ := 1

/-- the format of the reference implementation is using float (f32) precision -/
def compatFloat : ℕ := 2

/-! ## Checks -/

def checkNonNan (value : F64 M) (tag : String) : Except Error Unit :=
  if value.isNan then .error (.deserial s!"malformed data: {tag} cannot be NaN") else .ok ()

def checkFinite (value : F64 M) (tag : String) : Except Error Unit :=
  if value.isInfinite then .error (.deserial s!"malformed data: {tag} cannot be infinite")
  else .ok ()

/-- Both checks, and the number. -/
def finiteValue (value : F64 M) (nanTag infiniteTag : String) : Except Error M :=
  match value with
  | .finite x => .ok x
  | .nan => .error (.deserial s!"malformed data: {nanTag} cannot be NaN")
  | _ => .error (.deserial s!"malformed data: {infiniteTag} cannot be infinite")

def checkNonzero (value : ℕ) (tag : String) : Except Error ℕ+ :=
  if h : 0 < value then .ok ⟨value, h⟩
  else .error (.deserial s!"malformed data: {tag} cannot be zero")

def checkedWeightSum (totalWeight weight : ℕ) : Except Error ℕ :=
  if totalWeight + weight < 2 ^ 64 then .ok (totalWeight + weight)
  else .error (.deserial "malformed data: total weight overflow")

def checkCompatWeight [FloatFormat M] (value : F64 M) (tag : String) : Except Error ℕ+ := do
  let x := val (← finiteValue value tag tag)
  if ¬ (1 ≤ x ∧ x < 2 ^ 64) then
    .error (.deserial s!"malformed data: {tag} must be representable as a positive u64")
  else if x.den ≠ 1 then
    .error (.deserial s!"malformed data: {tag} must not have a fractional part")
  else checkNonzero x.num.toNat tag

/-- `value as u16`, which saturates. -/
def asU16 [FloatFormat M] : F64 M → ℕ
  | .finite x => Nat.min ⌊val x⌋.toNat 65535
  | .infinity => 65535
  | _ => 0

/-! ## Writing -/

def isSingleValue (d : TDigestMut M) : Checked Bool := do return (← d.totalWeight) = 1

def writeCentroid (codec : F64Codec M) (c : Centroid M) : List UInt8 :=
  codec.writeF64Le (.finite c.mean) ++ writeU64Le c.weight

/-- Serializes this mutable t-digest to bytes. -/
def serialize [FloatFormat M] (codec : F64Codec M) (scale : ScaleFunction) (d : TDigestMut M) :
    Checked (TDigestMut M × List UInt8) := do
  let d ← d.compress scale
  let centroids ← d.buffer.compressedCentroids
  let totalWeight ← d.totalWeight
  let isSingle ← d.isSingleValue
  let preLongs := if totalWeight = 0 ∨ totalWeight = 1 then preambleLongsEmptyOrSingle
    else preambleLongsMultiple
  let flags := (if d.isEmpty then flagsIsEmpty else 0) |||
    (if isSingle then flagsIsSingleValue else 0) ||| (if d.reverseMerge then flagsReverseMerge else 0)
  let header := writeU8 preLongs ++ writeU8 serialVersion ++ writeU8 Family.tdigest.id ++
    writeU16Le d.k ++ writeU8 flags ++ writeU16Le 0
  if d.isEmpty then
    return (d, header)
  if isSingle then
    return (d, header ++ codec.writeF64Le d.min)
  return (d, header ++ writeU32Le centroids.length ++ writeU32Le 0 ++ codec.writeF64Le d.min ++
    codec.writeF64Le d.max ++ centroids.flatMap (writeCentroid codec))

/-! ## Reading -/

/-- A number, as a double or as a float. -/
def readFloat (codec : F64Codec M) (isF32 : Bool) (tag : String) : SketchSlice (F64 M) :=
  readOr (if isF32 then codec.readF32Le else codec.readF64Le) (.insufficientData tag)

/-- The loop that reads buffered values. -/
def readBuffered (codec : F64Codec M) (isF32 : Bool) : ℕ → SketchSlice (List M)
  | 0 => return []
  | n + 1 => do
      let value ← readFloat codec isF32 "buffered_value"
      let value ← liftResult (finiteValue value "buffered_value mean" "buffered_value mean")
      return value :: (← readBuffered codec isF32 n)

/-- The loop that reads centroids, given the weight so far. -/
def readCentroids (codec : F64Codec M) (isF32 : Bool) :
    ℕ → ℕ → SketchSlice (List (Centroid M) × ℕ)
  | 0, compressedWeight => return ([], compressedWeight)
  | n + 1, compressedWeight => do
      let mean ← readFloat codec isF32 "mean"
      let weight ← if isF32 then readU32Le "weight" else SketchSlice.readU64Le "weight"
      let mean ← liftResult (finiteValue mean "centroid mean" "centroid")
      let weight ← liftResult (checkNonzero weight "centroid weight")
      let compressedWeight ← liftResult (checkedWeightSum compressedWeight weight)
      let (centroids, total) ← readCentroids codec isF32 n compressedWeight
      return (⟨mean, weight⟩ :: centroids, total)

/-- The loop that reads centroids of the reference implementation. -/
def readCompatCentroids [FloatFormat M] (read : List UInt8 → Option (F64 M × List UInt8))
    (format : String) : ℕ → ℕ → SketchSlice (List (Centroid M) × ℕ)
  | 0, totalWeight => return ([], totalWeight)
  | n + 1, totalWeight => do
      let weight ← readOr read (.insufficientDataOf format "weight")
      let mean ← readOr read (.insufficientDataOf format "mean")
      let weight ← liftResult (checkCompatWeight weight s!"centroid weight in {format}")
      let mean ← liftResult (finiteValue mean s!"centroid mean in {format}"
        s!"centroid mean in {format}")
      let totalWeight ← liftResult (checkedWeightSum totalWeight weight)
      let (centroids, total) ← readCompatCentroids read format n totalWeight
      return (⟨mean, weight⟩ :: centroids, total)

/-- One of the two formats of the reference implementation. -/
def deserializeCompatAs [FloatFormat M] (codec : F64Codec M)
    (read : List UInt8 → Option (F64 M × List UInt8)) (format : String)
    (readNumCentroids : SketchSlice ℕ) : SketchSlice (TDigestMut M) := do
  let min ← readOr codec.readF64Be (.insufficientDataOf format "min")
  let max ← readOr codec.readF64Be (.insufficientDataOf format "max")
  liftResult (checkNonNan min s!"min in {format}")
  liftResult (checkNonNan max s!"max in {format}")
  liftResult (checkFinite min s!"min in {format}")
  liftResult (checkFinite max s!"max in {format}")
  let k := asU16 (← readOr read (.insufficientDataOf format "k"))
  if k < 10 then
    err (.deserial s!"k must be at least 10 in {format}, got {k}")
  else
    let numCentroids ← readNumCentroids
    let (centroids, totalWeight) ← readCompatCentroids read format numCentroids 0
    liftChecked (make k false min max (.centroids centroids 0) totalWeight)

/-- compatibility with the format of the reference implementation -/
def deserializeCompat [FloatFormat M] (codec : F64Codec M) : SketchSlice (TDigestMut M) := do
  let ty ← readBe (.insufficientDataOf "compat format" "type") 4
  if ty = compatDouble then
    deserializeCompatAs codec codec.readF64Be "compat double format"
      (readBe (.insufficientDataOf "compat double format" "num_centroids") 4)
  else if ty = compatFloat then
    deserializeCompatAs codec codec.readF32Be "compat float format" do
      let _ ← readBe (.insufficientDataOf "compat float format" "<unused>") 4
      readBe (.insufficientDataOf "compat float format" "num_centroids") 2
  else err (.deserial s!"unknown TDigest compat type {ty}")

/-- What follows the header of a digest of several values. -/
def readMultiple (codec : F64Codec M) (isF32 : Bool) (k : ℕ) (reverseMerge : Bool) :
    SketchSlice (TDigestMut M) := do
  let numCentroids ← readU32Le "num_centroids"
  let numBuffered ← readU32Le "num_buffered"
  let min ← readFloat codec isF32 "min"
  let max ← readFloat codec isF32 "max"
  liftResult (checkNonNan min "min")
  liftResult (checkNonNan max "max")
  liftResult (checkFinite min "min")
  liftResult (checkFinite max "max")
  let requiredPayloadBytes := numCentroids * (if isF32 then 8 else 16) +
    numBuffered * if isF32 then 4 else 8
  if requiredPayloadBytes ≥ 2 ^ 64 then
    err (.deserial "TDigest payload size exceeds the supported size")
  else
    let left ← remaining
    if left < requiredPayloadBytes then
      err (.insufficientData
        s!"TDigest payload requires {requiredPayloadBytes} bytes, got {left}")
    else if numCentroids = 0 then
      let _ ← liftResult (checkedWeightSum 0 numBuffered)
      let values ← readBuffered codec isF32 numBuffered
      liftChecked (make k reverseMerge min max (.staging values) 0)
    else
      let (centroids, compressedWeight) ← readCentroids codec isF32 numCentroids 0
      let _ ← liftResult (checkedWeightSum compressedWeight numBuffered)
      let values ← readBuffered codec isF32 numBuffered
      liftChecked (make k reverseMerge min max
        (.centroids (centroids ++ values.map Centroid.ofValue) numBuffered) compressedWeight)

/-- What follows the family. -/
def readNative (codec : F64Codec M) (isF32 : Bool) (preLongs serVer : ℕ) :
    SketchSlice (TDigestMut M) := do
  liftResult (ensureSerialVersionIs serialVersion serVer)
  let k ← readU16Le "k"
  if k < 10 then
    err (.deserial s!"k must be at least 10, got {k}")
  else
    let flags ← readU8 "flags"
    let isEmpty : Bool := flags &&& flagsIsEmpty ≠ 0
    let isSingle : Bool := flags &&& flagsIsSingleValue ≠ 0
    let expected := if isEmpty ∨ isSingle then preambleLongsEmptyOrSingle else preambleLongsMultiple
    liftResult (ensurePreambleLongsIn [expected] preLongs)
    let _ ← readU16Le "<unused>"
    if isEmpty then
      liftChecked (new k)
    else
      let reverseMerge : Bool := flags &&& flagsReverseMerge ≠ 0
      if isSingle then
        let value ← readFloat codec isF32 "single_value"
        let x ← liftResult (finiteValue value "single_value" "single_value")
        liftChecked (make k reverseMerge (.finite x) (.finite x) (.centroids [.ofValue x] 0) 1)
      else
        readMultiple codec isF32 k reverseMerge

def deserializer [FloatFormat M] (codec : F64Codec M) (isF32 : Bool) (bytes : List UInt8) :
    SketchSlice (TDigestMut M) := do
  let preLongs ← readU8 "preamble_longs"
  let serVer ← readU8 "serial_version"
  let familyId ← readU8 "family_id"
  match Family.tdigest.validateId familyId with
  | .error e =>
      if preLongs = 0 ∧ serVer = 0 ∧ familyId = 0 then
        fun _ ↦ deserializeCompat codec bytes
      else err e
  | .ok () => readNative codec isF32 preLongs serVer

/-- Deserializes a mutable t-digest from bytes. -/
def deserialize [FloatFormat M] (codec : F64Codec M) (bytes : List UInt8) (isF32 : Bool) :
    Except Fault (TDigestMut M) := Prod.fst <$> deserializer codec isF32 bytes bytes

end TDigestMut

end DataSketches
