import DataSketches.ThetaFamily.Theta.Serialization
import DataSketches.ThetaFamily.Tuple.Sketch

/-!
# Serialization of compact Tuple sketches

The format is the plain one of the Theta sketch, with the type of the sketch in
its header and a summary after each hash.  How long a summary is, is up to its
codec.
-/

namespace DataSketches

open Runs ByteReader SketchSlice SketchBytes
open CompactThetaSketch (flagsIsReadOnly flagsIsEmpty flagsIsCompact flagsIsOrdered hasFlag)

/-- Reads a summary from the front of a byte string. -/
abbrev SummaryDecoder (S : Type) := List UInt8 → Except Error (S × List UInt8)

/-- Serializing and deserializing summaries.  What is written is read back, whatever follows. -/
structure TupleSummaryValue (S : Type) where
  serializeValue : S → List UInt8
  deserializeValue : SummaryDecoder S
  read_write : ∀ summary rest,
    deserializeValue (serializeValue summary ++ rest) = .ok (summary, rest)

/-- Built-in support for `u64`. -/
def u64Summary : TupleSummaryValue UInt64 where
  serializeValue summary := LittleEndian.leBytes 8 summary.toNat
  deserializeValue bs := readLe (.insufficientData "failed to read u64 summary bytes") 8 bs |>.map
    fun (summary, rest) ↦ (UInt64.ofNat summary, rest)
  read_write summary rest := by
    have hlt : summary.toNat < 256 ^ 8 := summary.toNat_lt
    rw [readLe_append hlt]
    exact congrArg _ (congrArg (·, rest) UInt64.ofNat_toNat)

namespace CompactTupleSketch

variable {S : Type}

/-! ## The format -/

/-- Current serial version written by this implementation. -/
def serialVersion : ℕ := 3

/-- Legacy serial version still accepted on read. -/
def serialVersionLegacy : ℕ := 1

/-- Current sketch-type byte written by this implementation. -/
def sketchType : ℕ := 1

/-- Legacy sketch-type byte still accepted on read. -/
def sketchTypeLegacy : ℕ := 5

def preambleLongs (c : CompactTupleSketch S) : ℕ :=
  if c.isEstimationMode then 3
  else if c.empty ∨ c.entries.length = 1 then 1
  else 2

/-- A hash and its summary. -/
def writeEntry (value : TupleSummaryValue S) (e : TupleEntry S) : List UInt8 :=
  writeU64Le e.hash ++ value.serializeValue e.summary

/-- Serializes this sketch into the compact Tuple binary format. -/
def serialize (value : TupleSummaryValue S) (c : CompactTupleSketch S) : List UInt8 :=
  let preLongs := c.preambleLongs
  let flags := flagsIsReadOnly ||| flagsIsCompact ||| (if c.empty then flagsIsEmpty else 0) |||
    (if c.ordered then flagsIsOrdered else 0)
  writeU8 preLongs ++ writeU8 serialVersion ++ writeU8 Family.tuple.id ++ writeU8 sketchType ++
    writeU8 0 ++ writeU8 flags ++ writeU16Le c.seedHash ++
    (if preLongs > 1 then writeU32Le c.entries.length ++ writeU32Le 0 else []) ++
    (if c.isEstimationMode then writeU64Le c.theta else []) ++
    c.entries.flatMap (writeEntry value)

/-- `S::deserialize_value(&mut cursor)?` -/
def readSummary (decode : SummaryDecoder S) : SketchSlice S := fun bs ↦ (decode bs).mapError .error

/-- The loop that reads the entries. -/
def readEntries (decode : SummaryDecoder S) (theta : ℕ) : ℕ → SketchSlice (List (TupleEntry S))
  | 0 => return []
  | n + 1 => do
      let hash ← SketchSlice.readU64Le "entry_hash"
      if hash = 0 ∨ hash ≥ theta then
        err (.deserial "corrupted: invalid retained hash value")
      else
        let summary ← readSummary decode
        let entry ← liftChecked (TupleEntry.new hash summary)
        return entry :: (← readEntries decode theta n)

/-- The number of entries and theta. -/
def readCounts (preLongs : ℕ) : SketchSlice (ℕ × ℕ) := do
  if preLongs = 1 then
    return (1, maxTheta)
  else
    let n ← readU32Le "num_entries"
    let _ ← readU32Le "<unused_u32>"
    if preLongs > 2 then
      return (n, ← SketchSlice.readU64Le "theta")
    else
      return (n, maxTheta)

/-- What follows the header of a sketch that is not flagged empty. -/
def readBody (decode : SummaryDecoder S) (preLongs : ℕ) :
    SketchSlice (ℕ × List (TupleEntry S)) := do
  let (numEntries, theta) ← readCounts preLongs
  let requiredHashBytes := numEntries * 8
  if requiredHashBytes ≥ 2 ^ 64 then
    err (.deserial "Tuple entry payload length overflows")
  else
    let left ← remaining
    if requiredHashBytes > left then
      err (.insufficientData
        s!"Tuple entry hashes require at least {requiredHashBytes} bytes, got {left}")
    else
      return (theta, ← readEntries decode theta numEntries)

def deserializer (decode : SummaryDecoder S) (seed : UInt64) :
    SketchSlice (CompactTupleSketch S) := do
  let preLongs ← readU8 "preamble_longs"
  let serVer ← readU8 "serial_version"
  let familyId ← readU8 "family_id"
  let kind ← readU8 "sketch_type"
  let _ ← readU8 "<unused>"
  let flags ← readU8 "flags"
  let seedHash ← readU16Le "seed_hash"
  liftResult (Family.tuple.validateId familyId)
  liftResult (ensurePreambleLongsInRange Family.tuple.minPreLongs Family.tuple.maxPreLongs preLongs)
  if serVer ≠ serialVersion ∧ serVer ≠ serialVersionLegacy then
    err (.deserial s!"unsupported serial version: expected {serialVersion} or {serialVersionLegacy}, got {serVer}")
  else if kind ≠ sketchType ∧ kind ≠ sketchTypeLegacy then
    err (.deserial s!"unsupported sketch type: expected {sketchType} or {sketchTypeLegacy}, got {kind}")
  else if hasFlag flags flagsIsEmpty then
    return ⟨[], maxTheta, seedHash, hasFlag flags flagsIsOrdered, true⟩
  else
    let expected ← liftChecked (computeSeedHash seed)
    liftResult (checkSeedHash expected seedHash "deserialized CompactTupleSketch" .invalidData)
    let (theta, entries) ← readBody decode preLongs
    return ⟨entries, theta, seedHash, hasFlag flags flagsIsOrdered, false⟩

/-- Deserializes a compact Tuple sketch using the provided expected `seed`. -/
def deserializeWithSeed (decode : SummaryDecoder S) (bytes : List UInt8) (seed : UInt64) :
    Except Fault (CompactTupleSketch S) := Prod.fst <$> deserializer decode seed bytes

/-! ## Reading back -/

variable {value : TupleSummaryValue S} {c : CompactTupleSketch S} {seed : UInt64}

theorem readSummary_write (summary : S) (rest : List UInt8) :
    readSummary value.deserializeValue (value.serializeValue summary ++ rest) =
      .ok (summary, rest) := by
  rw [readSummary, value.read_write]
  rfl

/-- An entry takes eight bytes at least. -/
theorem le_length_flatMap_writeEntry (es : List (TupleEntry S)) :
    es.length * 8 ≤ (es.flatMap (writeEntry value)).length := by
  induction es with
  | nil => exact le_rfl
  | cons e es ih =>
      rw [List.flatMap_cons, List.length_append, writeEntry, List.length_append, writeU64Le,
        LittleEndian.length_leBytes, List.length_cons]
      omega

theorem readEntries_write (value : TupleSummaryValue S) {theta : ℕ} (htheta : theta ≤ 2 ^ 64) {es : List (TupleEntry S)}
    (hes : ∀ e ∈ es, e.hash < theta) (rest : List UInt8) :
    readEntries value.deserializeValue theta es.length (es.flatMap (writeEntry value) ++ rest) =
      .ok (es, rest) := by
  induction es with
  | nil => rfl
  | cons e es ih =>
      have hlt := hes e List.mem_cons_self
      have ih := ih fun e' he' ↦ hes e' (List.mem_cons_of_mem _ he')
      rw [List.length_cons, List.flatMap_cons, writeEntry, List.append_assoc, List.append_assoc,
        readEntries, bind_of_ok (readU64Le_write (hlt.trans_le htheta) _ _), if_apply,
        if_neg (not_or.mpr ⟨e.ne_zero, not_le.mpr hlt⟩), bind_of_ok (readSummary_write _ _),
        TupleEntry.new_of_ne_zero e.ne_zero, bind_of_ok (liftChecked_ok _ _), bind_of_ok ih]
      rfl

theorem preambleLongs_range (c : CompactTupleSketch S) :
    1 ≤ c.preambleLongs ∧ c.preambleLongs ≤ 3 := by
  unfold preambleLongs
  split_ifs <;> decide

/-- A sketch that is not in estimation mode has the maximum theta. -/
theorem theta_eq_of_not_estimating (h : Portable c.asView) (hest : c.isEstimationMode = false) :
    c.theta = maxTheta := le_antisymm h.theta_le (not_lt.mp (of_decide_eq_false hest))

theorem readCounts_write (h : Portable c.asView) (hempty : c.empty = false) (rest : List UInt8) :
    readCounts c.preambleLongs
      ((if c.preambleLongs > 1 then writeU32Le c.entries.length ++ writeU32Le 0 else []) ++
        ((if c.isEstimationMode then writeU64Le c.theta else []) ++ rest)) =
      .ok ((c.entries.length, c.theta), rest) := by
  have hcount := fun rest ↦
    readU32Le_write (show c.entries.length < 2 ^ 32 from h.length_lt) "num_entries" rest
  have hunused := fun rest ↦ readU32Le_write (x := 0) (by decide) "<unused_u32>" rest
  cases hest : c.isEstimationMode with
  | true =>
      have htheta := readU64Le_write (show c.theta < 2 ^ 64 from h.theta_le.trans_lt (by decide))
        "theta" rest
      have hpre : c.preambleLongs = 3 := by rw [preambleLongs, if_pos hest]
      rw [hpre, if_pos (by decide), if_pos rfl, readCounts, if_neg (by decide), List.append_assoc,
        bind_of_ok (hcount _), bind_of_ok (hunused _), if_pos (by decide), bind_of_ok htheta]
      rfl
  | false =>
      rw [theta_eq_of_not_estimating h hest, if_neg Bool.false_ne_true, List.nil_append]
      by_cases hone : c.entries.length = 1
      · have hpre : c.preambleLongs = 1 := by
          rw [preambleLongs, if_neg (ne_true_of_eq_false hest), if_pos (Or.inr hone)]
        rw [hpre, if_neg (by decide), List.nil_append, readCounts, if_pos rfl, hone]
        rfl
      · have hpre : c.preambleLongs = 2 := by
          rw [preambleLongs, if_neg (ne_true_of_eq_false hest),
            if_neg (not_or.mpr ⟨ne_true_of_eq_false hempty, hone⟩)]
        rw [hpre, if_pos (by decide), readCounts, if_neg (by decide), List.append_assoc,
          bind_of_ok (hcount _), bind_of_ok (hunused _), if_neg (by decide)]
        rfl

theorem readBody_write (h : Portable c.asView) (hempty : c.empty = false) :
    readBody value.deserializeValue c.preambleLongs
      ((if c.preambleLongs > 1 then writeU32Le c.entries.length ++ writeU32Le 0 else []) ++
        ((if c.isEstimationMode then writeU64Le c.theta else []) ++
          c.entries.flatMap (writeEntry value))) = .ok ((c.theta, c.entries), []) := by
  have hlen : c.entries.length < 2 ^ 32 := h.length_lt
  have hread : readEntries value.deserializeValue c.theta c.entries.length
      (c.entries.flatMap (writeEntry value)) = .ok (c.entries, []) := by
    have hread := readEntries_write value (h.theta_le.trans CompactThetaSketch.maxTheta_le)
      (fun e he ↦ (h.range e he).2) []
    rwa [List.append_nil] at hread
  rw [readBody, bind_of_ok (readCounts_write h hempty _)]
  dsimp only
  rw [if_neg (by omega), bind_of_ok (remaining_apply _),
    if_neg (not_lt.mpr (le_length_flatMap_writeEntry _)), bind_of_ok hread]
  rfl

/-- A sketch is read back, but for the theta of an empty sketch. -/
theorem round_trip (value : TupleSummaryValue S) (h : Portable c.asView)
    (hseed : computeSeedHash seed = .ok c.seedHash) :
    deserializeWithSeed value.deserializeValue (c.serialize value) seed =
      .ok { c with theta := if c.empty then maxTheta else c.theta } := by
  obtain ⟨flags, hflags, hlt, hempty, hordered⟩ := CompactThetaSketch.flags_spec c.empty c.ordered
  have hrange : ensurePreambleLongsInRange Family.tuple.minPreLongs Family.tuple.maxPreLongs
      c.preambleLongs = .ok () := if_pos c.preambleLongs_range
  have hpre : c.preambleLongs < 2 ^ 8 := c.preambleLongs_range.2.trans_lt (by decide)
  have hsh : c.seedHash < 2 ^ 16 := h.seedHash_lt
  have hread : deserializer value.deserializeValue seed (c.serialize value) =
      .ok ({ c with theta := if c.empty then maxTheta else c.theta },
        if c.empty then (if c.preambleLongs > 1 then writeU32Le c.entries.length ++ writeU32Le 0
          else []) ++ ((if c.isEstimationMode then writeU64Le c.theta else []) ++
            c.entries.flatMap (writeEntry value)) else []) := by
    simp only [serialize, hflags, List.append_assoc]
    rw [deserializer, bind_of_ok (readU8_write hpre _ _),
      bind_of_ok (readU8_write (show serialVersion < 2 ^ 8 by decide) _ _),
      bind_of_ok (readU8_write (show Family.tuple.id < 2 ^ 8 by decide) _ _),
      bind_of_ok (readU8_write (show sketchType < 2 ^ 8 by decide) _ _),
      bind_of_ok (readU8_write (show 0 < 2 ^ 8 by decide) _ _), bind_of_ok (readU8_write hlt _ _),
      bind_of_ok (readU16Le_write hsh _ _), show Family.tuple.validateId Family.tuple.id =
        .ok () from rfl, bind_of_ok (liftResult_ok _ _), hrange, bind_of_ok (liftResult_ok _ _),
      if_neg (by decide), if_neg (by decide), hempty, hordered]
    cases he : c.empty with
    | true =>
        have hnil : c.entries = [] := h.entries_of_empty he
        obtain ⟨entries, theta, seedHash, ordered, empty⟩ := c
        cases he
        cases hnil
        rfl
    | false =>
        rw [if_neg Bool.false_ne_true, hseed, bind_of_ok (liftChecked_ok _ _), checkSeedHash_self,
          bind_of_ok (liftResult_ok _ _), bind_of_ok (readBody_write h he)]
        rfl
  rw [deserializeWithSeed, hread]
  rfl

end CompactTupleSketch

end DataSketches
