import DataSketches.ThetaFamily.Theta.Compression
import DataSketches.ThetaFamily.Theta.Sketch

/-!
# Serialization of compact Theta sketches

Two formats are written, the plain one with serial version 3 and the compressed
one with serial version 4, and four are read.  A sketch is read back as it was
written, except that one flagged empty comes back with the maximum theta:
`roundTrip` says what is read, `compact_round_trip` when that is the same.
-/

namespace DataSketches

namespace CompactThetaSketch

open BitPack LittleEndian Runs ByteReader SketchSlice SketchBytes

/-! ## The format -/

/-- Flags byte bit: the sketch is read-only. -/
def flagsIsReadOnly : ℕ := 1 <<< 1

/-- Flags byte bit: the sketch is logically empty. -/
def flagsIsEmpty : ℕ := 1 <<< 2

/-- Flags byte bit: the sketch is in compact form. -/
def flagsIsCompact : ℕ := 1 <<< 3

/-- Flags byte bit: retained entries are ordered by ascending hash. -/
def flagsIsOrdered : ℕ := 1 <<< 4

/-- `(flags & flag) != 0` -/
def hasFlag (flags flag : ℕ) : Bool := flags &&& flag ≠ 0

def uncompressedSerialVersion : ℕ := 3

def compressedSerialVersion : ℕ := 4

def preambleLongs (c : CompactThetaSketch) (compressed : Bool) : ℕ :=
  if compressed then
    if c.isEstimationMode then 2 else 1
  else if c.isEstimationMode then 3
  else if c.empty ∨ c.entries.length = 1 then 1
  else 2

/-! ## Writing -/

/-- Serializes this sketch into the uncompressed compact theta format. -/
def serialize (c : CompactThetaSketch) : List UInt8 :=
  let preLongs := c.preambleLongs false
  let flags := flagsIsReadOnly ||| flagsIsCompact ||| (if c.empty then flagsIsEmpty else 0) |||
    (if c.ordered then flagsIsOrdered else 0)
  writeU8 preLongs ++ writeU8 uncompressedSerialVersion ++ writeU8 Family.theta.id ++
    writeU16Be 0 ++ writeU8 flags ++ writeU16Le c.seedHash ++
    (if preLongs > 1 then writeU32Le c.entries.length ++ writeU32Be 0 else []) ++
    (if c.isEstimationMode then writeU64Le c.theta else []) ++
    c.entries.flatMap writeU64Le

def serializeV4 (c : CompactThetaSketch) : Checked (List UInt8) := do
  let preLongs := c.preambleLongs true
  let entryBits ← computeEntryBits c.entries
  let countBytes := numEntriesBytes c.entries.length
  let flags := flagsIsReadOnly ||| flagsIsCompact ||| flagsIsOrdered
  let packed ← packDeltas entryBits (← deltas 0 c.entries)
  return writeU8 preLongs ++ writeU8 compressedSerialVersion ++ writeU8 Family.theta.id ++
    writeU8 entryBits ++ writeU8 countBytes ++ writeU8 flags ++ writeU16Le c.seedHash ++
    (if c.isEstimationMode then writeU64Le c.theta else []) ++
    leBytes countBytes (c.entries.length % 2 ^ 32) ++ packed.map UInt8.ofNat

def isSuitableForCompression (c : CompactThetaSketch) : Bool :=
  c.ordered && !c.entries.isEmpty && (c.entries.length ≠ 1 || c.isEstimationMode)

/-- Serializes this sketch in compressed form if applicable. -/
def serializeCompressed (c : CompactThetaSketch) : Checked (List UInt8) :=
  if c.isSuitableForCompression then c.serializeV4 else .ok c.serialize

/-! ## Reading -/

/-- The loop of `readEntries`. -/
def readHashes (theta : ℕ) : ℕ → SketchSlice (List ℕ)
  | 0 => return []
  | n + 1 => do
      let hash ← SketchSlice.readU64Le "entries"
      if hash = 0 ∨ hash ≥ theta then
        err (.deserial "corrupted: invalid retained hash value")
      else
        return hash :: (← readHashes theta n)

def readEntries (numEntries theta : ℕ) : SketchSlice (List ℕ) := do
  let requiredBytes := numEntries * 8
  if requiredBytes ≥ 2 ^ 64 then
    err (.deserial "Theta entry payload length overflows")
  else
    let left ← remaining
    if requiredBytes > left then
      err (.insufficientData s!"Theta entries require {requiredBytes} bytes, got {left}")
    else
      readHashes theta numEntries

/-- The theta of a preamble that has room for it after `longs` longs. -/
def readTheta (preLongs longs : ℕ) : SketchSlice ℕ :=
  if preLongs > longs then SketchSlice.readU64Le "theta_long" else pure maxTheta

/-- The seed hash of a sketch that is not empty must be the expected one. -/
def checkSeed (expectedSeed : UInt64) (empty : Bool) (seedHash : ℕ) (name : String) :
    SketchSlice Unit :=
  if empty then pure ()
  else do
    let expected ← liftChecked (computeSeedHash expectedSeed)
    liftResult (checkSeedHash expected seedHash name .invalidData)

def deserializeV1 (expectedSeed : UInt64) : SketchSlice CompactThetaSketch := do
  let seedHash ← liftChecked (computeSeedHash expectedSeed)
  let _ ← readU8 "<unused>"
  let _ ← readU32Le "<unused_u32_0>"
  let numEntries ← readU32Le "num_entries"
  let _ ← readU32Le "<unused_u32_1>"
  let theta ← SketchSlice.readU64Le "theta_long"
  if numEntries = 0 ∧ theta = maxTheta then
    return ⟨[], theta, seedHash, true, true⟩
  else
    let entries ← readEntries numEntries theta
    return ⟨entries, theta, seedHash, true, false⟩

def deserializeV2 (preLongs : ℕ) (expectedSeed : UInt64) : SketchSlice CompactThetaSketch := do
  let _ ← readU8 "<unused>"
  let _ ← readU16Le "<unused_u16>"
  let seedHash ← readU16Le "seed_hash"
  checkSeed expectedSeed false seedHash "deserialized CompactThetaSketch v2"
  match preLongs with
  | 1 => return ⟨[], maxTheta, seedHash, true, true⟩
  | 2 => do
      let numEntries ← readU32Le "num_entries"
      let _ ← readU32Le "<unused_u32>"
      let entries ← readEntries numEntries maxTheta
      return ⟨entries, maxTheta, seedHash, true, numEntries = 0⟩
  | 3 => do
      let numEntries ← readU32Le "num_entries"
      let _ ← readU32Le "<unused_u32>"
      let theta ← SketchSlice.readU64Le "theta_long"
      let entries ← readEntries numEntries theta
      return ⟨entries, theta, seedHash, true, numEntries = 0 ∧ theta = maxTheta⟩
  | preLongs => err (.invalidPreambleLongs [1, 2, 3] preLongs)

/-- The theta and entries of a sketch of version 3 that is not empty. -/
def readBodyV3 (preLongs : ℕ) : SketchSlice (ℕ × List ℕ) := do
  if preLongs = 1 then
    return (maxTheta, ← readEntries 1 maxTheta)
  else
    let numEntries ← readU32Le "num_entries"
    let _ ← readU32Le "<unused_u32>"
    let theta ← readTheta preLongs 2
    return (theta, ← readEntries numEntries theta)

def deserializeV3 (preLongs : ℕ) (expectedSeed : UInt64) : SketchSlice CompactThetaSketch := do
  let _ ← readU16Le "<unused_u32>"
  let flags ← readU8 "flags"
  let seedHash ← readU16Le "seed_hash"
  let empty := hasFlag flags flagsIsEmpty
  checkSeed expectedSeed empty seedHash "deserialized CompactThetaSketch v3"
  let (theta, entries) ← if empty then pure (maxTheta, []) else readBodyV3 preLongs
  return ⟨entries, theta, seedHash, hasFlag flags flagsIsOrdered, empty⟩

/-- The entries of a sketch of version 4. -/
def readBodyV4 (entryBits numEntries theta : ℕ) : SketchSlice (List ℕ) := do
  if numEntries > 0 ∧ ¬ (1 ≤ entryBits ∧ entryBits ≤ 63) then
    err (.deserial s!"Theta entry width must be in [1, 63], got {entryBits}")
  else if numEntries * entryBits + 7 ≥ 2 ^ 64 then
    err (.deserial "Theta compressed payload length overflows")
  else
    let requiredBytes := (numEntries * entryBits + 7) / 8
    let left ← remaining
    if requiredBytes > left then
      err (.insufficientData
        s!"Theta compressed entries require {requiredBytes} bytes, got {left}")
    else
      let ds ← readDeltas entryBits numEntries
      liftResult (undoDeltas theta 0 ds)

def deserializeV4 (preLongs : ℕ) (expectedSeed : UInt64) : SketchSlice CompactThetaSketch := do
  let entryBits ← readU8 "entry_bits"
  let countBytes ← readU8 "num_entries"
  if countBytes > 4 then
    err (.deserial s!"Theta entry count uses too many bytes: {countBytes}")
  else
    let flags ← readU8 "flags"
    let seedHash ← readU16Le "seed_hash"
    let empty := hasFlag flags flagsIsEmpty
    checkSeed expectedSeed empty seedHash "deserialized CompactThetaSketch v4"
    let theta ← readTheta preLongs 1
    let numEntries ← readLe (insufficientData "num_entries_byte") countBytes
    let entries ← readBodyV4 entryBits numEntries theta
    return ⟨entries, theta, seedHash, hasFlag flags flagsIsOrdered, empty⟩

def deserializer (seed : UInt64) : SketchSlice CompactThetaSketch := do
  let preLongs ← readU8 "preamble_longs"
  let serVer ← readU8 "serial_version"
  let familyId ← readU8 "family_id"
  liftResult (Family.theta.validateId familyId)
  liftResult (ensurePreambleLongsInRange Family.theta.minPreLongs Family.theta.maxPreLongs preLongs)
  match serVer with
  | 1 => deserializeV1 seed
  | 2 => deserializeV2 preLongs seed
  | 3 => deserializeV3 preLongs seed
  | 4 => deserializeV4 preLongs seed
  | serVer => err (.deserial
      s!"unsupported serial version: expected 1, 2, 3, or 4, got {serVer}")

/-- Deserializes a compact theta sketch from bytes using the provided expected seed. -/
def deserializeWithSeed (bytes : List UInt8) (seed : UInt64) : Except Fault CompactThetaSketch :=
  Prod.fst <$> deserializer seed bytes

/-! ## Reading back -/

variable {c : CompactThetaSketch} {seed : UInt64}

theorem readHashes_write {theta : ℕ} (htheta : theta ≤ 2 ^ 64) {es : List ℕ}
    (hes : ∀ x ∈ es, 0 < x ∧ x < theta) (rest : List UInt8) :
    readHashes theta es.length (es.flatMap writeU64Le ++ rest) = .ok (es, rest) := by
  induction es with
  | nil => rfl
  | cons x es ih =>
      obtain ⟨hpos, hlt⟩ := hes x List.mem_cons_self
      have ih := ih fun y hy ↦ hes y (List.mem_cons_of_mem _ hy)
      simp only [List.length_cons, readHashes, List.flatMap_cons, List.append_assoc, bind_apply,
        readU64Le_write (hlt.trans_le htheta), ok_bind, if_apply, ih, pure_apply]
      rw [if_neg (by omega)]

theorem length_flatMap_writeU64Le (es : List ℕ) :
    (es.flatMap writeU64Le).length = es.length * 8 := by
  induction es with
  | nil => rfl
  | cons x es ih =>
      rw [List.flatMap_cons, List.length_append, ih, writeU64Le, length_leBytes, List.length_cons]
      omega

theorem readEntries_write {theta : ℕ} (htheta : theta ≤ 2 ^ 64) {es : List ℕ}
    (hes : ∀ x ∈ es, 0 < x ∧ x < theta) (hlen : es.length < 2 ^ 32) :
    readEntries es.length theta (es.flatMap writeU64Le) = .ok (es, []) := by
  have hread := readHashes_write htheta hes []
  rw [List.append_nil] at hread
  simp only [readEntries, if_apply, bind_apply, remaining_apply, ok_bind,
    length_flatMap_writeU64Le, hread]
  rw [if_neg (by omega), if_neg (by omega)]

/-- The flags that are written say what they are to say. -/
theorem flags_spec (empty ordered : Bool) :
    ∃ flags, flagsIsReadOnly ||| flagsIsCompact ||| (if empty then flagsIsEmpty else 0) |||
      (if ordered then flagsIsOrdered else 0) = flags ∧ flags < 2 ^ 8 ∧
      (hasFlag flags flagsIsEmpty = empty) ∧
      (hasFlag flags flagsIsOrdered = ordered) := by
  refine ⟨_, rfl, ?_⟩
  revert empty ordered
  decide

/-- Every format starts with the size of the preamble, the version and the family. -/
theorem deserializer_write {preLongs serVer : ℕ} (hpre : 1 ≤ preLongs ∧ preLongs ≤ 3)
    (hver : serVer < 2 ^ 8) (bs : List UInt8) :
    deserializer seed (writeU8 preLongs ++ (writeU8 serVer ++ (writeU8 Family.theta.id ++ bs))) =
      (match serVer with
        | 1 => deserializeV1 seed
        | 2 => deserializeV2 preLongs seed
        | 3 => deserializeV3 preLongs seed
        | 4 => deserializeV4 preLongs seed
        | serVer => err (.deserial
            s!"unsupported serial version: expected 1, 2, 3, or 4, got {serVer}")) bs := by
  have hfam : Family.theta.validateId Family.theta.id = .ok () := rfl
  have hrange : ensurePreambleLongsInRange Family.theta.minPreLongs Family.theta.maxPreLongs
      preLongs = .ok () := if_pos hpre
  simp only [deserializer, bind_apply, readU8_write (show preLongs < 2 ^ 8 by omega),
    readU8_write hver, readU8_write (show Family.theta.id < 2 ^ 8 by decide), ok_bind, hfam, hrange,
    liftResult_ok]

theorem preambleLongs_range (c : CompactThetaSketch) (compressed : Bool) :
    1 ≤ c.preambleLongs compressed ∧ c.preambleLongs compressed ≤ 3 := by
  unfold preambleLongs
  split_ifs <;> decide

/-- A sketch that is not in estimation mode has the maximum theta. -/
theorem Ready.theta_eq (h : c.Ready) (hest : c.isEstimationMode = false) : c.theta = maxTheta :=
  le_antisymm h.theta_le (not_lt.mp (of_decide_eq_false hest))

theorem maxTheta_le : maxTheta ≤ 2 ^ 64 := by decide

theorem readTheta_write (h : c.Ready) (preLongs longs : ℕ)
    (hpre : preLongs > longs ↔ c.isEstimationMode = true) (rest : List UInt8) :
    readTheta preLongs longs ((if c.isEstimationMode then writeU64Le c.theta else []) ++ rest) =
      .ok (c.theta, rest) := by
  rw [readTheta, if_apply]
  cases hest : c.isEstimationMode with
  | true =>
      rw [if_pos (hpre.mpr hest), if_pos rfl]
      exact readU64Le_write (h.theta_le.trans_lt (by decide)) _ rest
  | false =>
      rw [if_neg (by rw [hpre, hest]; nofun), if_neg (by nofun), List.nil_append, h.theta_eq hest]
      rfl

theorem checkSeed_ok (hseed : computeSeedHash seed = .ok c.seedHash) (empty : Bool) (name : String)
    (bs : List UInt8) : checkSeed seed empty c.seedHash name bs = .ok ((), bs) := by
  cases empty with
  | true => rfl
  | false =>
      simp only [checkSeed, Bool.false_eq_true, if_false, bind_apply, hseed, liftChecked_ok, ok_bind,
        checkSeedHash_self, liftResult_ok]

theorem readBodyV3_write (h : c.Ready) (hempty : c.empty = false) :
    readBodyV3 (c.preambleLongs false)
      ((if c.preambleLongs false > 1 then writeU32Le c.entries.length ++ writeU32Be 0 else []) ++
        ((if c.isEstimationMode then writeU64Le c.theta else []) ++
          c.entries.flatMap writeU64Le)) = .ok ((c.theta, c.entries), []) := by
  have hentries := readEntries_write (h.theta_le.trans maxTheta_le) h.range h.numRetained_lt
  have hcount := fun rest ↦
    readU32Le_write (show c.entries.length < 2 ^ 32 from h.numRetained_lt) "num_entries" rest
  have hunused := fun rest ↦ readU32Le_write (x := 0) (by decide) "<unused_u32>" rest
  by_cases hone : c.isEstimationMode = false ∧ c.entries.length = 1
  · have hpre : c.preambleLongs false = 1 := by simp [preambleLongs, hone]
    rw [hone.2, h.theta_eq hone.1] at hentries
    simp only [hpre, hone.1, readBodyV3, bind_apply, if_apply, if_true, gt_iff_lt, lt_irrefl,
      if_false, Bool.false_eq_true, List.nil_append, hentries, ok_bind, pure_apply,
      h.theta_eq hone.1]
  · have hpre : c.preambleLongs false = if c.isEstimationMode then 3 else 2 := by
      cases hest : c.isEstimationMode with
      | true => simp [preambleLongs, hest]
      | false =>
          have hlen : ¬ c.entries.length = 1 := fun hlen ↦ hone ⟨hest, hlen⟩
          simp [preambleLongs, hest, hempty, hlen]
    have htheta := readTheta_write h (c.preambleLongs false) 2
      (by rw [hpre]; split_ifs with hest <;> simp [hest])
    have hgt : c.preambleLongs false > 1 := by
      rw [hpre]
      split_ifs <;> decide
    simp only [readBodyV3, bind_apply, if_apply, writeU32Be_zero, List.append_assoc, if_pos hgt,
      if_neg hgt.ne', hcount, hunused, htheta, hentries, ok_bind, pure_apply]

/-- The plain format is read back, but for the theta of an empty sketch. -/
theorem roundTrip_serialize (h : c.Ready) (hseed : computeSeedHash seed = .ok c.seedHash) :
    deserializeWithSeed c.serialize seed =
      .ok { c with theta := if c.empty then maxTheta else c.theta } := by
  obtain ⟨flags, hflags, hlt, hempty, hordered⟩ := flags_spec c.empty c.ordered
  have hread : deserializer seed c.serialize = deserializeV3 (c.preambleLongs false) seed
      (writeU16Le 0 ++ (writeU8 flags ++ (writeU16Le c.seedHash ++
        ((if c.preambleLongs false > 1 then writeU32Le c.entries.length ++ writeU32Be 0 else []) ++
          ((if c.isEstimationMode then writeU64Le c.theta else []) ++
            c.entries.flatMap writeU64Le))))) := by
    simp only [serialize, hflags, List.append_assoc]
    exact deserializer_write (c.preambleLongs_range false) (by decide) _
  have hunused := fun rest ↦ readU16Le_write (x := 0) (by decide) "<unused_u32>" rest
  have hflag := fun rest ↦ readU8_write hlt "flags" rest
  have hsh := fun rest ↦ readU16Le_write h.seedHash_lt "seed_hash" rest
  have hcheck := checkSeed_ok hseed c.empty "deserialized CompactThetaSketch v3"
  rw [deserializeWithSeed, hread]
  simp only [deserializeV3, bind_apply, hunused, hflag, hsh, ok_bind, hempty, hordered, hcheck,
    if_apply]
  cases he : c.empty with
  | true =>
      have hnil := h.entries_of_empty he
      obtain ⟨entries, theta, seedHash, ordered, empty⟩ := c
      cases he
      cases hnil
      rfl
  | false =>
      simp only [Bool.false_eq_true, if_false, readBodyV3_write h he, ok_bind, pure_apply, ok_map]

/-- The count is written in as many bytes as it needs. -/
theorem numEntriesBytes_spec {n : ℕ} (h : n < 2 ^ 32) :
    numEntriesBytes n ≤ 4 ∧ n < 256 ^ numEntriesBytes n := by
  have hsize : n.size ≤ 32 := Nat.size_le.mpr h
  rw [numEntriesBytes, Nat.mod_eq_of_lt h]
  refine ⟨by omega, ?_⟩
  calc n < 2 ^ n.size := Nat.lt_size_self n
    _ ≤ 2 ^ (8 * ((n.size + 7) / 8)) := Nat.pow_le_pow_right two_pos (by omega)
    _ = 256 ^ ((n.size + 7) / 8) := by rw [pow_mul]; rfl

/-- Ascending entries are packed and read back. -/
theorem readBodyV4_write (h : c.Ready) (hord : c.ordered = true) (hne : c.entries ≠ []) :
    ∃ bits ds packed, computeEntryBits c.entries = .ok bits ∧ bits < 2 ^ 8 ∧
      deltas 0 c.entries = .ok ds ∧ packDeltas bits ds = .ok packed ∧
      readBodyV4 bits c.entries.length c.theta (packed.map UInt8.ofNat) = .ok (c.entries, []) := by
  have hasc : (0 :: c.entries).Pairwise (· < ·) :=
    List.pairwise_cons.mpr ⟨fun x hx ↦ (h.range x hx).1, h.ordered hord⟩
  have hmax := h.theta_le
  obtain ⟨ds, hds, hlen, hrange, hundo⟩ := deltas_spec (hmax.trans maxTheta_le) hasc
    fun x hx ↦ (h.range x hx).2
  have hlt : ∀ d ∈ ds, d < 2 ^ 63 := by
    intro d hd
    exact (hrange d hd).2.trans_le (hmax.trans (by decide))
  obtain ⟨bits, hbits, hle, hfit, hone⟩ := computeEntryBits_spec hds hlt
  have hdsne : ds ≠ [] := by
    rintro rfl
    exact hne (List.length_eq_zero_iff.mp hlen.symm)
  obtain ⟨d, hd⟩ := List.exists_mem_of_ne_nil ds hdsne
  have hpos : 1 ≤ bits := hone ⟨d, hd, (hrange d hd).1⟩
  obtain ⟨packed, hpacked, hplen, hread⟩ := readDeltas_packDeltas ⟨hpos, hle⟩ hfit []
  rw [List.append_nil, hlen] at hread
  rw [hlen] at hplen
  refine ⟨bits, ds, packed, hbits, by omega, hds, hpacked, ?_⟩
  have hnum : c.entries.length < 2 ^ 32 := h.numRetained_lt
  have hsmall : c.entries.length * bits ≤ 2 ^ 32 * 63 := Nat.mul_le_mul hnum.le hle
  simp only [readBodyV4, if_apply, bind_apply, remaining_apply, ok_bind, List.length_map, hplen,
    hread, hundo, liftResult_ok]
  rw [if_neg (fun hbad ↦ hbad.2 ⟨hpos, hle⟩), if_neg (by omega), if_neg (lt_irrefl _)]

theorem deserializeV4_write (h : c.Ready) (hseed : computeSeedHash seed = .ok c.seedHash)
    {bits n flags : ℕ} (hbits : bits < 2 ^ 8) (hn : n ≤ 4) (hlen : c.entries.length < 256 ^ n)
    (hflags : flags < 2 ^ 8) (hempty : hasFlag flags flagsIsEmpty = c.empty)
    (hord : hasFlag flags flagsIsOrdered = c.ordered) {packed : List UInt8}
    (hbody : readBodyV4 bits c.entries.length c.theta packed = .ok (c.entries, [])) :
    deserializeV4 (c.preambleLongs true) seed (writeU8 bits ++ (writeU8 n ++ (writeU8 flags ++
      (writeU16Le c.seedHash ++ ((if c.isEstimationMode then writeU64Le c.theta else []) ++
        (leBytes n c.entries.length ++ packed)))))) = .ok (c, []) := by
  have hw := fun rest ↦ readU8_write hbits "entry_bits" rest
  have hcb := fun rest ↦ readU8_write (show n < 2 ^ 8 by omega) "num_entries" rest
  have hflag := fun rest ↦ readU8_write hflags "flags" rest
  have hsh := fun rest ↦ readU16Le_write h.seedHash_lt "seed_hash" rest
  have hcount := fun rest ↦ readLe_append (e := insufficientData "num_entries_byte") hlen rest
  have htheta := readTheta_write h (c.preambleLongs true) 1
    (by cases hest : c.isEstimationMode <;> simp [preambleLongs, hest])
  have hcheck := checkSeed_ok hseed c.empty "deserialized CompactThetaSketch v4"
  simp only [deserializeV4, bind_apply, hw, hcb, ok_bind, if_apply, hflag, hsh, hempty, hord,
    hcheck, htheta, hcount, hbody, pure_apply]
  exact if_neg (not_lt.mpr hn)

/-- The compressed format is read back. -/
theorem roundTrip_serializeV4 (h : c.Ready) (hseed : computeSeedHash seed = .ok c.seedHash)
    (hord : c.ordered = true) (hne : c.entries ≠ []) :
    ∃ bytes, c.serializeV4 = .ok bytes ∧ deserializeWithSeed bytes seed = .ok c := by
  obtain ⟨bits, ds, packed, hbits, hbits₈, hds, hpacked, hbody⟩ := readBodyV4_write h hord hne
  obtain ⟨hcount₄, hcountlt⟩ :=
    numEntriesBytes_spec (show c.entries.length < 2 ^ 32 from h.numRetained_lt)
  obtain ⟨flags, hflags, hlt, hfempty, hford⟩ := flags_spec false true
  simp only [Bool.false_eq_true, if_false, if_true, Nat.or_zero] at hflags
  have hempty : c.empty = false := by
    by_contra he
    exact hne (h.entries_of_empty (Bool.eq_true_of_not_eq_false he))
  have hmod : c.entries.length % 2 ^ 32 = c.entries.length := Nat.mod_eq_of_lt h.numRetained_lt
  have hread := deserializeV4_write h hseed hbits₈ hcount₄ hcountlt hlt (hfempty.trans hempty.symm)
    (hford.trans hord.symm) hbody
  have hser : c.serializeV4 = .ok (writeU8 (c.preambleLongs true) ++
      (writeU8 compressedSerialVersion ++ (writeU8 Family.theta.id ++ (writeU8 bits ++
        (writeU8 (numEntriesBytes c.entries.length) ++ (writeU8 flags ++ (writeU16Le c.seedHash ++
          ((if c.isEstimationMode then writeU64Le c.theta else []) ++
            (leBytes (numEntriesBytes c.entries.length) c.entries.length ++
              packed.map UInt8.ofNat))))))))) := by
    simp only [serializeV4, hbits, hds, hpacked, hflags, hmod, ok_bind, pure_eq_ok,
      List.append_assoc]
  refine ⟨_, hser, ?_⟩
  rw [deserializeWithSeed, deserializer_write (c.preambleLongs_range true) (by decide)]
  exact congrArg (Prod.fst <$> ·) hread

/-- Either format is read back, but for the theta of an empty sketch. -/
theorem roundTrip (h : c.Ready) (hseed : computeSeedHash seed = .ok c.seedHash) :
    deserializeWithSeed c.serialize seed =
        .ok { c with theta := if c.empty then maxTheta else c.theta } ∧
      ∃ bytes, c.serializeCompressed = .ok bytes ∧ deserializeWithSeed bytes seed =
        .ok { c with theta := if c.empty then maxTheta else c.theta } := by
  refine ⟨roundTrip_serialize h hseed, ?_⟩
  by_cases hsuit : c.isSuitableForCompression
  · obtain ⟨hord, hne⟩ : c.ordered = true ∧ c.entries ≠ [] := by
      simp only [isSuitableForCompression, Bool.and_eq_true, Bool.not_eq_true',
        List.isEmpty_eq_false_iff] at hsuit
      exact hsuit.1
    have hempty : ¬ c.empty = true := fun he ↦ hne (h.entries_of_empty he)
    rw [serializeCompressed, if_pos hsuit, if_neg hempty]
    exact roundTrip_serializeV4 h hseed hord hne
  · rw [serializeCompressed, if_neg hsuit]
    exact ⟨_, rfl, roundTrip_serialize h hseed⟩

end CompactThetaSketch

end DataSketches
