import DataSketches.Req.Sketch

/-!
# The wire format of REQ sketches

A sketch of few items is written as those items, a larger one level by level.  What is
read is checked against the schedule of section growth and against the number of
items, weighted by level.
-/

namespace DataSketches

open LittleEndian ByteReader SketchBytes SketchSlice

/-! ## Floating-point fields -/

def SketchBytes.writeF32Le (x : Float32) : List UInt8 := leBytes 4 x.toBits.toNat

def SketchSlice.readF32Le (tag : String) : SketchSlice Float32 := do
  return .ofBits (UInt32.ofNat (← readU32Le tag))

namespace Req

open ReqValue

def serialVersion : ℕ := 1

def preambleIntsExact : ℕ := 2

def preambleIntsEstimation : ℕ := 4

def rawItemsThreshold : ℕ := 4

def flagIsEmpty : ℕ := 1 <<< 2

def flagIsHighRank : ℕ := 1 <<< 3

def flagRawItems : ℕ := 1 <<< 4

def flagIsLevelZeroSorted : ℕ := 1 <<< 5

/-! ## Checks -/

def sectionGrowthThreshold (numSections : ℕ) : Option ℕ :=
  if numSections = 0 ∨ numSections - 1 ≥ 64 then none else some (1 <<< (numSections - 1))

/-- The loop of `has_reachable_section_count`, which can double a `u8` at most seven times. -/
def reachesSectionCount (state numSections : ℕ) : ℕ → ℕ → Bool
  | 0, _ => false
  | fuel + 1, sections =>
      if sections < numSections then
        match sectionGrowthThreshold sections with
        | none => false
        | some threshold =>
            if state < threshold then false
            else if sections * 2 ≥ 2 ^ 8 then false
            else reachesSectionCount state numSections fuel (sections * 2)
      else sections == numSections

def hasReachableSectionCount (state numSections : ℕ) : Bool :=
  reachesSectionCount state numSections 8 initialSectionsPerCompactor

def validateCompactorState (k expectedLgWeight state : ℕ) (sectionSizeRaw : Float32)
    (lgWeight numSections : ℕ) : Except Error Unit := do
  if lgWeight ≠ expectedLgWeight then
    throw (.deserial
      s!"REQ compactor lg_weight {lgWeight} does not match level {expectedLgWeight}")
  let sectionSize := nearestEvenSectionSize sectionSizeRaw
  if !sectionSizeRaw.isFinite ∨ ¬ (minK ≤ sectionSize ∧ sectionSize ≤ k) ∨
      !hasReachableSectionCount state numSections then
    throw (.deserial
      s!"REQ compactor layout is invalid (k={k}, state={state}, section_size_raw={sectionSizeRaw}, num_sections={numSections})")

def checkSerialVersion (actual : ℕ) : Except Error Unit := ensureSerialVersionIs serialVersion actual

def checkPreambleInts (actual numLevels : ℕ) : Except Error Unit :=
  ensurePreambleLongsIn [if numLevels > 1 then preambleIntsEstimation else preambleIntsExact] actual

variable {T : Type} [ReqValue T]

/-- The loop of `normalized_sort_state`, with the item before. -/
def sortStateFrom (previous : Option T) (sorted : Bool) : List T → Except Error Bool
  | [] => return sorted
  | item :: items => do
      if isNan item then throw (.deserial "REQ compactor contains a NaN item")
      sortStateFrom (some item) (sorted && !previous.any fun p ↦ (totalCmp p item).isGT) items

/-- A list that is claimed to be sorted may not be. -/
def normalizedSortState (items : List T) (claimedSorted : Bool) : Except Error Bool :=
  sortStateFrom none claimedSorted items

/-! ## Compactors -/

namespace Compactor

/-- Serialize this compactor (preamble + items). -/
def serializeInto (c : Compactor T) : List UInt8 :=
  writeU64Le c.state ++ (writeF32Le c.sectionSizeRaw ++ (writeU8 c.lgWeight ++
    (writeU8 c.numSections ++ (writeU16Le 0 ++ (writeU32Le c.numItems ++
      c.items.flatMap serializeValue)))))

/-- Reconstruct a compactor from deserialized state.  The random coin is reset. -/
def fromSerializedState (lgWeight : ℕ) (sectionSizeRaw : Float32) (numSections state : ℕ)
    (items : List T) (isSorted : Bool) (rankAccuracy : RankAccuracy) : Compactor T where
  items := items
  isSorted := isSorted
  state := state
  sectionSize := nearestEvenSectionSize sectionSizeRaw
  numSections := numSections
  lgWeight := lgWeight
  rankAccuracy := rankAccuracy
  sectionSizeRaw := sectionSizeRaw
  coin := false

end Compactor

def readItems : ℕ → SketchSlice (List T)
  | 0 => return []
  | n + 1 => do
      let item ← deserializeValue
      return item :: (← readItems n)

namespace Compactor

/-- Deserialize a compactor (preamble + items). -/
def deserialize (k expectedLgWeight : ℕ) (rankAccuracy : RankAccuracy) (sorted : Bool) :
    SketchSlice (Compactor T) := do
  let state ← SketchSlice.readU64Le "compactor.state"
  let sectionSizeRaw ← readF32Le "compactor.section_size_raw"
  let lgWeight ← readU8 "compactor.lg_weight"
  let numSections ← readU8 "compactor.num_sections"
  let _padding ← readU16Le "compactor.padding"
  let numItems ← readU32Le "compactor.num_items"
  liftResult (validateCompactorState k expectedLgWeight state sectionSizeRaw lgWeight numSections)
  let items ← readItems numItems
  let sorted ← liftResult (normalizedSortState items sorted)
  return fromSerializedState lgWeight sectionSizeRaw numSections state items sorted rankAccuracy

/-- Build a level-0 compactor from raw items.  The flag is that of the image, whatever `append`
makes of it. -/
def rawItemsCompactor (k : ℕ) (rankAccuracy : RankAccuracy) (items : List T) (isSorted : Bool) :
    Except Error (Compactor T) := do
  let isSorted ← normalizedSortState items isSorted
  return { items.foldl append (new 0 k rankAccuracy) with isSorted := isSorted }

end Compactor

/-! ## Writing a sketch -/

/-- `unwrap` -/
def unwrap {α : Type} : Option α → Checked α
  | none => throw (.expect "called `Option::unwrap()` on a `None` value")
  | some a => return a

namespace ReqSketch

def isRawItems (s : ReqSketch T) : Bool := s.n ≤ rawItemsThreshold ∧ s.compactors.length = 1

def flagsByte (s : ReqSketch T) : Checked ℕ := do
  let first ← s.compactorAt 0
  return (if s.isEmpty then flagIsEmpty else 0) |||
    (if s.rankAccuracy = .highRank then flagIsHighRank else 0) |||
    (if s.isRawItems then flagRawItems else 0) |||
    (if first.isSorted then flagIsLevelZeroSorted else 0)

/-- The size of what an image of several levels has before them. -/
def boundsSize (s : ReqSketch T) : Checked ℕ :=
  if s.isEstimationMode then do
    let min ← unwrap s.minItem
    let max ← unwrap s.maxItem
    return 8 + serializeSize min + serializeSize max
  else return 0

/-- A compactor has 20 bytes before its items. -/
def levelsSize (s : ReqSketch T) : Checked ℕ :=
  if s.isRawItems then do
    let first ← s.compactorAt 0
    return (first.items.map serializeSize).sum
  else return (s.compactors.map fun c ↦ 20 + (c.items.map serializeSize).sum).sum

/-- Number of bytes required to serialize the sketch. -/
def serializedSizeBytes (s : ReqSketch T) : Checked ℕ :=
  if s.isEmpty then return 8
  else do
    let bounds ← s.boundsSize
    let levels ← s.levelsSize
    return 8 + bounds + levels

/-- The first eight bytes of an image. -/
def preambleBytes (s : ReqSketch T) (flags : ℕ) : List UInt8 :=
  writeU8 (if s.isEstimationMode then preambleIntsEstimation else preambleIntsExact) ++
    (writeU8 serialVersion ++ (writeU8 Family.req.id ++ (writeU8 flags ++ (writeU16Le s.k ++
      (writeU8 (if s.isEmpty then 0 else s.compactors.length) ++
        writeU8 (if s.isRawItems then s.n else 0))))))

/-- What an image of several levels has before them. -/
def boundsBytes (s : ReqSketch T) : Checked (List UInt8) :=
  if s.isEstimationMode then do
    let min ← unwrap s.minItem
    let max ← unwrap s.maxItem
    return writeU64Le s.n ++ (serializeValue min ++ serializeValue max)
  else return []

def levelsBytes (s : ReqSketch T) : Checked (List UInt8) :=
  if s.isRawItems then do
    let first ← s.compactorAt 0
    return first.items.flatMap serializeValue
  else return s.compactors.flatMap Compactor.serializeInto

/-- Serialize the sketch. -/
def serialize (s : ReqSketch T) : Checked (List UInt8) := do
  let _capacity ← s.serializedSizeBytes
  let flags ← s.flagsByte
  if s.isEmpty then return s.preambleBytes flags
  let bounds ← s.boundsBytes
  let levels ← s.levelsBytes
  return s.preambleBytes flags ++ (bounds ++ levels)

/-! ## Reading a sketch -/

/-- What the first eight bytes of an image say. -/
structure Preamble where
  isEmpty : Bool
  rawItems : Bool
  isLevelZeroSorted : Bool
  rankAccuracy : RankAccuracy
  k : ℕ
  numLevels : ℕ
  numRawItems : ℕ

def readPreamble : SketchSlice Preamble := do
  let preambleInts ← readU8 "preamble_ints"
  let serialVersion ← readU8 "serial_version"
  let familyId ← readU8 "family_id"
  let flags ← readU8 "flags"
  let k ← readU16Le "k"
  let numLevels ← readU8 "num_levels"
  let numRawItems ← readU8 "num_raw_items"
  liftResult (checkPreambleInts preambleInts numLevels)
  liftResult (checkSerialVersion serialVersion)
  liftResult (Family.req.validateId familyId)
  if ¬ (minK ≤ k ∧ k ≤ maxK) ∨ k % 2 ≠ 0 then err (.deserial s!"k {k} is not a valid REQ k value")
  else
    return {
      isEmpty := flags &&& flagIsEmpty ≠ 0
      rawItems := flags &&& flagRawItems ≠ 0
      isLevelZeroSorted := flags &&& flagIsLevelZeroSorted ≠ 0
      rankAccuracy := if flags &&& flagIsHighRank ≠ 0 then .highRank else .lowRank
      k := k
      numLevels := numLevels
      numRawItems := numRawItems }

/-- The checks of an image that is flagged empty. -/
def Preamble.checkEmpty (p : Preamble) : Except Error Unit := do
  if p.numLevels ≠ 0 then
    throw (.deserial s!"empty REQ sketch must have 0 levels, got {p.numLevels}")
  if p.numRawItems ≠ 0 then
    throw (.deserial s!"empty REQ sketch must have 0 raw items, got {p.numRawItems}")

/-- The checks of an image that is not flagged empty. -/
def Preamble.checkLevels (p : Preamble) : Except Error Unit := do
  if p.numLevels = 0 then
    throw (.deserial "non-empty REQ sketch must have at least one level")
  if p.numLevels > 64 then throw (.deserial "REQ sketch cannot have more than 64 levels")
  if p.rawItems then
    if p.numLevels ≠ 1 then
      throw (.deserial s!"raw-items REQ sketch must have exactly 1 level, got {p.numLevels}")
    if p.numRawItems = 0 ∨ p.numRawItems > rawItemsThreshold then
      throw (.deserial
        s!"raw-items REQ sketch must contain 1..={rawItemsThreshold} items, got {p.numRawItems}")
  else if p.numRawItems ≠ 0 then
    throw (.deserial s!"non-raw REQ sketch must have 0 raw items, got {p.numRawItems}")

/-- The number of items and the extreme items, as far as they are known. -/
structure Bounds (T : Type) where
  n : ℕ
  minItem : Option T
  maxItem : Option T

def readBounds (numLevels : ℕ) : SketchSlice (Bounds T) := do
  if numLevels > 1 then
    let n ← SketchSlice.readU64Le "n"
    let min ← deserializeValue
    let max ← deserializeValue
    if isNan min ∨ isNan max then err (.deserial "REQ sketch min or max item is NaN")
    else if (totalCmp min max).isGT then
      err (.deserial "REQ sketch min item is greater than max item")
    else return ⟨n, some min, some max⟩
  else return ⟨1, none, none⟩

/-- The loop that reads the levels from `i` on. -/
def readLevels (p : Preamble) : ℕ → ℕ → SketchSlice (List (Compactor T))
  | _, 0 => return []
  | i, count + 1 => do
      let c ← Compactor.deserialize p.k i p.rankAccuracy (i > 0 || p.isLevelZeroSorted)
      return c :: (← readLevels p (i + 1) count)

def readCompactors (p : Preamble) : SketchSlice (List (Compactor T)) := do
  if p.rawItems then
    let items ← readItems p.numRawItems
    let c ← liftResult (Compactor.rawItemsCompactor p.k p.rankAccuracy items p.isLevelZeroSorted)
    return [c]
  else readLevels p 0 p.numLevels

/-- The extreme items of a level, of which each is the first of its kind. -/
def extremes : List T → Option T × Option T
  | [] => (none, none)
  | first :: rest =>
      (some (rest.foldl (fun mn x ↦ lesser (some mn) x) first),
        some (rest.foldl (fun mx x ↦ greater (some mx) x) first))

/-- With one level, the number of items and the extreme items are those of level 0. -/
def recoverBounds (p : Preamble) (bounds : Bounds T) (compactors : List (Compactor T)) :
    Checked (Bounds T) :=
  if p.numLevels = 1 then
    match compactors[0]? with
    | none => throw .outOfBounds
    | some level0 => return ⟨level0.numItems, (extremes level0.items).1, (extremes level0.items).2⟩
  else return bounds

/-- The sums over the levels that are checked. -/
structure LevelTotals where
  retained : ℕ
  capacity : ℕ
  weighted : ℕ

/-- A checked result of an unsigned type of the given width. -/
def inRange (bits n : ℕ) : Except Fault ℕ :=
  if n < 2 ^ bits then return n else throw (.error (.deserial "REQ compactor totals overflow"))

def addTotals (t : LevelTotals) (c : Compactor T) : Except Fault LevelTotals := do
  let retained ← inRange 32 (t.retained + c.numItems)
  let capacity ← inRange 32 (t.capacity + c.nominalCapacity)
  let weight ← c.weight.mapError .panic
  let weighted ← inRange 64 (c.numItems * weight)
  let weighted ← inRange 64 (t.weighted + weighted)
  return ⟨retained, capacity, weighted⟩

/-- The checks of the levels, and the sketch they make up. -/
def assemble (p : Preamble) (bounds : Bounds T) (compactors : List (Compactor T)) :
    Except Fault (ReqSketch T) := do
  let bounds ← (recoverBounds p bounds compactors).mapError .panic
  if bounds.n = 0 ∨ bounds.minItem.isNone ∨ bounds.maxItem.isNone then
    throw (.error (.deserial "non-empty REQ sketch contains no items"))
  if p.rawItems ≠ decide (p.numLevels = 1 ∧ bounds.n ≤ rawItemsThreshold) then
    throw (.error (.deserial
      "REQ sketch RAW_ITEMS flag is inconsistent with num_levels and n"))
  let totals ← Runs.run addTotals ⟨0, 0, 0⟩ compactors
  if totals.weighted ≠ bounds.n then
    throw (.error (.deserial
      s!"REQ retained weighted count {totals.weighted} does not match n {bounds.n}"))
  let sketch ← (tryNew p.k p.rankAccuracy).mapError .error
  return { (sketch : ReqSketch T) with
    n := bounds.n
    minItem := bounds.minItem
    maxItem := bounds.maxItem
    compactors := compactors
    maxNomSize := totals.capacity
    numRetained := totals.retained }

def deserializer : SketchSlice (ReqSketch T) := do
  let p ← readPreamble
  if p.isEmpty then
    liftResult p.checkEmpty
    liftResult (tryNew p.k p.rankAccuracy)
  else
    liftResult p.checkLevels
    let bounds ← readBounds p.numLevels
    let compactors ← readCompactors p
    lift (assemble p bounds compactors)

/-- Deserialize a sketch from bytes. -/
def deserialize (bytes : List UInt8) : Except Fault (ReqSketch T) := Prod.fst <$> deserializer bytes

end ReqSketch

end Req

end DataSketches
