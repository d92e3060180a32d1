import DataSketches.Lib.Comparator
import DataSketches.Req.Value

/-!
# Compactors

A compactor maintains the items of one level.  When it reaches its nominal
capacity it keeps about half of them and promotes every other item of the rest to
the next level.  The coin that says which half is promoted is an argument of a
compaction; the scratch buffers of the source are not modelled.
-/

namespace DataSketches

namespace Req

open Comparator

structure Compactor (T : Type) where
  items : List T
  isSorted : Bool
  /-- State for deterministic compaction, a `u64`. -/
  state : ℕ
  sectionSize : ℕ
  numSections : ℕ
  /-- The level of this compactor (0 = base level). -/
  lgWeight : ℕ
  rankAccuracy : RankAccuracy
  /-- Raw section size (may be fractional). -/
  sectionSizeRaw : Float32
  coin : Bool

namespace Compactor

variable {T : Type}

def new (lgWeight k : ℕ) (rankAccuracy : RankAccuracy) : Compactor T where
  items := []
  isSorted := true
  state := 0
  sectionSize := nearestEvenSectionSize (.ofNat k)
  numSections := initialSectionsPerCompactor
  lgWeight := lgWeight
  rankAccuracy := rankAccuracy
  sectionSizeRaw := .ofNat k
  coin := false

def numItems (c : Compactor T) : ℕ := c.items.length

def nominalCapacity (c : Compactor T) : ℕ := 2 * c.sectionSize * c.numSections

def append (c : Compactor T) (item : T) : Compactor T :=
  { c with
    items := c.items ++ [item]
    isSorted := if (c.items ++ [item]).length > 1 then false else c.isSorted }

/-- Doubles the number of sections if the state has reached the threshold and the sections of
half the area are not too small.  The number of sections is a `u8`. -/
def ensureEnoughSections (c : Compactor T) : Option (Compactor T) :=
  if c.numSections = 0 ∨ c.numSections - 1 ≥ 64 then none
  else
    let threshold := 1 <<< (c.numSections - 1)
    if c.numSections * 2 ≥ 2 ^ 8 then none
    else
      let sectionSizeRaw := c.sectionSizeRaw / sqrt2
      let sectionSize := nearestEvenSectionSize sectionSizeRaw
      if c.state ≥ threshold ∧ sectionSize ≥ minK then
        some { c with
          sectionSizeRaw := sectionSizeRaw
          sectionSize := sectionSize
          numSections := c.numSections * 2 }
      else none

/-- `while self.ensure_enough_sections() {}`, which can double a `u8` at most seven times. -/
def ensureAllSections : ℕ → Compactor T → Compactor T
  | 0, c => c
  | fuel + 1, c =>
      match c.ensureEnoughSections with
      | none => c
      | some c' => ensureAllSections fuel c'

/-- The range of items that a compaction removes, empty if there are fewer than two. -/
def computeCompactionRange (c : Compactor T) (secsToCompact : ℕ) : ℕ × ℕ :=
  let numItems := c.items.length
  let nonCompact := c.nominalCapacity / 2 + (c.numSections - secsToCompact) * c.sectionSize
  let nonCompact :=
    if numItems ≥ nonCompact ∧ (numItems - nonCompact) % 2 = 1 then nonCompact + 1 else nonCompact
  let low := match c.rankAccuracy with
    | .highRank => 0
    | .lowRank => min nonCompact numItems
  let high := match c.rankAccuracy with
    | .highRank => if numItems ≥ nonCompact then numItems - nonCompact else 0
    | .lowRank => numItems
  if high ≤ low ∨ high - low < 2 then (0, 0) else (low, high)

/-- `(!state).trailing_zeros()` -/
def trailingOnes (state : ℕ) : ℕ := ((List.range 64).find? (!state.testBit ·)).getD 64

/-- Every other item, from the first one on. -/
def everyOther : List T → List T
  | [] => []
  | [x] => [x]
  | x :: _ :: xs => x :: everyOther xs

/-- The weight `1 << lg_weight` of the items, on a `u64`. -/
def weight (c : Compactor T) : Checked ℕ :=
  if c.lgWeight < 64 then return 1 <<< c.lgWeight else throw .overflow

section Sorting

variable [ReqValue T] (S : UnstableSort)

/-- Sorts the items in this compactor if not already sorted. -/
def sort (c : Compactor T) : Compactor T :=
  if c.isSorted then c
  else { c with items := S.sortBy ReqValue.totalCmp c.items, isSorted := true }

/-- Merges pre-sorted items into this compactor. -/
def mergeSorted (c : Compactor T) (items : List T) : Compactor T :=
  if items.isEmpty then c
  else if c.items.isEmpty then { c with items := items, isSorted := true }
  else { c with items := mergeBy ReqValue.totalCmp c.items items, isSorted := true }

def merge (c other : Compactor T) : Checked (Compactor T) := do
  assert (c.lgWeight = other.lgWeight) "assertion `left == right` failed"
  let c := { c with state := c.state ||| other.state }
  let c :=
    if other.items.isEmpty then c
    else (c.sort S).mergeSorted <|
      if other.isSorted then other.items else S.sortBy ReqValue.totalCmp other.items
  return ensureAllSections 8 c

/-- Counts the items at-or-below (`inclusive`) or strictly below `item`. -/
def countBelow (c : Compactor T) (item : T) (inclusive : Bool) : ℕ :=
  let below (x : T) : Bool :=
    if inclusive then (ReqValue.totalCmp x item).isLE else (ReqValue.totalCmp x item).isLT
  if c.isSorted then partitionPoint below c.items else c.items.countP below

/-- The compactor after a compaction, and the promoted items. -/
def compactInto (c : Compactor T) (coin : Bool) : Compactor T × List T :=
  if c.items.isEmpty then (c, [])
  else
    let c := c.sort S
    let secsToCompact := min (trailingOnes c.state + 1) c.numSections
    let range := c.computeCompactionRange secsToCompact
    if range.2 ≤ range.1 ∨ range.2 - range.1 < 2 then (c, [])
    else
      -- flip coin for odd states, random coin flip for even states
      let odds := if c.state % 2 = 1 then !c.coin else coin
      let start := if odds then range.1 + 1 else range.1
      let promoted := everyOther ((c.items.take range.2).drop start)
      let c := { c with
        coin := odds
        items := c.items.take range.1 ++ c.items.drop range.2
        state := (c.state + 1) % 2 ^ 64 }
      (c.ensureEnoughSections.getD c, promoted)

end Sorting

end Compactor

end Req

end DataSketches
