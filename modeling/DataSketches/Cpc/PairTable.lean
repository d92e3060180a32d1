import DataSketches.Common.Panic
import DataSketches.Lib.Runs

/-!
# The pair table of a CPC sketch

A highly specialized hash table used for sparse data.  It stores `(row, col)`
pairs as `u32` items and uses linear probing for collision resolution; the home
slot of an item is made of its high bits.  `u32::MAX` marks a free slot.
-/

namespace DataSketches

open Runs

namespace Cpc

def upsizeNumerator : ℕ := 3

def upsizeDenominator : ℕ := 4

def downsizeNumerator : ℕ := 1

def downsizeDenominator : ℕ := 4

/-- `u32::MAX` -/
def u32Max : ℕ := 2 ^ 32 - 1

structure PairTable where
  /-- log2 of number of slots -/
  lgSize : ℕ
  numValidBits : ℕ
  numItems : ℕ
  slots : List ℕ
deriving DecidableEq

namespace PairTable

def new (lgSize numValidBits : ℕ) : Checked PairTable := do
  assert (2 ≤ lgSize ∧ lgSize ≤ 26) "lg_size must be in [2, 26]"
  assert (lgSize + 1 ≤ numValidBits ∧ numValidBits ≤ 32)
    "num_valid_bits must be in [lg_size + 1, 32]"
  return {
    lgSize := lgSize
    numValidBits := numValidBits
    numItems := 0
    slots := List.replicate (1 <<< lgSize) u32Max }

/-- `slots[i]` -/
def slotAt (slots : List ℕ) (i : ℕ) : Checked ℕ :=
  match slots[i]? with
  | none => throw .outOfBounds
  | some slot => return slot

def clear (t : PairTable) : PairTable :=
  { t with slots := List.replicate t.slots.length u32Max, numItems := 0 }

/-- The loop of `lookup`.  A round over all slots takes `1 << lg_size` steps. -/
def lookupFrom (slots : List ℕ) (mask item : ℕ) : ℕ → ℕ → Checked ℕ
  | 0, _ => throw .diverges
  | fuel + 1, probe => do
      let slot ← slotAt slots probe
      if slot ≠ item ∧ slot ≠ u32Max then lookupFrom slots mask item fuel ((probe + 1) &&& mask)
      else return probe

def lookup (t : PairTable) (item : ℕ) : Checked ℕ := do
  let size := 1 <<< t.lgSize
  let mask := size - 1
  let shift := t.numValidBits - t.lgSize
  -- extract high table size bits
  let probe := item >>> shift
  assert (probe ≤ mask) "probe exceeds mask"
  lookupFrom t.slots mask item size probe

def mustInsert (t : PairTable) (item : ℕ) : Checked PairTable := do
  let index ← t.lookup item
  let slot ← slotAt t.slots index
  assert (slot ≠ item) "item already present in table"
  assert (slot = u32Max) "no empty slot found for item"
  -- counts and resizing must be handled by the caller.
  return { t with slots := t.slots.set index item }

/-- Rebuilds to another size.  `num_items` and `num_valid_bits` remain unchanged. -/
def rebuild (t : PairTable) (lgSize : ℕ) : Checked PairTable := do
  assert (2 ≤ lgSize ∧ lgSize ≤ 26) "lg_size must be in [2, 26]"
  assert (lgSize + 1 ≤ t.numValidBits ∧ t.numValidBits ≤ 32)
    "num_valid_bits must be in [lg_size + 1, 32]"
  let newSize := 1 <<< lgSize
  assert (newSize > t.numItems) "new table size must be larger than number of items"
  run mustInsert { t with lgSize := lgSize, slots := List.replicate newSize u32Max }
    (t.slots.filter (· ≠ u32Max))

/-- The loop at the end of `maybe_insert`.  A table is rebuilt at most until its size is 26. -/
def grow : ℕ → PairTable → Checked PairTable
  | 0, _ => throw .diverges
  | fuel + 1, t =>
      if upsizeDenominator * t.numItems > upsizeNumerator * (1 <<< t.lgSize) then
        t.rebuild (t.lgSize + 1) >>= grow fuel
      else return t

def maybeInsert (t : PairTable) (item : ℕ) : Checked (PairTable × Bool) := do
  let index ← t.lookup item
  let slot ← slotAt t.slots index
  if slot = item then
    return (t, false)
  assert (slot = u32Max) "no empty slot found for item"
  let t := { t with slots := t.slots.set index item, numItems := t.numItems + 1 }
  return (← grow 26 t, true)

/-- The loop that stores the items up to the next free slot again. -/
def reinsertFrom (mask : ℕ) : ℕ → ℕ → PairTable → Checked PairTable
  | 0, _, _ => throw .diverges
  | fuel + 1, probe, t => do
      let fetched ← slotAt t.slots probe
      if fetched ≠ u32Max then
        let t ← { t with slots := t.slots.set probe u32Max }.mustInsert fetched
        reinsertFrom mask fuel ((probe + 1) &&& mask) t
      else return t

/-- The loop at the end of `maybe_delete`. -/
def shrink : ℕ → PairTable → Checked PairTable
  | 0, _ => throw .diverges
  | fuel + 1, t =>
      if downsizeDenominator * t.numItems < downsizeNumerator * (1 <<< t.lgSize) ∧ t.lgSize > 2 then
        t.rebuild (t.lgSize - 1) >>= shrink fuel
      else return t

def maybeDelete (t : PairTable) (item : ℕ) : Checked (PairTable × Bool) := do
  let index ← t.lookup item
  let slot ← slotAt t.slots index
  if slot = u32Max then
    return (t, false)
  assert (slot = item) "item not found at index"
  assert (t.numItems > 0) "no items to delete"
  -- delete the item
  let t := { t with slots := t.slots.set index u32Max, numItems := t.numItems - 1 }
  -- re-insert all items between the freed slot and the next empty slot
  let mask := 1 <<< t.lgSize - 1
  let t ← reinsertFrom mask (1 <<< t.lgSize) ((index + 1) &&& mask) t
  -- shrink if necessary
  return (← shrink 26 t, true)

/-! ## Extraction -/

/-- The array that `unwrapping_get_items` fills from both ends. -/
structure Extraction where
  result : List ℕ
  l : ℕ
  r : ℕ

namespace Extraction

/-- `result[i] = item` -/
def store (result : List ℕ) (i item : ℕ) : Checked (List ℕ) :=
  if i < result.length then return result.set i item else throw .outOfBounds

/-- `result[l] = item; l += 1` -/
def pushLeft (x : Extraction) (item : ℕ) : Checked Extraction := do
  let result ← store x.result x.l item
  return { x with result := result, l := x.l + 1 }

/-- `result[r] = item; r -= 1` -/
def pushRight (x : Extraction) (item : ℕ) : Checked Extraction := do
  let result ← store x.result x.r item
  let r ← checkedSub x.r 1
  return { x with result := result, r := r }

/-- An item of the region before the first empty slot. -/
def pushEarly (hiBit : ℕ) (x : Extraction) (item : ℕ) : Checked Extraction :=
  -- an item with the high bit was probably wrapped, so move to end
  if item &&& hiBit ≠ 0 then x.pushRight item else x.pushLeft item

/-- A slot of the rest of the table. -/
def pushLate (x : Extraction) (slot : ℕ) : Checked Extraction :=
  if slot ≠ u32Max then x.pushLeft slot else return x

end Extraction

/-- While extracting the items from a linear probing hashtable, this will usually undo the
wrap-around provided that the table isn't too full. -/
def unwrappingGetItems (t : PairTable) : Checked (List ℕ) :=
  if t.numItems = 0 then return []
  else do
    let hiBit := 1 <<< (t.numValidBits - 1)
    let x : Extraction := ⟨List.replicate t.numItems 0, 0, t.numItems - 1⟩
    -- special rules for the region before the first empty slot
    let x ← run (Extraction.pushEarly hiBit) x (t.slots.takeWhile (· ≠ u32Max))
    -- the rest of the table is processed normally
    let x ← run Extraction.pushLate x (t.slots.dropWhile (· ≠ u32Max))
    assert (x.l = x.r + 1) "number of items mismatch during extraction"
    return x.result

/-! ## Decompression -/

/-- The loop of `from_slots` that sizes the table, from size `26 - left` on. -/
def lgNumSlots (numItems : ℕ) : ℕ → Except Error ℕ
  | 0 =>
      if upsizeDenominator * numItems > upsizeNumerator * (1 <<< 26) then
        throw (.deserial "CPC pair table is too large")
      else return 26
  | left + 1 =>
      if upsizeDenominator * numItems > upsizeNumerator * (1 <<< (26 - (left + 1))) then
        lgNumSlots numItems left
      else return 26 - (left + 1)

/-- The body of the loop of `from_slots`. -/
def insertNew (t : PairTable) (item : ℕ) : Except Fault PairTable := do
  let (t, inserted) ← (t.maybeInsert item).mapError .panic
  if inserted then return t
  else throw (.error (.deserial "CPC pair table contains a duplicate pair"))

/-- A constructor specifically tailored to be a part of FM85 decompression scheme. -/
def fromSlots (lgSize numItems : ℕ) (slots : List ℕ) : Except Fault PairTable := do
  if slots.length < numItems then
    throw (.error (.deserial "CPC pair table contains too few slots"))
  let lgNumSlots ← (lgNumSlots numItems 24).mapError .error
  let table ← (new lgNumSlots (6 + lgSize)).mapError .panic
  run insertNew table (slots.take numItems)

end PairTable

end Cpc

end DataSketches
