import DataSketches.Hash.Murmur
import DataSketches.Lib.Counters
import DataSketches.Lib.LinearProbing

/-!
# Reverse purge hash map for generic items

This linear-probing hash map supports a reverse purge operation that removes keys
with non-positive counts by scanning clusters from the back to the front.  The
value of a free slot is never read, so a slot of the model either is free or has
a key, a value and a state.
-/

namespace DataSketches

open Runs OpenAddressing

def driftLimit : ℕ := 1024

def maxSampleSize : ℕ := 1024

/-- An active slot. -/
structure Slot (T : Type) where
  key : T
  value : ℕ
  /-- The distance from the home slot, plus one. -/
  state : ℕ
deriving DecidableEq

/-- Linear-probing hash map for (item, count) pairs with reverse purge support. -/
structure ReversePurgeItemHashMap (T : Type) where
  lgLength : ℕ
  loadThreshold : ℕ
  slots : List (Option (Slot T))
  numActive : ℕ
deriving DecidableEq

/-- A borrowed form of a type, with the contract that hashes and equality agree. -/
class Borrow (T Q : Type) [Hash T] [Hash Q] where
  borrow : T → Q
  toOwned : Q → T
  borrow_toOwned : ∀ q, borrow (toOwned q) = q
  toOwned_borrow : ∀ t, toOwned (borrow t) = t
  writes_borrow : ∀ t, Hash.writes (borrow t) = Hash.writes t

instance (T : Type) [Hash T] : Borrow T T := ⟨id, id, fun _ ↦ rfl, fun _ ↦ rfl, fun _ ↦ rfl⟩

def hashItem {Q : Type} [Hash Q] (item : Q) : Checked UInt64 := do
  let hasher ← (MurmurHash3X64128.withSeed defaultUpdateSeed).hash item
  let (h1, _) ← hasher.finish128
  return h1

/-- `n as u16` -/
def toU16 (n : ℕ) : ℕ := n % 2 ^ 16

namespace ReversePurgeItemHashMap

variable {T Q : Type}

/-- A map with arrays of the given length. -/
def empty (mapSize : ℕ) : ReversePurgeItemHashMap T :=
  ⟨mapSize.log2, mapSize * 3 / 4, List.replicate mapSize none, 0⟩

/-- Creates a new map with arrays of length `map_size` (must be a power of two). -/
def new (mapSize : ℕ) : Checked (ReversePurgeItemHashMap T) := do
  assert mapSize.isPowerOfTwo "map_size must be power of 2"
  return empty mapSize

/-- The loop from slot `probe` on.  The fuel is what is left of the drift limit. -/
def findFrom (m : ReversePurgeItemHashMap T) (hit : T → Bool) : ℕ → ℕ → ℕ → Checked (ℕ × ℕ)
  | 0, _, _ => throw (.assertion "drift limit exceeded")
  | left + 1, probe, drift =>
      match get m.slots probe with
      | none => return (probe, drift)
      | some slot =>
          if hit slot.key then return (probe, drift)
          else m.findFrom hit left ((probe + 1) &&& (m.slots.length - 1)) (drift + 1)

def findProbeOrEmpty (m : ReversePurgeItemHashMap T) (hash : UInt64) (hit : T → Bool) :
    Checked (ℕ × ℕ) :=
  m.findFrom hit (driftLimit - 1) (hash.toNat &&& (m.slots.length - 1)) 1

/-- Adds to the value at the slot found, or writes a new key there. -/
def adjustAt (m : ReversePurgeItemHashMap T) (key : T) (adjustAmount : ℕ) :
    ℕ × ℕ → Checked (ReversePurgeItemHashMap T) := fun (probe, drift) ↦
  match get m.slots probe with
  | none => return { m with
      slots := m.slots.set probe (some ⟨key, adjustAmount, toU16 drift⟩)
      numActive := m.numActive + 1 }
  | some slot => do
      let value ← checkedAdd 64 slot.value adjustAmount
      return { m with slots := m.slots.set probe (some { slot with value := value }) }

section Keys

variable [DecidableEq T] [Hash T] [DecidableEq Q] [Hash Q]

/-- Returns the value for `key`, or zero if the key is not present. -/
protected def get [Borrow T Q] (m : ReversePurgeItemHashMap T) (key : Q) : Checked ℕ := do
  let hash ← hashItem key
  let (probe, _) ← m.findProbeOrEmpty hash fun existing ↦ Borrow.borrow existing = key
  match get m.slots probe with
  | none => return 0
  | some slot => return slot.value

/-- Adds `adjust_amount` to the value for `key`, inserting if absent. -/
def adjustOrPutValue (m : ReversePurgeItemHashMap T) (key : T) (adjustAmount : ℕ) :
    Checked (ReversePurgeItemHashMap T) := do
  let hash ← hashItem key
  let found ← m.findProbeOrEmpty hash fun existing ↦ existing = key
  m.adjustAt key adjustAmount found

/-- Adds `adjust_amount` to the value for a borrowed `key`, inserting if absent. -/
def adjustOrPutValueRef [Borrow T Q] (m : ReversePurgeItemHashMap T) (key : Q)
    (adjustAmount : ℕ) : Checked (ReversePurgeItemHashMap T) := do
  let hash ← hashItem key
  let found ← m.findProbeOrEmpty hash fun existing ↦ Borrow.borrow existing = key
  m.adjustAt (Borrow.toOwned key) adjustAmount found

/-- Resizes the hash table to `new_size` (must be a power of two). -/
def resize (m : ReversePurgeItemHashMap T) (newSize : ℕ) : Checked (ReversePurgeItemHashMap T) := do
  assert newSize.isPowerOfTwo "new_size must be power of 2"
  run (fun m (slot : Slot T) ↦ m.adjustOrPutValue slot.key slot.value) (empty newSize)
    (contents m.slots)

end Keys

/-- The loop that closes the hole at `hole`; slot `probe` is `drift` slots after it.  The run of
active slots ends before `fuel` steps. -/
def deleteFrom (length : ℕ) : ℕ → ℕ → ℕ → ℕ → List (Option (Slot T)) →
    Checked (List (Option (Slot T)))
  | 0, _, _, _, _ => throw .diverges
  | fuel + 1, hole, probe, drift, slots =>
      match get slots probe with
      | none => return slots
      | some slot => do
          assert ((if slot.state > drift then 0 else drift) + 1 < driftLimit) "drift limit exceeded"
          if slot.state > drift then
            deleteFrom length fuel probe ((probe + 1) &&& (length - 1)) 1
              ((slots.set hole (some { slot with state := slot.state - toU16 drift })).set probe none)
          else deleteFrom length fuel hole ((probe + 1) &&& (length - 1)) (drift + 1) slots

def hashDelete (m : ReversePurgeItemHashMap T) (deleteProbe : ℕ) :
    Checked (ReversePurgeItemHashMap T) := do
  let slots ← deleteFrom m.slots.length m.slots.length deleteProbe
    ((deleteProbe + 1) &&& (m.slots.length - 1)) 1 (m.slots.set deleteProbe none)
  return { m with slots := slots }

/-- The body of the loops over the slots. -/
def deleteIfZero (m : ReversePurgeItemHashMap T) (probe : ℕ) : Checked (ReversePurgeItemHashMap T) :=
  match get m.slots probe with
  | none => return m
  | some slot =>
      if slot.value = 0 then do
        let m ← m.hashDelete probe
        let numActive ← checkedSub m.numActive 1
        return { m with numActive := numActive }
      else return m

/-- The last free slot up to the given one. -/
def firstProbe (slots : List (Option (Slot T))) : ℕ → Checked ℕ
  | 0 => if (get slots 0).isSome then throw .overflow else return 0
  | probe + 1 =>
      if (get slots (probe + 1)).isSome then firstProbe slots probe
      else return probe + 1

/-- Removes all keys with non-positive counts. -/
def keepOnlyPositiveCounts (m : ReversePurgeItemHashMap T) :
    Checked (ReversePurgeItemHashMap T) := do
  let len := m.slots.length
  let first ← firstProbe m.slots (len - 1)
  let m ← run deleteIfZero m (List.range' 0 first).reverse
  run deleteIfZero m (List.range' first (len - first)).reverse

/-- Shifts all values by `adjust_amount`. -/
def adjustAllValuesBy (m : ReversePurgeItemHashMap T) (adjustAmount : ℕ) :
    ReversePurgeItemHashMap T :=
  { m with slots := m.slots.map (Option.map fun slot ↦ { slot with value := slot.value - adjustAmount }) }

/-- The first `limit` values in slot order. -/
def sample : ℕ → List (Option (Slot T)) → Checked (List ℕ)
  | 0, _ => return []
  | _ + 1, [] => throw .outOfBounds
  | limit + 1, none :: slots => sample (limit + 1) slots
  | limit + 1, some slot :: slots => do return slot.value :: (← sample limit slots)

/-- `select_nth_unstable` -/
def selectNth (samples : List ℕ) (mid : ℕ) : Checked ℕ :=
  match (samples.mergeSort fun a b ↦ a ≤ b)[mid]? with
  | none => throw .outOfBounds
  | some median => return median

/-- Purges the map by estimating the median count and removing non-positive entries.

Returns the estimated median value that was subtracted from all counts. -/
def purge (m : ReversePurgeItemHashMap T) (sampleSize : ℕ) :
    Checked (ReversePurgeItemHashMap T × ℕ) := do
  let limit := min (min sampleSize m.numActive) maxSampleSize
  let samples ← sample limit m.slots
  let median ← selectNth samples (samples.length / 2)
  let m ← (m.adjustAllValuesBy median).keepOnlyPositiveCounts
  return (m, median)

/-- The maximum number of keys before a purge or resize. -/
def capacity (m : ReversePurgeItemHashMap T) : ℕ := m.loadThreshold

/-- Returns active keys and values in storage order. -/
def activeEntries (m : ReversePurgeItemHashMap T) : List (T × ℕ) :=
  (contents m.slots).map fun slot ↦ (slot.key, slot.value)

/-- The golden-ratio stride: `0.6180339887498949` is the double `5566755282872655 / 2^53`. -/
def stride (size : ℕ) : ℕ := size * 5566755282872655 / 2 ^ 53 ||| 1

/-- The iterator, with the number of entries that it still has to find.  All of them are found
within `fuel` steps. -/
def iterFrom (m : ReversePurgeItemHashMap T) : ℕ → ℕ → ℕ → Checked (List (T × ℕ))
  | _, _, 0 => return []
  | 0, _, _ + 1 => throw .diverges
  | fuel + 1, index, count + 1 =>
      let next := (index + stride m.slots.length) &&& (m.slots.length - 1)
      match get m.slots index with
      | none => m.iterFrom fuel next (count + 1)
      | some slot => do return (slot.key, slot.value) :: (← m.iterFrom fuel next count)

/-- Returns an iterator over active keys and values.  Its first step leads to slot 0. -/
def iter (m : ReversePurgeItemHashMap T) : Checked (List (T × ℕ)) :=
  m.iterFrom m.slots.length 0 m.numActive

end ReversePurgeItemHashMap

end DataSketches
