import DataSketches.Lib.OpenAddressing
import DataSketches.Lib.Selection
import DataSketches.Hash.Murmur

/-!
# The hash table of the Theta family

`SketchHashTable` is the table shared by the Theta and Tuple sketches and by
their set operations.  It is generic in the retained entry; an entry only has to
tell its hash.

Hashes, thetas and sizes are natural numbers: nothing in the table depends on
their width.  The two load factors are exact rationals, and so is the sampling
probability, since every `f32` is a rational number and each product the table
takes with one is exact in `f64`.
-/


namespace DataSketches

open OpenAddressing Runs

/-! ## Constants -/

/-- Maximum theta value, `i64::MAX`. -/
def maxTheta : ℕ := 2 ^ 63 - 1

/-- Minimum log2 of K. -/
def minLgK : ℕ := 5

/-- Maximum log2 of K. -/
def maxLgK : ℕ := 26

/-- Resize threshold. -/
def hashTableResizeThreshold : ℚ := 1 / 2

/-- Rebuild threshold. -/
def hashTableRebuildThreshold : ℚ := 15 / 16

def strideHashBits : ℕ := 7

def strideMask : ℕ := 1 <<< strideHashBits - 1

/-- Controls internal cache growth. -/
inductive ResizeFactor where
  | x1
  | x2
  | x4
  | x8
deriving DecidableEq, Repr

namespace ResizeFactor

/-- The base-2 logarithm of the resize factor. -/
def lgValue : ResizeFactor → ℕ
  | .x1 => 0
  | .x2 => 1
  | .x4 => 2
  | .x8 => 3

end ResizeFactor

/-- Minimal entry behavior required by the shared hash table and set operations. -/
class SketchEntry (E : Type) where
  hash : E → ℕ

/-- Compact-sketch state from which a sketch family creates its compact result type. -/
structure CompactSketchParts (E : Type) where
  entries : List E
  theta : ℕ
  seedHash : ℕ
  ordered : Bool
  empty : Bool

/-- Initial `lgSize` of a table, such that a whole number of resizes leads from it to
`lgTarget`. -/
def startingSubMultiple (lgTarget lgMin lgResizeFactor : ℕ) : ℕ :=
  if lgTarget ≤ lgMin then lgMin
  else if lgResizeFactor = 0 then lgTarget
  else (lgTarget - lgMin) % lgResizeFactor + lgMin

/-- Initial theta of a table.  `MAX_THETA as f64` is `2^63`, and multiplying by a power
of two is exact, so the cast truncates the exact product. -/
def startingThetaFromSamplingProbability (p : ℚ) : ℕ :=
  if p < 1 then ⌊2 ^ 63 * p⌋₊ else maxTheta

/-! ## The table -/

structure SketchHashTable (E : Type) where
  lgCurSize : ℕ
  lgNomSize : ℕ
  lgMaxSize : ℕ
  resizeFactor : ResizeFactor
  samplingProbability : ℚ
  seed : UInt64
  isEmpty : Bool
  theta : ℕ
  entries : List (Option E)
  numRetained : ℕ

namespace SketchHashTable

variable {E : Type} [SketchEntry E]

/-- Constructs a table from raw internal state. -/
def fromRawParts (lgCurSize lgNomSize : ℕ) (resizeFactor : ResizeFactor) (p : ℚ) (theta : ℕ)
    (seed : UInt64) (isEmpty : Bool) : Checked (SketchHashTable E) := do
  let lgMaxSize := lgNomSize + 1
  assert (lgCurSize ≤ lgMaxSize) "lg_cur_size must be <= lg_nom_size + 1"
  let size := if lgCurSize > 0 then 1 <<< lgCurSize else 0
  return {
    lgCurSize := lgCurSize
    lgNomSize := lgNomSize
    lgMaxSize := lgMaxSize
    resizeFactor := resizeFactor
    samplingProbability := p
    seed := seed
    isEmpty := isEmpty
    theta := theta
    entries := List.replicate size none
    numRetained := 0 }

/-- Create a new hash table. -/
def new (lgNomSize : ℕ) (resizeFactor : ResizeFactor) (p : ℚ) (seed : UInt64) :
    Checked (SketchHashTable E) :=
  fromRawParts (startingSubMultiple (lgNomSize + 1) minLgK resizeFactor.lgValue) lgNomSize
    resizeFactor p (startingThetaFromSamplingProbability p) seed true

def getStride (key lgSize : ℕ) : ℕ := 2 * (key >>> lgSize &&& strideMask) + 1

/-- The slot that holds `key`, or the free slot where it would be stored. -/
def findInEntries (entries : List (Option E)) (key lgSize : ℕ) : Option ℕ :=
  if entries.isEmpty then none
  else
    let size := entries.length
    let mask := size - 1
    let stride := getStride key lgSize
    let index := key &&& mask
    walk (hits SketchEntry.hash entries key) (fun i ↦ (i + stride) &&& mask) index size index

def findInCurrEntries (t : SketchHashTable E) (key : ℕ) : Option ℕ :=
  findInEntries t.entries key t.lgCurSize

/-- Return the current resize or rebuild capacity threshold. -/
def capacityThreshold (t : SketchHashTable E) : ℕ :=
  let fraction :=
    if t.lgCurSize ≤ t.lgNomSize then hashTableResizeThreshold else hashTableRebuildThreshold
  ⌊fraction * t.entries.length⌋₊

/-- Get iterator over retained entries. -/
def iterEntries (t : SketchHashTable E) : List E := contents t.entries

/-- The loop of `resize` and `rebuild` that stores entries in a new table. -/
def reinsert (lgSize : ℕ) : List E → List (Option E) → Checked (List (Option E))
  | [], newEntries => .ok newEntries
  | entry :: rest, newEntries =>
      match findInEntries newEntries (SketchEntry.hash entry) lgSize with
      | none => .error (.unreachable
          "find_in_entries should always return Some if the entry is not empty.")
      | some idx => reinsert lgSize rest (newEntries.set idx (some entry))

def resize (t : SketchHashTable E) : Checked (SketchHashTable E) := do
  let newLgSize := min (t.lgCurSize + t.resizeFactor.lgValue) t.lgMaxSize
  let newEntries ← reinsert newLgSize t.iterEntries (List.replicate (1 <<< newLgSize) none)
  return { t with entries := newEntries, lgCurSize := newLgSize }

/-- The entries around position `k` of the order by hash: the first `k`, and the one at
`k`.  `select_nth_unstable_by_key` leaves the entries before the position in an
unspecified order; sorting them is one such order, and no result depends on it. -/
def selectNthByHash (k : ℕ) (entries : List E) : Checked (List E × E) :=
  let sorted := entries.mergeSort (fun a b ↦ SketchEntry.hash a ≤ SketchEntry.hash b)
  match sorted[k]? with
  | none => .error .outOfBounds
  | some kth => .ok (sorted.take k, kth)

/-- Keep the `k` smallest entries and lower theta to the next hash. -/
def rebuild (t : SketchHashTable E) : Checked (SketchHashTable E) := do
  let k := 1 <<< t.lgNomSize
  let (retained, kth) ← selectNthByHash k t.iterEntries
  let newEntries ← reinsert t.lgCurSize retained (List.replicate (1 <<< t.lgCurSize) none)
  let numInserted := retained.length
  assert (numInserted = k) "Number of inserted entries should be equal to k."
  return { t with theta := SketchEntry.hash kth, entries := newEntries, numRetained := numInserted }

/-- Inserts or updates the entry slot for a pre-hashed key.  The callback of the source is
its two effects: `onExisting` changes an entry that is already retained, `onNew` is the
entry to insert for a new key, if any.  The flag tells whether a new entry was created. -/
def upsertEntry (t : SketchHashTable E) (hash : ℕ) (onExisting : E → E) (onNew : Option E) :
    Checked (SketchHashTable E × Bool) := do
  let t := { t with isEmpty := false }
  if hash = 0 ∨ hash ≥ t.theta then
    return (t, false)
  match t.findInCurrEntries hash with
  | none => .error (.unreachable
      "Resize or rebuild should be called to make sure it always can find the entry.")
  | some index =>
      match get t.entries index with
      | some entry =>
          return ({ t with entries := t.entries.set index (some (onExisting entry)) }, false)
      | none =>
          match onNew with
          | none => return (t, false)
          | some entry =>
              assert (SketchEntry.hash entry = hash) "entry hash must match insertion hash"
              let t := { t with
                entries := t.entries.set index (some entry)
                numRetained := t.numRetained + 1 }
              -- Check if we need to resize or rebuild.
              if t.numRetained > t.capacityThreshold then
                if t.lgCurSize ≤ t.lgNomSize then
                  return (← t.resize, true)
                else
                  return (← t.rebuild, true)
              else
                return (t, true)

/-- The entry stored for `hash`, or `none` if the hash is not retained. -/
def entry (t : SketchHashTable E) (hash : ℕ) : Option E :=
  if hash = 0 then none
  else
    match t.findInCurrEntries hash with
    | none => none
    | some index =>
        match get t.entries index with
        | some entry => if SketchEntry.hash entry = hash then some entry else none
        | none => none

/-- Trim the table to nominal size k. -/
def trim (t : SketchHashTable E) : Checked (SketchHashTable E) :=
  if t.numRetained > 1 <<< t.lgNomSize then t.rebuild else .ok t

/-- Reset the table to empty state. -/
def reset (t : SketchHashTable E) : SketchHashTable E :=
  let initLgCur := startingSubMultiple (t.lgNomSize + 1) minLgK t.resizeFactor.lgValue
  { t with
    entries := List.replicate (1 <<< initLgCur) none
    numRetained := 0
    theta := startingThetaFromSamplingProbability t.samplingProbability
    isEmpty := true
    lgCurSize := initLgCur }

/-- Sets theta value. -/
def setTheta (t : SketchHashTable E) (theta : ℕ) : Checked (SketchHashTable E) := do
  assert (1 ≤ theta ∧ theta ≤ maxTheta) "theta must be in [1, 9223372036854775807]"
  return { t with theta := theta }

/-- Get the hash of the seed that was used to hash the input. -/
def seedHash (t : SketchHashTable E) : Checked ℕ := computeSeedHash t.seed

/-- Entries in ascending order of their hash. -/
def sortByHash (entries : List E) : List E :=
  entries.mergeSort (fun a b ↦ SketchEntry.hash a ≤ SketchEntry.hash b)

/-- Returns the retained entries and theta as compact-sketch parts.  An empty table reports
the maximum theta rather than its own. -/
def toCompactParts (t : SketchHashTable E) (ordered : Bool) : Checked (CompactSketchParts E) := do
  let entries := t.iterEntries
  let empty := t.isEmpty
  let theta := if empty then maxTheta else t.theta
  let isSingle := entries.length = 1 ∧ theta = maxTheta
  let ordered := ordered || empty || isSingle
  let entries := if ordered && entries.length > 1 then sortByHash entries else entries
  return { entries := entries, theta := theta, seedHash := ← t.seedHash, ordered := ordered,
           empty := empty }

/-- Returns minimal `lgSize` where rebuild-capacity can hold `count`. -/
def lgSizeFromCountForRebuild (count : ℕ) (loadFactor : ℚ) : ℕ :=
  let log2N := if count = 0 then 0 else Nat.log2 count
  log2N + if count > ⌊((1 <<< (log2N + 1) : ℕ) : ℚ) * loadFactor⌋₊ then 2 else 1

end SketchHashTable

end DataSketches
