import DataSketches.Common.Arithmetic
import DataSketches.Lib.Runs
import DataSketches.Req.Compactor

/-!
# The REQ sketch

A sketch has one compactor for every level.  Items are appended to level 0; when
too many are retained, the full levels are compacted from the bottom up, each
into the next one.  The random coins of an operation are an argument, one for each
level, since an operation compacts a level at most once.
-/

namespace DataSketches

namespace Req

open Comparator Runs ReqValue

structure ReqSketch (T : Type) where
  k : ℕ
  rankAccuracy : RankAccuracy
  /-- The number of items observed, a `u64`. -/
  n : ℕ
  maxNomSize : ℕ
  numRetained : ℕ
  compactors : List (Compactor T)
  minItem : Option T
  maxItem : Option T

namespace ReqSketch

variable {T : Type}

def isEmpty (s : ReqSketch T) : Bool := s.n = 0

def isEstimationMode (s : ReqSketch T) : Bool := s.compactors.length > 1

def totalNominalCapacity (s : ReqSketch T) : ℕ :=
  (s.compactors.map Compactor.nominalCapacity).sum

def totalRetainedItems (s : ReqSketch T) : ℕ := (s.compactors.map Compactor.numItems).sum

def updateMaxNomSize (s : ReqSketch T) : ReqSketch T := { s with maxNomSize := s.totalNominalCapacity }

def updateNumRetained (s : ReqSketch T) : ReqSketch T := { s with numRetained := s.totalRetainedItems }

/-- Adds a compactor for the next level. -/
def grow (s : ReqSketch T) : ReqSketch T :=
  updateMaxNomSize { s with
    compactors := s.compactors ++ [.new s.compactors.length s.k s.rankAccuracy] }

/-- The part of `try_new` after its checks, and all of `new` for the default `k`. -/
def create (k : ℕ) (rankAccuracy : RankAccuracy) : ReqSketch T :=
  grow {
    k := k
    rankAccuracy := rankAccuracy
    n := 0
    maxNomSize := 0
    numRetained := 0
    compactors := []
    minItem := none
    maxItem := none }

def new : ReqSketch T := create defaultK .highRank

def tryNew (k : ℕ) (rankAccuracy : RankAccuracy) : Except Error (ReqSketch T) := do
  if ¬ (minK ≤ k ∧ k ≤ maxK) then
    throw (.invalidArgument s!"k must be in [{minK}, {maxK}], got {k}")
  if k % 2 ≠ 0 then
    throw (.invalidArgument s!"k must be even, got {k}")
  return create k rankAccuracy

def reset (s : ReqSketch T) : ReqSketch T :=
  grow { s with
    n := 0
    numRetained := 0
    maxNomSize := 0
    minItem := none
    maxItem := none
    compactors := [] }

/-- `compactors[i]` -/
def compactorAt (s : ReqSketch T) (i : ℕ) : Checked (Compactor T) :=
  match s.compactors[i]? with
  | none => throw .outOfBounds
  | some c => return c

def setCompactor (s : ReqSketch T) (i : ℕ) (c : Compactor T) : ReqSketch T :=
  { s with compactors := s.compactors.set i c }

variable [ReqValue T]

/-- The smaller of an extreme item and a new one, which replaces only a greater one. -/
def lesser (current : Option T) (item : T) : T :=
  match current with
  | none => item
  | some cur => if (totalCmp item cur).isLT then item else cur

/-- The greater of an extreme item and a new one, which replaces only a smaller one. -/
def greater (current : Option T) (item : T) : T :=
  match current with
  | none => item
  | some cur => if (totalCmp item cur).isGT then item else cur

variable (S : UnstableSort)

/-- Merges the promoted items into a level. -/
def promote (s : ReqSketch T) (level : ℕ) (promoted : List T) : Checked (ReqSketch T) := do
  if promoted.isEmpty then return s
  let c ← s.compactorAt level
  return s.setCompactor level ((c.sort S).mergeSorted promoted)

/-- The body of the loop of `compress`. -/
def compressLevel (coins : ℕ → Bool) (s : ReqSketch T) (h : ℕ) : Checked (ReqSketch T) := do
  let c ← s.compactorAt h
  if c.numItems ≥ c.nominalCapacity then
    let s := if h = 0 then s.setCompactor 0 (c.sort S) else s
    let s := if h + 1 ≥ s.compactors.length then s.grow else s
    let c ← s.compactorAt h
    let (c, promoted) := c.compactInto S (coins h)
    let s ← (s.setCompactor h c).promote S (h + 1) promoted
    return s.updateMaxNomSize.updateNumRetained
  else return s

/-- The levels are those at the beginning of the loop. -/
def compress (coins : ℕ → Bool) (s : ReqSketch T) : Checked (ReqSketch T) :=
  run (compressLevel S coins) s (List.range s.compactors.length)

def update (s : ReqSketch T) (coins : ℕ → Bool) (item : T) : Checked (ReqSketch T) := do
  if isNan item then return s
  let s := { s with
    minItem := some (lesser s.minItem item)
    maxItem := some (greater s.maxItem item) }
  let c ← s.compactorAt 0
  let s := s.setCompactor 0 (c.append item)
  let n ← checkedAdd 64 s.n 1
  let s := { s with n := n, numRetained := s.numRetained + 1 }
  if s.numRetained ≥ s.maxNomSize then s.compress S coins else return s

/-- The extreme item of a sketch and that of another one. -/
def mergeItem (choose : Option T → T → T) (current : Option T) : Option T → Option T
  | none => current
  | some m => some (choose current m)

/-- The loop of `merge` that adds levels. -/
def growTo (s : ReqSketch T) : ℕ → ReqSketch T
  | 0 => s
  | count + 1 => s.grow.growTo count

/-- The loop of `merge` over the compactors of the other sketch. -/
def mergeCompactors (s : ReqSketch T) : ℕ → List (Compactor T) → Checked (ReqSketch T)
  | _, [] => return s
  | i, other :: others => do
      let c ← s.compactorAt i
      let c ← c.merge S other
      mergeCompactors (s.setCompactor i c) (i + 1) others

/-- The errors are found before anything is changed. -/
def merge (s : ReqSketch T) (coins : ℕ → Bool) (other : ReqSketch T) :
    Except Fault (ReqSketch T) := do
  if s.rankAccuracy ≠ other.rankAccuracy then
    throw (.error (.invalidArgument "sketches must have the same rank_accuracy"))
  if other.isEmpty then return s
  let n ← (checkedAdd 64 s.n other.n).mapError .panic
  let s := { s with
    n := n
    minItem := mergeItem lesser s.minItem other.minItem
    maxItem := mergeItem greater s.maxItem other.maxItem }
  let s := s.growTo (other.compactors.length - s.compactors.length)
  let s ← (s.mergeCompactors S 0 other.compactors).mapError .panic
  let s := s.updateMaxNomSize.updateNumRetained
  if s.numRetained ≥ s.maxNomSize then (s.compress S coins).mapError .panic else return s

end ReqSketch

end Req

end DataSketches
