import DataSketches.Lib.Differences
import DataSketches.Lib.Weights
import DataSketches.Req.Sketch

/-!
# Queries of REQ sketches

A sorted view collapses the weighted items of a sketch to its distinct items with
cumulative weights and answers queries about ranks and quantiles.  The rank of an
item is also computed from the compactors, without a view.  Normalized ranks are
rational numbers here, where the source rounds them to `f64`.
-/

namespace DataSketches

namespace Req

open Comparator Differences Runs ReqValue

/-- An owned, sorted snapshot of the items with their cumulative weights. -/
structure SortedView (T : Type) where
  /-- Items in sorted order. -/
  items : List T
  /-- Cumulative weights for each item, `u64` numbers. -/
  cumulativeWeights : List ℕ
  totalWeight : ℕ
deriving Repr

/-- The predicate of a search: at or below the item, or strictly below it. -/
def below {T : Type} [ReqValue T] (item : T) : SearchCriteria → T → Bool
  | .inclusive => fun x ↦ (totalCmp x item).isLE
  | .exclusive => fun x ↦ (totalCmp x item).isLT

/-- `v[i]` -/
def getOrPanic {α : Type} (xs : List α) (i : ℕ) : Except Fault α :=
  match xs[i]? with
  | none => throw (.panic .outOfBounds)
  | some x => return x

def emptySketch : Fault := .error (.invalidArgument "sketch is empty")

def nanQuery : Fault := .error (.invalidArgument "query item is NaN")

def invalidRank (rank : ℚ) : Fault := .error (.invalidArgument s!"rank {rank} must be in [0, 1]")

namespace SortedView

variable {T : Type} [ReqValue T]

/-- The body of the loop of `new`. -/
def push (view : SortedView T) (item : T) (weight : ℕ) : Checked (SortedView T) := do
  let cumulativeWeight ← checkedAdd 64 view.totalWeight weight
  let fresh : SortedView T := {
    items := view.items ++ [item]
    cumulativeWeights := view.cumulativeWeights ++ [cumulativeWeight]
    totalWeight := cumulativeWeight }
  match view.items.getLast? with
  | none => return fresh
  | some last =>
      if totalCmp last item = .eq then
        return { view with
          cumulativeWeights :=
            view.cumulativeWeights.set (view.cumulativeWeights.length - 1) cumulativeWeight
          totalWeight := cumulativeWeight }
      else return fresh

def new (S : UnstableSort) (weightedItems : List (T × ℕ)) : Checked (SortedView T) :=
  if weightedItems.isEmpty then return ⟨[], [], 0⟩
  else run (fun view q ↦ view.push q.1 q.2) ⟨[], [], 0⟩
    (S.sortBy (fun a b ↦ totalCmp a.1 b.1) weightedItems)

def isEmpty (view : SortedView T) : Bool := view.items.isEmpty

def rank (view : SortedView T) (item : T) (criteria : SearchCriteria) : Except Fault ℚ := do
  if view.isEmpty then throw emptySketch
  if isNan item then throw nanQuery
  let pos := partitionPoint (below item criteria) view.items
  if pos = 0 then return 0
  else
    let weight ← getOrPanic view.cumulativeWeights (pos - 1)
    return weight / view.totalWeight

/-- The index of the first cumulative weight that reaches the target weight, or exceeds it. -/
def targetIndex (view : SortedView T) (rank : ℚ) : SearchCriteria → ℕ
  | .inclusive => partitionPoint (· < ⌈rank * view.totalWeight⌉.toNat) view.cumulativeWeights
  | .exclusive => partitionPoint (· ≤ ⌊rank * view.totalWeight⌋.toNat) view.cumulativeWeights

def quantile (view : SortedView T) (rank : ℚ) (criteria : SearchCriteria) : Except Fault T := do
  if view.isEmpty then throw emptySketch
  if ¬ (0 ≤ rank ∧ rank ≤ 1) then throw (invalidRank rank)
  if rank = 0 then getOrPanic view.items 0
  else if rank = 1 then getOrPanic view.items (view.items.length - 1)
  else
    let index := view.targetIndex rank criteria
    if index ≥ view.items.length then getOrPanic view.items (view.items.length - 1)
    else getOrPanic view.items index

def validateSplitPoints : List T → Except Fault Unit
  | x :: y :: splitPoints =>
      if (totalCmp x y).isGE then
        throw (.error (.invalidArgument "Split points must be unique and monotonically increasing"))
      else validateSplitPoints (y :: splitPoints)
  | _ => return ()

/-- The loop of `pmf` and the final interval. -/
def masses (view : SortedView T) (criteria : SearchCriteria) (prevRank : ℚ) :
    List T → Except Fault (List ℚ)
  | [] => return [1 - prevRank]
  | splitPoint :: splitPoints => do
      let rank ← view.rank splitPoint criteria
      let rest ← masses view criteria rank splitPoints
      return (rank - prevRank) :: rest

def pmf (view : SortedView T) (splitPoints : List T) (criteria : SearchCriteria) :
    Except Fault (List ℚ) := do
  if view.isEmpty then throw emptySketch
  validateSplitPoints splitPoints
  view.masses criteria 0 splitPoints

def cdf (view : SortedView T) (splitPoints : List T) (criteria : SearchCriteria) :
    Except Fault (List ℚ) := do
  if view.isEmpty then throw emptySketch
  validateSplitPoints splitPoints
  let pmf ← view.pmf splitPoints criteria
  return partialSums 0 pmf

end SortedView

namespace ReqSketch

variable {T : Type}

/-- The pairs of an item and its weight that `sorted_view` collects. -/
def weightedItems : List (Compactor T) → Checked (List (T × ℕ))
  | [] => return []
  | c :: cs => do
      let weight ← c.weight
      let rest ← weightedItems cs
      return c.items.map (·, weight) ++ rest

variable [ReqValue T]

/-- The weight of the items of a level below an item. -/
def levelWeight (item : T) (criteria : SearchCriteria) (c : Compactor T) : Checked ℕ := do
  let weight ← c.weight
  checkedMul 64 (c.countBelow item (criteria == .inclusive)) weight

/-- The weight that `rank` divides by the number of items. -/
def weightBelow (s : ReqSketch T) (item : T) (criteria : SearchCriteria) : Checked ℕ := do
  let weights ← s.compactors.mapM (levelWeight item criteria)
  checkedSum 64 weights

def rank (s : ReqSketch T) (item : T) (criteria : SearchCriteria) : Except Fault ℚ := do
  if s.isEmpty then throw emptySketch
  if isNan item then throw nanQuery
  let weight ← (s.weightBelow item criteria).mapError .panic
  return weight / s.n

variable (S : UnstableSort)

def sortedView (s : ReqSketch T) : Checked (SortedView T) := do
  let weightedItems ← weightedItems s.compactors
  SortedView.new S weightedItems

def quantile (s : ReqSketch T) (rank : ℚ) (criteria : SearchCriteria) : Except Fault T := do
  if s.isEmpty then throw emptySketch
  if ¬ (0 ≤ rank ∧ rank ≤ 1) then throw (invalidRank rank)
  let view ← (s.sortedView S).mapError .panic
  view.quantile rank criteria

def quantiles (s : ReqSketch T) (ranks : List ℚ) (criteria : SearchCriteria) :
    Except Fault (List T) := do
  if s.isEmpty then throw emptySketch
  match ranks.find? fun r ↦ ¬ (0 ≤ r ∧ r ≤ 1) with
  | some r => throw (invalidRank r)
  | none =>
      let view ← (s.sortedView S).mapError .panic
      ranks.mapM (view.quantile · criteria)

def pmf (s : ReqSketch T) (splitPoints : List T) (criteria : SearchCriteria) :
    Except Fault (List ℚ) := do
  if s.isEmpty then throw emptySketch
  let view ← (s.sortedView S).mapError .panic
  view.pmf splitPoints criteria

def cdf (s : ReqSketch T) (splitPoints : List T) (criteria : SearchCriteria) :
    Except Fault (List ℚ) := do
  if s.isEmpty then throw emptySketch
  let view ← (s.sortedView S).mapError .panic
  view.cdf splitPoints criteria

end ReqSketch

end Req

end DataSketches
