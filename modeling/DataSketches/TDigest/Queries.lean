import DataSketches.TDigest.Compression

/-!
# Queries

Ranks and quantiles are interpolated in exact arithmetic.  A query of a mutable
digest compresses it first, unless it is answered at once.
-/

namespace DataSketches

open Runs FloatFormat

namespace F64

variable {M : Type} [FloatFormat M]

/-- The exact value of a number that is known to be finite. -/
def toRat : F64 M → ℚ
  | finite x => val x
  | _ => 0

end F64

/-! ## The arguments of queries -/

/-- They must be unique, monotonically increasing and not NaN. -/
def checkSplitPoints {M : Type} [FloatFormat M] (splitPoints : List (F64 M)) : Checked Unit := do
  if splitPoints.length = 1 ∧ splitPoints.any F64.isNan then
    throw (.unreachable "split_points must not contain NaN values")
  let _ ← checkedSub splitPoints.length 1
  if splitPoints.IsChain fun p q ↦ p.lt q = true then return ()
  else throw (.unreachable "split_points must be unique and monotonically increasing")

/-! ## Searching -/

/-- The loop of `binary_search_by`, which halves the range of `size` elements from `base`. -/
def halveRange (isGreater : ℕ → Bool) : (fuel size base : ℕ) → ℕ
  | 0, _, base => base
  | fuel + 1, size, base =>
      if size > 1 then
        let half := size / 2
        let mid := base + half
        halveRange isGreater fuel (size - half) (if isGreater mid then base else mid)
      else base

/-- `centroids.binary_search_by(cmp).unwrap_or_else(identity)` -/
def searchBy {M : Type} (cs : List (Centroid M)) (cmp : Centroid M → Ordering) : ℕ :=
  let base := halveRange (fun i ↦ cs[i]?.map cmp = some .gt) cs.length cs.length 0
  match cs[base]?.map cmp with
  | some .lt => base + 1
  | _ => base

section View

variable {M : Type} [FloatFormat M]

def centroidLowerBound (value : ℚ) (c : Centroid M) : Ordering :=
  if val c.mean < value then .lt else .gt

def centroidUpperBound (value : ℚ) (c : Centroid M) : Ordering :=
  if val c.mean > value then .gt else .lt

def weightedAverage (x1 w1 x2 w2 : ℚ) : ℚ :=
  let totalWeight := w1 + w2
  let ratio := w2 / totalWeight
  if decide (0 ≤ x1) ≠ decide (0 ≤ x2) then x1 * (1 - ratio) + x2 * ratio
  else (x2 - x1) * ratio + x1

namespace TDigestView

/-- The part of `rank` for a value between the means of the first and the last centroid. -/
def rankBetween (v : TDigestView M) (value : ℚ) : Checked (Option ℚ) := do
  let numCentroids := v.centroids.length
  let centroidsWeight : ℚ := v.centroidsWeight
  let lower := searchBy v.centroids (centroidLowerBound value)
  assert (lower ≠ numCentroids) "get_rank: lower == end"
  let upper := searchBy v.centroids (centroidUpperBound value)
  assert (upper ≠ 0) "get_rank: upper == begin"
  let lower ← if value < val (← centroidAt v.centroids lower).mean then checkedSub lower 1
    else pure lower
  let upper ← if upper = numCentroids then checkedSub upper 1
    else if val (← centroidAt v.centroids (upper - 1)).mean ≥ value then checkedSub upper 1
    else pure upper
  let lowerCentroid ← centroidAt v.centroids lower
  let upperCentroid ← centroidAt v.centroids upper
  let weightBelow : ℚ := Centroid.totalWeight (v.centroids.take lower) +
    (lowerCentroid.weight : ℕ) / 2
  let weightDelta : ℚ := Centroid.totalWeight ((v.centroids.take upper).drop lower) -
    (lowerCentroid.weight : ℕ) / 2 + (upperCentroid.weight : ℕ) / 2
  let width := val upperCentroid.mean - val lowerCentroid.mean
  return some <|
    if width > 0 then
      (weightBelow + weightDelta * (value - val lowerCentroid.mean) / width) / centroidsWeight
    else (weightBelow + weightDelta / 2) / centroidsWeight

def rank (v : TDigestView M) (value : F64 M) : Checked (Option ℚ) := do
  assert (!value.isNan) "value must not be NaN"
  if v.centroids.isEmpty then
    return none
  if value.lt v.min then
    return some 0
  if v.max.lt value then
    return some 1
  -- one centroid and value == min == max
  if v.centroids.length = 1 then
    return some (1 / 2)
  let centroidsWeight : ℚ := v.centroidsWeight
  let x := value.toRat
  let first ← centroidAt v.centroids 0
  let last ← centroidAt v.centroids (v.centroids.length - 1)
  -- left tail
  if x < val first.mean then
    let width := val first.mean - v.min.toRat
    if width > 0 then
      return some <| if x = v.min.toRat then 1 / 2 / centroidsWeight
        else 1 + (x - v.min.toRat) / width * ((first.weight : ℕ) / 2 - 1)
    return some 0
  -- right tail
  if x > val last.mean then
    let width := v.max.toRat - val last.mean
    if width > 0 then
      return some <| if x = v.max.toRat then 1 - 1 / 2 / centroidsWeight
        else 1 - (1 + (v.max.toRat - x) / width * ((last.weight : ℕ) / 2 - 1)) / centroidsWeight
    return some 1
  v.rankBetween x

def cdf (v : TDigestView M) (splitPoints : List (F64 M)) : Checked (Option (List ℚ)) := do
  checkSplitPoints splitPoints
  if v.centroids.isEmpty then
    return none
  let ranks ← splitPoints.mapM fun p ↦ do
    match ← v.rank p with
    | some rank => return rank
    | none => throw (.unreachable "checked non-empty above")
  return some (ranks ++ [1])

def pmf (v : TDigestView M) (splitPoints : List (F64 M)) : Checked (Option (List ℚ)) := do
  match ← v.cdf splitPoints with
  | none => return none
  | some buckets => return some (buckets.take 1 ++ List.zipWith (· - ·) (buckets.drop 1) buckets)

/-- The loop that interpolates between the centroids, the first of which is `a`. -/
def quantileBetween (weight : ℚ) : (weightSoFar : ℚ) → (a : Centroid M) → List (Centroid M) →
    Option ℚ
  | _, _, [] => none
  | weightSoFar, a, b :: rest =>
      let dw : ℚ := ((a.weight : ℕ) + (b.weight : ℕ)) / 2
      if weightSoFar + dw > weight then
        -- the target weight is between these two centroids
        if (a.weight : ℕ) = 1 ∧ weight - weightSoFar < 1 / 2 then some (val a.mean)
        else if (b.weight : ℕ) = 1 ∧ weightSoFar + dw - weight ≤ 1 / 2 then some (val b.mean)
        else
          let leftWeight : ℚ := if (a.weight : ℕ) = 1 then 1 / 2 else 0
          let rightWeight : ℚ := if (b.weight : ℕ) = 1 then 1 / 2 else 0
          some (weightedAverage (val a.mean) (weight - weightSoFar - leftWeight) (val b.mean)
            (weightSoFar + dw - weight - rightWeight))
      else quantileBetween weight (weightSoFar + dw) b rest

def quantile (v : TDigestView M) (rank : ℚ) : Checked (Option ℚ) := do
  assert (0 ≤ rank ∧ rank ≤ 1) "rank must be in [0.0, 1.0]"
  if v.centroids.isEmpty then
    return none
  let first ← centroidAt v.centroids 0
  if v.centroids.length = 1 then
    return some (val first.mean)
  -- at least 2 centroids
  let centroidsWeight : ℚ := v.centroidsWeight
  let weight := rank * centroidsWeight
  if weight < 1 then
    return some v.min.toRat
  if weight > centroidsWeight - 1 then
    return some v.max.toRat
  let firstWeight : ℚ := (first.weight : ℕ)
  if firstWeight > 1 ∧ weight < firstWeight / 2 then
    return some (v.min.toRat +
      (weight - 1) / (firstWeight / 2 - 1) * (val first.mean - v.min.toRat))
  let last ← centroidAt v.centroids (v.centroids.length - 1)
  let lastWeight : ℚ := (last.weight : ℕ)
  if lastWeight > 1 ∧ centroidsWeight - weight ≤ lastWeight / 2 then
    return some (v.max.toRat +
      (centroidsWeight - weight - 1) / (lastWeight / 2 - 1) * (v.max.toRat - val last.mean))
  -- interpolate between extremes
  match quantileBetween weight (firstWeight / 2) first (v.centroids.drop 1) with
  | some q => return some q
  | none =>
      let w1 := weight - centroidsWeight - lastWeight / 2
      let w2 := lastWeight / 2 - w1
      return some (weightedAverage (val last.mean) w1 v.max.toRat w2)

end TDigestView

end View

namespace TDigestView

/-! ## Between two centroids of exact means -/

/-- The weight of half a single value. -/
def unitHalf (c : Centroid ℚ) : ℚ := if (c.weight : ℕ) = 1 then 1 / 2 else 0

/-- The weight from the middle of a centroid to the middle of the next one. -/
def step (a b : Centroid ℚ) : ℚ := ((a.weight : ℕ) + (b.weight : ℕ)) / 2

/-- The quantile of a weight between the middles of two centroids. -/
def between (weight weightSoFar : ℚ) (a b : Centroid ℚ) : ℚ :=
  if (a.weight : ℕ) = 1 ∧ weight - weightSoFar < 1 / 2 then a.mean
  else if (b.weight : ℕ) = 1 ∧ weightSoFar + step a b - weight ≤ 1 / 2 then b.mean
  else weightedAverage a.mean (weight - weightSoFar - unitHalf a) b.mean
    (weightSoFar + step a b - weight - unitHalf b)

/-- Nothing is interpolated between two single values, or two equal means. -/
def Level (a b : Centroid ℚ) : Prop := (a.weight : ℕ) = 1 ∧ (b.weight : ℕ) = 1 ∨ a.mean = b.mean

theorem quantileBetween_cons (w s : ℚ) (a b : Centroid ℚ) (rest : List (Centroid ℚ)) :
    quantileBetween w s a (b :: rest) = if w < s + step a b then some (between w s a b)
      else quantileBetween w (s + step a b) b rest := by
  rw [quantileBetween, between, step]
  dsimp only [unitHalf, val_rat]
  split_ifs <;> rfl

end TDigestView

/-! ## Queries of a mutable digest -/

/-- A query. -/
inductive TDigestQuery (M : Type) where
  | rank (value : F64 M)
  | quantile (rank : ℚ)
  | cdf (splitPoints : List (F64 M))
  | pmf (splitPoints : List (F64 M))

namespace TDigestMut

variable {M : Type} [FloatFormat M] (scale : ScaleFunction)

def rank (d : TDigestMut M) (value : F64 M) : Checked (TDigestMut M × Option ℚ) := do
  assert (!value.isNan) "value must not be NaN"
  if d.isEmpty then
    return (d, none)
  if value.lt d.min then
    return (d, some 0)
  if d.max.lt value then
    return (d, some 1)
  -- one centroid and value == min == max
  if d.buffer.len = 1 then
    return (d, some (1 / 2))
  let (d, v) ← d.view scale
  return (d, ← v.rank value)

def quantile (d : TDigestMut M) (rank : ℚ) : Checked (TDigestMut M × Option ℚ) := do
  assert (0 ≤ rank ∧ rank ≤ 1) "rank must be in [0.0, 1.0]"
  if d.isEmpty then
    return (d, none)
  let (d, v) ← d.view scale
  return (d, ← v.quantile rank)

def cdf (d : TDigestMut M) (splitPoints : List (F64 M)) :
    Checked (TDigestMut M × Option (List ℚ)) := do
  checkSplitPoints splitPoints
  if d.isEmpty then
    return (d, none)
  let (d, v) ← d.view scale
  return (d, ← v.cdf splitPoints)

def pmf (d : TDigestMut M) (splitPoints : List (F64 M)) :
    Checked (TDigestMut M × Option (List ℚ)) := do
  checkSplitPoints splitPoints
  if d.isEmpty then
    return (d, none)
  let (d, v) ← d.view scale
  return (d, ← v.pmf splitPoints)

/-- The digest after a query. -/
def ask (d : TDigestMut M) : TDigestQuery M → Checked (TDigestMut M)
  | .rank value => Prod.fst <$> d.rank scale value
  | .quantile rank => Prod.fst <$> d.quantile scale rank
  | .cdf splitPoints => Prod.fst <$> d.cdf scale splitPoints
  | .pmf splitPoints => Prod.fst <$> d.pmf scale splitPoints

end TDigestMut

/-! ## Queries of a frozen digest -/

namespace TDigest

variable {M : Type} [FloatFormat M]

def view (d : TDigest M) : TDigestView M := ⟨d.min, d.max, d.centroids, d.centroidsWeight⟩

/-- Computes the approximate normalized rank of the given value. -/
def rank (d : TDigest M) (value : F64 M) : Checked (Option ℚ) := do
  assert (!value.isNan) "value must not be NaN"
  d.view.rank value

/-- Computes the approximate quantile for the given normalized rank. -/
def quantile (d : TDigest M) (rank : ℚ) : Checked (Option ℚ) := do
  assert (0 ≤ rank ∧ rank ≤ 1) "rank must be in [0.0, 1.0]"
  d.view.quantile rank

/-- Returns an approximation to the cumulative distribution function. -/
def cdf (d : TDigest M) (splitPoints : List (F64 M)) : Checked (Option (List ℚ)) :=
  d.view.cdf splitPoints

/-- Returns an approximation to the probability mass function. -/
def pmf (d : TDigest M) (splitPoints : List (F64 M)) : Checked (Option (List ℚ)) :=
  d.view.pmf splitPoints

end TDigest

end DataSketches
