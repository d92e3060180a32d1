import DataSketches.Common.Float
import DataSketches.Lib.Runs

/-!
# Centroids and how they are merged

A centroid stands for `weight` values by their mean.  Merging goes through a list
of centroids once and adds each to the centroid before it, or starts a new one: the
scale function decides.  Weights and all that is computed from them alone are
exact, means are numbers of any floating-point format.
-/

namespace DataSketches

open Runs FloatFormat

/-- A mean and the number of values it stands for. -/
structure Centroid (M : Type) where
  mean : M
  weight : ℕ+
deriving DecidableEq

/-- The scale function of a t-digest. -/
structure ScaleFunction where
  max : ℚ → ℚ → ℚ
  normalizer : ℚ → ℚ → ℚ

namespace Centroid

variable {M : Type}

/-- A single value, with the default weight. -/
def ofValue (value : M) : Centroid M := ⟨value, 1⟩

variable [FloatFormat M]

/-- The mean of two centroids with weights in the given ratio. -/
def combinedMean (selfMean otherMean : M) (selfWeight otherWeight : ℚ) : F64 M :=
  let totalWeight := selfWeight + otherWeight
  let ratioOther := otherWeight / totalWeight
  match (round (val otherMean - val selfMean) : F64 M) with
  | .finite delta => round (val delta * ratioOther + val selfMean)
  | _ =>
      let ratioSelf := selfWeight / totalWeight
      match (round (val otherMean * ratioOther) : F64 M) with
      | .finite scaled => round (val selfMean * ratioSelf + val scaled)
      | other => other

def add (self other : Centroid M) : Checked (Centroid M) := do
  if (self.weight + other.weight : ℕ) ≥ 2 ^ 64 then
    throw (.expect "weight overflow")
  match combinedMean self.mean other.mean (self.weight : ℕ) (other.weight : ℕ) with
  | .finite mean => return ⟨mean, self.weight + other.weight⟩
  | _ => throw (.assertion "Centroid's mean must be finite")

end Centroid

/-! ## The merging loop -/

section Merging

variable {M : Type} [FloatFormat M]

/-- `centroids[i]` -/
def centroidAt (centroids : List (Centroid M)) (i : ℕ) : Checked (Centroid M) :=
  match centroids[i]? with
  | some c => .ok c
  | none => .error .outOfBounds

/-- Whether the scale function lets a centroid of the given weight end where this one ends. -/
def ScaleFunction.admits (scale : ScaleFunction) (normalizer compressedWeight weightSoFar
    proposedWeight : ℚ) : Bool :=
  let q0 := weightSoFar / compressedWeight
  let q2 := (weightSoFar + proposedWeight) / compressedWeight
  proposedWeight ≤ compressedWeight * min (scale.max q0 normalizer) (scale.max q2 normalizer)

/-- The merging loop with `n` centroids to go: those below `numCentroids` are done, those from
`current` on are not read yet. -/
def mergeLoop (scale : ScaleFunction) (normalizer compressedWeight : ℚ) :
    (n numCentroids current : ℕ) → (weightSoFar : ℚ) → List (Centroid M) →
      Checked (List (Centroid M))
  | 0, numCentroids, _, _, centroids => return centroids.take numCentroids
  | n + 1, numCentroids, current, weightSoFar, centroids => do
      let c ← centroidAt centroids current
      let last ← centroidAt centroids (numCentroids - 1)
      let proposedWeight : ℚ := (last.weight : ℕ) + (c.weight : ℕ)
      let addThis := current ≠ 1 ∧ n ≠ 0 ∧
        scale.admits normalizer compressedWeight weightSoFar proposedWeight
      if addThis then
        -- merge into existing centroid
        let merged ← last.add c
        mergeLoop scale normalizer compressedWeight n numCentroids (current + 1) weightSoFar
          (centroids.set (numCentroids - 1) merged)
      else
        -- copy to a new centroid
        mergeLoop scale normalizer compressedWeight n (numCentroids + 1) (current + 1)
          (weightSoFar + (last.weight : ℕ)) (centroids.set numCentroids c)

/-- The same loop without places: `last` is the centroid to merge into, and the rest is to be
read. -/
def mergeFrom (scale : ScaleFunction) (normalizer compressedWeight : ℚ) :
    (fresh : Bool) → (weightSoFar : ℚ) → (last : Centroid M) → (rest : List (Centroid M)) →
      Checked (List (Centroid M))
  | _, _, last, [] => return [last]
  | fresh, weightSoFar, last, c :: rest => do
      if fresh = false ∧ rest ≠ [] ∧
          scale.admits normalizer compressedWeight weightSoFar ((last.weight : ℕ) + (c.weight : ℕ))
      then
        mergeFrom scale normalizer compressedWeight false weightSoFar (← last.add c) rest
      else
        return last :: (← mergeFrom scale normalizer compressedWeight false
          (weightSoFar + (last.weight : ℕ)) c rest)

/-- In place, the write index never overtakes the read index, so nothing is overwritten before it
is read. -/
theorem mergeLoop_eq (scale : ScaleFunction) (normalizer compressedWeight : ℚ)
    {n numCentroids current : ℕ} (weightSoFar : ℚ) (centroids : List (Centroid M))
    (hpos : 1 ≤ numCentroids) (hle : numCentroids ≤ current)
    (hlen : centroids.length = current + n) :
    ∃ last, centroids[numCentroids - 1]? = some last ∧
      mergeLoop scale normalizer compressedWeight n numCentroids current weightSoFar centroids =
        (centroids.take (numCentroids - 1) ++ ·) <$> mergeFrom scale normalizer compressedWeight
          (decide (current = 1)) weightSoFar last (centroids.drop current) := by
  induction n generalizing numCentroids current weightSoFar centroids with
  | zero =>
      have hnum : numCentroids - 1 < centroids.length := by omega
      refine ⟨_, List.getElem?_eq_getElem hnum, ?_⟩
      rw [List.drop_eq_nil_of_le (show centroids.length ≤ current from hlen.le)]
      refine congrArg Except.ok ?_
      dsimp only
      rw [← List.take_succ_eq_append_getElem hnum, Nat.sub_add_cancel hpos]
  | succ n ih =>
      have hnum : numCentroids - 1 < centroids.length := by omega
      have hcur : current < centroids.length := by omega
      obtain ⟨last, hlast⟩ : ∃ last, centroids[numCentroids - 1] = last := ⟨_, rfl⟩
      obtain ⟨c, hc⟩ : ∃ c, centroids[current] = c := ⟨_, rfl⟩
      have hlast? : centroids[numCentroids - 1]? = some last := by
        rw [List.getElem?_eq_getElem hnum, hlast]
      have hc? : centroids[current]? = some c := by rw [List.getElem?_eq_getElem hcur, hc]
      have hrest : centroids.drop (current + 1) ≠ [] ↔ n ≠ 0 := by
        rw [ne_eq, List.drop_eq_nil_iff]
        omega
      have hnext : decide (current + 1 = 1) = false := decide_eq_false (by omega)
      refine ⟨last, hlast?, ?_⟩
      rw [List.drop_eq_getElem_cons hcur, hc]
      simp only [mergeLoop, mergeFrom, centroidAt, hc?, hlast?, ok_bind, hrest, ne_eq,
        decide_eq_false_iff_not]
      split_ifs with hadd
      · cases hsum : last.add c with
        | error e => rfl
        | ok merged =>
            obtain ⟨last', hget, heq⟩ := ih weightSoFar (centroids.set (numCentroids - 1) merged)
              hpos (hle.trans (Nat.le_succ current)) (by rw [List.length_set]; omega)
            rw [List.getElem?_set_self hnum] at hget
            cases hget
            rw [ok_bind, ok_bind, heq, hnext, List.take_set_of_le le_rfl,
              List.drop_set_of_lt (by omega)]
      · obtain ⟨last', hget, heq⟩ := ih (weightSoFar + (last.weight : ℕ))
          (centroids.set numCentroids c) (Nat.le_add_left 1 numCentroids)
          (Nat.succ_le_succ hle) (by rw [List.length_set]; omega)
        rw [Nat.add_sub_cancel, List.getElem?_set_self (by omega)] at hget
        cases hget
        have htake : centroids.take numCentroids = centroids.take (numCentroids - 1) ++ [last] := by
          rw [← hlast, ← List.take_succ_eq_append_getElem hnum, Nat.sub_add_cancel hpos]
        rw [heq, hnext, Nat.add_sub_cancel, List.take_set_of_le le_rfl,
          List.drop_set_of_lt (by omega), htake]
        cases mergeFrom scale normalizer compressedWeight false (weightSoFar + (last.weight : ℕ)) c
          (centroids.drop (current + 1)) with
        | error e => rfl
        | ok cs =>
            rw [ok_map, ok_bind, pure_eq_ok, ok_map, List.append_assoc, List.singleton_append]

end Merging

/-! ## What merging keeps -/

/-- Means of finite numbers are finite, as the merging of centroids relies on. -/
class LawfulFloat (M : Type) [FloatFormat M] : Prop where
  combinedMean_finite : ∀ (x y : M) (v w : ℕ+), ∃ m,
    Centroid.combinedMean x y (v : ℕ) (w : ℕ) = .finite m

namespace Centroid

/-- The exact mean. -/
theorem combinedMean_rat (x y v w : ℚ) :
    combinedMean x y v w = .finite ((y - x) * (w / (v + w)) + x) := rfl

instance : LawfulFloat ℚ := ⟨fun _ _ _ _ ↦ ⟨_, combinedMean_rat _ _ _ _⟩⟩

/-- The exact mean lies between the two means: on the far side of the first, -/
theorem le_combinedMean {x y v w : ℚ} (hv : 0 < v) (hw : 0 < w) (h : x ≤ y) :
    x ≤ (y - x) * (w / (v + w)) + x ∧ (y - x) * (w / (v + w)) + x ≤ y := by
  have hsum : 0 < v + w := add_pos hv hw
  have hratio : w / (v + w) ≤ 1 := (div_le_one hsum).mpr (le_add_of_nonneg_left hv.le)
  have hdelta : 0 ≤ y - x := sub_nonneg.mpr h
  constructor
  · have hpos : 0 ≤ (y - x) * (w / (v + w)) := mul_nonneg hdelta (div_pos hw hsum).le
    linarith
  · have hle := mul_le_mul_of_nonneg_left hratio hdelta
    linarith

/-- and on this side of the second, in either direction. -/
theorem combinedMean_le {x y v w : ℚ} (hv : 0 < v) (hw : 0 < w) (h : y ≤ x) :
    y ≤ (y - x) * (w / (v + w)) + x ∧ (y - x) * (w / (v + w)) + x ≤ x := by
  have hneg := le_combinedMean (x := -x) (y := -y) hv hw (neg_le_neg h)
  have hcongr : (-y - -x) * (w / (v + w)) + -x = -((y - x) * (w / (v + w)) + x) := by ring
  rw [hcongr] at hneg
  exact ⟨neg_le_neg_iff.mp hneg.2, neg_le_neg_iff.mp hneg.1⟩

variable {M : Type} [FloatFormat M]

/-- The number of values that centroids stand for. -/
def totalWeight (cs : List (Centroid M)) : ℕ := (cs.map fun c ↦ (c.weight : ℕ)).sum

@[simp] theorem totalWeight_nil : totalWeight ([] : List (Centroid M)) = 0 := rfl

@[simp] theorem totalWeight_cons (c : Centroid M) (cs : List (Centroid M)) :
    totalWeight (c :: cs) = c.weight + totalWeight cs := by
  rw [totalWeight, List.map_cons, List.sum_cons]
  rfl

@[simp] theorem totalWeight_append (cs ds : List (Centroid M)) :
    totalWeight (cs ++ ds) = totalWeight cs + totalWeight ds := by
  rw [totalWeight, List.map_append, List.sum_append]
  rfl

theorem totalWeight_perm {cs ds : List (Centroid M)} (h : cs.Perm ds) :
    totalWeight cs = totalWeight ds := (h.map _).sum_eq

/-- Each centroid stands for at least one value. -/
theorem length_le_totalWeight (cs : List (Centroid M)) : cs.length ≤ totalWeight cs := by
  induction cs with
  | nil => exact le_rfl
  | cons c cs ih =>
      have hpos := c.weight.pos
      rw [List.length_cons, totalWeight_cons]
      omega

theorem totalWeight_map_ofValue (vs : List M) : totalWeight (vs.map ofValue) = vs.length := by
  induction vs with
  | nil => rfl
  | cons v vs ih =>
      rw [List.map_cons, totalWeight_cons, ih, List.length_cons, Nat.add_comm]
      rfl

/-- Adding centroids adds their weights. -/
theorem add_spec [LawfulFloat M] {c d : Centroid M} (h : (c.weight + d.weight : ℕ) < 2 ^ 64) :
    ∃ m, combinedMean c.mean d.mean (c.weight : ℕ) (d.weight : ℕ) = .finite m ∧
      c.add d = .ok ⟨m, c.weight + d.weight⟩ := by
  obtain ⟨m, hm⟩ := LawfulFloat.combinedMean_finite c.mean d.mean c.weight d.weight
  refine ⟨m, hm, ?_⟩
  simp only [add, if_neg (not_le.mpr h), hm, pure_eq_ok, ok_bind]

/-- Exact addition gives the exact mean. -/
theorem mean_of_add {c d sum : Centroid ℚ} (h : c.add d = .ok sum) :
    sum.mean = (d.mean - c.mean) *
      ((d.weight : ℕ) / ((c.weight : ℕ) + (d.weight : ℕ))) + c.mean := by
  rw [add, combinedMean_rat] at h
  split_ifs at h
  · cases h
  · cases h
    rfl

end Centroid

section Kept

open Centroid

variable {M : Type} [FloatFormat M]

/-- Merging keeps the weight and the last centroid, and the first one too if it is left alone at
first. -/
theorem mergeFrom_spec [LawfulFloat M] (scale : ScaleFunction) (normalizer compressedWeight : ℚ)
    (fresh : Bool) (weightSoFar : ℚ) {last : Centroid M} {rest : List (Centroid M)} (h : totalWeight (last :: rest) < 2 ^ 64) :
    ∃ merged, mergeFrom scale normalizer compressedWeight fresh weightSoFar last rest =
        .ok merged ∧ totalWeight merged = totalWeight (last :: rest) ∧
      merged.getLast? = (last :: rest).getLast? ∧
      (fresh = true ∨ rest = [] → merged.head? = some last) ∧
      merged.length ≤ (last :: rest).length := by
  induction rest generalizing fresh weightSoFar last with
  | nil => exact ⟨[last], rfl, rfl, rfl, fun _ ↦ rfl, le_rfl⟩
  | cons c rest ih =>
      rw [totalWeight_cons, totalWeight_cons] at h
      rw [mergeFrom]
      split_ifs with hadd
      · -- The centroid is added, and is not the last one.
        obtain ⟨m, -, hsum⟩ := add_spec (c := last) (d := c) (by omega)
        obtain ⟨merged, hok, htotal, hlast, -, hlen⟩ :=
          @ih false weightSoFar ⟨m, last.weight + c.weight⟩ (by
            rw [totalWeight_cons, PNat.add_coe]
            omega)
        obtain ⟨d, ds, hds⟩ := List.exists_cons_of_ne_nil hadd.2.1
        refine ⟨merged, by rw [hsum, ok_bind, hok], ?_, ?_, ?_, ?_⟩
        · rw [htotal, totalWeight_cons, totalWeight_cons, totalWeight_cons, PNat.add_coe, add_assoc]
        · rw [hlast, hds, List.getLast?_cons_cons, List.getLast?_cons_cons, List.getLast?_cons_cons]
        · rintro (hfresh | hnil)
          · exact absurd (hfresh.symm.trans hadd.1) (by decide)
          · cases hnil
        · rw [List.length_cons] at hlen ⊢
          rw [List.length_cons]
          omega
      · obtain ⟨merged, hok, htotal, hlast, -, hlen⟩ :=
          @ih false (weightSoFar + (last.weight : ℕ)) c (by
            rw [totalWeight_cons]
            omega)
        have hne : merged ≠ [] := by
          rintro rfl
          rw [List.getLast?_eq_getLast_of_ne_nil (List.cons_ne_nil c rest)] at hlast
          cases hlast
        obtain ⟨d, ds, rfl⟩ := List.exists_cons_of_ne_nil hne
        refine ⟨last :: d :: ds, by rw [hok, ok_bind]; rfl, ?_, ?_, fun _ ↦ rfl, ?_⟩
        · rw [totalWeight_cons, htotal, totalWeight_cons last]
        · rw [List.getLast?_cons_cons, hlast, List.getLast?_cons_cons]
        · rw [List.length_cons, @List.length_cons _ last (c :: rest)]
          exact Nat.succ_le_succ hlen

/-- Merging centroids in the order of their means leaves them in that order, in either direction:
a mean of two lies between them. -/
theorem mergeFrom_pairwise {scale : ScaleFunction} {normalizer compressedWeight : ℚ}
    {r : ℚ → ℚ → Prop} [IsTrans ℚ r] [Std.Refl r]
    (hbetween : ∀ x y v w : ℚ, 0 < v → 0 < w → r x y →
      r x ((y - x) * (w / (v + w)) + x) ∧ r ((y - x) * (w / (v + w)) + x) y)
    {fresh : Bool} {weightSoFar : ℚ} {last : Centroid ℚ} {rest merged : List (Centroid ℚ)}
    (h : (last :: rest).Pairwise fun c d ↦ r c.mean d.mean)
    (hok : mergeFrom scale normalizer compressedWeight fresh weightSoFar last rest = .ok merged) :
    (merged.Pairwise fun c d ↦ r c.mean d.mean) ∧ ∀ c ∈ merged, r last.mean c.mean := by
  induction rest generalizing fresh weightSoFar last merged with
  | nil =>
      cases hok
      exact ⟨List.pairwise_singleton _ _, fun c hc ↦ by
        rw [List.mem_singleton.mp hc]
        exact Std.Refl.refl _⟩
  | cons c rest ih =>
      obtain ⟨hlast, hrest⟩ := List.pairwise_cons.mp h
      have hlc := hlast c List.mem_cons_self
      rw [mergeFrom] at hok
      split_ifs at hok
      · obtain ⟨sum, hsum, hok⟩ := bind_eq_ok.mp hok
        have hmean : sum.mean = (c.mean - last.mean) *
            ((c.weight : ℕ) / ((last.weight : ℕ) + (c.weight : ℕ))) + last.mean := mean_of_add hsum
        have hin := hbetween last.mean c.mean (last.weight : ℕ) (c.weight : ℕ)
          (by exact_mod_cast last.weight.pos) (by exact_mod_cast c.weight.pos) hlc
        rw [← hmean] at hin
        obtain ⟨hpair, hall⟩ := ih (List.pairwise_cons.mpr ⟨fun d hd ↦
          IsTrans.trans _ _ _ hin.2 ((List.pairwise_cons.mp hrest).1 d hd),
          (List.pairwise_cons.mp hrest).2⟩) hok
        exact ⟨hpair, fun d hd ↦ IsTrans.trans _ _ _ hin.1 (hall d hd)⟩
      · obtain ⟨merged', hok', hok⟩ := bind_eq_ok.mp hok
        cases hok
        obtain ⟨hpair, hall⟩ := ih hrest hok'
        have hfst : ∀ d ∈ merged', r last.mean d.mean := fun d hd ↦
          IsTrans.trans _ _ _ hlc (hall d hd)
        exact ⟨List.pairwise_cons.mpr ⟨hfst, hpair⟩,
          List.forall_mem_cons.mpr ⟨Std.Refl.refl _, hfst⟩⟩

end Kept

end DataSketches
