import DataSketches.CountMin.Run

/-!
# The bounds that a CountMin sketch reports

No counter of an item is less than the weight of the item.  The estimate is the
least of them, and the lower bound is the estimate: it bounds the weight from below
only where no other item shares the bucket, in one row at least.
-/

namespace DataSketches

namespace CountMinSketch

open Runs

variable {T : Type} [Hash T] {t : CountMinType}

/-- Returns the lower bound on the true frequency of the given item. -/
def lowerBound (f : CountMinSketch t) (item : T) : Checked (CountMinValue t) := f.estimate item

/-- Returns the upper bound on the true frequency of the given item.  `scale` multiplies a value by
the relative error of a number of buckets, and truncates. -/
def upperBound (scale : UInt32 → CountMinValue t → CountMinValue t) (f : CountMinSketch t)
    (item : T) : Checked (CountMinValue t) := do
  let estimate ← f.estimate item
  let error := scale f.numBuckets f.totalWeight
  estimate.add error

/-! ## The weight of an item -/

variable [DecidableEq T] {sc : Scaling t} {s : Script T sc} {f : CountMinSketch t} {x : T} {i : ℕ}
  {stream : List (T × CountMinValue t)}

/-- The true weight of an item. -/
def trueWeight (stream : List (T × CountMinValue t)) (x : T) : ℤ :=
  (stream.map fun p ↦ if p.1 = x then p.2.val else 0).sum

/-- The weight of the other items that an index counts. -/
def otherWeight (f : CountMinSketch t) (stream : List (T × CountMinValue t)) (x : T) (i : ℕ) : ℤ :=
  (stream.map fun p ↦ if p.1 ≠ x ∧ f.hits p.1 i = true then p.2.val else 0).sum

/-- A counter of an item holds the weight of the item and those of the others. -/
theorem weightAt_eq_add (hit : f.hits x i = true) :
    f.weightAt stream i = trueWeight stream x + f.otherWeight stream x i := by
  induction stream with
  | nil => rfl
  | cons p stream ih =>
      have hhead : (if f.hits p.1 i = true then p.2.val else 0) =
          (if p.1 = x then p.2.val else 0) +
            if p.1 ≠ x ∧ f.hits p.1 i = true then p.2.val else 0 := by
        by_cases hx : p.1 = x
        · have hpit : f.hits p.1 i = true := by rw [hx]; exact hit
          rw [if_pos hpit, if_pos hx, if_neg fun h ↦ h.1 hx, add_zero]
        · rw [if_neg hx, zero_add]
          exact if_congr (and_iff_right hx).symm rfl rfl
      rw [weightAt, trueWeight, otherWeight, List.map_cons, List.map_cons, List.map_cons,
        List.sum_cons, List.sum_cons, List.sum_cons, hhead]
      rw [weightAt, trueWeight, otherWeight] at ih
      rw [ih]
      ring

/-- Weights that are not negative add up to zero only if all of them are zero. -/
theorem otherWeight_eq_zero_iff (hnn : ∀ p ∈ stream, 0 ≤ p.2.val) :
    0 ≤ f.otherWeight stream x i ∧ (f.otherWeight stream x i = 0 ↔
      ∀ p ∈ stream, p.1 ≠ x → p.2 ≠ .zero → f.hits p.1 i = false) := by
  induction stream with
  | nil => exact ⟨le_rfl, iff_of_true rfl fun p hp ↦ absurd hp List.not_mem_nil⟩
  | cons p stream ih =>
      obtain ⟨hrest, hiff⟩ := ih fun q hq ↦ hnn q (List.mem_cons_of_mem _ hq)
      have hcons : f.otherWeight (p :: stream) x i =
          (if p.1 ≠ x ∧ f.hits p.1 i = true then p.2.val else 0) + f.otherWeight stream x i := rfl
      have hp := hnn p List.mem_cons_self
      have hhead : 0 ≤ if p.1 ≠ x ∧ f.hits p.1 i = true then p.2.val else 0 := by
        split_ifs
        · exact hp
        · exact le_rfl
      have hzero : (if p.1 ≠ x ∧ f.hits p.1 i = true then p.2.val else 0) = 0 ↔
          (p.1 ≠ x → p.2 ≠ .zero → f.hits p.1 i = false) := by
        rw [ite_eq_right_iff, ne_eq p.2, CountMinValue.ext_iff, CountMinValue.val_zero,
          Bool.eq_false_iff]
        exact ⟨fun h hne hval hhit ↦ hval (h ⟨hne, hhit⟩),
          fun h hand ↦ by_contra fun hval ↦ h hand.1 hval hand.2⟩
      rw [hcons, add_eq_zero_iff_of_nonneg hhead hrest, hzero, hiff, List.forall_mem_cons]
      exact ⟨add_nonneg hhead hrest, Iff.rfl⟩

/-! ## The rows of an item -/

/-- The rows in which no other item of the stream is counted with the item. -/
def Uncollided (f : CountMinSketch t) (stream : List (T × CountMinValue t)) (x : T)
    (seed : UInt64) : Prop :=
  ∀ p ∈ stream, p.1 ≠ x → p.2 ≠ .zero →
    bucketIndex f.numBuckets p.1 seed ≠ bucketIndex f.numBuckets x seed

omit [DecidableEq T] in
/-- An index that counts an item counts those of the same bucket of the row. -/
theorem hits_iff_of_hits (hit : f.hits x i = true) :
    ∃ seed ∈ f.hashSeeds, ∀ y : T,
      f.hits y i = true ↔ bucketIndex f.numBuckets y seed = bucketIndex f.numBuckets x seed := by
  rw [hits, CountMinSketch.hit, Option.any_eq_true] at hit
  obtain ⟨seed, hseed, hx⟩ := hit
  refine ⟨seed, List.mem_of_getElem? hseed, fun y ↦ ?_⟩
  rw [hits, CountMinSketch.hit, hseed, Option.any_some, decide_eq_true_eq, of_decide_eq_true hx]

omit [DecidableEq T] in
/-- Every row has such an index. -/
theorem Shaped.exists_hits_of_mem (hf : f.Shaped) (x : T) {seed : UInt64}
    (hseed : seed ∈ f.hashSeeds) : ∃ i, f.hits x i = true ∧ ∀ y : T,
      f.hits y i = true ↔ bucketIndex f.numBuckets y seed = bucketIndex f.numBuckets x seed := by
  obtain ⟨row, hrow, hget⟩ := List.mem_iff_getElem.mp hseed
  obtain ⟨b, hb, hlt⟩ := bucketIndex_total f.numBuckets hf.numBuckets_pos x seed
  obtain ⟨hdiv, hmod⟩ := index_div_mod row hlt
  have hiff : ∀ y : T, f.hits y (row * f.numBuckets.toNat + b) = true ↔
      bucketIndex f.numBuckets y seed = bucketIndex f.numBuckets x seed := by
    intro y
    rw [hits, hit, hdiv, hmod, List.getElem?_eq_getElem hrow, hget, Option.any_some,
      decide_eq_true_eq, hb]
  exact ⟨_, (hiff x).mpr rfl, hiff⟩

/-! ## Bounds -/

/-- What the bounds of an item are to be. -/
def Brackets (scale : UInt32 → CountMinValue t → CountMinValue t) (f : CountMinSketch t) (x : T)
    (weight : ℤ) : Prop :=
  ∃ lower estimate upper, f.lowerBound x = .ok lower ∧ f.estimate x = .ok estimate ∧
    f.upperBound scale x = .ok upper ∧ lower.val ≤ weight ∧ weight ≤ estimate.val ∧
    estimate.val ≤ upper.val

/-- The estimate is not above the weight exactly if there is a row without collisions. -/
theorem Made.estimate_le_iff (hf : Made s f) (hlin : s.Linear) (hnn : ∀ p ∈ s.stream, 0 ≤ p.2.val)
    {e : CountMinValue t} (he : f.estimate x = .ok e) :
    trueWeight s.stream x ≤ e.val ∧ (e.val ≤ trueWeight s.stream x ↔
      ∃ seed ∈ f.hashSeeds, f.Uncollided s.stream x seed) := by
  obtain ⟨e', he', hspec⟩ := estimate_spec hf.shaped x
  cases he.symm.trans he'
  have hcount : ∀ i, f.hits x i = true →
      countAt f.counts i = trueWeight s.stream x + f.otherWeight s.stream x i := fun i hi ↦
    (hf.countAt_eq hlin i (hf.shaped.hits_lt hi)).trans (weightAt_eq_add hi)
  have hothers : ∀ i, 0 ≤ f.otherWeight s.stream x i := fun i ↦
    (otherWeight_eq_zero_iff hnn).1
  have hmax : trueWeight s.stream x ≤ t.max := by
    obtain ⟨i, hi⟩ := hf.shaped.exists_hits x
    have hrange : countAt f.counts i ≤ t.max := (f.counts.getD i .zero).range.2
    have hle := hothers i
    rw [hcount i hi] at hrange
    linarith
  refine ⟨(hspec _).mpr ⟨hmax, fun i hi ↦ by rw [hcount i hi]; linarith [hothers i]⟩, ?_⟩
  constructor
  · intro hle
    by_contra hnone
    obtain ⟨i₀, hi₀⟩ := hf.shaped.exists_hits x
    -- With a collision in every row, every counter is above the weight.
    have hpos : ∀ i, f.hits x i = true → trueWeight s.stream x + 1 ≤ countAt f.counts i := by
      intro i hi
      rw [hcount i hi, Int.add_le_add_iff_left]
      refine lt_of_le_of_ne (hothers i) fun hzero ↦ hnone ?_
      obtain ⟨seed, hseed, hiff⟩ := hits_iff_of_hits hi
      refine ⟨seed, hseed, fun p hp hne hval hsame ↦ ?_⟩
      have hmiss := (otherWeight_eq_zero_iff hnn).2.mp hzero.symm p hp hne hval
      exact absurd ((hiff p.1).mpr hsame) (Bool.eq_false_iff.mp hmiss)
    have hrange : countAt f.counts i₀ ≤ t.max := (f.counts.getD i₀ .zero).range.2
    have habove := (hspec (trueWeight s.stream x + 1)).mpr
      ⟨(hpos i₀ hi₀).trans hrange, hpos⟩
    linarith
  · rintro ⟨seed, hseed, hfree⟩
    obtain ⟨i, hi, hiff⟩ := hf.shaped.exists_hits_of_mem x hseed
    have hzero : f.otherWeight s.stream x i = 0 :=
      (otherWeight_eq_zero_iff hnn).2.mpr fun p hp hne hval ↦
        Bool.eq_false_iff.mpr fun hhit ↦ hfree p hp hne hval ((hiff p.1).mp hhit)
    have hle := ((hspec e.val).mp le_rfl).2 i hi
    rwa [hcount i hi, hzero, add_zero] at hle

end CountMinSketch

end DataSketches
