import DataSketches.ThetaFamily.BinomialBounds
import DataSketches.ThetaFamily.Intersection
import DataSketches.ThetaFamily.Union

/-!
# The Jaccard similarity of the Theta family

Two sketches are compared through their union, in a table that is large enough to
keep every key of both, and through their intersection.  Whether they are equal is
judged by counts and thetas alone: a union that is no larger than either sketch has
the keys of both.
-/

namespace DataSketches

open Runs SketchHashTable

/-- The floating-point numbers, as far as the similarity needs them. -/
structure JaccardArithmetic (F : Type) extends ProportionArithmetic F where
  /-- `NUM_STD_DEVS * sampling_adjuster(sampling_probability)` -/
  adjustment : ℚ → F

/-- Jaccard similarity estimate and confidence bounds for two Theta-family sketches. -/
structure JaccardSimilarity (F : Type) where
  lowerBound : F
  estimate : F
  upperBound : F

/-- A retained key without what is stored beside it. -/
structure KeyEntry where
  hash : ℕ
deriving DecidableEq

instance : SketchEntry KeyEntry := ⟨KeyEntry.hash⟩

namespace JaccardSimilarity

variable {F : Type} (arith : JaccardArithmetic F)

def exact (value : F) : JaccardSimilarity F := ⟨value, value, value⟩

def ratioBounds (unionCount intersectionCount theta : ℕ) : Except Error (JaccardSimilarity F) :=
  if intersectionCount > unionCount then
    .error (.invalidArgument
      s!"intersection count cannot exceed union count: {intersectionCount} > {unionCount}")
  else if unionCount = 0 then .ok ⟨arith.zero, arith.half, arith.one⟩
  else
    let samplingProbability : ℚ := f64OfNat theta / f64OfNat (2 ^ 63 - 1)
    if samplingProbability ≤ 0 ∨ samplingProbability > 1 then
      .error (.invalidArgument
        s!"theta must produce a probability in (0.0, 1.0], got {samplingProbability}")
    else if samplingProbability = 1 then .ok (exact (arith.ratio intersectionCount unionCount))
    else do
      let adjustment := arith.adjustment samplingProbability
      let lower ← BinomialBounds.approximateLowerBoundOnP arith.toProportionArithmetic unionCount
        intersectionCount adjustment
      let upper ← BinomialBounds.approximateUpperBoundOnP arith.toProportionArithmetic unionCount
        intersectionCount adjustment
      return ⟨lower, arith.ratio intersectionCount unionCount, upper⟩

/-- There is nothing to merge in a key. -/
def noopMergePolicy : MergePolicy KeyEntry where
  merge existing _ := existing
  hash_merge _ _ := rfl

section Keys

variable {A B : Type} [SketchEntry A] [SketchEntry B]

/-- A sketch seen as its keys. -/
def keyEntries (s : EntrySketch A) : EntrySketch KeyEntry :=
  ⟨s.scalars, s.entries.map fun e ↦ ⟨SketchEntry.hash e⟩⟩

/-- The bits of a `usize` that are needed to count to the sum, within the sizes of a table. -/
def unionLgK (leftCount rightCount : ℕ) : ℕ :=
  let requiredCapacity := max (min (leftCount + rightCount) (2 ^ 64 - 1)) 1
  max minLgK (min (requiredCapacity - 1).size maxLgK)

/-- Returns whether both sketches, given by their counts and thetas, have the same retained keys
and theta. -/
def identicalSets (sketchA sketchB : ℕ × ℕ) (union : CompactSketchParts KeyEntry) : Bool :=
  decide (union.entries.length = sketchA.1 ∧ union.entries.length = sketchB.1 ∧
    union.theta = sketchA.2 ∧ union.theta = sketchB.2)

def checkedSeedHash (seed : UInt64) (aSeedHash bSeedHash : ℕ) : Except Fault Unit := do
  let seedHash ← (computeSeedHash seed).mapError .panic
  (checkSeedHash seedHash aSeedHash "A" .invalidData).mapError .error
  (checkSeedHash seedHash bSeedHash "B" .invalidData).mapError .error

def computeUnion (seed : UInt64) (sketchA : EntrySketch A) (sketchB : EntrySketch B) :
    Except Fault (CompactSketchParts KeyEntry) := do
  checkedSeedHash seed sketchA.scalars.seedHash sketchB.scalars.seedHash
  let lgK := unionLgK sketchA.scalars.numRetained sketchB.scalars.numRetained
  let union ← (UnionState.new lgK .x8 1 seed noopMergePolicy).mapError .panic
  let union ← accepted (union.update (keyEntries sketchA))
  let union ← accepted (union.update (keyEntries sketchB))
  (union.toCompactParts false).mapError .panic

/-- The number of common keys below theta. -/
def intersectionCount (seed : UInt64) (sketchA : EntrySketch A) (sketchB : EntrySketch B)
    (theta : ℕ) : Except Fault ℕ := do
  let intersection ← (IntersectionState.new seed noopMergePolicy).mapError .panic
  let intersection ← accepted (intersection.update (keyEntries sketchA))
  let intersection ← accepted (intersection.update (keyEntries sketchB))
  let parts ← (intersection.toCompactParts false).mapError .panic
  return (parts.entries.filter (KeyEntry.hash · < theta)).length

def compute (seed : UInt64) (sketchA : EntrySketch A) (sketchB : EntrySketch B) :
    Except Fault (JaccardSimilarity F) :=
  let ⟨_, aTheta, aEmpty, _, aNumRetained⟩ := sketchA.scalars
  let ⟨_, bTheta, bEmpty, _, bNumRetained⟩ := sketchB.scalars
  if aEmpty && bEmpty then .ok (exact arith.one)
  else if aEmpty || bEmpty then .ok (exact arith.zero)
  else do
    let union ← computeUnion seed sketchA sketchB
    if !union.entries.isEmpty && identicalSets (aNumRetained, aTheta) (bNumRetained, bTheta) union then
      return exact arith.one
    else
      let count ← intersectionCount seed sketchA sketchB union.theta
      (ratioBounds arith union.entries.length count union.theta).mapError .error

def exactlyEqual (seed : UInt64) (sketchA : EntrySketch A) (sketchB : EntrySketch B) :
    Except Fault Bool :=
  let ⟨_, aTheta, aEmpty, _, aNumRetained⟩ := sketchA.scalars
  let ⟨_, bTheta, bEmpty, _, bNumRetained⟩ := sketchB.scalars
  if aEmpty && bEmpty then .ok true
  else if aEmpty || bEmpty then .ok false
  else do
    let union ← computeUnion seed sketchA sketchB
    return identicalSets (aNumRetained, aTheta) (bNumRetained, bTheta) union

end Keys

/-! ## Sketches as keys -/

section Counts

variable {A B : Type} [SketchEntry A] [SketchEntry B] {a : EntrySketch A} {b : EntrySketch B}
  {seed : UInt64}

theorem hashes_keyEntries (s : EntrySketch A) : (keyEntries s).hashes = s.hashes := by
  rw [EntrySketch.hashes, EntrySketch.hashes, keyEntries, List.map_map]
  rfl

theorem wellFormed_keyEntries (ha : a.WellFormed) : (keyEntries a).WellFormed where
  nodup := by
    rw [keyEntries, List.map_map]
    exact ha.nodup
  range := by
    intro e he
    obtain ⟨e', he', rfl⟩ := List.mem_map.mp he
    exact ha.range e' he'
  ordered := fun ho ↦ List.pairwise_map.mpr (ha.ordered ho)
  numRetained_eq := by
    rw [keyEntries, List.length_map]
    exact ha.numRetained_eq
  entries_of_empty := fun he ↦ by rw [keyEntries, ha.entries_of_empty he, List.map_nil]

/-- The size that is chosen keeps every key, where it can be chosen. -/
theorem le_two_pow_unionLgK {l r : ℕ} (h : l + r ≤ 2 ^ 26) :
    l + r ≤ 2 ^ unionLgK l r ∧ minLgK ≤ unionLgK l r := by
  refine ⟨?_, le_max_left _ _⟩
  have hsat : min (l + r) (2 ^ 64 - 1) = l + r := min_eq_left (h.trans (by decide))
  have hsize : (max (l + r) 1 - 1).size ≤ maxLgK := Nat.size_le.mpr (by
    have hmax : max (l + r) 1 ≤ 2 ^ 26 := max_le h (by decide)
    have hpos : 0 < max (l + r) 1 := one_pos.trans_le (le_max_right _ _)
    exact (Nat.sub_lt hpos one_pos).trans_le hmax)
  have hlt : max (l + r) 1 - 1 < 2 ^ (max (l + r) 1 - 1).size := Nat.lt_size_self _
  have hpow : 2 ^ (max (l + r) 1 - 1).size ≤ 2 ^ unionLgK l r := by
    refine Nat.pow_le_pow_right two_pos ?_
    rw [unionLgK, hsat, min_eq_left hsize]
    exact le_max_right _ _
  have hle : l + r ≤ max (l + r) 1 := le_max_left _ _
  omega

/-- The keys of both sketches below the lesser theta. -/
def unionKeys (a : EntrySketch A) (b : EntrySketch B) : Finset ℕ :=
  (a.hashes ∪ b.hashes).filter (· < min a.scalars.theta b.scalars.theta)

/-- The keys that the sketches share below the lesser theta. -/
def commonKeys (a : EntrySketch A) (b : EntrySketch B) : Finset ℕ :=
  (a.hashes ∩ b.hashes).filter (· < min a.scalars.theta b.scalars.theta)

theorem unionKeys_comm : unionKeys a b = unionKeys b a := by
  rw [unionKeys, unionKeys, Finset.union_comm, min_comm]

theorem commonKeys_comm : commonKeys a b = commonKeys b a := by
  rw [commonKeys, commonKeys, Finset.inter_comm, min_comm]

theorem card_commonKeys_le : (commonKeys a b).card ≤ (unionKeys a b).card :=
  Finset.card_le_card (Finset.filter_subset_filter _
    (Finset.inter_subset_left.trans Finset.subset_union_left))

/-- Two sketches the similarity of which is defined: they are well-formed and not empty, of the
seed, and retain no more keys than the largest table holds. -/
structure Comparable (seed : UInt64) (a : EntrySketch A) (b : EntrySketch B) : Prop where
  left : a.WellFormed
  right : b.WellFormed
  left_empty : a.scalars.empty = false
  right_empty : b.scalars.empty = false
  left_seed : computeSeedHash seed = .ok a.scalars.seedHash
  right_seed : computeSeedHash seed = .ok b.scalars.seedHash
  left_theta : a.scalars.theta ≤ maxTheta
  right_theta : b.scalars.theta ≤ maxTheta
  retained : a.scalars.numRetained + b.scalars.numRetained ≤ 2 ^ 26

theorem Comparable.symm (h : Comparable seed a b) : Comparable seed b a :=
  ⟨h.right, h.left, h.right_empty, h.left_empty, h.right_seed, h.left_seed, h.right_theta,
    h.left_theta, (Nat.add_comm _ _).trans_le h.retained⟩

/-! ## The union -/

theorem Comparable.checkedSeedHash (h : Comparable seed a b) :
    checkedSeedHash seed a.scalars.seedHash b.scalars.seedHash = .ok () := by
  have hsame : b.scalars.seedHash = a.scalars.seedHash :=
    Except.ok.inj (h.right_seed.symm.trans h.left_seed)
  simp only [JaccardSimilarity.checkedSeedHash, h.left_seed, hsame, ok_mapError, ok_bind,
    checkSeedHash_self]

/-- The union keeps every key below the lesser theta. -/
theorem computeUnion_spec (h : Comparable seed a b) :
    ∃ parts, computeUnion seed a b = .ok parts ∧
      parts.theta = min a.scalars.theta b.scalars.theta ∧
      parts.entries.length = (unionKeys a b).card := by
  obtain ⟨hle, hlgK⟩ := le_two_pow_unionLgK h.retained
  have hwa := wellFormed_keyEntries h.left
  have hwb := wellFormed_keyEntries h.right
  obtain ⟨u₀, hnew, hseed₀, h₀⟩ := UnionState.new_runInv hlgK .x8 1 seed noopMergePolicy
  obtain ⟨u₁, hu₁, h₁, hseed₁⟩ := UnionState.update_spec h₀ hwa (.inr (hseed₀ ▸ h.left_seed))
  obtain ⟨u₂, hu₂, h₂, hseed₂⟩ :=
    UnionState.update_spec h₁ hwb (.inr (hseed₁ ▸ hseed₀ ▸ h.right_seed))
  have hwf : ∀ s ∈ [] ++ [keyEntries a] ++ [keyEntries b], s.WellFormed := by
    intro s hs
    rcases List.mem_pair.mp hs with rfl | rfl
    · exact hwa
    · exact hwb
  obtain ⟨parts, hparts, hres, -, -⟩ := UnionState.toCompactParts_spec h₂ hwf false
  have hstart : startingThetaFromSamplingProbability 1 = maxTheta := if_neg (lt_irrefl 1)
  have hempty_a : ¬ (keyEntries a).scalars.empty = true := ne_true_of_eq_false h.left_empty
  have hempty_b : ¬ (keyEntries b).scalars.empty = true := ne_true_of_eq_false h.right_empty
  have htheta : UnionState.minTheta maxTheta ([] ++ [keyEntries a] ++ [keyEntries b]) =
      min a.scalars.theta b.scalars.theta := by
    have hle_a : (keyEntries a).scalars.theta ≤ 
        UnionState.minTheta maxTheta ([] : List (EntrySketch KeyEntry)) := h.left_theta
    rw [UnionState.minTheta_concat, UnionState.minTheta_concat, if_neg hempty_a, if_neg hempty_b,
      min_eq_right hle_a]
    rfl
  have hkeys : (UnionState.allHashes ([] ++ [keyEntries a] ++ [keyEntries b])).filter
      (· < min a.scalars.theta b.scalars.theta) = unionKeys a b := by
    have hnone : UnionState.allHashes ([] : List (EntrySketch KeyEntry)) = ∅ := rfl
    rw [UnionState.allHashes_concat, UnionState.allHashes_concat, hnone, Finset.empty_union,
      hashes_keyEntries, hashes_keyEntries, unionKeys]
  rw [hstart, htheta, hkeys] at hres
  have hcard : (unionKeys a b).card ≤
      2 ^ unionLgK a.scalars.numRetained b.scalars.numRetained := by
    refine (Finset.card_filter_le _ _).trans ((Finset.card_union_le _ _).trans ?_)
    rw [h.left.card_hashes, h.right.card_hashes]
    exact hle
  obtain ⟨hset, hmin⟩ := hres.of_le hcard
  rw [hseed₂, hseed₁, hseed₀, h.left_seed] at hparts
  refine ⟨{ parts with seedHash := a.scalars.seedHash }, ?_, hmin, ?_⟩
  · rw [computeUnion, h.checkedSeedHash, ok_bind]
    dsimp only
    rw [hnew, ok_mapError, ok_bind, accepted_eq_ok.mpr hu₁, ok_bind, accepted_eq_ok.mpr hu₂, ok_bind,
      hparts, ok_map, ok_mapError]
  · rw [← hset, List.toFinset_card_of_nodup hres.nodup, List.length_map]

/-- Sketches are recognised as equal exactly if their thetas and their keys are. -/
theorem identicalSets_iff (h : Comparable seed a b) {union : CompactSketchParts KeyEntry}
    (htheta : union.theta = min a.scalars.theta b.scalars.theta)
    (hlen : union.entries.length = (unionKeys a b).card) :
    identicalSets (a.scalars.numRetained, a.scalars.theta) (b.scalars.numRetained, b.scalars.theta)
        union = true ↔
      a.scalars.theta = b.scalars.theta ∧ a.hashes = b.hashes := by
  have hall : a.scalars.theta = b.scalars.theta → unionKeys a b = a.hashes ∪ b.hashes := by
    intro heq
    refine Finset.filter_true_of_mem fun x hx ↦ ?_
    rw [← heq, min_self]
    rcases Finset.mem_union.mp hx with hx | hx
    · exact (h.left.hashes_lt hx).2
    · exact heq ▸ (h.right.hashes_lt hx).2
  rw [identicalSets, decide_eq_true_eq, htheta, hlen, ← h.left.card_hashes, ← h.right.card_hashes]
  constructor
  · rintro ⟨hcard_a, hcard_b, hmin_a, hmin_b⟩
    have heq : a.scalars.theta = b.scalars.theta := hmin_a.symm.trans hmin_b
    -- a union that is no larger than a part of it is that part
    rw [hall heq] at hcard_a hcard_b
    have hunion_a : a.hashes = a.hashes ∪ b.hashes :=
      Finset.eq_of_subset_of_card_le Finset.subset_union_left hcard_a.le
    have hunion_b : b.hashes = a.hashes ∪ b.hashes :=
      Finset.eq_of_subset_of_card_le Finset.subset_union_right hcard_b.le
    exact ⟨heq, hunion_a.trans hunion_b.symm⟩
  · rintro ⟨heq, hkeys⟩
    rw [hall heq, hkeys, Finset.union_self, heq, min_self]
    exact ⟨rfl, rfl, rfl, rfl⟩

/-! ## The intersection -/

/-- The intersection finds the common keys, where the thetas can be set. -/
theorem intersectionCount_spec (h : Comparable seed a b) (ha : 1 ≤ a.scalars.theta)
    (hb : 1 ≤ b.scalars.theta) :
    intersectionCount seed a b (min a.scalars.theta b.scalars.theta) =
      .ok (commonKeys a b).card := by
  obtain ⟨i₀, hnew, h₀, -⟩ := IntersectionState.new_runInv seed noopMergePolicy
  have hwa := wellFormed_keyEntries h.left
  have hwb := wellFormed_keyEntries h.right
  have hwf : ∀ s ∈ [] ++ [keyEntries a] ++ [keyEntries b], s.WellFormed := by
    intro s hs
    rcases List.mem_pair.mp hs with rfl | rfl
    · exact hwa
    · exact hwb
  obtain ⟨i₁, hi₁, h₁⟩ := IntersectionState.update_spec h₀
    (fun s hs ↦ hwf s (List.mem_append_left _ hs)) (fun _ ↦ .inr h.left_seed)
    (.inr (.inr ⟨ha, h.left_theta⟩))
  obtain ⟨i₂, hi₂, h₂⟩ := IntersectionState.update_spec h₁ hwf (fun _ ↦ .inr h.right_seed)
    (.inr (.inr ⟨hb, h.right_theta⟩))
  have hres := h₂.resultOf (List.append_ne_nil_of_right_ne_nil _ (List.cons_ne_nil _ _)) hwf
  have hseed : i₂.table.seedHash = .ok a.scalars.seedHash := by
    rw [SketchHashTable.seedHash, h₂.seed_eq, h.left_seed]
  have hcount : (i₂.table.iterEntries.filter
      (KeyEntry.hash · < min a.scalars.theta b.scalars.theta)).length = (commonKeys a b).card := by
    have hset : ((i₂.table.iterEntries.filter
        (KeyEntry.hash · < min a.scalars.theta b.scalars.theta)).map SketchEntry.hash).toFinset =
        commonKeys a b := by
      ext x
      have hmem := hres.mem_iff x
      rw [SketchHashTable.mem_hashes] at hmem
      simp only [List.nil_append, List.cons_append, List.mem_cons, List.not_mem_nil, or_false,
        forall_eq_or_imp, forall_eq, hashes_keyEntries] at hmem
      rw [List.mem_toFinset, List.mem_map, commonKeys, Finset.mem_filter, Finset.mem_inter]
      constructor
      · rintro ⟨e, he, rfl⟩
        obtain ⟨he, hlt⟩ := List.mem_filter.mp he
        exact ⟨(hmem.mp ⟨e, he, rfl⟩).1, of_decide_eq_true hlt⟩
      · rintro ⟨hboth, hlt⟩
        obtain ⟨e, he, rfl⟩ := hmem.mpr ⟨hboth, lt_min_iff.mp hlt⟩
        exact ⟨e, List.mem_filter.mpr ⟨he, decide_eq_true hlt⟩, rfl⟩
    rw [← hset, List.toFinset_card_of_nodup (hres.nodup.sublist (List.filter_sublist.map _)),
      List.length_map]
  rw [intersectionCount, hnew, ok_mapError, ok_bind, accepted_eq_ok.mpr hi₁, ok_bind,
    accepted_eq_ok.mpr hi₂, ok_bind, IntersectionState.toCompactParts, hseed]
  exact congrArg Except.ok hcount

/-- A theta of zero cannot be set. -/
theorem theta_pos_of_intersectionCount (h : Comparable seed a b) {theta count : ℕ}
    (hok : intersectionCount seed a b theta = .ok count) : 1 ≤ a.scalars.theta := by
  obtain ⟨i₀, hnew, -, hempty⟩ := IntersectionState.new_runInv seed noopMergePolicy
  rw [intersectionCount, hnew, ok_mapError, ok_bind] at hok
  obtain ⟨i₁, hi₁, -⟩ := bind_eq_ok.mp hok
  exact (IntersectionState.of_update_accepted (accepted_eq_ok.mp hi₁) hempty h.left_empty).2

/-! ## The similarity -/

/-- The bounds of a proportion in the range of theta, whose estimate is that proportion. -/
theorem ratioBounds_total {n k theta : ℕ} (hle : k ≤ n) (htheta : 1 ≤ theta ∧ theta ≤ maxTheta) :
    ∃ s, ratioBounds arith n k theta = .ok s ∧
      s.estimate = if n = 0 then arith.half else arith.ratio k n := by
  obtain ⟨hpos, hone⟩ := f64OfNat_div_range (n := theta)
    ⟨htheta.1, htheta.2.trans_lt (by decide)⟩
  rw [ratioBounds, if_neg (not_lt.mpr hle)]
  by_cases hn : n = 0
  · rw [if_pos hn, if_pos hn]
    exact ⟨_, rfl, rfl⟩
  · rw [if_neg hn, if_neg hn]
    dsimp only
    rw [if_neg (not_or.mpr ⟨not_le.mpr hpos, not_lt.mpr hone⟩)]
    split_ifs
    · exact ⟨_, rfl, rfl⟩
    · obtain ⟨lower, hlower⟩ := BinomialBounds.approximateLowerBoundOnP_total
        arith.toProportionArithmetic hle
        (arith.adjustment (f64OfNat theta / f64OfNat (2 ^ 63 - 1)))
      obtain ⟨upper, hupper⟩ := BinomialBounds.approximateUpperBoundOnP_total
        arith.toProportionArithmetic hle
        (arith.adjustment (f64OfNat theta / f64OfNat (2 ^ 63 - 1)))
      rw [hlower, hupper]
      exact ⟨_, rfl, rfl⟩

theorem compute_eq (h : Comparable seed a b) : compute arith seed a b =
    (computeUnion seed a b >>= fun union ↦
      if !union.entries.isEmpty && identicalSets (a.scalars.numRetained, a.scalars.theta)
          (b.scalars.numRetained, b.scalars.theta) union then
        return exact arith.one
      else do
        let count ← intersectionCount seed a b union.theta
        (ratioBounds arith union.entries.length count union.theta).mapError .error) := by
  rw [compute]
  simp only [h.left_empty, h.right_empty, Bool.and_false, Bool.or_false, Bool.false_eq_true, if_false]

theorem exactlyEqual_eq (h : Comparable seed a b) : exactlyEqual seed a b =
    (computeUnion seed a b >>= fun union ↦
      return identicalSets (a.scalars.numRetained, a.scalars.theta)
        (b.scalars.numRetained, b.scalars.theta) union) := by
  rw [exactlyEqual]
  simp only [h.left_empty, h.right_empty, Bool.and_false, Bool.or_false, Bool.false_eq_true, if_false]

/-- The similarity is made from the numbers of keys of the union and the intersection. -/
theorem compute_of_theta (h : Comparable seed a b) (ha : 1 ≤ a.scalars.theta)
    (hb : 1 ≤ b.scalars.theta) : compute arith seed a b =
      if (unionKeys a b).card ≠ 0 ∧ a.scalars.theta = b.scalars.theta ∧ a.hashes = b.hashes then
        .ok (exact arith.one)
      else (ratioBounds arith (unionKeys a b).card (commonKeys a b).card
        (min a.scalars.theta b.scalars.theta)).mapError .error := by
  obtain ⟨union, hunion, htheta, hlen⟩ := computeUnion_spec h
  have hsame := identicalSets_iff h htheta hlen
  have hcond : (!union.entries.isEmpty && identicalSets (a.scalars.numRetained, a.scalars.theta)
        (b.scalars.numRetained, b.scalars.theta) union) = true ↔
      (unionKeys a b).card ≠ 0 ∧ a.scalars.theta = b.scalars.theta ∧ a.hashes = b.hashes := by
    rw [Bool.and_eq_true, hsame, Bool.not_eq_true', ← Bool.not_eq_true, List.isEmpty_iff,
      ← List.length_eq_zero_iff, hlen]
  rw [compute_eq arith h, hunion, ok_bind]
  by_cases hequal : (unionKeys a b).card ≠ 0 ∧ a.scalars.theta = b.scalars.theta ∧
      a.hashes = b.hashes
  · rw [if_pos hequal, if_pos (hcond.mpr hequal), pure_eq_ok]
  · rw [if_neg hequal, if_neg (mt hcond.mp hequal), htheta, intersectionCount_spec h ha hb, ok_bind,
      hlen]

theorem compute_comm (h : Comparable seed a b) (ha : 1 ≤ a.scalars.theta)
    (hb : 1 ≤ b.scalars.theta) : compute arith seed b a = compute arith seed a b := by
  rw [compute_of_theta arith h ha hb, compute_of_theta arith h.symm hb ha, unionKeys_comm,
    commonKeys_comm, min_comm]
  exact if_congr (and_congr_right' (and_congr eq_comm eq_comm)) rfl rfl

/-- Only thetas that can be set have a similarity. -/
theorem theta_pos_of_compute (h : Comparable seed a b) {s : JaccardSimilarity F}
    (hok : compute arith seed a b = .ok s) : 1 ≤ a.scalars.theta := by
  obtain ⟨union, hunion, htheta, hlen⟩ := computeUnion_spec h
  rw [compute_eq arith h, hunion, ok_bind] at hok
  rcases ite_eq_iff.mp hok with ⟨hequal, -⟩ | ⟨-, hok⟩
  · -- a key of the union is below theta
    have hne : (unionKeys a b).Nonempty := by
      rw [Bool.and_eq_true, Bool.not_eq_true', ← Bool.not_eq_true, List.isEmpty_iff,
        ← List.length_eq_zero_iff, hlen] at hequal
      exact Finset.card_pos.mp (Nat.pos_of_ne_zero hequal.1)
    obtain ⟨x, hx⟩ := hne
    exact (Nat.zero_le x).trans_lt ((Finset.mem_filter.mp hx).2.trans_le (min_le_left _ _))
  · obtain ⟨count, hcount, -⟩ := bind_eq_ok.mp hok
    exact theta_pos_of_intersectionCount h hcount

/-- What the comparison of two sketches is to give. -/
structure Compared (seed : UInt64) (a : EntrySketch A) (b : EntrySketch B) : Prop where
  equal : ∃ r, exactlyEqual seed a b = .ok r ∧
    (r = true ↔ a.scalars.theta = b.scalars.theta ∧ a.hashes = b.hashes)
  similar : ∃ s, compute arith seed a b = .ok s ∧ compute arith seed b a = .ok s ∧
    (commonKeys a b).card ≤ (unionKeys a b).card ∧
    s.estimate = (if (unionKeys a b).card = 0 then arith.half
      else arith.ratio (commonKeys a b).card (unionKeys a b).card) ∧
    (a.scalars.theta = b.scalars.theta → a.hashes = b.hashes → a.hashes.Nonempty →
      s = exact arith.one)

theorem Comparable.equal (h : Comparable seed a b) : ∃ r, exactlyEqual seed a b = .ok r ∧
    (r = true ↔ a.scalars.theta = b.scalars.theta ∧ a.hashes = b.hashes) := by
  obtain ⟨union, hunion, htheta, hlen⟩ := computeUnion_spec h
  exact ⟨_, by rw [exactlyEqual_eq h, hunion]; rfl, identicalSets_iff h htheta hlen⟩

theorem Comparable.similar (h : Comparable seed a b) (ha : 1 ≤ a.scalars.theta)
    (hb : 1 ≤ b.scalars.theta) : ∃ s, compute arith seed a b = .ok s ∧
      s.estimate = (if (unionKeys a b).card = 0 then arith.half
        else arith.ratio (commonKeys a b).card (unionKeys a b).card) ∧
      (a.scalars.theta = b.scalars.theta → a.hashes = b.hashes → a.hashes.Nonempty →
        s = exact arith.one) := by
  rw [compute_of_theta arith h ha hb]
  by_cases hequal : (unionKeys a b).card ≠ 0 ∧ a.scalars.theta = b.scalars.theta ∧
      a.hashes = b.hashes
  · rw [if_pos hequal]
    obtain ⟨hcard, htheta, hkeys⟩ := hequal
    have hsame : commonKeys a b = unionKeys a b := by
      rw [commonKeys, unionKeys, hkeys, Finset.inter_self, Finset.union_self]
    refine ⟨_, rfl, ?_, fun _ _ _ ↦ rfl⟩
    rw [if_neg hcard, hsame, arith.ratio_self _ (Nat.pos_of_ne_zero hcard)]
    rfl
  · rw [if_neg hequal]
    obtain ⟨s, hs, hestimate⟩ := ratioBounds_total arith (card_commonKeys_le (a := a) (b := b))
      ⟨le_min ha hb, (min_le_left _ _).trans h.left_theta⟩
    refine ⟨s, by rw [hs, ok_mapError], hestimate, fun htheta hkeys hne ↦ absurd ⟨?_, htheta, hkeys⟩ hequal⟩
    obtain ⟨x, hx⟩ := hne
    refine Finset.card_ne_zero.mpr ⟨x, Finset.mem_filter.mpr ⟨Finset.mem_union_left _ hx, ?_⟩⟩
    rw [← htheta, min_self]
    exact (h.left.hashes_lt hx).2

end Counts

/-! ## Two comparisons -/

/-- The quotients as rational numbers: sketches in exact mode need no more. -/
def exactArithmetic : JaccardArithmetic ℚ where
  zero := 0
  half := 1 / 2
  one := 1
  ratio k n := k / n
  ratio_self n hn := div_self (Nat.cast_ne_zero.mpr hn.ne')
  deltaOfNumStdevs _ := 0
  exactUpperBoundOnPKEqZero _ _ := 0
  exactLowerBoundOnPKEqN _ _ := 0
  exactLowerBoundOnPKEq1 _ _ := 0
  exactUpperBoundOnPKEqMinusone _ _ := 0
  lowerTail _ _ _ := 0
  upperTail _ _ _ := 0
  adjustment _ := 0

end JaccardSimilarity

end DataSketches
