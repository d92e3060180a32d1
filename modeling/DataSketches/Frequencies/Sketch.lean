import DataSketches.Frequencies.ReversePurgeItemHashMap.Purge

/-!
# Frequent items sketch

A sketch keeps counters in a reverse purge hash map.  When the map is at its
largest size and full, a purge decrements all counters by an approximate median,
which is added to the offset.  An update adds to the counters, to what the sketch
estimates and to the weight that pays for its error, in whatever way the table is
rearranged.
-/

namespace DataSketches

open Runs Counters

def lgMinMapSize : ℕ := 3

def lgMaxMapSizeLimit : ℕ := 30

def maxMapSizeLimit : ℕ := 1 <<< lgMaxMapSizeLimit

def defaultSampleSize : ℕ := 1024

def loadFactorNumerator : ℕ := 3

def loadFactorDenominator : ℕ := 4

def mapCapacityForLg (lgMapSize : ℕ) : Checked ℕ := do
  assert (lgMapSize ≤ lgMaxMapSizeLimit) "assertion failed: lg_map_size <= LG_MAX_MAP_SIZE"
  return (1 <<< lgMapSize) * loadFactorNumerator / loadFactorDenominator

/-- Error guarantees for frequent item queries. -/
inductive ErrorType where
  /-- Includes items if the upper bound exceeds the threshold (no false negatives). -/
  | noFalseNegatives
  /-- Includes items if the lower bound exceeds the threshold (no false positives). -/
  | noFalsePositives
deriving DecidableEq, Repr

/-- Result row for frequent item queries. -/
structure Row (T : Type) where
  item : T
  estimate : ℕ
  upperBound : ℕ
  lowerBound : ℕ

/-- Frequent items sketch for generic item types. -/
structure FrequentItemsSketch (T : Type) where
  lgMaxMapSize : ℕ
  curMapCap : ℕ
  offset : ℕ
  streamWeight : ℕ
  sampleSize : ℕ
  hashMap : ReversePurgeItemHashMap T
deriving DecidableEq

namespace FrequentItemsSketch

variable {T Q : Type}

def withLgMapSizes (lgMaxMapSize lgCurMapSize : ℕ) : Checked (FrequentItemsSketch T) := do
  let lgMax := max lgMaxMapSize lgMinMapSize
  let lgCur := max lgCurMapSize lgMinMapSize
  assert (lgMax ≤ lgMaxMapSizeLimit) "lg_max_map_size must not exceed 30"
  assert (lgCur ≤ lgMax) "lg_cur_map_size must not exceed lg_max_map_size"
  let map ← ReversePurgeItemHashMap.new (1 <<< lgCur)
  let maxMapCap ← mapCapacityForLg lgMax
  return ⟨lgMax, map.capacity, 0, 0, min defaultSampleSize maxMapCap, map⟩

/-- Creates a new sketch with the given maximum map size (power of two). -/
def new (maxMapSize : ℕ) : Checked (FrequentItemsSketch T) := do
  assert maxMapSize.isPowerOfTwo "max_map_size must be power of 2"
  assert (maxMapSize ≤ maxMapSizeLimit) "max_map_size must not exceed 1073741824"
  withLgMapSizes maxMapSize.log2 lgMinMapSize

def isInitialState (s : FrequentItemsSketch T) : Bool :=
  s.streamWeight = 0 && s.offset = 0 && s.hashMap.numActive = 0

/-- The number of active items being tracked. -/
def numActiveItems (s : FrequentItemsSketch T) : ℕ := s.hashMap.numActive

/-- The total weight of the stream. -/
def totalWeight (s : FrequentItemsSketch T) : ℕ := s.streamWeight

/-- An upper bound on the maximum error of `estimate` for any item. -/
def maximumError (s : FrequentItemsSketch T) : ℕ := s.offset

/-- The maximum map capacity for this sketch. -/
def maximumMapCapacity (s : FrequentItemsSketch T) : Checked ℕ := mapCapacityForLg s.lgMaxMapSize

/-- The number of counters supported before resizing or purging. -/
def currentMapCapacity (s : FrequentItemsSketch T) : ℕ := s.curMapCap

/-- Resets the sketch to an empty state. -/
def reset (s : FrequentItemsSketch T) : Checked (FrequentItemsSketch T) :=
  withLgMapSizes s.lgMaxMapSize lgMinMapSize

section Keys

variable [DecidableEq T] [Hash T] [DecidableEq Q] [Hash Q]

/-- Returns the estimated frequency for an item. -/
def estimate [Borrow T Q] (s : FrequentItemsSketch T) (item : Q) : Checked ℕ := do
  let value ← s.hashMap.get item
  if value > 0 then checkedAdd 64 value s.offset else return 0

/-- Returns the guaranteed lower bound frequency for an item. -/
def lowerBound [Borrow T Q] (s : FrequentItemsSketch T) (item : Q) : Checked ℕ := s.hashMap.get item

/-- Returns the guaranteed upper bound frequency for an item. -/
def upperBound [Borrow T Q] (s : FrequentItemsSketch T) (item : Q) : Checked ℕ := do
  checkedAdd 64 (← s.hashMap.get item) s.offset

def maybeResizeOrPurge (s : FrequentItemsSketch T) : Checked (FrequentItemsSketch T) :=
  if s.hashMap.numActive > s.curMapCap then
    if s.hashMap.lgLength < s.lgMaxMapSize then do
      let map ← s.hashMap.resize (s.hashMap.slots.length * 2)
      return { s with hashMap := map, curMapCap := map.capacity }
    else do
      let (map, delta) ← s.hashMap.purge s.sampleSize
      let offset ← checkedAdd 64 s.offset delta
      if map.numActive > (← s.maximumMapCapacity) then
        throw (.unreachable "purge did not reduce number of active items")
      else return { s with hashMap := map, offset := offset }
  else return s

/-- Updates the sketch with an item and count. -/
def updateWithCount (s : FrequentItemsSketch T) (item : T) (count : ℕ) :
    Checked (FrequentItemsSketch T) :=
  if count = 0 then return s
  else do
    assert (count > 0) "count may not be negative"
    let streamWeight ← checkedAdd 64 s.streamWeight count
    let map ← s.hashMap.adjustOrPutValue item count
    maybeResizeOrPurge { s with streamWeight := streamWeight, hashMap := map }

/-- Updates the sketch with a borrowed item and count. -/
def updateWithCountRef [Borrow T Q] (s : FrequentItemsSketch T) (item : Q) (count : ℕ) :
    Checked (FrequentItemsSketch T) :=
  if count = 0 then return s
  else do
    assert (count > 0) "count may not be negative"
    let streamWeight ← checkedAdd 64 s.streamWeight count
    let map ← s.hashMap.adjustOrPutValueRef item count
    maybeResizeOrPurge { s with streamWeight := streamWeight, hashMap := map }

/-- Merges another sketch into this one. -/
def merge (s other : FrequentItemsSketch T) : Checked (FrequentItemsSketch T) :=
  if other.isInitialState then return s
  else do
    let mergedTotal ← checkedAdd 64 s.streamWeight other.streamWeight
    let items ← other.hashMap.iter
    let s ← run (fun s (p : T × ℕ) ↦ s.updateWithCountRef p.1 p.2) s items
    let offset ← checkedAdd 64 s.offset other.offset
    return { s with offset := offset, streamWeight := mergedTotal }

end Keys

/-- Whether an item with the given bounds makes a row. -/
def included (errorType : ErrorType) (threshold lower upper : ℕ) : Bool :=
  match errorType with
  | .noFalseNegatives => upper > threshold
  | .noFalsePositives => lower > threshold

/-- The rows in the order of the iterator. -/
def rowsOf (offset threshold : ℕ) (errorType : ErrorType) : List (T × ℕ) → Checked (List (Row T))
  | [] => return []
  | (item, count) :: items => do
      let upper ← checkedAdd 64 count offset
      let rows ← rowsOf offset threshold errorType items
      return if included errorType threshold count upper then ⟨item, upper, upper, count⟩ :: rows else rows

/-- Returns frequent items using a custom threshold.

If `threshold` is less than `maximum_error`, `maximum_error` is used instead. -/
def frequentItemsWithThreshold (s : FrequentItemsSketch T) (errorType : ErrorType) (threshold : ℕ) :
    Checked (List (Row T)) := do
  let threshold := max threshold s.offset
  let items ← s.hashMap.iter
  let rows ← rowsOf s.offset threshold errorType items
  return rows.mergeSort fun a b ↦ b.estimate ≤ a.estimate

/-! ## What a sketch knows -/

/-- Half of a sample, rounded up. -/
def half (n : ℕ) : ℕ := n - n / 2

variable [Hash T] {s s' : FrequentItemsSketch T}

/-- What holds of every sketch. -/
structure Inv (s : FrequentItemsSketch T) : Prop where
  map : s.hashMap.Inv
  lg_min : lgMinMapSize ≤ s.hashMap.lgLength
  lg_le : s.hashMap.lgLength ≤ s.lgMaxMapSize
  lg_max : s.lgMaxMapSize ≤ lgMaxMapSizeLimit
  cap_eq : s.curMapCap = 2 ^ s.hashMap.lgLength * 3 / 4
  sampleSize_eq : s.sampleSize = min defaultSampleSize (2 ^ s.lgMaxMapSize * 3 / 4)
  active_le : s.hashMap.numActive ≤ s.curMapCap
  positive : ∀ p ∈ s.hashMap.entries, 0 < p.2

/-- A sketch of a stream with the given counts and weight.  Every purge was paid for by at least
`payers` counters. -/
structure Summary [DecidableEq T] (s : FrequentItemsSketch T) (truth : T → ℕ) (weight payers : ℕ) :
    Prop where
  inv : s.Inv
  weight_eq : s.streamWeight = weight
  estimates : Estimates s.hashMap.entries s.offset truth
  budget : Budget payers s.hashMap.entries s.offset weight

omit [Hash T] in
theorem mapCapacityForLg_eq {lg : ℕ} (h : lg ≤ lgMaxMapSizeLimit) :
    mapCapacityForLg lg = .ok (2 ^ lg * 3 / 4) := by
  rw [mapCapacityForLg, assert_pos h, ok_bind, Nat.one_shiftLeft]
  rfl

/-- The capacity of a table leaves slots free. -/
theorem capacity_lt {lg : ℕ} (h : lgMinMapSize ≤ lg) : 2 ^ lg * 3 / 4 + 1 < 2 ^ lg := by
  have hle : 2 ^ lgMinMapSize ≤ 2 ^ lg := Nat.pow_le_pow_right two_pos h
  have height : (2 : ℕ) ^ lgMinMapSize = 8 := rfl
  omega

/-- A larger table has room for one more. -/
theorem capacity_succ_le {lg : ℕ} (h : lgMinMapSize ≤ lg) :
    2 ^ lg * 3 / 4 + 1 ≤ 2 ^ (lg + 1) * 3 / 4 := by
  have hle : 2 ^ lgMinMapSize ≤ 2 ^ lg := Nat.pow_le_pow_right two_pos h
  have height : (2 : ℕ) ^ lgMinMapSize = 8 := rfl
  rw [Nat.pow_succ]
  omega

theorem six_le_capacity {lg : ℕ} (h : lgMinMapSize ≤ lg) : 6 ≤ 2 ^ lg * 3 / 4 := by
  have hle : 2 ^ lgMinMapSize ≤ 2 ^ lg := Nat.pow_le_pow_right two_pos h
  have height : (2 : ℕ) ^ lgMinMapSize = 8 := rfl
  omega

theorem half_pos {n : ℕ} (h : 0 < n) : 0 < half n := by
  unfold half
  omega

theorem Inv.sampleSize_pos (h : s.Inv) : 0 < s.sampleSize := by
  have hsix := six_le_capacity (h.lg_min.trans h.lg_le)
  rw [h.sampleSize_eq]
  exact lt_min (by decide) (by omega)

/-- A new sketch. -/
theorem withLgMapSizes_spec [DecidableEq T] {lgMax lgCur : ℕ} (hcur : lgMinMapSize ≤ lgCur)
    (hle : lgCur ≤ max lgMax lgMinMapSize) (hmax : max lgMax lgMinMapSize ≤ lgMaxMapSizeLimit)
    (payers : ℕ) : ∃ s : FrequentItemsSketch T, withLgMapSizes lgMax lgCur = .ok s ∧
      s.Summary (fun _ ↦ 0) 0 payers ∧ s.lgMaxMapSize = max lgMax lgMinMapSize ∧
      s.hashMap.lgLength = lgCur ∧ s.offset = 0 ∧ s.hashMap.entries = 0 := by
  have hempty := ReversePurgeItemHashMap.inv_empty (T := T) lgCur
  have hlg : (ReversePurgeItemHashMap.empty (2 ^ lgCur) : ReversePurgeItemHashMap T).lgLength = lgCur :=
    Nat.log2_two_pow
  have hentries := ReversePurgeItemHashMap.entries_empty (T := T) (2 ^ lgCur)
  refine ⟨⟨max lgMax lgMinMapSize, 2 ^ lgCur * 3 / 4, 0, 0,
    min defaultSampleSize (2 ^ max lgMax lgMinMapSize * 3 / 4),
    ReversePurgeItemHashMap.empty (2 ^ lgCur)⟩, ?_, ⟨?_, rfl, ?_, ?_⟩, rfl, hlg, rfl, hentries⟩
  · rw [withLgMapSizes, max_eq_left hcur, assert_pos hmax, ok_bind, assert_pos hle, ok_bind,
      ReversePurgeItemHashMap.new, Nat.one_shiftLeft, assert_pos ⟨lgCur, rfl⟩, ok_bind, pure_eq_ok,
      ok_bind, mapCapacityForLg_eq hmax, ok_bind]
    rfl
  · refine ⟨hempty, ?_, ?_, hmax, ?_, rfl, Nat.zero_le _, ?_⟩
    · rw [hlg]
      exact hcur
    · rw [hlg]
      exact hle
    · rw [hlg]
    · intro p hp
      rw [hentries] at hp
      exact absurd hp (Multiset.notMem_zero p)
  · intro x
    rw [hentries]
    exact ⟨le_rfl, le_rfl⟩
  · rw [hentries, Budget, total_zero, Nat.zero_mul]

/-! ## Updates -/

section Keys

variable [DecidableEq T] [DecidableEq Q] [Hash Q]
variable {truth : T → ℕ} {weight payers : ℕ}

/-- A sketch whose table may hold one counter too many. -/
structure Crowded (s : FrequentItemsSketch T) (truth : T → ℕ) (weight payers : ℕ) : Prop where
  map : s.hashMap.Inv
  lg_min : lgMinMapSize ≤ s.hashMap.lgLength
  lg_le : s.hashMap.lgLength ≤ s.lgMaxMapSize
  lg_max : s.lgMaxMapSize ≤ lgMaxMapSizeLimit
  cap_eq : s.curMapCap = 2 ^ s.hashMap.lgLength * 3 / 4
  sampleSize_eq : s.sampleSize = min defaultSampleSize (2 ^ s.lgMaxMapSize * 3 / 4)
  active_le : s.hashMap.numActive ≤ s.curMapCap + 1
  positive : ∀ p ∈ s.hashMap.entries, 0 < p.2
  weight_eq : s.streamWeight = weight
  estimates : Estimates s.hashMap.entries s.offset truth
  budget : Budget payers s.hashMap.entries s.offset weight

/-- Growing the table makes room. -/
theorem Crowded.resize (h : s.Crowded truth weight payers) (hlg : s.hashMap.lgLength < s.lgMaxMapSize)
    {map : ReversePurgeItemHashMap T} (hmap : map.Inv) (hlg' : map.lgLength = s.hashMap.lgLength + 1)
    (hentries : map.entries = s.hashMap.entries) :
    Summary { s with hashMap := map, curMapCap := map.capacity } truth weight payers := by
  have hcap : map.capacity = 2 ^ map.lgLength * 3 / 4 := hmap.threshold_eq
  have hactive : map.numActive = s.hashMap.numActive := by
    rw [hmap.numActive_eq, hentries, h.map.numActive_eq]
  refine ⟨⟨hmap, ?_, ?_, h.lg_max, hcap, h.sampleSize_eq, ?_, ?_⟩, h.weight_eq, ?_, ?_⟩
  · dsimp only
    rw [hlg']
    exact h.lg_min.trans (Nat.le_succ _)
  · dsimp only
    rw [hlg']
    exact hlg
  · dsimp only
    rw [hactive, hcap, hlg']
    exact (h.active_le.trans_eq (by rw [h.cap_eq])).trans (capacity_succ_le h.lg_min)
  · dsimp only
    rw [hentries]
    exact h.positive
  · dsimp only
    rw [hentries]
    exact h.estimates
  · dsimp only
    rw [hentries]
    exact h.budget

/-- A purge at the largest size makes room, and half of the sample pays for it. -/
theorem Crowded.purge (h : s.Crowded truth weight payers) (hfull : s.curMapCap < s.hashMap.numActive)
    (hlg : s.hashMap.lgLength = s.lgMaxMapSize) (hpayers : payers ≤ half s.sampleSize)
    {r : ReversePurgeItemHashMap T × ℕ} (hr : s.hashMap.Purged s.sampleSize r) :
    r.1.numActive < s.hashMap.numActive ∧
      Summary { s with hashMap := r.1, offset := s.offset + r.2 } truth weight payers := by
  have hcap := h.cap_eq
  have hsample : min (min s.sampleSize s.hashMap.numActive) maxSampleSize = s.sampleSize := by
    have hle : s.sampleSize ≤ s.curMapCap := by
      rw [h.sampleSize_eq, hcap, hlg]
      exact min_le_right _ _
    have hle' : s.sampleSize ≤ maxSampleSize := by
      rw [h.sampleSize_eq]
      exact min_le_left _ _
    rw [min_eq_left (hle.trans hfull.le), min_eq_left hle']
  have hhalf := hr.half
  rw [hsample] at hhalf
  obtain ⟨p, hp, hmedian⟩ := hr.mem
  have hless : r.1.numActive < s.hashMap.numActive := by
    rw [hr.inv.numActive_eq, hr.entries_eq, h.map.numActive_eq]
    exact card_decrement_lt hp hmedian.le
  refine ⟨hless, ⟨hr.inv, ?_, ?_, h.lg_max, ?_, h.sampleSize_eq, ?_, ?_⟩, h.weight_eq, ?_, ?_⟩
  · exact hr.lgLength_eq ▸ h.lg_min
  · exact hr.lgLength_eq ▸ h.lg_le
  · dsimp only
    rw [hr.lgLength_eq]
    exact hcap
  · exact Nat.le_of_lt_succ (hless.trans_le h.active_le)
  · intro q hq
    dsimp only at hq
    rw [hr.entries_eq] at hq
    exact Nat.pos_of_ne_zero (Multiset.mem_filter.mp hq).2
  · dsimp only
    rw [hr.entries_eq]
    exact h.estimates.decrement h.map.nodup _
  · dsimp only
    rw [hr.entries_eq]
    exact h.budget.decrement (hpayers.trans hhalf)

/-- No purge is wasted, so the panic is never reached. -/
theorem Crowded.maybeResizeOrPurge_outcome (h : s.Crowded truth weight payers) (hpos : 0 < payers)
    (hpayers : payers ≤ half s.sampleSize) (hweight : weight < 2 ^ 64) :
    Outcome Drifted s.maybeResizeOrPurge fun s' ↦
      s'.Summary truth weight payers ∧ s'.lgMaxMapSize = s.lgMaxMapSize := by
  have hcap := h.cap_eq
  have hroom : s.hashMap.numActive < 2 ^ s.hashMap.lgLength := by
    have hactive := h.active_le
    have hlt := capacity_lt h.lg_min
    omega
  rw [maybeResizeOrPurge]
  split_ifs with hfull hgrow
  · rw [h.map.length_eq, ← Nat.pow_succ]
    have hroom' : s.hashMap.numActive < 2 ^ (s.hashMap.lgLength + 1) :=
      hroom.trans (Nat.pow_lt_pow_right one_lt_two (Nat.lt_succ_self _))
    exact (ReversePurgeItemHashMap.resize_outcome h.map hroom').bind fun map _ ⟨hmap, hlg, hentries⟩ ↦
      Outcome.ok ⟨h.resize hgrow hmap hlg hentries, rfl⟩
  · have hsample : 0 < s.sampleSize := by
      by_contra hzero
      rw [half, Nat.eq_zero_of_not_pos hzero] at hpayers
      exact absurd hpayers (not_le.mpr hpos)
    have hlg := Nat.le_antisymm h.lg_le (not_lt.mp hgrow)
    refine (ReversePurgeItemHashMap.purge_outcome h.map hroom hsample (by omega)).bind
      fun r _ hr ↦ ?_
    obtain ⟨hless, hsummary⟩ := h.purge hfull hlg hpayers hr
    have hpaid : (s.offset + r.2) * 1 ≤ (s.offset + r.2) * payers := Nat.mul_le_mul_left _ hpos
    have hbudget : (s.offset + r.2) * payers + total r.1.entries ≤ weight := hsummary.budget
    have hadd : checkedAdd 64 s.offset r.2 = .ok (s.offset + r.2) := checkedAdd_of_lt (by omega)
    have hmax : s.maximumMapCapacity = .ok (2 ^ s.lgMaxMapSize * 3 / 4) := mapCapacityForLg_eq h.lg_max
    have hactive := h.active_le
    dsimp only
    rw [hadd, ok_bind, hmax, ok_bind, if_neg (by rw [← hlg, ← hcap]; omega)]
    exact Outcome.ok ⟨hsummary, rfl⟩
  · exact Outcome.ok ⟨⟨⟨h.map, h.lg_min, h.lg_le, h.lg_max, h.cap_eq, h.sampleSize_eq, not_lt.mp hfull,
      h.positive⟩, h.weight_eq, h.estimates, h.budget⟩, rfl⟩

/-- An update adds its count to the item. -/
theorem Summary.updateWithCount_outcome (h : s.Summary truth weight payers) (hpos : 0 < payers)
    (hpayers : payers ≤ half s.sampleSize) (item : T) {count : ℕ} (hweight : weight + count < 2 ^ 64) :
    Outcome Drifted (s.updateWithCount item count) fun s' ↦
      s'.Summary (fun x ↦ truth x + if x = item then count else 0) (weight + count) payers ∧
        s'.lgMaxMapSize = s.lgMaxMapSize := by
  rw [updateWithCount]
  split_ifs with hzero
  · subst hzero
    simp only [ite_self, Nat.add_zero]
    exact Outcome.ok ⟨h, rfl⟩
  · have hadd : checkedAdd 64 s.streamWeight count = .ok (s.streamWeight + count) :=
      checkedAdd_of_lt (h.weight_eq.symm ▸ hweight)
    have hroom : s.hashMap.numActive < 2 ^ s.hashMap.lgLength := by
      have hactive := h.inv.active_le
      have hlt := capacity_lt h.inv.lg_min
      rw [h.inv.cap_eq] at hactive
      omega
    have hle := count_le_total s.hashMap.entries item
    have hbudget : s.offset * payers + total s.hashMap.entries ≤ weight := h.budget
    rw [assert_pos (Nat.pos_of_ne_zero hzero), ok_bind, hadd, ok_bind]
    refine (ReversePurgeItemHashMap.adjustOrPutValue_outcome h.inv.map hroom item
      fun _ ↦ by omega).bind fun map _ hmap ↦ ?_
    have hcrowded : Crowded { s with streamWeight := s.streamWeight + count, hashMap := map }
        (fun x ↦ truth x + if x = item then count else 0) (weight + count) payers := by
      have hactive := hmap.put.card_le
      rw [← hmap.inv.numActive_eq, ← h.inv.map.numActive_eq] at hactive
      refine ⟨hmap.inv, ?_, ?_, h.inv.lg_max, ?_, h.inv.sampleSize_eq, ?_, ?_, ?_, ?_, ?_⟩
      · exact hmap.lgLength_eq ▸ h.inv.lg_min
      · exact hmap.lgLength_eq ▸ h.inv.lg_le
      · dsimp only
        rw [hmap.lgLength_eq]
        exact h.inv.cap_eq
      · exact hactive.trans (Nat.add_le_add_right h.inv.active_le 1)
      · exact hmap.put.pos (Nat.pos_of_ne_zero hzero) h.inv.positive
      · exact congrArg (· + count) h.weight_eq
      · exact h.estimates.add hmap.put.count
      · exact h.budget.add hmap.put.total
    exact hcrowded.maybeResizeOrPurge_outcome hpos hpayers hweight

/-- A borrowed item stands for its owned form. -/
theorem updateWithCountRef_eq [Borrow T Q] (s : FrequentItemsSketch T) (item : Q) (count : ℕ) :
    s.updateWithCountRef item count = s.updateWithCount (Borrow.toOwned item) count := by
  rw [updateWithCountRef, updateWithCount, ReversePurgeItemHashMap.adjustOrPutValueRef_eq]

/-! ## Merging -/

/-- The updates with the counters of another sketch. -/
theorem Summary.run_outcome (h : s.Summary truth weight payers) (hpos : 0 < payers)
    (hpayers : payers ≤ half s.sampleSize) (items : List (T × ℕ))
    (hweight : weight + total (items : Multiset (T × ℕ)) < 2 ^ 64) :
    Outcome Drifted (run (fun s (p : T × ℕ) ↦ s.updateWithCountRef p.1 p.2) s items) fun s' ↦
      s'.Summary (fun x ↦ truth x + count (items : Multiset (T × ℕ)) x) (weight + total (items : Multiset (T × ℕ))) payers ∧
        s'.lgMaxMapSize = s.lgMaxMapSize := by
  induction items using List.reverseRecOn with
  | nil => exact Outcome.ok ⟨h, rfl⟩
  | append_singleton items p ih =>
      have hcons : (↑(items ++ [p]) : Multiset (T × ℕ)) = p ::ₘ (items : Multiset (T × ℕ)) :=
        Multiset.coe_eq_coe.mpr (List.perm_append_singleton p items)
      rw [hcons, total_cons] at hweight ⊢
      rw [run_concat]
      refine (ih (by omega)).bind fun s₁ _ ⟨h₁, hlg⟩ ↦ ?_
      have hsample : s₁.sampleSize = s.sampleSize := by
        rw [h₁.inv.sampleSize_eq, hlg, h.inv.sampleSize_eq]
      rw [updateWithCountRef_eq]
      refine (h₁.updateWithCount_outcome hpos (hsample ▸ hpayers) p.1 (by omega)).mono
        fun s₂ _ ⟨h₂, hlg'⟩ ↦ ⟨?_, hlg'.trans hlg⟩
      have htruth : (fun x ↦ truth x + count (p ::ₘ (items : Multiset (T × ℕ))) x) =
          fun x ↦ truth x + count (items : Multiset (T × ℕ)) x + if x = p.1 then p.2 else 0 := by
        funext x
        rw [count_cons, Nat.add_assoc, Nat.add_comm (count _ x)]
        exact congrArg _ (congrArg (· + _) (if_congr eq_comm rfl rfl))
      rw [htruth, Nat.add_comm p.2, ← Nat.add_assoc]
      exact h₂

omit [DecidableEq Q] [Hash Q] in
/-- A sketch in its initial state has seen nothing. -/
theorem Summary.of_isInitialState (h : s.Summary truth weight payers)
    (hinit : s.isInitialState = true) : weight = 0 ∧ ∀ x, truth x = 0 := by
  simp only [isInitialState, Bool.and_eq_true, decide_eq_true_eq] at hinit
  obtain ⟨⟨hweight, hoffset⟩, hactive⟩ := hinit
  rw [h.inv.map.numActive_eq, Multiset.card_eq_zero] at hactive
  refine ⟨h.weight_eq.symm.trans hweight, fun x ↦ ?_⟩
  have hx := (h.estimates x).2
  rw [hactive, hoffset, count_zero] at hx
  exact Nat.le_zero.mp hx

/-- A merge adds all counts of the other stream. -/
theorem Summary.merge_outcome (h : s.Summary truth weight payers) (hpos : 0 < payers)
    (hpayers : payers ≤ half s.sampleSize) {other : FrequentItemsSketch T} {truth' : T → ℕ}
    {weight' : ℕ} (h' : other.Summary truth' weight' payers) (hweight : weight + weight' < 2 ^ 64) :
    Outcome Drifted (s.merge other) fun s' ↦
      s'.Summary (fun x ↦ truth x + truth' x) (weight + weight') payers ∧
        s'.lgMaxMapSize = s.lgMaxMapSize := by
  rw [merge]
  split_ifs with hinit
  · obtain ⟨hzero, hnone⟩ := h'.of_isInitialState hinit
    simp only [hzero, hnone, Nat.add_zero]
    exact Outcome.ok ⟨h, rfl⟩
  · have hadd : checkedAdd 64 s.streamWeight other.streamWeight = .ok (weight + weight') := by
      rw [h.weight_eq, h'.weight_eq]
      exact checkedAdd_of_lt hweight
    obtain ⟨items, hiter, hitems⟩ := ReversePurgeItemHashMap.iter_total h'.inv.map
    have hbudget' : other.offset * payers + total (items : Multiset (T × ℕ)) ≤ weight' := by
      rw [hitems]
      exact h'.budget
    rw [hadd, ok_bind, hiter, ok_bind]
    refine (h.run_outcome hpos hpayers items (by omega)).bind fun s₁ _ ⟨h₁, hlg⟩ ↦ ?_
    have hmerged : Budget payers s₁.hashMap.entries (s₁.offset + other.offset) (weight + weight') :=
      h₁.budget.merge hbudget'
    have hpaid : (s₁.offset + other.offset) * 1 ≤ (s₁.offset + other.offset) * payers :=
      Nat.mul_le_mul_left _ hpos
    have hoffset : checkedAdd 64 s₁.offset other.offset = .ok (s₁.offset + other.offset) := by
      unfold Budget at hmerged
      exact checkedAdd_of_lt (by omega)
    rw [hoffset, ok_bind]
    have hest : Estimates (items : Multiset (T × ℕ)) other.offset truth' := by
      rw [hitems]
      exact h'.estimates
    exact Outcome.ok ⟨⟨⟨h₁.inv.map, h₁.inv.lg_min, h₁.inv.lg_le, h₁.inv.lg_max, h₁.inv.cap_eq,
      h₁.inv.sampleSize_eq, h₁.inv.active_le, h₁.inv.positive⟩, rfl, h₁.estimates.merge hest,
      hmerged⟩, hlg⟩

end Keys

end FrequentItemsSketch

end DataSketches
