import DataSketches.Common.Codec
import DataSketches.Frequencies.Queries

/-!
# Serialization of frequent items sketches

A sketch is written with its counters in slot order and rebuilt by updates.  The
table is as large as it was, so no update of the rebuilding grows or purges it.
-/

namespace DataSketches

open Runs Counters LittleEndian ByteReader SketchSlice SketchBytes

/-- Serializing and deserializing items.  What is written is read back, whatever follows. -/
structure FrequentItemValue (T : Type) where
  serializeValue : T → List UInt8
  deserializeValue : List UInt8 → Except Error (T × List UInt8)
  read_write : ∀ item rest, deserializeValue (serializeValue item ++ rest) = .ok (item, rest)

/-- Built-in support for `u64`. -/
def u64Value : FrequentItemValue UInt64 where
  serializeValue item := leBytes 8 item.toNat
  deserializeValue bs := readLe (.insufficientData "failed to read u64 item bytes") 8 bs |>.map
    fun (item, rest) ↦ (UInt64.ofNat item, rest)
  read_write item rest := by
    have hlt : item.toNat < 256 ^ 8 := item.toNat_lt
    rw [readLe_append hlt]
    exact congrArg _ (congrArg (·, rest) UInt64.ofNat_toNat)

namespace FrequentItemsSketch

variable {T : Type}

def serialVersion : ℕ := 1

def preambleLongsEmpty : ℕ := 1

def preambleLongsNonempty : ℕ := 4

/-- Empty flag mask (both bits for compatibility). -/
def emptyFlagMask : ℕ := 5

def validateLgMapSizes (lgMax lgCur : ℕ) : Except Error Unit :=
  if lgCur < lgMinMapSize then
    .error (.deserial s!"lg_cur_map_size must be at least {lgMinMapSize}, got {lgCur}")
  else if lgMax > lgMaxMapSizeLimit then
    .error (.deserial s!"lg_max_map_size must be at most {lgMaxMapSizeLimit}, got {lgMax}")
  else if lgCur > lgMax then .error (.deserial "lg_cur_map_size exceeds lg_max_map_size")
  else .ok ()

/-- Serializes this sketch into a byte vector. -/
def serialize (value : FrequentItemValue T) (s : FrequentItemsSketch T) : List UInt8 :=
  if s.isInitialState then
    writeU8 preambleLongsEmpty ++ writeU8 serialVersion ++ writeU8 Family.frequency.id ++
      writeU8 s.lgMaxMapSize ++ writeU8 s.hashMap.lgLength ++ writeU8 emptyFlagMask ++ writeU16Le 0
  else
    writeU8 preambleLongsNonempty ++ writeU8 serialVersion ++ writeU8 Family.frequency.id ++
      writeU8 s.lgMaxMapSize ++ writeU8 s.hashMap.lgLength ++ writeU8 0 ++ writeU16Le 0 ++
      writeU32Le s.numActiveItems ++ writeU32Le 0 ++ writeU64Le s.streamWeight ++
      writeU64Le s.offset ++ s.hashMap.activeEntries.flatMap (fun p ↦ writeU64Le p.2) ++
      s.hashMap.activeEntries.flatMap fun p ↦ value.serializeValue p.1

/-- The loop that reads the weights from index `i` on. -/
def readWeights (activeItems : ℕ) : ℕ → ℕ → SketchSlice (List ℕ)
  | _, 0 => return []
  | i, n + 1 => do
      let weight ← readLe (.error (.insufficientData
        s!"expected {activeItems} weights, failed at index {i}")) 8
      return weight :: (← readWeights activeItems (i + 1) n)

/-- Reads an item from the front of a byte string. -/
abbrev ItemDecoder (T : Type) := List UInt8 → Except Error (T × List UInt8)

def readItem (decode : ItemDecoder T) (numItems i : ℕ) : SketchSlice T := fun bs ↦
  match decode bs with
  | .ok r => .ok r
  | .error _ => .error (.error (.insufficientData
      s!"expected {numItems} items, failed to read item at index {i}"))

/-- The loop that reads the items from index `i` on. -/
def readItems (decode : ItemDecoder T) (numItems : ℕ) : ℕ → ℕ → SketchSlice (List T)
  | _, 0 => return []
  | i, n + 1 => do
      let item ← readItem decode numItems i
      return item :: (← readItems decode numItems (i + 1) n)

/-- Each active item has an eight-byte weight. -/
def checkWeightBytes (activeItems : ℕ) : SketchSlice Unit := do
  let left ← remaining
  if activeItems * 8 ≤ left then return ()
  else err (.insufficientData s!"active_items ({activeItems}) exceeds the remaining {left} bytes")

/-- What an image says of a sketch that is not flagged empty. -/
structure Image (T : Type) where
  lgMax : ℕ
  lgCur : ℕ
  streamWeight : ℕ
  offset : ℕ
  /-- The items and their weights, in the order of the image. -/
  counters : List (T × ℕ)

/-- What follows the header of a sketch that is not flagged empty. -/
def readImage (decode : ItemDecoder T) (lgMax lgCur : ℕ) : SketchSlice (Image T) := do
  let activeItems ← readU32Le "active_items"
  let curMapCap ← liftChecked (mapCapacityForLg lgCur)
  if activeItems > curMapCap then
    err (.deserial s!"active_items ({activeItems}) exceeds the capacity implied by lg_cur_map_size ({lgCur}): at most {curMapCap}")
  else
    let _ ← readU32Le "<unused>"
    let streamWeight ← SketchSlice.readU64Le "stream_weight"
    let offset ← SketchSlice.readU64Le "offset"
    checkWeightBytes activeItems
    let values ← readWeights activeItems 0 activeItems
    let items ← readItems decode activeItems 0 activeItems
    if items.length ≠ activeItems then
      err (.deserial "item count mismatch during deserialization")
    else return ⟨lgMax, lgCur, streamWeight, offset, items.zip values⟩

/-- What the header says: the sizes of the table, and whether the sketch is flagged empty. -/
structure Header where
  lgMax : ℕ
  lgCur : ℕ
  isEmpty : Bool

def readHeader : SketchSlice Header := do
  let preLongs ← readU8 "pre_longs"
  let preLongs := preLongs &&& 0x3f
  let serialVer ← readU8 "serial_version"
  let family ← readU8 "family"
  let lgMax ← readU8 "lg_max_map_size"
  let lgCur ← readU8 "lg_cur_map_size"
  let flags ← readU8 "flags"
  let _ ← readU16Le "<unused>"
  liftResult (Family.frequency.validateId family)
  liftResult (ensureSerialVersionIs serialVersion serialVer)
  liftResult (validateLgMapSizes lgMax lgCur)
  if flags &&& emptyFlagMask ≠ 0 then
    liftResult (ensurePreambleLongsIn [preambleLongsEmpty] preLongs)
    return ⟨lgMax, lgCur, true⟩
  else
    liftResult (ensurePreambleLongsIn [preambleLongsNonempty] preLongs)
    return ⟨lgMax, lgCur, false⟩

variable [DecidableEq T] [Hash T]

/-- Rebuilds the counters by updates, and restores the totals. -/
def Image.restore (image : Image T) : Checked (FrequentItemsSketch T) := do
  let sketch ← withLgMapSizes image.lgMax image.lgCur
  let sketch ← run (fun s (p : T × ℕ) ↦ s.updateWithCount p.1 p.2) sketch image.counters
  return { sketch with streamWeight := image.streamWeight, offset := image.offset }

def deserializer (decode : ItemDecoder T) : SketchSlice (FrequentItemsSketch T) := do
  let header ← readHeader
  if header.isEmpty then liftChecked (withLgMapSizes header.lgMax lgMinMapSize)
  else liftChecked (← readImage decode header.lgMax header.lgCur).restore

def deserializeInner (decode : ItemDecoder T) (bytes : List UInt8) :
    Except Fault (FrequentItemsSketch T) := Prod.fst <$> deserializer decode bytes

/-- Deserializes a sketch from bytes. -/
def deserialize (value : FrequentItemValue T) (bytes : List UInt8) :
    Except Fault (FrequentItemsSketch T) := deserializeInner value.deserializeValue bytes

/-! ## Reading back -/

variable {s : FrequentItemsSketch T} {truth : T → ℕ} {weight payers : ℕ}

omit [DecidableEq T] [Hash T] in
theorem readWeights_write (activeItems : ℕ) {items : List (T × ℕ)} (h : ∀ p ∈ items, p.2 < 2 ^ 64)
    (i : ℕ) (rest : List UInt8) :
    readWeights activeItems i items.length
      (items.flatMap (fun p ↦ writeU64Le p.2) ++ rest) = .ok (items.map Prod.snd, rest) := by
  induction items generalizing i with
  | nil => rfl
  | cons p items ih =>
      have hp : p.2 < 256 ^ 8 := h p List.mem_cons_self
      rw [List.length_cons, readWeights, List.flatMap_cons, List.append_assoc, writeU64Le,
        bind_of_ok (readLe_append hp _),
        bind_of_ok (ih (fun q hq ↦ h q (List.mem_cons_of_mem p hq)) (i + 1))]
      rfl

omit [DecidableEq T] [Hash T] in
theorem readItems_write (value : FrequentItemValue T) (numItems : ℕ) (items : List (T × ℕ)) (i : ℕ)
    (rest : List UInt8) : readItems value.deserializeValue numItems i items.length
      (items.flatMap (fun p ↦ value.serializeValue p.1) ++ rest) = .ok (items.map Prod.fst, rest) := by
  induction items generalizing i with
  | nil => rfl
  | cons p items ih =>
      have hread : ∀ tail, readItem value.deserializeValue numItems i (value.serializeValue p.1 ++ tail) =
          .ok (p.1, tail) := by
        intro tail
        rw [readItem, value.read_write]
      rw [List.length_cons, readItems, List.flatMap_cons, List.append_assoc, bind_of_ok (hread _),
        bind_of_ok (ih (i + 1))]
      rfl

/-- A sketch that is being rebuilt from the counters of an image: no update has grown or purged
the table. -/
structure Loaded (lgMax lgCur : ℕ) (items : List (T × ℕ)) (s : FrequentItemsSketch T) : Prop where
  inv : s.Inv
  lgMax_eq : s.lgMaxMapSize = lgMax
  lgCur_eq : s.hashMap.lgLength = lgCur
  offset_eq : s.offset = 0
  weight_eq : s.streamWeight = total (items : Multiset (T × ℕ))
  weight_lt : total (items : Multiset (T × ℕ)) < 2 ^ 64
  count_eq : ∀ x, count s.hashMap.entries x = count (items : Multiset (T × ℕ)) x
  total_eq : total s.hashMap.entries = total (items : Multiset (T × ℕ))
  active_le : s.hashMap.numActive ≤ items.length

/-- The panics of the rebuilding: the weights of the image exceed 64 bits. -/
def Overfull (items : List (T × ℕ)) (p : Panic) : Prop :=
  Drifted p ∨ 2 ^ 64 ≤ total (items : Multiset (T × ℕ))

omit [DecidableEq T] [Hash T] in
theorem total_concat (items : List (T × ℕ)) (p : T × ℕ) :
    total (↑(items ++ [p]) : Multiset (T × ℕ)) = total (items : Multiset (T × ℕ)) + p.2 := by
  have hsnoc : (↑(items ++ [p]) : Multiset (T × ℕ)) = p ::ₘ ↑items :=
    Multiset.coe_eq_coe.mpr (List.perm_append_singleton p items)
  rw [hsnoc, total_cons, Nat.add_comm]

omit [Hash T] in
theorem count_concat (items : List (T × ℕ)) (p : T × ℕ) (x : T) :
    count (↑(items ++ [p]) : Multiset (T × ℕ)) x =
      count (items : Multiset (T × ℕ)) x + if x = p.1 then p.2 else 0 := by
  have hsnoc : (↑(items ++ [p]) : Multiset (T × ℕ)) = p ::ₘ ↑items :=
    Multiset.coe_eq_coe.mpr (List.perm_append_singleton p items)
  rw [hsnoc, count_cons, Nat.add_comm]
  exact congrArg _ (if_congr eq_comm rfl rfl)

/-- An update that the table has room for. -/
theorem Loaded.update_outcome {lgMax lgCur : ℕ} {items : List (T × ℕ)} (h : s.Loaded lgMax lgCur items)
    (p : T × ℕ) (hroom : items.length < 2 ^ lgCur * 3 / 4) :
    Outcome (Overfull (items ++ [p])) (s.updateWithCount p.1 p.2)
      (Loaded lgMax lgCur (items ++ [p])) := by
  rw [updateWithCount]
  split_ifs with hzero
  · refine Outcome.ok ⟨h.inv, h.lgMax_eq, h.lgCur_eq, h.offset_eq, ?_, ?_, fun x ↦ ?_, ?_, ?_⟩
    · rw [total_concat, hzero, Nat.add_zero, h.weight_eq]
    · rw [total_concat, hzero, Nat.add_zero]
      exact h.weight_lt
    · rw [count_concat, hzero, ite_self, Nat.add_zero, h.count_eq]
    · rw [total_concat, hzero, Nat.add_zero, h.total_eq]
    · rw [List.length_append]
      exact h.active_le.trans (Nat.le_add_right _ _)
  rw [assert_pos (Nat.pos_of_ne_zero hzero), ok_bind]
  by_cases hfit : s.streamWeight + p.2 < 2 ^ 64
  swap
  · -- the sum of the weights exceeds 64 bits
    rw [checkedAdd, if_neg hfit]
    refine Outcome.error (Or.inr ?_)
    rw [total_concat, ← h.weight_eq]
    exact not_lt.mp hfit
  rw [checkedAdd_of_lt hfit, ok_bind]
  have hlen : s.hashMap.numActive < 2 ^ lgCur * 3 / 4 := h.active_le.trans_lt hroom
  have hfree : s.hashMap.numActive < 2 ^ s.hashMap.lgLength := by
    have hlt := capacity_lt h.inv.lg_min
    rw [h.lgCur_eq] at hlt ⊢
    omega
  refine ((ReversePurgeItemHashMap.adjustOrPutValue_outcome h.inv.map hfree p.1 fun _ ↦ ?_).weaken
    fun _ hp ↦ Or.inl hp).bind fun map _ hadjusted ↦ ?_
  · have hle := count_le_total s.hashMap.entries p.1
    rw [h.total_eq, ← h.weight_eq] at hle
    omega
  have hcard : map.numActive ≤ s.hashMap.numActive + 1 := by
    rw [hadjusted.inv.numActive_eq, h.inv.map.numActive_eq]
    exact hadjusted.put.card_le
  have hcap : map.numActive ≤ s.curMapCap := by
    rw [h.inv.cap_eq, h.lgCur_eq]
    omega
  rw [maybeResizeOrPurge, if_neg (not_lt.mpr hcap)]
  refine Outcome.ok ⟨⟨hadjusted.inv, ?_, ?_, h.inv.lg_max, ?_, h.inv.sampleSize_eq, hcap, ?_⟩,
    h.lgMax_eq, hadjusted.lgLength_eq.trans h.lgCur_eq, h.offset_eq, ?_, ?_, fun x ↦ ?_, ?_, ?_⟩
  · exact hadjusted.lgLength_eq ▸ h.inv.lg_min
  · exact hadjusted.lgLength_eq ▸ h.inv.lg_le
  · dsimp only
    rw [hadjusted.lgLength_eq]
    exact h.inv.cap_eq
  · exact hadjusted.put.pos (Nat.pos_of_ne_zero hzero) h.inv.positive
  · rw [total_concat, ← h.weight_eq]
  · rw [total_concat, ← h.weight_eq]
    exact hfit
  · rw [hadjusted.put.count, count_concat, h.count_eq]
  · rw [hadjusted.put.total, total_concat, h.total_eq]
  · rw [List.length_append]
    exact hcard.trans (Nat.add_le_add_right h.active_le 1)

/-- The updates of the rebuilding. -/
theorem run_outcome_loaded {lgMax lgCur : ℕ} (h : s.Loaded lgMax lgCur []) {items : List (T × ℕ)}
    (hroom : items.length ≤ 2 ^ lgCur * 3 / 4) :
    Outcome (Overfull items) (run (fun s (p : T × ℕ) ↦ s.updateWithCount p.1 p.2) s items)
      (Loaded lgMax lgCur items) := by
  induction items using List.reverseRecOn with
  | nil => exact Outcome.ok h
  | append_singleton items p ih =>
      rw [List.length_append, List.length_singleton] at hroom
      rw [run_concat]
      refine ((ih (Nat.le_of_succ_le hroom)).weaken fun e he ↦ ?_).bind fun s₁ _ h₁ ↦
        h₁.update_outcome p hroom
      rcases he with he | he
      · exact Or.inl he
      · refine Or.inr ?_
        rw [total_concat]
        exact he.trans (Nat.le_add_right _ _)

/-- What deserializing a serialized sketch gives: the same counters, and the same table unless
there was nothing to write. -/
structure Restored (s : FrequentItemsSketch T) (truth : T → ℕ) (weight payers : ℕ)
    (s' : FrequentItemsSketch T) : Prop where
  summary : s'.Summary truth weight payers
  lgMax_eq : s'.lgMaxMapSize = s.lgMaxMapSize
  offset_eq : s'.offset = s.offset
  entries_eq : s'.hashMap.entries = s.hashMap.entries
  lgCur_eq : s.isInitialState = false → s'.hashMap.lgLength = s.hashMap.lgLength

omit [DecidableEq T] in
theorem Inv.validate_eq (h : s.Inv) :
    validateLgMapSizes s.lgMaxMapSize s.hashMap.lgLength = .ok () := by
  unfold validateLgMapSizes
  rw [if_neg (not_lt.mpr h.lg_min), if_neg (not_lt.mpr h.lg_max), if_neg (not_lt.mpr h.lg_le)]

/-- What the image of a sketch says. -/
def image (s : FrequentItemsSketch T) : Image T :=
  ⟨s.lgMaxMapSize, s.hashMap.lgLength, s.streamWeight, s.offset, s.hashMap.activeEntries⟩

/-- The header of a sketch, with what follows it. -/
theorem Inv.readHeader_write (h : s.Inv) {preLongs flags : ℕ} (hpre : preLongs < 2 ^ 6)
    (hflags : flags < 2 ^ 8)
    (hlongs : preLongs = if flags &&& emptyFlagMask ≠ 0 then preambleLongsEmpty
      else preambleLongsNonempty) (rest : List UInt8) :
    readHeader (writeU8 preLongs ++ (writeU8 serialVersion ++ (writeU8 Family.frequency.id ++
      (writeU8 s.lgMaxMapSize ++ (writeU8 s.hashMap.lgLength ++ (writeU8 flags ++
        (writeU16Le 0 ++ rest))))))) =
      .ok (⟨s.lgMaxMapSize, s.hashMap.lgLength, decide (flags &&& emptyFlagMask ≠ 0)⟩, rest) := by
  have hmax : s.lgMaxMapSize < 2 ^ 8 := h.lg_max.trans_lt (by decide)
  have hcur : s.hashMap.lgLength < 2 ^ 8 := h.lg_le.trans_lt hmax
  have hid : Family.frequency.validateId Family.frequency.id = .ok () := rfl
  have hvers : ensureSerialVersionIs serialVersion serialVersion = .ok () := rfl
  have hmask : preLongs &&& 0x3f = preLongs := by
    rw [show (0x3f : ℕ) = 2 ^ 6 - 1 from rfl, Nat.and_two_pow_sub_one_eq_mod, Nat.mod_eq_of_lt hpre]
  rw [readHeader, bind_of_ok (readU8_write (hpre.trans (by decide)) _ _),
    bind_of_ok (readU8_write (show serialVersion < 2 ^ 8 by decide) _ _),
    bind_of_ok (readU8_write (show Family.frequency.id < 2 ^ 8 by decide) _ _),
    bind_of_ok (readU8_write hmax _ _), bind_of_ok (readU8_write hcur _ _),
    bind_of_ok (readU8_write hflags _ _),
    bind_of_ok (readU16Le_write (show 0 < 2 ^ 16 by decide) _ _),
    hid, hvers, h.validate_eq, bind_of_ok (liftResult_ok _ _), bind_of_ok (liftResult_ok _ _),
    bind_of_ok (liftResult_ok _ _), hmask]
  by_cases hempty : flags &&& emptyFlagMask ≠ 0
  · rw [if_pos hempty] at hlongs
    have hensure : ensurePreambleLongsIn [preambleLongsEmpty] preLongs = .ok () := by
      rw [hlongs]
      rfl
    rw [if_pos hempty, hensure, bind_of_ok (liftResult_ok _ _), decide_eq_true hempty, pure_apply]
  · rw [if_neg hempty] at hlongs
    have hensure : ensurePreambleLongsIn [preambleLongsNonempty] preLongs = .ok () := by
      rw [hlongs]
      rfl
    rw [if_neg hempty, hensure, bind_of_ok (liftResult_ok _ _), decide_eq_false hempty, pure_apply]

/-- What follows the header is read back. -/
theorem Summary.readImage_write (h : s.Summary truth weight payers) (hpayers : 0 < payers)
    (hweight : weight < 2 ^ 64) (value : FrequentItemValue T) :
    readImage value.deserializeValue s.lgMaxMapSize s.hashMap.lgLength
      (writeU32Le s.numActiveItems ++ (writeU32Le 0 ++ (writeU64Le s.streamWeight ++
        (writeU64Le s.offset ++ (s.hashMap.activeEntries.flatMap (fun p ↦ writeU64Le p.2) ++
          s.hashMap.activeEntries.flatMap fun p ↦ value.serializeValue p.1))))) =
      .ok (s.image, []) := by
  have hlgle : s.hashMap.lgLength ≤ lgMaxMapSizeLimit := h.inv.lg_le.trans h.inv.lg_max
  have hcoe : (↑s.hashMap.activeEntries : Multiset (T × ℕ)) = s.hashMap.entries := rfl
  have hlen : s.numActiveItems = s.hashMap.activeEntries.length := by
    rw [numActiveItems, h.inv.map.numActive_eq, ← hcoe, Multiset.coe_card]
  have hactive : s.numActiveItems ≤ 2 ^ s.hashMap.lgLength * 3 / 4 := h.inv.cap_eq ▸ h.inv.active_le
  have hpow : 2 ^ s.hashMap.lgLength ≤ 2 ^ lgMaxMapSizeLimit := Nat.pow_le_pow_right two_pos hlgle
  have hnum : s.numActiveItems < 2 ^ 32 := by
    have hlimit : 2 ^ lgMaxMapSizeLimit < 2 ^ 32 := by decide
    omega
  have htotal := h.total_add_offset_le hpayers
  have hvalues : ∀ p ∈ s.hashMap.activeEntries, p.2 < 2 ^ 64 := by
    intro p hp
    have hle : p.2 ≤ total s.hashMap.entries := Multiset.single_le_sum (fun _ _ ↦ Nat.zero_le _) _
      (Multiset.mem_map_of_mem Prod.snd (hcoe ▸ hp))
    omega
  have hbytes : ∀ tail : List UInt8, s.numActiveItems * 8 ≤
      (s.hashMap.activeEntries.flatMap (fun p ↦ writeU64Le p.2) ++ tail).length := by
    intro tail
    have height : (s.hashMap.activeEntries.flatMap fun p ↦ writeU64Le p.2).length =
        s.hashMap.activeEntries.length * 8 := by
      rw [List.length_flatMap]
      exact (List.sum_eq_card_nsmul _ 8 fun n hn ↦ by
        obtain ⟨p, -, rfl⟩ := List.mem_map.mp hn
        exact length_leBytes 8 p.2).trans (by rw [List.length_map]; rfl)
    rw [List.length_append, height, hlen]
    exact Nat.le_add_right _ _
  have hcheck : ∀ tail : List UInt8, checkWeightBytes s.numActiveItems
      (s.hashMap.activeEntries.flatMap (fun p ↦ writeU64Le p.2) ++ tail) =
        .ok ((), s.hashMap.activeEntries.flatMap (fun p ↦ writeU64Le p.2) ++ tail) := by
    intro tail
    rw [checkWeightBytes, bind_of_ok (remaining_apply _), if_pos (hbytes tail), pure_apply]
  have hitems := readItems_write value s.numActiveItems s.hashMap.activeEntries 0 []
  rw [List.append_nil] at hitems
  have hweights := fun rest ↦ readWeights_write s.numActiveItems hvalues 0 rest
  rw [← hlen] at hitems hweights
  have hzip : (s.hashMap.activeEntries.map Prod.fst).zip (s.hashMap.activeEntries.map Prod.snd) =
      s.hashMap.activeEntries := (List.zip_of_prod rfl rfl).symm
  rw [readImage, bind_of_ok (readU32Le_write hnum _ _), mapCapacityForLg_eq hlgle,
    bind_of_ok (liftChecked_ok _ _), if_neg (not_lt.mpr hactive),
    bind_of_ok (readU32Le_write (show 0 < 2 ^ 32 by decide) _ _),
    bind_of_ok (readU64Le_write (show s.streamWeight < 2 ^ 64 by rw [h.weight_eq]; exact hweight) _ _),
    bind_of_ok (readU64Le_write (show s.offset < 2 ^ 64 by omega) _ _), bind_of_ok (hcheck _),
    bind_of_ok (hweights _), bind_of_ok hitems,
    if_neg (by rw [List.length_map, hlen]; exact not_not.mpr rfl), hzip, pure_apply]
  rfl

/-- A new sketch of the size of an image, before any update. -/
theorem loaded_withLgMapSizes {lgMax lgCur : ℕ} (hcur : lgMinMapSize ≤ lgCur) (hle : lgCur ≤ lgMax)
    (hmax : lgMax ≤ lgMaxMapSizeLimit) : ∃ s : FrequentItemsSketch T,
      withLgMapSizes lgMax lgCur = .ok s ∧ s.Loaded lgMax lgCur [] := by
  obtain ⟨s, hnew, hsummary, hlg, hcur', hoffset, hentries⟩ :=
    withLgMapSizes_spec (T := T) hcur (hle.trans (le_max_left lgMax lgMinMapSize))
      (max_le hmax (by decide)) 1
  rw [max_eq_left (hcur.trans hle)] at hlg
  refine ⟨s, hnew, hsummary.inv, hlg, hcur', hoffset, hsummary.weight_eq, ?_, fun x ↦ ?_, ?_, ?_⟩
  · exact Nat.two_pow_pos 64
  · rw [hentries]
    rfl
  · rw [hentries]
    rfl
  · rw [hsummary.inv.map.numActive_eq, hentries]
    rfl

/-- The counters of an image are restored by updates that neither grow nor purge the table. -/
theorem Summary.restore_outcome (h : s.Summary truth weight payers) (hpayers : 0 < payers)
    (hweight : weight < 2 ^ 64) :
    Outcome Drifted s.image.restore (s.Restored truth weight payers) := by
  have hlgle : s.hashMap.lgLength ≤ lgMaxMapSizeLimit := h.inv.lg_le.trans h.inv.lg_max
  have hcoe : (↑s.hashMap.activeEntries : Multiset (T × ℕ)) = s.hashMap.entries := rfl
  have hactive : s.hashMap.activeEntries.length ≤ 2 ^ s.hashMap.lgLength * 3 / 4 := by
    rw [← Multiset.coe_card, hcoe, ← h.inv.map.numActive_eq, ← h.inv.cap_eq]
    exact h.inv.active_le
  have htotal := h.total_add_offset_le hpayers
  obtain ⟨s₀, hnew, hloaded⟩ :=
    loaded_withLgMapSizes (T := T) h.inv.lg_min h.inv.lg_le h.inv.lg_max
  have hnew' : withLgMapSizes s.image.lgMax s.image.lgCur = .ok s₀ := hnew
  rw [Image.restore, hnew', ok_bind]
  refine ((run_outcome_loaded hloaded hactive).weaken fun e he ↦ ?_).bind fun r _ hr ↦ ?_
  · rcases he with he | he
    · exact he
    · rw [hcoe] at he
      omega
  have hentries : r.hashMap.entries = s.hashMap.entries :=
    eq_of_count_eq hr.inv.map.nodup h.inv.map.nodup hr.inv.positive h.inv.positive hr.count_eq
  refine Outcome.ok ⟨⟨⟨hr.inv.map, hr.inv.lg_min, hr.inv.lg_le, hr.inv.lg_max, hr.inv.cap_eq,
    hr.inv.sampleSize_eq, hr.inv.active_le, hr.inv.positive⟩, h.weight_eq, ?_, ?_⟩, hr.lgMax_eq, rfl,
    hentries, fun _ ↦ hr.lgCur_eq⟩
  · dsimp only
    rw [hentries]
    exact h.estimates
  · dsimp only
    rw [hentries]
    exact h.budget

/-- A sketch is read back as it was written. -/
theorem Summary.deserialize_outcome (h : s.Summary truth weight payers) (hpayers : 0 < payers)
    (hweight : weight < 2 ^ 64) (value : FrequentItemValue T) :
    Outcome (Panicked Drifted) (deserialize value (s.serialize value))
      (s.Restored truth weight payers) := by
  refine outcome_fst ?_
  cases hinit : s.isInitialState with
  | true =>
      obtain ⟨hzero, hnone⟩ := h.of_isInitialState hinit
      obtain ⟨s₀, hnew, hsummary₀, hmax₀, hcur₀, hoffset₀, hentries₀⟩ :=
        withLgMapSizes_spec (T := T) (le_refl lgMinMapSize)
          (le_max_right s.lgMaxMapSize lgMinMapSize) (max_le h.inv.lg_max (by decide)) payers
      have hheader := h.inv.readHeader_write (show preambleLongsEmpty < 2 ^ 6 by decide)
        (show emptyFlagMask < 2 ^ 8 by decide) rfl []
      rw [List.append_nil] at hheader
      rw [serialize, if_pos hinit]
      simp only [List.append_assoc]
      rw [deserializer, bind_of_ok hheader, decide_eq_true (by decide), if_pos rfl, hnew,
        liftChecked_ok]
      have htruth : truth = fun _ ↦ 0 := funext hnone
      have hactive : s.hashMap.entries = 0 := by
        simp only [isInitialState, Bool.and_eq_true, decide_eq_true_eq] at hinit
        rw [← Multiset.card_eq_zero, ← h.inv.map.numActive_eq]
        exact hinit.2
      have hoffset : s.offset = 0 := by
        simp only [isInitialState, Bool.and_eq_true, decide_eq_true_eq] at hinit
        exact hinit.1.2
      refine Outcome.ok ⟨?_, ?_, hoffset₀.trans hoffset.symm, hentries₀.trans hactive.symm, ?_⟩
      · rw [htruth, hzero]
        exact hsummary₀
      · rw [hmax₀]
        exact max_eq_left (h.inv.lg_min.trans h.inv.lg_le)
      · intro hno
        exact absurd (hinit.symm.trans hno) (by decide)
  | false =>
      have hheader := h.inv.readHeader_write (show preambleLongsNonempty < 2 ^ 6 by decide)
        (show 0 < 2 ^ 8 by decide) rfl
      rw [serialize, if_neg (ne_true_of_eq_false hinit)]
      simp only [List.append_assoc]
      rw [deserializer, bind_of_ok (hheader _), decide_eq_false (by decide),
        if_neg Bool.false_ne_true, bind_of_ok (h.readImage_write hpayers hweight value)]
      exact outcome_liftChecked (h.restore_outcome hpayers hweight) []

end FrequentItemsSketch

end DataSketches
