import DataSketches.CountMin.Sketch

/-!
# Serialization of CountMin sketches

A sketch with a total of zero is written without its counters.  It is read back
since the total dominates every counter.
-/

namespace DataSketches

namespace CountMinSketch

open Runs LittleEndian ByteReader SketchSlice SketchBytes

variable {t : CountMinType}

def preambleLongsShort : ℕ := 2

def serialVersion : ℕ := 1

def flagsIsEmpty : ℕ := 1 <<< 0

/-- Serializes this sketch into the CountMin format. -/
def serialize (f : CountMinSketch t) : Checked (List UInt8) := do
  let expected ← computeSeedHash f.seed
  assert (f.seedHash = expected) "assertion `left == right` failed"
  return writeU8 preambleLongsShort ++ writeU8 serialVersion ++ writeU8 Family.countmin.id ++
    writeU8 (if f.isEmpty then flagsIsEmpty else 0) ++ writeU32Le 0 ++
    writeU32Le f.numBuckets.toNat ++ writeU8 f.numHashes.toNat ++ writeU16Le f.seedHash ++
    writeU8 0 ++
    (if f.isEmpty then [] else f.totalWeight.toBytes ++ f.counts.flatMap CountMinValue.toBytes)

def readValue (t : CountMinType) (tag : String) : SketchSlice (CountMinValue t) := do
  let bs ← readExact (insufficientData tag) 8
  liftResult (CountMinValue.tryFromBytes t bs)

/-- The loop that reads the counters. -/
def readValues (t : CountMinType) : ℕ → SketchSlice (List (CountMinValue t))
  | 0 => return []
  | n + 1 => do
      let value ← readValue t "counts"
      return value :: (← readValues t n)

def entriesForConfigChecked (numHashes : UInt8) (numBuckets : UInt32) : Except Error ℕ :=
  if numHashes = 0 then .error (.deserial "num_hashes must be at least 1")
  else if numBuckets < 3 then .error (.deserial "num_buckets must be at least 3")
  else
    let entries := numHashes.toNat * numBuckets.toNat
    if entries ≥ maxTableEntries then
      .error (.deserial s!"num_hashes * num_buckets must be < {maxTableEntries}")
    else .ok entries

def deserializer (t : CountMinType) (seed : UInt64) : SketchSlice (CountMinSketch t) := do
  let preambleLongs ← readU8 "preamble_longs"
  let version ← readU8 "serial_version"
  let familyId ← readU8 "family_id"
  let flags ← readU8 "flags"
  let _ ← readU32Le "<unused>"
  liftResult (Family.countmin.validateId familyId)
  liftResult (ensureSerialVersionIs serialVersion version)
  liftResult (ensurePreambleLongsIn [preambleLongsShort] preambleLongs)
  let numBuckets := UInt32.ofNat (← readU32Le "num_buckets")
  let numHashes := UInt8.ofNat (← readU8 "num_hashes")
  let seedHash ← readU16Le "seed_hash"
  let _ ← readU8 "unused8"
  let expected ← liftChecked (computeSeedHash seed)
  liftResult (checkSeedHash expected seedHash "deserialized CountMinSketch" .invalidData)
  let entries ← liftResult (entriesForConfigChecked numHashes numBuckets)
  let sketch ← liftChecked (make numHashes numBuckets seed entries)
  if flags &&& flagsIsEmpty ≠ 0 then return sketch
  else
    let totalWeight ← readValue t "total_weight"
    let counts ← readValues t sketch.counts.length
    return { sketch with totalWeight := totalWeight, counts := counts }

/-- Deserializes a sketch from bytes using the provided seed. -/
def deserializeWithSeed (t : CountMinType) (bytes : List UInt8) (seed : UInt64) :
    Except Fault (CountMinSketch t) := Prod.fst <$> deserializer t seed bytes

/-! ## Reading back -/

variable {f : CountMinSketch t}

theorem readValue_write (a : CountMinValue t) (tag : String) (rest : List UInt8) :
    readValue t tag (a.toBytes ++ rest) = .ok (a, rest) := by
  have hlen : a.toBytes.length = 8 := length_leBytes 8 _
  rw [readValue, bind_apply, readExact_append hlen, ok_bind, CountMinValue.tryFromBytes_toBytes]
  rfl

theorem readValues_write (counts : List (CountMinValue t)) (rest : List UInt8) :
    readValues t counts.length (counts.flatMap CountMinValue.toBytes ++ rest) =
      .ok (counts, rest) := by
  induction counts with
  | nil => rfl
  | cons c counts ih =>
      rw [List.length_cons, readValues, List.flatMap_cons, List.append_assoc, bind_apply,
        readValue_write, ok_bind, bind_apply, ih, ok_bind]
      rfl

/-- The decoder accepts the sizes of every sketch. -/
theorem Shaped.entriesForConfigChecked_eq (hf : f.Shaped) :
    entriesForConfigChecked f.numHashes f.numBuckets =
      .ok (f.numHashes.toNat * f.numBuckets.toNat) := by
  obtain ⟨hh, hb, he⟩ := (entriesForConfig_eq_ok.mp hf.config).1
  have hne : f.numHashes ≠ 0 := by
    intro hzero
    rw [hzero] at hh
    exact absurd hh (by decide)
  unfold entriesForConfigChecked
  rw [if_neg hne, if_neg (UInt32.not_lt.mpr hb), if_neg (not_le.mpr he)]

/-- A dominating total of zero leaves no counter. -/
theorem Dominated.counts_of_isEmpty (hdom : f.Dominated) (hempty : f.isEmpty = true) :
    ∀ c ∈ f.counts, c = .zero := by
  intro c hc
  have htotal : f.totalWeight = .zero := of_decide_eq_true hempty
  have hle := hdom c hc
  rw [htotal, CountMinValue.val_zero] at hle
  exact CountMinValue.ext (abs_nonpos_iff.mp hle)

/-- The flags say whether the sketch is empty. -/
theorem flags_write (empty : Bool) :
    (if empty then flagsIsEmpty else 0) < 2 ^ 8 ∧
      decide ((if empty then flagsIsEmpty else 0) &&& flagsIsEmpty ≠ 0) = empty := by
  cases empty <;> decide

/-- A sketch that counts nothing unless its total is positive is read back as it was written. -/
theorem deserialize_serialize_of_zero (hf : f.Shaped)
    (hzero : f.isEmpty = true → ∀ c ∈ f.counts, c = .zero) :
    ∃ bytes, f.serialize = .ok bytes ∧ deserializeWithSeed t bytes f.seed = .ok f := by
  refine ⟨_, by rw [serialize, hf.seedHash_eq, ok_bind, assert_pos rfl]; rfl, ?_⟩
  obtain ⟨hflags, hflag⟩ := flags_write f.isEmpty
  have hpre : preambleLongsShort < 2 ^ 8 := by decide
  have hver : serialVersion < 2 ^ 8 := by decide
  have hfam : Family.countmin.id < 2 ^ 8 := by decide
  have hid : Family.countmin.validateId Family.countmin.id = .ok () := rfl
  have hvers : ensureSerialVersionIs serialVersion serialVersion = .ok () := rfl
  have hlongs : ensurePreambleLongsIn [preambleLongsShort] preambleLongsShort = .ok () := rfl
  have hsh : f.seedHash < 2 ^ 16 := (computeSeedHash_range hf.seedHash_eq).2
  have hmake : make f.numHashes f.numBuckets f.seed (f.numHashes.toNat * f.numBuckets.toNat) =
      .ok ({ f with totalWeight := .zero, counts := List.replicate f.counts.length .zero } :
        CountMinSketch t) := by
    rw [make_eq_ok, ← hf.length_eq]
    exact ⟨⟨rfl, rfl, rfl⟩, hf.seedHash_eq, hf.hashSeeds_eq, rfl, rfl⟩
  have hseed := fun bs ↦ liftChecked_eq_ok.mpr
    (⟨hf.seedHash_eq, rfl⟩ : computeSeedHash f.seed = .ok f.seedHash ∧ bs = bs)
  have hnew := fun bs ↦ liftChecked_eq_ok.mpr (⟨hmake, rfl⟩ : _ ∧ bs = bs)
  have hread : ∃ rest, deserializer t f.seed (writeU8 preambleLongsShort ++ writeU8 serialVersion ++
      writeU8 Family.countmin.id ++ writeU8 (if f.isEmpty then flagsIsEmpty else 0) ++
      writeU32Le 0 ++ writeU32Le f.numBuckets.toNat ++ writeU8 f.numHashes.toNat ++
      writeU16Le f.seedHash ++ writeU8 0 ++ (if f.isEmpty then [] else
        f.totalWeight.toBytes ++ f.counts.flatMap CountMinValue.toBytes)) = .ok (f, rest) := by
    simp only [List.append_assoc]
    rw [deserializer, bind_of_ok (readU8_write hpre _ _), bind_of_ok (readU8_write hver _ _),
      bind_of_ok (readU8_write hfam _ _), bind_of_ok (readU8_write hflags _ _),
      bind_of_ok (readU32Le_write (show 0 < 2 ^ 32 by decide) _ _), hid, hvers, hlongs,
      bind_of_ok (liftResult_ok _ _), bind_of_ok (liftResult_ok _ _),
      bind_of_ok (liftResult_ok _ _), bind_of_ok (readU32Le_write f.numBuckets.toNat_lt _ _),
      bind_of_ok (readU8_write f.numHashes.toNat_lt _ _), bind_of_ok (readU16Le_write hsh _ _),
      bind_of_ok (readU8_write (show 0 < 2 ^ 8 by decide) _ _), bind_of_ok (hseed _),
      checkSeedHash_self, bind_of_ok (liftResult_ok _ _), UInt32.ofNat_toNat, UInt8.ofNat_toNat,
      hf.entriesForConfigChecked_eq, bind_of_ok (liftResult_ok _ _), bind_of_ok (hnew _), if_apply]
    cases hempty : f.isEmpty with
    | true =>
        have hcounts : (List.replicate f.counts.length .zero : List (CountMinValue t)) = f.counts :=
          (List.eq_replicate_of_mem (hzero hempty)).symm
        have htotal : f.totalWeight = .zero := of_decide_eq_true hempty
        rw [if_pos (by decide), pure_apply, hcounts, ← htotal]
        exact ⟨_, rfl⟩
    | false =>
        have hcounts := readValues_write f.counts []
        rw [List.append_nil] at hcounts
        rw [if_neg (by decide), if_neg Bool.false_ne_true, bind_of_ok (readValue_write _ _ _)]
        dsimp only
        rw [List.length_replicate, bind_of_ok hcounts, pure_apply]
        exact ⟨_, rfl⟩
  obtain ⟨rest, hread⟩ := hread
  rw [deserializeWithSeed, hread]
  rfl

/-- A sketch whose total dominates its counters is read back as it was written. -/
theorem deserialize_serialize (hf : f.Shaped) (hdom : f.Dominated) :
    ∃ bytes, f.serialize = .ok bytes ∧ deserializeWithSeed t bytes f.seed = .ok f :=
  deserialize_serialize_of_zero hf hdom.counts_of_isEmpty

end CountMinSketch

end DataSketches
