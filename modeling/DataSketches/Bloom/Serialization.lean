import DataSketches.Bloom.Sketch

/-!
# Serialization of Bloom filters

A filter that counts no bit is written without its bit array.  Reading counts the
bits again, and refuses an image whose own count is neither right nor the marker
for an unknown count.
-/

namespace DataSketches

namespace BloomFilter

open Runs BitArray LittleEndian ByteReader SketchSlice SketchBytes

def serialVersion : ℕ := 1

def emptyFlagMask : ℕ := 1 <<< 2

/-- Serializes the filter to a byte vector. -/
def serialize (f : BloomFilter) : List UInt8 :=
  let preambleLongs :=
    if f.isEmpty then Family.bloomfilter.minPreLongs else Family.bloomfilter.maxPreLongs
  writeU8 preambleLongs ++ writeU8 serialVersion ++ writeU8 Family.bloomfilter.id ++
    writeU8 (if f.isEmpty then emptyFlagMask else 0) ++ writeU16Le f.numHashes ++ writeU16Le 0 ++
    writeU64Le f.seed.toNat ++ writeI32Le f.bitArray.length ++ writeU32Le 0 ++
    (if f.isEmpty then []
      else writeU64Le f.numBitsSet ++ f.bitArray.flatMap fun word ↦ writeU64Le word.toNat)

/-- The loop that reads the bit array. -/
def readWords : ℕ → SketchSlice (List (BitVec 64))
  | 0 => return []
  | n + 1 => do
      let word ← SketchSlice.readU64Le "bit_array"
      return BitVec.ofNat 64 word :: (← readWords n)

/-- The count and the bit array of a filter that is not flagged empty. -/
def readBits (numWords : ℕ) : SketchSlice (ℕ × List (BitVec 64)) := do
  let serializedNumBitsSet ← SketchSlice.readU64Le "num_bits_set"
  let bitArray ← readWords numWords
  let count := popcount bitArray
  if serializedNumBitsSet ≠ 2 ^ 64 - 1 ∧ serializedNumBitsSet ≠ count then
    err (.deserial s!"invalid num_bits_set: expected {count}, got {serializedNumBitsSet}")
  else return (count, bitArray)

/-- The size that the bit array needs must be there before it is allocated. -/
def checkPayload (numWords : ℕ) : SketchSlice Unit := do
  let payloadBytes := (numWords + 1) * 8
  if payloadBytes ≥ 2 ^ 64 then
    err (.deserial "Bloom filter payload length overflows")
  else
    let left ← remaining
    if payloadBytes > left then
      err (.insufficientData s!"Bloom filter payload requires {payloadBytes} bytes, got {left}")
    else return ()

def deserializer : SketchSlice BloomFilter := do
  let preambleLongs ← readU8 "preamble_longs"
  let version ← readU8 "serial_version"
  let familyId ← readU8 "family_id"
  let flags ← readU8 "flags"
  liftResult (Family.bloomfilter.validateId familyId)
  liftResult (ensureSerialVersionIs serialVersion version)
  liftResult (ensurePreambleLongsInRange Family.bloomfilter.minPreLongs
    Family.bloomfilter.maxPreLongs preambleLongs)
  let isEmpty := flags &&& emptyFlagMask ≠ 0
  let numHashes ← readU16Le "num_hashes"
  if numHashes = 0 ∨ numHashes > 2 ^ 15 - 1 then
    err (.deserial s!"invalid num_hashes: expected [1, {2 ^ 15 - 1}], got {numHashes}")
  else
    let _ ← readU16Le "unused_header"
    let seed ← SketchSlice.readU64Le "seed"
    let numLongs ← readI32Le "num_longs"
    let _ ← readU32Le "unused"
    if numLongs ≤ 0 then
      err (.deserial s!"invalid num_longs: expected at least 1, got {numLongs}")
    else
      let numWords := numLongs.toNat
      if isEmpty then
        return ⟨UInt64.ofNat seed, numHashes, 0, List.replicate numWords 0⟩
      else
        checkPayload numWords
        let (numBitsSet, bitArray) ← readBits numWords
        return ⟨UInt64.ofNat seed, numHashes, numBitsSet, bitArray⟩

/-- Deserializes a filter from bytes. -/
def deserialize (bytes : List UInt8) : Except Fault BloomFilter := Prod.fst <$> deserializer bytes

/-! ## Reading back -/

variable {f : BloomFilter}

theorem readWords_write (words : List (BitVec 64)) (rest : List UInt8) :
    readWords words.length (words.flatMap (fun word ↦ writeU64Le word.toNat) ++ rest) =
      .ok (words, rest) := by
  induction words with
  | nil => rfl
  | cons word words ih =>
      rw [List.length_cons, readWords, List.flatMap_cons, List.append_assoc, bind_apply,
        readU64Le_write word.isLt, ok_bind, bind_apply, ih, ok_bind, BitVec.ofNat_toNat,
        BitVec.setWidth_eq]
      rfl

theorem length_flatMap_words (words : List (BitVec 64)) :
    (words.flatMap fun word ↦ writeU64Le word.toNat).length = words.length * 8 := by
  induction words with
  | nil => rfl
  | cons word words ih =>
      rw [List.flatMap_cons, List.length_append, ih, writeU64Le, length_leBytes, List.length_cons]
      omega

/-- The count and the bit array are read back if the count is right. -/
theorem readBits_write (h : f.Inv) :
    readBits f.bitArray.length
        (writeU64Le f.numBitsSet ++ f.bitArray.flatMap fun word ↦ writeU64Le word.toNat) =
      .ok ((f.numBitsSet, f.bitArray), []) := by
  have hle := popcount_le f.bitArray
  have hlen := h.length_range.2
  have hcount := h.numBitsSet_eq
  have hwords := readWords_write f.bitArray []
  rw [List.append_nil] at hwords
  rw [readBits, bind_apply, readU64Le_write (by omega), ok_bind, bind_apply, hwords, ok_bind,
    if_apply, if_neg (fun hbad ↦ hbad.2 hcount), ← hcount]
  rfl

theorem checkPayload_write (h : f.Inv) :
    checkPayload f.bitArray.length
        (writeU64Le f.numBitsSet ++ f.bitArray.flatMap fun word ↦ writeU64Le word.toNat) =
      .ok ((), writeU64Le f.numBitsSet ++ f.bitArray.flatMap fun word ↦ writeU64Le word.toNat) := by
  have hlen := h.length_range.2
  have hbytes : (writeU64Le f.numBitsSet ++
      f.bitArray.flatMap fun word ↦ writeU64Le word.toNat).length = 8 + f.bitArray.length * 8 := by
    rw [List.length_append, length_flatMap_words, writeU64Le, length_leBytes]
  rw [checkPayload, if_apply, if_neg (by omega), bind_apply, remaining_apply, ok_bind, if_apply,
    hbytes, if_neg (by omega)]
  rfl

/-- A filter that counts no bit has none. -/
theorem Inv.bitArray_of_isEmpty (h : f.Inv) (hempty : f.isEmpty = true) :
    f.bitArray = List.replicate f.bitArray.length 0 := by
  have hzero : popcount f.bitArray = 0 := h.numBitsSet_eq.symm.trans (of_decide_eq_true hempty)
  exact List.eq_replicate_of_mem (popcount_eq_zero.mp hzero)

/-- The flags say whether the filter is empty. -/
theorem flags_write (empty : Bool) :
    (if empty then emptyFlagMask else 0) < 2 ^ 8 ∧
      decide ((if empty then emptyFlagMask else 0) &&& emptyFlagMask ≠ 0) = empty := by
  cases empty <;> decide

/-- A filter is read back as it was written. -/
theorem deserialize_serialize (h : f.Inv) : deserialize f.serialize = .ok f := by
  have hpre : (if f.isEmpty then Family.bloomfilter.minPreLongs
      else Family.bloomfilter.maxPreLongs) < 2 ^ 8 ∧
      ensurePreambleLongsInRange Family.bloomfilter.minPreLongs Family.bloomfilter.maxPreLongs
        (if f.isEmpty then Family.bloomfilter.minPreLongs else Family.bloomfilter.maxPreLongs) =
          .ok () := by
    cases f.isEmpty <;> exact ⟨by decide, rfl⟩
  obtain ⟨hflags, hflag⟩ := flags_write f.isEmpty
  have hhash := h.numHashes_range
  have hlt : f.numHashes < 2 ^ 16 := hhash.2.trans_lt (by decide)
  have hokHash : ¬ (f.numHashes = 0 ∨ f.numHashes > 2 ^ 15 - 1) := by
    unfold minNumHashes maxNumHashes at hhash
    omega
  have hlen := h.length_range
  have hpos : ¬ (f.bitArray.length : ℤ) ≤ 0 := by omega
  have hver : serialVersion < 2 ^ 8 := by decide
  have hfam : Family.bloomfilter.id < 2 ^ 8 := by decide
  have hid : Family.bloomfilter.validateId Family.bloomfilter.id = .ok () := rfl
  have hvers : ensureSerialVersionIs serialVersion serialVersion = .ok () := rfl
  have hseed := f.seed.toNat_lt
  have hread : deserializer f.serialize = .ok (f, []) := by
    simp only [serialize, deserializer, List.append_assoc, bind_apply, readU8_write hpre.1,
      readU8_write hver, readU8_write hfam, readU8_write hflags, ok_bind, hid, hvers, hpre.2,
      liftResult_ok, readU16Le_write hlt, if_apply, if_neg hokHash,
      readU16Le_write (show 0 < 2 ^ 16 by decide), readU64Le_write hseed, readI32Le_write hlen.2,
      readU32Le_write (show 0 < 2 ^ 32 by decide), if_neg hpos, Int.toNat_natCast,
      UInt64.ofNat_toNat]
    cases hempty : f.isEmpty with
    | true =>
        have hf : (⟨f.seed, f.numHashes, 0, List.replicate f.bitArray.length 0⟩ : BloomFilter) = f := by
          have hnum : f.numBitsSet = 0 := of_decide_eq_true hempty
          have hbits := h.bitArray_of_isEmpty hempty
          rw [← hbits, ← hnum]
        rw [if_pos (by decide), if_pos rfl, pure_apply, hf]
    | false =>
        rw [if_neg (by decide), if_neg Bool.false_ne_true, checkPayload_write h, ok_bind,
          readBits_write h]
        rfl
  rw [deserialize, hread]
  rfl

/-! ## What is accepted -/

theorem checkPayload_eq_ok {n : ℕ} {bs mid : List UInt8} (h : checkPayload n bs = .ok ((), mid)) :
    mid = bs := by
  simp only [checkPayload, if_apply] at h
  split_ifs at h
  · cases h
  · obtain ⟨left, mid', hleft, h⟩ := bind_apply_eq_ok.mp h
    cases hleft
    rw [if_apply] at h
    split_ifs at h
    · cases h
    · cases h
      rfl

theorem readBits_drop {n off count : ℕ} {words : List (BitVec 64)} {bytes rest : List UInt8}
    (h : readBits n (bytes.drop off) = .ok ((count, words), rest)) :
    count = popcount words ∧
      (fieldAt bytes off 8 = 2 ^ 64 - 1 ∨ fieldAt bytes off 8 = popcount words) := by
  replace h := of_readLe_drop h
  obtain ⟨words', mid, -, h⟩ := bind_apply_eq_ok.mp h
  rw [if_apply] at h
  split_ifs at h with hbad
  · cases h
  · cases h
    refine ⟨rfl, ?_⟩
    by_contra hno
    rw [not_or] at hno
    exact hbad hno

/-- An image that is not flagged empty is accepted only if its count is right or the marker. -/
theorem deserialize_count {bytes : List UInt8} (h : deserialize bytes = .ok f) :
    f.numBitsSet = popcount f.bitArray ∧ (fieldAt bytes 3 1 &&& emptyFlagMask = 0 →
      fieldAt bytes 24 8 = 2 ^ 64 - 1 ∨ fieldAt bytes 24 8 = popcount f.bitArray) := by
  obtain ⟨⟨f', rest⟩, hok, h⟩ : ∃ r, deserializer bytes = .ok r ∧ r.1 = f := by
    cases hd : deserializer bytes with
    | error e =>
        rw [deserialize, hd] at h
        cases h
    | ok r =>
        rw [deserialize, hd] at h
        cases h
        exact ⟨r, rfl, rfl⟩
  obtain rfl : f' = f := h
  have hdrop : deserializer (bytes.drop 0) = .ok (f', rest) := hok
  replace hdrop := of_readLe_drop (of_readLe_drop (of_readLe_drop (of_readLe_drop hdrop)))
  obtain ⟨_, mid, hread, hdrop⟩ := bind_apply_eq_ok.mp hdrop
  obtain ⟨-, rfl⟩ := liftResult_eq_ok.mp hread
  obtain ⟨_, mid, hread, hdrop⟩ := bind_apply_eq_ok.mp hdrop
  obtain ⟨-, rfl⟩ := liftResult_eq_ok.mp hread
  obtain ⟨_, mid, hread, hdrop⟩ := bind_apply_eq_ok.mp hdrop
  obtain ⟨-, rfl⟩ := liftResult_eq_ok.mp hread
  replace hdrop := of_readLe_drop hdrop
  rw [if_apply] at hdrop
  -- the flag is known before the fields that follow are read
  split_ifs at hdrop with hhashes hempty
  · cases hdrop
  all_goals
    replace hdrop := of_readLe_drop (of_readLe_drop hdrop)
    obtain ⟨numLongs, mid, hread, hdrop⟩ := bind_apply_eq_ok.mp hdrop
    obtain ⟨n, mid', hn, hread⟩ := bind_apply_eq_ok.mp hread
    cases hread
    obtain ⟨-, rfl⟩ := readLe_drop hn
    replace hdrop := of_readLe_drop hdrop
    rw [if_apply] at hdrop
    rcases ite_eq_iff.mp hdrop with ⟨-, hdrop⟩ | ⟨-, hdrop⟩
    · cases hdrop
  · cases hdrop
    exact ⟨(popcount_replicate _).symm, fun hflag ↦ absurd hflag hempty⟩
  · obtain ⟨_, mid, hcheck, hdrop⟩ := bind_apply_eq_ok.mp hdrop
    obtain rfl := checkPayload_eq_ok hcheck
    obtain ⟨⟨count, words⟩, mid', hbits, hdrop⟩ := bind_apply_eq_ok.mp hdrop
    cases hdrop
    obtain ⟨rfl, hcount⟩ := readBits_drop hbits
    exact ⟨rfl, fun _ ↦ hcount⟩

end BloomFilter

end DataSketches
