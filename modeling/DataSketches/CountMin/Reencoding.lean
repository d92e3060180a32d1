import DataSketches.CountMin.Serialization

/-!
# Storing a CountMin sketch that was loaded

The reader takes the empty flag, the total and the counters of an image as they
come.  The writer looks at the total alone, so an image with a total of zero and
a counter that is not zero is loaded with the counter and stored without it.
-/

namespace DataSketches

namespace CountMinSketch

open Runs LittleEndian ByteReader SketchSlice SketchBytes

variable {t : CountMinType} {f : CountMinSketch t} {bytes rest : List UInt8} {seed : UInt64}

/-- An image whose counters are all zero if its total is. -/
def KeepsCounters (bytes : List UInt8) : Prop :=
  fieldAt bytes 3 1 &&& flagsIsEmpty ≠ 0 ∨ fieldAt bytes 16 8 ≠ 0 ∨
    ∀ i < fieldAt bytes 12 1 * fieldAt bytes 8 4, fieldAt bytes (24 + 8 * i) 8 = 0

instance (bytes : List UInt8) : Decidable (KeepsCounters bytes) :=
  inferInstanceAs (Decidable (_ ∨ _ ∨ _))

/-! ## What is read -/

/-- Only zero is written as zero. -/
theorem tryFromBytes_eq_zero {bs : List UInt8} (hlen : bs.length ≤ 8) {a : CountMinValue t}
    (h : CountMinValue.tryFromBytes t bs = .ok a) : a = .zero ↔ leNat bs = 0 := by
  have hlt : leNat bs < 2 ^ 64 :=
    (leNat_lt bs).trans_le (Nat.pow_le_pow_right (by decide) hlen)
  unfold CountMinValue.tryFromBytes at h
  dsimp only at h
  rcases dite_eq_iff.mp h with ⟨_, h⟩ | ⟨_, h⟩
  · cases h
    rw [CountMinValue.ext_iff, CountMinValue.val_zero]
    dsimp only
    split_ifs <;> omega
  · cases h

theorem readValue_drop {tag : String} {off : ℕ} {a : CountMinValue t}
    (h : readValue t tag (bytes.drop off) = .ok (a, rest)) :
    (a = .zero ↔ fieldAt bytes off 8 = 0) ∧ rest = bytes.drop (off + 8) := by
  obtain ⟨bs, mid, hread, h⟩ := bind_apply_eq_ok.mp h
  obtain ⟨-, rfl, rfl⟩ := readExact_eq_ok.mp hread
  obtain ⟨hvalue, hrest⟩ := liftResult_eq_ok.mp h
  exact ⟨tryFromBytes_eq_zero (List.length_take_le _ _) hvalue, hrest.trans List.drop_drop⟩

theorem readValues_drop {n off : ℕ} {counts : List (CountMinValue t)}
    (h : readValues t n (bytes.drop off) = .ok (counts, rest)) :
    counts.length = n ∧
      ((∀ c ∈ counts, c = .zero) ↔ ∀ i < n, fieldAt bytes (off + 8 * i) 8 = 0) := by
  induction n generalizing off counts rest with
  | zero =>
      cases h
      have hnone : ∀ c ∈ ([] : List (CountMinValue t)), c = .zero := List.forall_mem_nil _
      exact ⟨rfl, iff_of_true hnone fun i hi ↦ absurd hi i.not_lt_zero⟩
  | succ n ih =>
      obtain ⟨c, mid, hc, h⟩ := bind_apply_eq_ok.mp h
      obtain ⟨hzero, rfl⟩ := readValue_drop hc
      obtain ⟨cs, mid, hcs, h⟩ := bind_apply_eq_ok.mp h
      cases h
      obtain ⟨hlen, hall⟩ := ih hcs
      refine ⟨congrArg (· + 1) hlen, ?_⟩
      rw [List.forall_mem_cons, hzero, hall]
      constructor
      · rintro ⟨hfirst, hrest⟩ i hi
        cases i with
        | zero => exact hfirst
        | succ i =>
            have hi' := hrest i (Nat.lt_of_succ_lt_succ hi)
            rwa [show off + 8 * (i + 1) = off + 8 + 8 * i by ring]
      · intro hevery
        refine ⟨hevery 0 n.succ_pos, fun i hi ↦ ?_⟩
        have hi' := hevery (i + 1) (Nat.succ_lt_succ hi)
        rwa [show off + 8 * (i + 1) = off + 8 + 8 * i by ring] at hi'

/-- The sizes that are accepted are those of a configuration. -/
theorem entriesForConfigChecked_eq_ok {numHashes : UInt8} {numBuckets : UInt32} {entries : ℕ}
    (h : entriesForConfigChecked numHashes numBuckets = .ok entries) :
    entriesForConfig numHashes numBuckets = .ok entries := by
  unfold entriesForConfigChecked at h
  rcases ite_eq_iff.mp h with ⟨_, h⟩ | ⟨hh, h⟩
  · cases h
  rcases ite_eq_iff.mp h with ⟨_, h⟩ | ⟨hb, h⟩
  · cases h
  dsimp only at h
  rcases ite_eq_iff.mp h with ⟨_, h⟩ | ⟨he, h⟩
  · cases h
  cases h
  exact entriesForConfig_eq_ok.mpr
    ⟨⟨UInt8.pos_iff_ne_zero.mpr hh, UInt32.not_lt.mp hb, not_le.mp he⟩, rfl⟩

/-- What the sketch is that the counters are read into. -/
theorem make_spec {numHashes : UInt8} {numBuckets : UInt32} {entries : ℕ}
    (hentries : entriesForConfigChecked numHashes numBuckets = .ok entries)
    (hmake : make numHashes numBuckets seed entries = .ok f) :
    f.Shaped ∧ f.seed = seed ∧ f.counts.length = numHashes.toNat * numBuckets.toNat ∧
      ∀ c ∈ f.counts, c = .zero := by
  have hnew : withSeed numHashes numBuckets seed = .ok f := by
    rw [withSeed, entriesForConfigChecked_eq_ok hentries, ok_bind, hmake]
  obtain ⟨hshape, -, hcounts⟩ := withSeed_spec hnew
  obtain ⟨⟨rfl, rfl, hs⟩, -, -, -, -⟩ := make_eq_ok.mp hmake
  exact ⟨hshape, hs, hshape.length_eq, hcounts⟩

/-- A sketch that is read has the shape of its configuration, and counts nothing with a total of
zero exactly if its image says so. -/
theorem deserialize_spec (h : deserializeWithSeed t bytes seed = .ok f) :
    f.Shaped ∧ f.seed = seed ∧
      ((f.isEmpty = true → ∀ c ∈ f.counts, c = .zero) ↔ KeepsCounters bytes) := by
  obtain ⟨⟨f', rest⟩, hok, h⟩ : ∃ r, deserializer t seed bytes = .ok r ∧ r.1 = f := by
    cases hd : deserializer t seed bytes with
    | error e =>
        rw [deserializeWithSeed, hd] at h
        cases h
    | ok r =>
        rw [deserializeWithSeed, hd] at h
        cases h
        exact ⟨r, rfl, rfl⟩
  obtain rfl : f' = f := h
  have hdrop : deserializer t seed (bytes.drop 0) = .ok (f', rest) := hok
  replace hdrop := of_readLe_drop (of_readLe_drop (of_readLe_drop (of_readLe_drop
    (of_readLe_drop hdrop))))
  -- the family, the version and the preamble are checked after they are read
  obtain ⟨_, mid, hread, hdrop⟩ := bind_apply_eq_ok.mp hdrop
  obtain ⟨-, rfl⟩ := liftResult_eq_ok.mp hread
  obtain ⟨_, mid, hread, hdrop⟩ := bind_apply_eq_ok.mp hdrop
  obtain ⟨-, rfl⟩ := liftResult_eq_ok.mp hread
  obtain ⟨_, mid, hread, hdrop⟩ := bind_apply_eq_ok.mp hdrop
  obtain ⟨-, rfl⟩ := liftResult_eq_ok.mp hread
  replace hdrop := of_readLe_drop (of_readLe_drop (of_readLe_drop (of_readLe_drop hdrop)))
  obtain ⟨sh, mid, hread, hdrop⟩ := bind_apply_eq_ok.mp hdrop
  obtain ⟨-, rfl⟩ := liftChecked_eq_ok.mp hread
  obtain ⟨_, mid, hread, hdrop⟩ := bind_apply_eq_ok.mp hdrop
  obtain ⟨-, rfl⟩ := liftResult_eq_ok.mp hread
  obtain ⟨entries, mid, hread, hdrop⟩ := bind_apply_eq_ok.mp hdrop
  obtain ⟨hentries, rfl⟩ := liftResult_eq_ok.mp hread
  obtain ⟨g, mid, hread, hdrop⟩ := bind_apply_eq_ok.mp hdrop
  obtain ⟨hmake, rfl⟩ := liftChecked_eq_ok.mp hread
  obtain ⟨hshape, hs, hlen, hcounts⟩ := make_spec hentries hmake
  have hh : (UInt8.ofNat (fieldAt bytes 12 1)).toNat = fieldAt bytes 12 1 :=
    UInt8.toNat_ofNat_of_lt' (fieldAt_lt 12 1)
  have hb : (UInt32.ofNat (fieldAt bytes 8 4)).toNat = fieldAt bytes 8 4 :=
    UInt32.toNat_ofNat_of_lt' (fieldAt_lt 8 4)
  replace hlen : g.counts.length = fieldAt bytes 12 1 * fieldAt bytes 8 4 :=
    hlen.trans (congrArg₂ (· * ·) hh hb)
  rw [if_apply] at hdrop
  rcases ite_eq_iff.mp hdrop with ⟨hflag, hdrop⟩ | ⟨hflag, hdrop⟩
  · cases hdrop
    exact ⟨hshape, hs, iff_of_true (fun _ ↦ hcounts) (.inl hflag)⟩
  · obtain ⟨total, mid, hread, hdrop⟩ := bind_apply_eq_ok.mp hdrop
    obtain ⟨hzero, rfl⟩ := readValue_drop hread
    obtain ⟨counts, mid, hread, hdrop⟩ := bind_apply_eq_ok.mp hdrop
    obtain ⟨hlen', hall⟩ := readValues_drop hread
    cases hdrop
    refine ⟨hshape.of_sameConfig ⟨rfl, rfl, rfl, rfl, rfl⟩ hlen', hs, ?_⟩
    have hempty : isEmpty { g with totalWeight := total, counts := counts } = true ↔
        fieldAt bytes 16 8 = 0 := decide_eq_true_iff.trans hzero
    rw [hempty, hall, hlen, KeepsCounters, or_iff_right hflag, imp_iff_not_or]

/-! ## What is stored -/

/-- A sketch is read back from what it writes exactly if it counts nothing unless its total is
positive. -/
theorem Shaped.reencodes_iff (hf : f.Shaped) :
    (∃ bytes, f.serialize = .ok bytes ∧ deserializeWithSeed t bytes f.seed = .ok f) ↔
      (f.isEmpty = true → ∀ c ∈ f.counts, c = .zero) := by
  constructor
  · rintro ⟨bytes, hwrite, hread⟩ hempty
    -- the sketch without its counters is written in the same way, and is what is read
    let cleared : CountMinSketch t := { f with counts := List.replicate f.counts.length .zero }
    have hcleared : cleared.Shaped :=
      hf.of_sameConfig ⟨rfl, rfl, rfl, rfl, rfl⟩ List.length_replicate
    have hsame : cleared.serialize = f.serialize := by
      have hempty' : cleared.isEmpty = true := hempty
      rw [serialize, serialize, hempty, hempty']
      rfl
    obtain ⟨bytes', hwrite', hread'⟩ :=
      deserialize_serialize_of_zero hcleared fun _ _ hc ↦ List.eq_of_mem_replicate hc
    obtain rfl : bytes' = bytes := Except.ok.inj (hwrite'.symm.trans (hsame.trans hwrite))
    have heq : cleared = f := Except.ok.inj (hread'.symm.trans hread)
    intro c hc
    rw [← heq] at hc
    exact List.eq_of_mem_replicate hc
  · exact deserialize_serialize_of_zero hf

/-- A sketch that is read is stored with its counters exactly if they are zero in its image where
the total is. -/
theorem reencodes_of_deserialize (h : deserializeWithSeed t bytes seed = .ok f) :
    (∃ bytes', f.serialize = .ok bytes' ∧ deserializeWithSeed t bytes' seed = .ok f) ↔
      KeepsCounters bytes := by
  obtain ⟨hshape, hs, hkeeps⟩ := deserialize_spec h
  rw [← hkeeps, ← hshape.reencodes_iff, hs]

/-- An image of a row of three counters with the given total, and one in the first counter. -/
def oneRow (total : ℕ) : List UInt8 :=
  writeU8 preambleLongsShort ++ writeU8 serialVersion ++ writeU8 Family.countmin.id ++ writeU8 0 ++
    writeU32Le 0 ++ writeU32Le 3 ++ writeU8 1 ++ writeU16Le 37836 ++ writeU8 0 ++
    writeU64Le total ++ writeU64Le 1 ++ writeU64Le 0 ++ writeU64Le 0

theorem reencodes_of_deserialize_oneRow :
    ∃ f, deserializeWithSeed .u64 (oneRow 1) defaultUpdateSeed = .ok f ∧
      ∃ bytes', f.serialize = .ok bytes' ∧
        deserializeWithSeed .u64 bytes' defaultUpdateSeed = .ok f := by
  have hok : (deserializeWithSeed .u64 (oneRow 1) defaultUpdateSeed).isOk = true := by
    decide +kernel
  obtain ⟨f, hf⟩ := exists_ok_of_isOk hok
  exact ⟨f, hf, (reencodes_of_deserialize hf).mpr (by decide)⟩

/-- With a total of zero the counter is lost. -/
theorem oneRow_loses_counter :
    ∃ f, deserializeWithSeed .u64 (oneRow 0) defaultUpdateSeed = .ok f ∧
      ¬ ∃ bytes', f.serialize = .ok bytes' ∧
        deserializeWithSeed .u64 bytes' defaultUpdateSeed = .ok f := by
  have hok : (deserializeWithSeed .u64 (oneRow 0) defaultUpdateSeed).isOk = true := by
    decide +kernel
  obtain ⟨f, hf⟩ := exists_ok_of_isOk hok
  obtain ⟨hshape, hs, hkeeps⟩ := deserialize_spec hf
  refine ⟨f, hf, ?_⟩
  rw [← hs, hshape.reencodes_iff, hkeeps]
  decide

end CountMinSketch

end DataSketches
