import DataSketches.Bloom.Serialization

/-!
# Runs of Bloom filters

A script says how a filter is made: it is built, items are put in, other filters
are merged in, it is stored and loaded.  Two scripts can be joined by a union or an
intersection if they make filters of one shape.
-/

namespace DataSketches

namespace BloomFilter

open Runs BitArray

/-- How a filter is made. -/
inductive Script (T : Type) where
  | build (numBits numHashes : ℕ) (seed : UInt64)
  | insert (s : Script T) (item : T)
  | containsAndInsert (s : Script T) (item : T)
  | union (s t : Script T)
  | intersect (s t : Script T)
  | reset (s : Script T)
  | invert (s : Script T)
  /-- Serialize, then deserialize. -/
  | reload (s : Script T)

/-- A call that may panic. -/
def checked {α : Type} (x : Checked α) : Except Fault α := x.mapError .panic

namespace Script

variable {T : Type}

/-- Makes the filter. -/
def eval [Hash T] : Script T → Except Fault BloomFilter
  | build numBits numHashes seed => checked (BloomFilter.build numBits numHashes seed)
  | insert s item => do checked ((← s.eval).insert item)
  | containsAndInsert s item => do
      let (_, f) ← checked ((← s.eval).containsAndInsert item)
      return f
  | union s t => do checked ((← s.eval).union (← t.eval))
  | intersect s t => do checked ((← s.eval).intersect (← t.eval))
  | reset s => do return (← s.eval).reset
  | invert s => do checked (← s.eval).invert
  | reload s => do deserialize (← s.eval).serialize

/-- All filters of the script are built with sizes in range, and with one number of words, number
of hash functions and seed. -/
def Over (numWords numHashes : ℕ) (seed : UInt64) : Script T → Prop
  | build numBits numHashes' seed' =>
      (minNumBits ≤ numBits ∧ numBits ≤ maxNumBits) ∧
        (minNumHashes ≤ numHashes' ∧ numHashes' ≤ maxNumHashes) ∧
        (numBits + 63) / 64 = numWords ∧ numHashes' = numHashes ∧ seed' = seed
  | insert s _ | containsAndInsert s _ | reset s | invert s | reload s => s.Over numWords numHashes seed
  | union s t | intersect s t => s.Over numWords numHashes seed ∧ t.Over numWords numHashes seed

/-- The items inserted since the last reset and not lost to an intersection. -/
def Member (x : T) : Script T → Prop
  | build _ _ _ | reset _ => False
  | insert s item | containsAndInsert s item => x = item ∨ s.Member x
  | union s t => s.Member x ∨ t.Member x
  | intersect s t => s.Member x ∧ t.Member x
  | invert s | reload s => s.Member x

/-- No filter of the script was inverted. -/
def Direct : Script T → Prop
  | build _ _ _ => True
  | insert s _ | containsAndInsert s _ | reset s | reload s => s.Direct
  | union s t | intersect s t => s.Direct ∧ t.Direct
  | invert _ => False

end Script

variable {T : Type} [Hash T] {f g : BloomFilter}

/-! ## Single operations -/

/-- The bits of the item are set. -/
def Present (f : BloomFilter) (item : T) : Prop :=
  ∀ h0 h1 p, computeHash f.seed item = .ok (h0, h1) → f.Bits h0 h1 p → get f.bitArray p = true

theorem build_spec {numBits numHashes : ℕ} {seed : UInt64}
    (hbits : minNumBits ≤ numBits ∧ numBits ≤ maxNumBits)
    (hhashes : minNumHashes ≤ numHashes ∧ numHashes ≤ maxNumHashes) :
    ∃ f, build numBits numHashes seed = .ok f ∧ f.Inv ∧
      f.bitArray.length = (numBits + 63) / 64 ∧ f.numHashes = numHashes ∧ f.seed = seed := by
  refine ⟨_, by rw [build, assert_pos hbits, ok_bind, assert_pos hhashes]; rfl,
    ⟨(popcount_replicate _).symm, ?_, hhashes⟩, List.length_replicate, rfl, rfl⟩
  have hmin : 1 ≤ numBits := hbits.1
  have hmax : numBits ≤ (2 ^ 31 - 1 - 4) * 64 := hbits.2
  rw [List.length_replicate]
  omega

/-- A filter without ones has no bit of any item, since an item has at least one. -/
theorem contains_spec (h : f.Inv) (item : T) :
    ∃ h0 h1 b, computeHash f.seed item = .ok (h0, h1) ∧ f.contains item = .ok b ∧
      f.checkBits h0 h1 = .ok b ∧ (b = true ↔ f.Present item) := by
  obtain ⟨h0, h1, hhash⟩ := computeHash_total f.seed item
  obtain ⟨b, hok, hb⟩ := checkBits_spec h h0 h1
  have hpresent : b = true ↔ f.Present item := by
    refine hb.trans ⟨?_, fun hall p hp ↦ hall h0 h1 p hhash hp⟩
    intro hall h0' h1' p hhash' hp
    rw [hhash] at hhash'
    cases hhash'
    exact hall p hp
  refine ⟨h0, h1, b, hhash, ?_, hok, hpresent⟩
  unfold contains
  split_ifs with hempty
  · have hbits := h.bitArray_of_isEmpty hempty
    have hfirst : f.Bits h0 h1 (bitIndex f.capacity h0 h1 1) :=
      ⟨1, le_rfl, h.numHashes_range.1, rfl⟩
    cases b with
    | false => rfl
    | true =>
        have hget := hb.mp rfl _ hfirst
        rw [hbits, get_replicate_zero] at hget
        exact absurd hget Bool.false_ne_true
  · rw [hhash]
    exact hok

/-- Inserting an item sets its bits and no others. -/
theorem insert_spec (h : f.Inv) (item : T) :
    ∃ f', f.insert item = .ok f' ∧ f'.Inv ∧ SameShape f f' ∧
      (∀ p, get f.bitArray p = true → get f'.bitArray p = true) ∧ f'.Present item := by
  obtain ⟨h0, h1, hhash⟩ := computeHash_total f.seed item
  obtain ⟨f', hok, hinv, hshape, hget⟩ := setBits_spec h h0 h1
  refine ⟨f', ?_, hinv, hshape, fun p hp ↦ (hget p).mpr (.inl hp), ?_⟩
  · rw [insert, hhash]
    exact hok
  · intro h0' h1' p hhash' hp
    rw [← hshape.seed_eq, hhash] at hhash'
    cases hhash'
    exact (hget p).mpr (.inr (hshape.bits_iff.mpr hp))

/-- The combined operation answers like `contains` and leaves what `insert` leaves. -/
theorem containsAndInsert_spec (h : f.Inv) (item : T) :
    ∃ b f', f.contains item = .ok b ∧ f.insert item = .ok f' ∧
      f.containsAndInsert item = .ok (b, f') := by
  obtain ⟨h0, h1, b, hhash, hcontains, hcheck, -⟩ := contains_spec h item
  obtain ⟨f', hset, -⟩ := setBits_spec h h0 h1
  refine ⟨b, f', hcontains, ?_, ?_⟩
  · rw [insert, hhash]
    exact hset
  · simp only [containsAndInsert, hhash, ok_bind, hcheck, hset, pure_eq_ok]

/-- A filter counts no bit exactly if none is set. -/
theorem Inv.isEmpty_iff (h : f.Inv) : f.isEmpty = true ↔ ∀ p, get f.bitArray p = false := by
  constructor
  · intro hempty p
    rw [h.bitArray_of_isEmpty hempty, get_replicate_zero]
  · intro hall
    refine decide_eq_true (h.numBitsSet_eq.trans (popcount_eq_zero.mpr fun w hw ↦ ?_))
    obtain ⟨k, hk, rfl⟩ := List.getElem_of_mem hw
    apply BitVec.eq_of_getLsbD_eq
    intro i hi
    have hbit := hall (64 * k + i)
    rw [BitArray.get, show (64 * k + i) / 64 = k by omega, show (64 * k + i) % 64 = i by omega,
      List.getD_eq_getElem _ _ hk] at hbit
    rw [hbit, getLsbD_zero]

theorem reset_spec (h : f.Inv) : f.reset.Inv ∧ SameShape f f.reset := by
  refine ⟨⟨?_, ?_, h.numHashes_range⟩, ⟨List.length_map _ |>.symm, rfl, rfl⟩⟩
  · refine (popcount_eq_zero.mpr fun w hw ↦ ?_).symm
    obtain ⟨_, -, rfl⟩ := List.mem_map.mp hw
    rfl
  · have hlen : f.reset.bitArray.length = f.bitArray.length := List.length_map _
    exact hlen.symm ▸ h.length_range

theorem invert_spec (h : f.Inv) : ∃ f', f.invert = .ok f' ∧ f'.Inv ∧ SameShape f f' := by
  have hle := popcount_le f.bitArray
  have hnum := h.numBitsSet_eq
  have hsub : f.numBitsSet ≤ f.capacity := by
    unfold capacity
    omega
  have hlen : (f.bitArray.map (~~~ ·)).length = f.bitArray.length := List.length_map _
  refine ⟨{ f with bitArray := f.bitArray.map (~~~ ·), numBitsSet := f.capacity - f.numBitsSet },
    by rw [invert, checkedSub_of_le hsub]; rfl, ⟨?_, ?_, h.numHashes_range⟩,
    ⟨hlen.symm, rfl, rfl⟩⟩
  · have hnot := popcount_map_not f.bitArray
    rw [← hnum, Nat.mul_comm] at hnot
    exact hnot.symm
  · exact hlen.symm ▸ h.length_range

/-- A filter with other words of the same number. -/
theorem Inv.withWords (h : f.Inv) {words : List (BitVec 64)}
    (hlen : words.length = f.bitArray.length) :
    Inv { f with bitArray := words, numBitsSet := popcount words } ∧
      SameShape f { f with bitArray := words, numBitsSet := popcount words } :=
  ⟨⟨rfl, by rw [hlen]; exact h.length_range, h.numHashes_range⟩, ⟨hlen.symm, rfl, rfl⟩⟩

theorem union_spec (hf : f.Inv) (hfg : SameShape f g) :
    ∃ f', f.union g = .ok f' ∧ f'.Inv ∧ SameShape f f' ∧
      ∀ p, get f'.bitArray p = (get f.bitArray p || get g.bitArray p) := by
  have hlen : (List.zipWith (· ||| ·) f.bitArray g.bitArray).length = f.bitArray.length := by
    rw [List.length_zipWith, hfg.length_eq, min_self]
  obtain ⟨hinv, hshape⟩ := hf.withWords hlen
  refine ⟨_, ?_, hinv, hshape, get_zipWith_or hfg.length_eq⟩
  rw [union, assert_pos hfg.isCompatible]
  rfl

theorem intersect_spec (hf : f.Inv) (hfg : SameShape f g) :
    ∃ f', f.intersect g = .ok f' ∧ f'.Inv ∧ SameShape f f' ∧
      ∀ p, get f'.bitArray p = (get f.bitArray p && get g.bitArray p) := by
  have hlen : (List.zipWith (· &&& ·) f.bitArray g.bitArray).length = f.bitArray.length := by
    rw [List.length_zipWith, hfg.length_eq, min_self]
  obtain ⟨hinv, hshape⟩ := hf.withWords hlen
  refine ⟨_, ?_, hinv, hshape, get_zipWith_and hfg.length_eq⟩
  rw [intersect, assert_pos hfg.isCompatible]
  rfl

/-- Bits that stay set keep an item present. -/
theorem Present.mono {item : T} (h : f.Present item) (hshape : SameShape f g)
    (hget : ∀ p, get f.bitArray p = true → get g.bitArray p = true) : g.Present item := by
  intro h0 h1 p hhash hp
  rw [← hshape.seed_eq] at hhash
  exact hget p (h h0 h1 p hhash (hshape.bits_iff.mpr hp))

/-! ## Runs -/

/-- What a script makes. -/
structure Made (numWords numHashes : ℕ) (seed : UInt64) (s : Script T) (f : BloomFilter) : Prop where
  inv : f.Inv
  shape : f.bitArray.length = numWords ∧ f.numHashes = numHashes ∧ f.seed = seed
  present : s.Direct → ∀ x, s.Member x → f.Present x

variable {numWords numHashes : ℕ} {seed : UInt64} {s t : Script T}

theorem Made.sameShape (hf : Made numWords numHashes seed s f)
    (hg : Made numWords numHashes seed t g) : SameShape f g :=
  ⟨hf.shape.1.trans hg.shape.1.symm, hf.shape.2.1.trans hg.shape.2.1.symm,
    hf.shape.2.2.trans hg.shape.2.2.symm⟩

theorem shape_of (hf : Made numWords numHashes seed s f) (h : SameShape f g) :
    g.bitArray.length = numWords ∧ g.numHashes = numHashes ∧ g.seed = seed :=
  ⟨h.length_eq.symm.trans hf.shape.1, h.numHashes_eq.symm.trans hf.shape.2.1,
    h.seed_eq.symm.trans hf.shape.2.2⟩

/-- Inserting makes what it should. -/
theorem Made.insert (hf : Made numWords numHashes seed s f) (item : T) :
    ∃ f', f.insert item = .ok f' ∧ Made numWords numHashes seed (s.insert item) f' := by
  obtain ⟨f', hok, hinv, hshape, hget, hitem⟩ := insert_spec hf.inv item
  refine ⟨f', hok, hinv, shape_of hf hshape, ?_⟩
  rintro hdirect x (rfl | hx)
  · exact hitem
  · exact (hf.present hdirect x hx).mono hshape hget

/-- Every script makes a filter. -/
theorem Script.eval_made (h : s.Over numWords numHashes seed) :
    ∃ f, s.eval = .ok f ∧ Made numWords numHashes seed s f := by
  induction s with
  | build numBits numHashes' seed' =>
      obtain ⟨hbits, hhashes, hwords, rfl, rfl⟩ := h
      obtain ⟨f, hok, hinv, hlen, hh, hs⟩ := build_spec hbits hhashes
      exact ⟨f, by rw [eval, hok]; rfl, hinv, ⟨hlen.trans hwords, hh, hs⟩, fun _ x hx ↦ hx.elim⟩
  | insert s item ih =>
      obtain ⟨f, hf, hmade⟩ := ih h
      obtain ⟨f', hok, hmade'⟩ := hmade.insert item
      exact ⟨f', by rw [eval, hf, ok_bind, hok]; rfl, hmade'⟩
  | containsAndInsert s item ih =>
      obtain ⟨f, hf, hmade⟩ := ih h
      obtain ⟨f', hok, hmade'⟩ := hmade.insert item
      obtain ⟨b, f'', -, hins, hboth⟩ := containsAndInsert_spec hmade.inv item
      rw [hok] at hins
      cases hins
      exact ⟨f', by rw [eval, hf, ok_bind, hboth]; rfl, hmade'.inv, hmade'.shape, hmade'.present⟩
  | union s t ihs iht =>
      obtain ⟨f, hf, hmade⟩ := ihs h.1
      obtain ⟨g, hg, hmadeg⟩ := iht h.2
      have hfg := hmade.sameShape hmadeg
      obtain ⟨f', hok, hinv, hshape, hget⟩ := union_spec hmade.inv hfg
      refine ⟨f', by rw [eval, hf, ok_bind, hg, ok_bind, hok]; rfl, hinv, shape_of hmade hshape, ?_⟩
      rintro ⟨hds, hdt⟩ x (hx | hx)
      · exact (hmade.present hds x hx).mono hshape fun p hp ↦ by rw [hget, hp, Bool.true_or]
      · exact (hmadeg.present hdt x hx).mono (hfg.symm.trans hshape) fun p hp ↦ by
          rw [hget, hp, Bool.or_true]
  | intersect s t ihs iht =>
      obtain ⟨f, hf, hmade⟩ := ihs h.1
      obtain ⟨g, hg, hmadeg⟩ := iht h.2
      have hfg := hmade.sameShape hmadeg
      obtain ⟨f', hok, hinv, hshape, hget⟩ := intersect_spec hmade.inv hfg
      refine ⟨f', by rw [eval, hf, ok_bind, hg, ok_bind, hok]; rfl, hinv, shape_of hmade hshape, ?_⟩
      rintro ⟨hds, hdt⟩ x ⟨hxs, hxt⟩ h0 h1 p hhash hp
      have hs := hmade.present hds x hxs h0 h1 p (hshape.seed_eq ▸ hhash) (hshape.bits_iff.mpr hp)
      have ht := hmadeg.present hdt x hxt h0 h1 p ((hfg.symm.trans hshape).seed_eq ▸ hhash)
        ((hfg.symm.trans hshape).bits_iff.mpr hp)
      rw [hget, hs, ht, Bool.and_true]
  | reset s ih =>
      obtain ⟨f, hf, hmade⟩ := ih h
      obtain ⟨hinv, hshape⟩ := reset_spec hmade.inv
      exact ⟨f.reset, by rw [eval, hf]; rfl, hinv, shape_of hmade hshape, fun _ x hx ↦ hx.elim⟩
  | invert s ih =>
      obtain ⟨f, hf, hmade⟩ := ih h
      obtain ⟨f', hok, hinv, hshape⟩ := invert_spec hmade.inv
      exact ⟨f', by rw [eval, hf, ok_bind, hok]; rfl, hinv, shape_of hmade hshape,
        fun hdirect ↦ hdirect.elim⟩
  | reload s ih =>
      obtain ⟨f, hf, hmade⟩ := ih h
      exact ⟨f, by rw [eval, hf, ok_bind, deserialize_serialize hmade.inv], hmade.inv, hmade.shape,
        hmade.present⟩

/-- In every run the count is the number of ones, the combined operation is `contains` and
`insert` in one, a filter is read back as it was written, and without inversion no member is
missed.  An image that is not flagged empty is read only if its count is right or the marker. -/
theorem filter_run_spec (h : s.Over numWords numHashes seed) :
    ∃ f, s.eval = .ok f ∧ f.numBitsSet = popcount f.bitArray ∧
      (f.isEmpty = true ↔ ∀ p, get f.bitArray p = false) ∧
      (∀ x : T, ∃ b f', f.contains x = .ok b ∧ f.insert x = .ok f' ∧
        f.containsAndInsert x = .ok (b, f')) ∧
      deserialize f.serialize = .ok f ∧
      (∀ bytes g, deserialize bytes = .ok g →
        g.numBitsSet = popcount g.bitArray ∧ (ByteReader.fieldAt bytes 3 1 &&& emptyFlagMask = 0 →
          ByteReader.fieldAt bytes 24 8 = 2 ^ 64 - 1 ∨
            ByteReader.fieldAt bytes 24 8 = popcount g.bitArray)) ∧
      (s.Direct → ∀ x, s.Member x → f.contains x = .ok true) := by
  obtain ⟨f, hf, hmade⟩ := Script.eval_made h
  refine ⟨f, hf, hmade.inv.numBitsSet_eq, hmade.inv.isEmpty_iff, containsAndInsert_spec hmade.inv,
    deserialize_serialize hmade.inv, fun bytes g hg ↦ deserialize_count hg, ?_⟩
  intro hdirect x hx
  obtain ⟨h0, h1, b, -, hcontains, -, hb⟩ := contains_spec hmade.inv x
  rw [hcontains, hb.mpr (hmade.present hdirect x hx)]

/-- A `u64` writes its eight bytes. -/
instance : Hash ℕ where
  writes n := [LittleEndian.leBytes 8 n]

/-- The key 1 is in both operands of an intersection. -/
theorem filter_run_spec_intersect :
    ∃ f, (Script.intersect ((Script.build 100 3 9001).insert 1)
      (((Script.build 128 3 9001).insert 2).insert 1) : Script ℕ).eval = .ok f ∧
        f.contains 1 = .ok true := by
  obtain ⟨f, hf, -, -, -, -, -, hmem⟩ := @filter_run_spec ℕ _ 2 3 9001
    (Script.intersect ((Script.build 100 3 9001).insert 1)
      (((Script.build 128 3 9001).insert 2).insert 1))
    ⟨⟨by decide, by decide, rfl, rfl, rfl⟩, ⟨by decide, by decide, rfl, rfl, rfl⟩⟩
  exact ⟨f, hf, hmem ⟨trivial, trivial⟩ 1 ⟨.inl rfl, .inl rfl⟩⟩

end BloomFilter

end DataSketches
