import DataSketches.Frequencies.ReversePurgeItemHashMap

/-!
# The reverse purge hash map as a finite map

A reachable map holds a finite map from keys to counters.  Every operation either
does to the finite map what its name says or exceeds the drift limit.
-/

namespace DataSketches

open Runs OpenAddressing LinearProbing Counters

/-- The panic of a table that has become too crowded. -/
def Drifted (p : Panic) : Prop := p = .assertion "drift limit exceeded"

theorem hashItem_total {Q : Type} [Hash Q] (item : Q) : ∃ h, hashItem item = .ok h := by
  obtain ⟨s, hs, hbuf⟩ := MurmurHash3X64128.hash_total
    (MurmurHash3X64128.buffered_withSeed defaultUpdateSeed) item
  obtain ⟨⟨h1, h2⟩, hx⟩ := MurmurHash3X64128.finish128_total hbuf
  exact ⟨h1, by rw [hashItem, hs, ok_bind, hx]; rfl⟩

theorem toU16_of_lt {n : ℕ} (h : n < driftLimit) : toU16 n = n :=
  Nat.mod_eq_of_lt (h.trans (by decide))

/-- The hash of a key as a number. -/
@[irreducible] def home {T : Type} [Hash T] (key : T) : ℕ :=
  match hashItem key with
  | .ok h => h.toNat
  | .error _ => 0

theorem home_eq {T : Type} [Hash T] {key : T} {h : UInt64} (hh : hashItem key = .ok h) :
    home key = h.toNat := by
  unfold home
  rw [hh]

/-- The key and the value of a slot. -/
def Slot.entry {T : Type} (s : Slot T) : T × ℕ := (s.key, s.value)

/-- The keys and values of a table. -/
def pairs {T : Type} (slots : List (Option (Slot T))) : Multiset (T × ℕ) :=
  ↑((contents slots).map Slot.entry)

section Pairs

variable {T : Type} {slots slots' : List (Option (Slot T))} {i : ℕ} {s s' : Slot T}

theorem card_pairs (slots : List (Option (Slot T))) : (pairs slots).card = (contents slots).length := by
  rw [pairs, Multiset.coe_card, List.length_map]

theorem mem_pairs {p : T × ℕ} : p ∈ pairs slots ↔ ∃ i s, get slots i = some s ∧ s.entry = p := by
  rw [pairs, Multiset.mem_coe, List.mem_map]
  constructor
  · rintro ⟨s, hs, hp⟩
    obtain ⟨i, hi⟩ := mem_contents_iff.mp hs
    exact ⟨i, s, hi, hp⟩
  · rintro ⟨i, s, hi, hp⟩
    exact ⟨s, mem_contents_iff.mpr ⟨i, hi⟩, hp⟩

theorem pairs_set_free (hi : i < slots.length) (h : get slots i = none) (s : Slot T) :
    pairs (slots.set i (some s)) = s.entry ::ₘ pairs slots :=
  Multiset.coe_eq_coe.mpr ((contents_set_free hi h s).map Slot.entry)

theorem pairs_set_none (h : get slots i = some s) :
    pairs slots = s.entry ::ₘ pairs (slots.set i none) :=
  (Multiset.coe_eq_coe.mpr ((contents_set_none h).map Slot.entry)).symm

theorem pairs_set_occupied (h : get slots i = some s) (s' : Slot T) :
    pairs slots = s.entry ::ₘ pairs (slots.set i none) ∧
      pairs (slots.set i (some s')) = s'.entry ::ₘ pairs (slots.set i none) := by
  have hlt := lt_length_of_get h
  refine ⟨pairs_set_none h, ?_⟩
  have hset := @pairs_set_free T (slots.set i none) i (by rw [List.length_set]; exact hlt)
    (get_set_self hlt none) s'
  rwa [List.set_set] at hset

end Pairs

namespace ReversePurgeItemHashMap

variable {T Q : Type}

/-- The finite map. -/
def entries (m : ReversePurgeItemHashMap T) : Multiset (T × ℕ) := pairs m.slots

theorem entries_empty (n : ℕ) : (empty n : ReversePurgeItemHashMap T).entries = 0 := by
  rw [empty, entries, pairs, contents_replicate_none]
  rfl

variable [Hash T] {m m' : ReversePurgeItemHashMap T} {key : T}

/-- What holds of every map. -/
structure Inv (m : ReversePurgeItemHashMap T) : Prop where
  length_eq : m.slots.length = 2 ^ m.lgLength
  threshold_eq : m.loadThreshold = 2 ^ m.lgLength * 3 / 4
  probed : Probed (fun s : Slot T ↦ home s.key) Slot.state (fun _ ↦ False) m.slots
  nodup : (m.entries.map Prod.fst).Nodup
  numActive_eq : m.numActive = m.entries.card

theorem inv_empty (lg : ℕ) : (empty (2 ^ lg) : ReversePurgeItemHashMap T).Inv := by
  have hlog : (2 ^ lg).log2 = lg := Nat.log2_two_pow
  refine ⟨?_, ?_, probed_replicate_none _, ?_, ?_⟩
  · rw [empty, List.length_replicate, hlog]
  · rw [empty, hlog]
  · rw [empty, entries, pairs, contents_replicate_none]
    exact Multiset.nodup_zero
  · rw [empty, entries, pairs, contents_replicate_none]
    rfl

theorem Inv.mask_eq (h : m.Inv) (i : ℕ) : i &&& (m.slots.length - 1) = i % m.slots.length := by
  rw [h.length_eq, Nat.and_two_pow_sub_one_eq_mod]

theorem Inv.length_pos (h : m.Inv) : 0 < m.slots.length := h.length_eq ▸ Nat.two_pow_pos _

/-- A map that is not full has a free slot. -/
theorem Inv.exists_free (h : m.Inv) (hroom : m.numActive < 2 ^ m.lgLength) :
    ∃ i < m.slots.length, get m.slots i = none := by
  refine OpenAddressing.exists_free ?_
  rwa [← card_pairs, h.length_eq, ← entries, ← h.numActive_eq]

/-! ## Finding a key -/

/-- What a search for a key returns: a slot on its way, and how far it is. -/
def Found (m : ReversePurgeItemHashMap T) (key : T) (r : ℕ × ℕ) : Prop :=
  ∃ s, r = ((home key + s) % m.slots.length, s + 1) ∧ s + 1 < driftLimit ∧
    (∀ j < s, ∃ e, get m.slots ((home key + j) % m.slots.length) = some e ∧
      e.key ≠ key) ∧
    ∀ e, get m.slots r.1 = some e → e.key = key

theorem findFrom_outcome (h : m.Inv) {hit : T → Bool} (hhit : ∀ t, hit t = true ↔ t = key)
    {left s : ℕ} (hleft : left + (s + 1) = driftLimit)
    (hbefore : ∀ j < s, ∃ e,
      get m.slots ((home key + j) % m.slots.length) = some e ∧ e.key ≠ key) :
    Outcome Drifted (m.findFrom hit left ((home key + s) % m.slots.length) (s + 1))
      (m.Found key) := by
  induction left generalizing s with
  | zero => exact Outcome.error rfl
  | succ left ih =>
      rw [findFrom]
      cases hget : get m.slots ((home key + s) % m.slots.length) with
      | none =>
          refine Outcome.ok ⟨s, rfl, by omega, hbefore, fun e he ↦ ?_⟩
          rw [hget] at he
          cases he
      | some slot =>
          dsimp only
          split_ifs with hk
          · refine Outcome.ok ⟨s, rfl, by omega, hbefore, fun e he ↦ ?_⟩
            rw [hget] at he
            cases he
            exact (hhit _).mp hk
          · rw [h.mask_eq, Nat.mod_add_mod, Nat.add_assoc]
            refine ih (by omega) fun j hj ↦ ?_
            rcases Nat.lt_succ_iff_lt_or_eq.mp hj with hj | rfl
            · exact hbefore j hj
            · exact ⟨slot, hget, fun heq ↦ hk ((hhit _).mpr heq)⟩

theorem findProbeOrEmpty_outcome (h : m.Inv) {hit : T → Bool} (hhit : ∀ t, hit t = true ↔ t = key)
    {hash : UInt64} (hh : home key = hash.toNat) :
    Outcome Drifted (m.findProbeOrEmpty hash hit) (m.Found key) := by
  rw [findProbeOrEmpty, h.mask_eq, ← hh]
  exact findFrom_outcome h hhit rfl fun j hj ↦ absurd hj (Nat.not_lt_zero j)

/-- In a map that is not full, a search ends within one round. -/
theorem Found.lt (h : m.Inv) (hroom : m.numActive < 2 ^ m.lgLength) {s : ℕ}
    (hbefore : ∀ j < s, ∃ e,
      get m.slots ((home key + j) % m.slots.length) = some e ∧ e.key ≠ key) :
    s < m.slots.length := by
  by_contra hge
  obtain ⟨i, hi, hfree⟩ := h.exists_free hroom
  -- the free slot is one of the slots passed
  have hlt := Nat.mod_lt (i + (m.slots.length - home key % m.slots.length)) h.length_pos
  obtain ⟨e, he, -⟩ := hbefore _ (hlt.trans_le (not_lt.mp hge))
  have hat : (home key + (i + (m.slots.length - home key % m.slots.length)) % m.slots.length) %
      m.slots.length = i := by
    have hk := Nat.mod_lt (home key) h.length_pos
    rw [Nat.add_mod_mod, ← Nat.mod_add_mod,
      show home key % m.slots.length + (i + (m.slots.length - home key % m.slots.length)) =
        i + m.slots.length by omega, Nat.add_mod_right, Nat.mod_eq_of_lt hi]
  rw [hat, hfree] at he
  cases he

/-- A search that ends at a free slot shows that the key has no counter. -/
theorem Found.notMem (h : m.Inv) {r : ℕ × ℕ} (hr : m.Found key r)
    (hfree : get m.slots r.1 = none) : key ∉ m.entries.map Prod.fst := by
  intro hmem
  obtain ⟨p, hp, rfl⟩ := Multiset.mem_map.mp hmem
  obtain ⟨i, e, he, rfl⟩ := mem_pairs.mp hp
  obtain ⟨s, rfl, -, hbefore, -⟩ := hr
  obtain ⟨s', -, -, hat, hpath⟩ := h.probed i e he
  rcases Nat.lt_trichotomy s s' with hlt | rfl | hgt
  · exact (hpath s hlt).resolve_right id hfree
  · have hat' : (home e.key + s) % m.slots.length = i := hat
    rw [show (home e.entry.1 + s) % m.slots.length = i from hat', he] at hfree
    cases hfree
  · obtain ⟨e', he', hne⟩ := hbefore s' hgt
    rw [show (home e.entry.1 + s') % m.slots.length = i from hat, he] at he'
    cases he'
    exact hne rfl

/-! ## Getting and adjusting -/

/-- What raising a counter does. -/
structure Adjusted (m : ReversePurgeItemHashMap T) (key : T) (v : ℕ)
    (m' : ReversePurgeItemHashMap T) : Prop where
  inv : m'.Inv
  lgLength_eq : m'.lgLength = m.lgLength
  put : Put key v m.entries m'.entries

/-- A new key in the first free slot on its way. -/
theorem Inv.insert (h : m.Inv) {s v : ℕ} (hs : s < m.slots.length)
    (hget : get m.slots ((home key + s) % m.slots.length) = none)
    (hbefore : ∀ j < s, get m.slots ((home key + j) % m.slots.length) ≠ none)
    (habsent : key ∉ m.entries.map Prod.fst) :
    m.Adjusted key v { m with
      slots := m.slots.set ((home key + s) % m.slots.length) (some ⟨key, v, s + 1⟩)
      numActive := m.numActive + 1 } := by
  have hlt : (home key + s) % m.slots.length < m.slots.length := Nat.mod_lt _ h.length_pos
  have hset : pairs (m.slots.set ((home key + s) % m.slots.length) (some ⟨key, v, s + 1⟩)) =
      (key, v) ::ₘ m.entries := pairs_set_free hlt hget ⟨key, v, s + 1⟩
  refine ⟨⟨?_, ?_, ?_, ?_, ?_⟩, rfl, .inl ⟨habsent, hset⟩⟩
  · dsimp only
    rw [List.length_set, h.length_eq]
  · dsimp only
    exact h.threshold_eq
  · exact h.probed.insert (e := ⟨key, v, s + 1⟩) rfl hs hget hbefore
  · rw [entries, hset, Multiset.map_cons, Multiset.nodup_cons]
    exact ⟨habsent, h.nodup⟩
  · rw [entries, hset, Multiset.card_cons, ← h.numActive_eq]

/-- A key that keeps its slot. -/
theorem Inv.raise (h : m.Inv) {i v : ℕ} {slot : Slot T} (hget : get m.slots i = some slot) :
    m.Adjusted slot.key v
      { m with slots := m.slots.set i (some { slot with value := slot.value + v }) } := by
  obtain ⟨hold, hnew⟩ := pairs_set_occupied hget { slot with value := slot.value + v }
  have hnodup := h.nodup
  have hcard := h.numActive_eq
  rw [entries, hold] at hnodup hcard
  rw [Multiset.map_cons] at hnodup
  rw [Multiset.card_cons] at hcard
  refine ⟨⟨?_, ?_, ?_, ?_, ?_⟩, rfl, .inr ⟨slot.value, _, hold, hnew⟩⟩
  · dsimp only
    rw [List.length_set, h.length_eq]
  · dsimp only
    exact h.threshold_eq
  · exact h.probed.replace hget rfl rfl
  · rw [entries, hnew, Multiset.map_cons]
    exact hnodup
  · rw [entries, hnew, Multiset.card_cons]
    exact hcard

section Keys

variable [DecidableEq T] [DecidableEq Q] [Hash Q]

/-- The counter that a search found. -/
theorem Found.count_eq (h : m.Inv) {r : ℕ × ℕ} (hr : m.Found key r) :
    count m.entries key = match get m.slots r.1 with
      | none => 0
      | some slot => slot.value := by
  cases hget : get m.slots r.1 with
  | none => exact count_eq_zero (hr.notMem h hget)
  | some slot =>
      obtain ⟨s, -, -, -, hkey⟩ := hr
      obtain rfl := hkey slot hget
      exact count_eq h.nodup (mem_pairs.mpr ⟨_, slot, hget, rfl⟩)

omit [DecidableEq T] [DecidableEq Q] in
theorem hashItem_toOwned [Borrow T Q] (key : Q) :
    hashItem (Borrow.toOwned key : T) = hashItem key := by
  have hwrites : Hash.writes (Borrow.toOwned key : T) = Hash.writes key := by
    rw [← Borrow.writes_borrow (Q := Q), Borrow.borrow_toOwned]
  unfold hashItem MurmurHash3X64128.hash
  rw [hwrites]

omit [DecidableEq T] [DecidableEq Q] in
theorem borrow_eq_iff [Borrow T Q] {t : T} {key : Q} :
    Borrow.borrow t = key ↔ t = Borrow.toOwned key := by
  constructor
  · rintro rfl
    exact (Borrow.toOwned_borrow t).symm
  · rintro rfl
    exact Borrow.borrow_toOwned key

/-- `get` returns the counter of the key. -/
theorem get_outcome [Borrow T Q] (h : m.Inv) (key : Q) :
    Outcome Drifted (m.get key) (· = count m.entries (Borrow.toOwned key)) := by
  obtain ⟨hash, hh⟩ := hashItem_total key
  have hhome : home (Borrow.toOwned key : T) = hash.toNat :=
    home_eq ((hashItem_toOwned key).trans hh)
  rw [ReversePurgeItemHashMap.get, hh, ok_bind]
  refine (findProbeOrEmpty_outcome h (fun t ↦ ?_) hhome).bind fun r _ hr ↦ ?_
  · rw [decide_eq_true_eq, borrow_eq_iff]
  · rw [hr.count_eq h]
    dsimp only
    cases get m.slots r.1 with
    | none => exact Outcome.ok rfl
    | some slot => exact Outcome.ok rfl

/-- The panic of a counter that does not fit. -/
def Overflown (m : ReversePurgeItemHashMap T) (key : T) (v : ℕ) (p : Panic) : Prop :=
  p = .overflow ∧ key ∈ m.entries.map Prod.fst ∧ 2 ^ 64 ≤ count m.entries key + v

theorem Found.adjustAt_cases (h : m.Inv) (hroom : m.numActive < 2 ^ m.lgLength) {r : ℕ × ℕ}
    (hr : m.Found key r) {v : ℕ} :
    Outcome (m.Overflown key v) (m.adjustAt key v r) (m.Adjusted key v) := by
  have habsent := hr.notMem h
  have hcount := hr.count_eq h
  obtain ⟨s, rfl, hdrift, hbefore, hkey⟩ := hr
  rw [adjustAt]
  cases hget : get m.slots ((home key + s) % m.slots.length) with
  | none =>
      rw [toU16_of_lt hdrift]
      refine Outcome.ok (h.insert (Found.lt h hroom hbefore) hget (fun j hj ↦ ?_) (habsent hget))
      obtain ⟨e, he, -⟩ := hbefore j hj
      rw [he]
      exact Option.some_ne_none e
  | some slot =>
      obtain rfl := hkey slot hget
      simp only [hget] at hcount
      have hmem : slot.key ∈ m.entries.map Prod.fst :=
        Multiset.mem_map_of_mem Prod.fst (mem_pairs.mpr ⟨_, slot, hget, rfl⟩)
      dsimp only
      by_cases hv : slot.value + v < 2 ^ 64
      · rw [checkedAdd_of_lt hv, ok_bind]
        exact Outcome.ok (h.raise hget)
      · rw [checkedAdd, if_neg hv, error_bind]
        exact Outcome.error ⟨rfl, hmem, hcount ▸ not_lt.mp hv⟩

/-- `adjust_or_put_value` raises the counter of the key. -/
theorem adjustOrPutValue_cases (h : m.Inv) (hroom : m.numActive < 2 ^ m.lgLength) (key : T) (v : ℕ) :
    Outcome (fun p ↦ Drifted p ∨ m.Overflown key v p) (m.adjustOrPutValue key v)
      (m.Adjusted key v) := by
  obtain ⟨hash, hh⟩ := hashItem_total key
  rw [adjustOrPutValue, hh, ok_bind]
  have hfind := @findProbeOrEmpty_outcome T _ m key h
    (fun existing ↦ existing = key) (fun t ↦ decide_eq_true_iff) _ (home_eq hh)
  exact (hfind.weaken fun p hp ↦ .inl hp).bind
    fun r _ hr ↦ (hr.adjustAt_cases h hroom).weaken fun p hp ↦ .inr hp

/-- Where the counter fits, only the drift limit is in the way. -/
theorem adjustOrPutValue_outcome (h : m.Inv) (hroom : m.numActive < 2 ^ m.lgLength) (key : T) {v : ℕ}
    (hv : key ∈ m.entries.map Prod.fst → count m.entries key + v < 2 ^ 64) :
    Outcome Drifted (m.adjustOrPutValue key v) (m.Adjusted key v) := by
  refine (adjustOrPutValue_cases h hroom key v).weaken fun p hp ↦ hp.resolve_right ?_
  rintro ⟨-, hmem, hlarge⟩
  exact absurd (hv hmem) (not_lt.mpr hlarge)

/-- A borrowed key stands for its owned form. -/
theorem adjustOrPutValueRef_eq [Borrow T Q] (m : ReversePurgeItemHashMap T) (key : Q) (v : ℕ) :
    m.adjustOrPutValueRef key v = m.adjustOrPutValue (Borrow.toOwned key) v := by
  rw [adjustOrPutValueRef, adjustOrPutValue, hashItem_toOwned]
  simp only [borrow_eq_iff]

/-! ## Resizing -/

/-- `resize` keeps all pairs. -/
theorem resize_outcome (h : m.Inv) {lg : ℕ} (hroom : m.numActive < 2 ^ lg) :
    Outcome Drifted (m.resize (2 ^ lg))
      fun m' ↦ m'.Inv ∧ m'.lgLength = lg ∧ m'.entries = m.entries := by
  have hlen : (contents m.slots).length < 2 ^ lg := by
    rwa [← card_pairs, ← entries, ← h.numActive_eq]
  have hkeys : ((contents m.slots).map Slot.key).Nodup := by
    have hnodup := h.nodup
    rwa [entries, pairs, Multiset.map_coe, Multiset.coe_nodup, List.map_map] at hnodup
  rw [resize, assert_pos ⟨lg, rfl⟩, ok_bind]
  generalize hslots : contents m.slots = slots at hlen hkeys
  have hrun : Outcome Drifted (run (fun m (slot : Slot T) ↦ m.adjustOrPutValue slot.key slot.value)
      (empty (2 ^ lg)) slots) fun m' ↦ m'.Inv ∧ m'.lgLength = lg ∧
        m'.entries = ↑(slots.map Slot.entry) := by
    clear hslots
    induction slots using List.reverseRecOn with
    | nil => exact Outcome.ok ⟨inv_empty lg, Nat.log2_two_pow, entries_empty _⟩
    | append_singleton slots slot ih =>
        rw [List.length_append, List.length_singleton] at hlen
        rw [List.map_append, List.map_singleton, List.nodup_append] at hkeys
        rw [run_concat]
        refine (ih (by omega) hkeys.1).bind fun m₁ _ ⟨h₁, hlg, hentries⟩ ↦ ?_
        have hnotMem : slot.key ∉ m₁.entries.map Prod.fst := by
          rw [hentries, Multiset.map_coe, Multiset.mem_coe, List.map_map]
          exact fun hmem ↦ hkeys.2.2 _ hmem _ (List.mem_singleton_self _) rfl
        have hroom₁ : m₁.numActive < 2 ^ m₁.lgLength := by
          rw [h₁.numActive_eq, hentries, Multiset.coe_card, List.length_map, hlg]
          omega
        refine (adjustOrPutValue_outcome h₁ hroom₁ slot.key
          fun hmem ↦ absurd hmem hnotMem).mono fun m₂ _ h₂ ↦ ⟨h₂.inv, h₂.lgLength_eq.trans hlg, ?_⟩
        rcases h₂.put with ⟨-, hput⟩ | ⟨v₀, F, hF, -⟩
        · rw [hput, hentries, List.map_append, Multiset.cons_coe, Multiset.coe_eq_coe]
          exact (List.perm_append_singleton _ _).symm
        · rw [hF, Multiset.map_cons] at hnotMem
          exact absurd (Multiset.mem_cons_self _ _) hnotMem
  refine hrun.mono fun m' _ h' ↦ ⟨h'.1, h'.2.1, h'.2.2.trans ?_⟩
  rw [entries, pairs, hslots]

end Keys

end ReversePurgeItemHashMap

end DataSketches
