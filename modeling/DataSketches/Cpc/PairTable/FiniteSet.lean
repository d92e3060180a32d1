import DataSketches.Cpc.PairTable
import DataSketches.Lib.Reinsertion

/-!
# The pair table as a finite set

A table holds a finite set of items.  `Holds` is what a table is in the middle of
an operation, `Inv` adds the count and the load between two operations.
-/

namespace DataSketches

namespace Cpc

open Runs OpenAddressing LinearProbing

namespace PairTable

/-! ## Slots -/

/-- The slots as options. -/
def view (slots : List ℕ) : List (Option ℕ) :=
  slots.map fun s ↦ if s = u32Max then none else some s

section View

variable {slots : List ℕ} {i x : ℕ}

@[simp] theorem length_view (slots : List ℕ) : (view slots).length = slots.length := List.length_map _

theorem view_replicate (n : ℕ) : view (List.replicate n u32Max) = List.replicate n none := by
  rw [view, List.map_replicate, if_pos rfl]

theorem view_set_free (slots : List ℕ) (i : ℕ) :
    view (slots.set i u32Max) = (view slots).set i none := by
  rw [view, List.map_set, if_pos rfl]
  rfl

theorem view_set_item (hx : x ≠ u32Max) (slots : List ℕ) (i : ℕ) :
    view (slots.set i x) = (view slots).set i (some x) := by
  rw [view, List.map_set, if_neg hx]
  rfl

theorem contents_view (slots : List ℕ) : contents (view slots) = slots.filter (· ≠ u32Max) := by
  induction slots with
  | nil => rfl
  | cons s slots ih =>
      by_cases hs : s = u32Max
      · rw [List.filter_cons_of_neg (by simpa using hs), ← ih, view, List.map_cons, if_pos hs]
        rfl
      · rw [List.filter_cons_of_pos (by simpa using hs), ← ih, view, List.map_cons, if_neg hs]
        rfl

theorem get_view (hi : i < slots.length) :
    get (view slots) i = if slots[i] = u32Max then none else some slots[i] := by
  rw [OpenAddressing.get, List.getD_eq_getElem _ _ (by rwa [length_view])]
  exact List.getElem_map _

theorem slotAt_of_lt (hi : i < slots.length) : slotAt slots i = .ok slots[i] := by
  rw [slotAt, List.getElem?_eq_getElem hi]
  rfl

theorem slotAt_of_free (hi : i < slots.length) (h : get (view slots) i = none) :
    slotAt slots i = .ok u32Max := by
  rw [get_view hi] at h
  rw [slotAt_of_lt hi]
  split_ifs at h with hmax
  exact congrArg _ hmax

theorem slotAt_of_get (h : get (view slots) i = some x) : slotAt slots i = .ok x ∧ x ≠ u32Max := by
  have hi : i < slots.length := length_view slots ▸ lt_length_of_get h
  rw [get_view hi] at h
  split_ifs at h with hmax
  cases h
  exact ⟨slotAt_of_lt hi, hmax⟩

end View

/-! ## Searching -/

/-- The slot at which the search for an item starts: its high bits. -/
def home (t : PairTable) (item : ℕ) : ℕ := item >>> (t.numValidBits - t.lgSize)

/-- The sizes of a table. -/
structure Shaped (t : PairTable) : Prop where
  two_le : 2 ≤ t.lgSize
  le_max : t.lgSize ≤ 26
  lt_numValidBits : t.lgSize + 1 ≤ t.numValidBits
  numValidBits_le : t.numValidBits ≤ 32
  length_eq : t.slots.length = 2 ^ t.lgSize

/-- The items that a table for this many bits can take. -/
structure Allowed (numValidBits item : ℕ) : Prop where
  lt : item < 2 ^ numValidBits
  ne_max : item ≠ u32Max

theorem home_lt {t : PairTable} (h : t.lgSize ≤ t.numValidBits) {item : ℕ}
    (hitem : item < 2 ^ t.numValidBits) : t.home item < 2 ^ t.lgSize := by
  rw [home, Nat.shiftRight_eq_div_pow, Nat.div_lt_iff_lt_mul (Nat.two_pow_pos _), ← pow_add,
    Nat.add_sub_cancel' h]
  exact hitem

theorem lookupFrom_eq {slots : List ℕ} {lg item h d : ℕ} (hlen : slots.length = 2 ^ lg)
    (hitem : item ≠ u32Max) (hends : Ends (view slots) h item d) {fuel j : ℕ} (hj : j ≤ d)
    (hfuel : d < j + fuel) :
    lookupFrom slots (2 ^ lg - 1) item fuel ((h + j) % 2 ^ lg) = .ok ((h + d) % 2 ^ lg) := by
  have hlast := hends.last
  have hbefore := hends.before
  rw [length_view, hlen] at hlast hbefore
  induction fuel generalizing j with
  | zero => omega
  | succ fuel ih =>
      rw [lookupFrom]
      rcases Nat.lt_or_eq_of_le hj with hlt | rfl
      · obtain ⟨e, he, hne⟩ := hbefore j hlt
        obtain ⟨hslot, hmax⟩ := slotAt_of_get he
        rw [hslot, ok_bind, if_pos ⟨hne, hmax⟩, Nat.and_two_pow_sub_one_eq_mod, Nat.mod_add_mod,
          Nat.add_assoc]
        exact ih hlt (by omega)
      · have hi : (h + j) % 2 ^ lg < slots.length := by
          rw [hlen]
          exact Nat.mod_lt _ (Nat.two_pow_pos lg)
        rcases hlast with hfree | hsome
        · rw [slotAt_of_free hi hfree, ok_bind, if_neg fun hne ↦ hne.2 rfl]
          rfl
        · rw [(slotAt_of_get hsome).1, ok_bind, if_neg fun hne ↦ hne.1 rfl]
          rfl

variable {t t' : PairTable} {S : Finset ℕ} {item : ℕ}

theorem lookup_eq (h : t.Shaped) (hitem : Allowed t.numValidBits item) {d : ℕ} (hd : d < 2 ^ t.lgSize)
    (hends : Ends (view t.slots) (t.home item) item d) :
    t.lookup item = .ok ((t.home item + d) % 2 ^ t.lgSize) := by
  have hhome := home_lt ((Nat.le_succ _).trans h.lt_numValidBits) hitem.lt
  have hfrom := lookupFrom_eq h.length_eq hitem.ne_max hends (Nat.zero_le d)
    (show d < 0 + 2 ^ t.lgSize by rwa [Nat.zero_add])
  rw [Nat.add_zero, Nat.mod_eq_of_lt hhome] at hfrom
  have hprobe : item >>> (t.numValidBits - t.lgSize) ≤ 1 <<< t.lgSize - 1 := by
    rw [Nat.one_shiftLeft]
    exact Nat.le_sub_one_of_lt hhome
  rw [lookup, assert_pos hprobe, ok_bind, Nat.one_shiftLeft]
  exact hfrom

theorem mustInsert_eq (h : t.Shaped) (hitem : Allowed t.numValidBits item) {d : ℕ} (hd : d < 2 ^ t.lgSize)
    (hends : Ends (view t.slots) (t.home item) item d)
    (hfree : get (view t.slots) ((t.home item + d) % 2 ^ t.lgSize) = none) :
    t.mustInsert item =
      .ok { t with slots := t.slots.set ((t.home item + d) % 2 ^ t.lgSize) item } := by
  have hi : (t.home item + d) % 2 ^ t.lgSize < t.slots.length := by
    rw [h.length_eq]
    exact Nat.mod_lt _ (Nat.two_pow_pos _)
  rw [mustInsert, lookup_eq h hitem hd hends, ok_bind, slotAt_of_free hi hfree, ok_bind,
    assert_pos hitem.ne_max.symm, ok_bind, assert_pos rfl, ok_bind]
  rfl

/-! ## The set of a table -/

/-- The table holds the items of a set. -/
structure Holds (t : PairTable) (S : Finset ℕ) : Prop extends Shaped t where
  walked : Walked t.home (view t.slots)
  contents_eq : (contents (view t.slots) : Multiset ℕ) = S.val
  allowed : ∀ x ∈ S, Allowed t.numValidBits x

/-- Nothing but the slots has changed. -/
structure SameSize (t t' : PairTable) : Prop where
  lgSize_eq : t'.lgSize = t.lgSize
  numValidBits_eq : t'.numValidBits = t.numValidBits
  numItems_eq : t'.numItems = t.numItems

theorem SameSize.refl (t : PairTable) : SameSize t t := ⟨rfl, rfl, rfl⟩

theorem SameSize.trans {t'' : PairTable} (h : SameSize t t') (h' : SameSize t' t'') :
    SameSize t t'' := ⟨h'.1.trans h.1, h'.2.trans h.2, h'.3.trans h.3⟩

namespace Holds

theorem mem_iff (h : Holds t S) : item ∈ S ↔ item ∈ contents (view t.slots) := by
  rw [← Finset.mem_val, ← h.contents_eq, Multiset.mem_coe]

theorem length_contents (h : Holds t S) : (contents (view t.slots)).length = S.card := by
  rw [← Multiset.coe_card, h.contents_eq]
  rfl

/-- A table that is not full has a free slot. -/
theorem exists_free (h : Holds t S) (hroom : S.card < 2 ^ t.lgSize) :
    ∃ i < (view t.slots).length, get (view t.slots) i = none := by
  apply OpenAddressing.exists_free
  rwa [h.length_contents, length_view, h.length_eq]

/-- In a table that is not full, the search for an item ends. -/
theorem exists_ends (h : Holds t S) (hroom : S.card < 2 ^ t.lgSize) (item : ℕ) :
    ∃ d < 2 ^ t.lgSize, Ends (view t.slots) (t.home item) item d := by
  obtain ⟨i, hi, hfree⟩ := h.exists_free hroom
  obtain ⟨d, hd, hends⟩ := exists_ends_of_free hi hfree (t.home item) item
  rw [length_view, h.length_eq] at hd
  exact ⟨d, hd, hends⟩

/-- Where a search ends. -/
theorem last (h : Holds t S) {d : ℕ} (hends : Ends (view t.slots) (t.home item) item d) :
    (item ∉ S ∧ get (view t.slots) ((t.home item + d) % 2 ^ t.lgSize) = none) ∨
      (item ∈ S ∧ get (view t.slots) ((t.home item + d) % 2 ^ t.lgSize) = some item) := by
  have hlast := hends.last
  rw [length_view, h.length_eq] at hlast
  rcases hlast with hfree | hsome
  · refine .inl ⟨fun hmem ↦ h.walked.notMem hends ?_ (h.mem_iff.mp hmem), hfree⟩
    rw [length_view, h.length_eq]
    exact hfree
  · exact .inr ⟨h.mem_iff.mpr (mem_contents_iff.mpr ⟨_, hsome⟩), hsome⟩

/-- A new item at the slot found. -/
theorem store (h : Holds t S) (hitem : Allowed t.numValidBits item) {d : ℕ} (hd : d < 2 ^ t.lgSize)
    (hends : Ends (view t.slots) (t.home item) item d)
    (hfree : get (view t.slots) ((t.home item + d) % 2 ^ t.lgSize) = none) (hnew : item ∉ S) :
    Holds { t with slots := t.slots.set ((t.home item + d) % 2 ^ t.lgSize) item } (insert item S) := by
  have hlen : (view t.slots).length = 2 ^ t.lgSize := by rw [length_view, h.length_eq]
  have hi : (t.home item + d) % 2 ^ t.lgSize < (view t.slots).length := by
    rw [hlen]
    exact Nat.mod_lt _ (Nat.two_pow_pos _)
  refine ⟨⟨h.two_le, h.le_max, h.lt_numValidBits, h.numValidBits_le, ?_⟩, ?_, ?_, fun x hx ↦ ?_⟩
  · rw [List.length_set, h.length_eq]
  · have hw := h.walked.insert (hlen ▸ hd) hends
    rw [hlen] at hw
    rw [view_set_item hitem.ne_max]
    exact hw
  · rw [view_set_item hitem.ne_max, Finset.insert_val_of_notMem hnew, ← h.contents_eq,
      Multiset.cons_coe]
    exact Multiset.coe_eq_coe.mpr (contents_set_free hi hfree item)
  · rcases Finset.mem_insert.mp hx with rfl | hx
    · exact hitem
    · exact h.allowed x hx

/-- `must_insert` stores a new item. -/
theorem mustInsert (h : Holds t S) (hroom : S.card < 2 ^ t.lgSize) (hitem : Allowed t.numValidBits item)
    (hnew : item ∉ S) :
    ∃ t', t.mustInsert item = .ok t' ∧ Holds t' (insert item S) ∧ SameSize t t' := by
  obtain ⟨d, hd, hends⟩ := h.exists_ends hroom item
  obtain ⟨-, hfree⟩ := (h.last hends).resolve_right fun hmem ↦ hnew hmem.1
  exact ⟨_, mustInsert_eq h.toShaped hitem hd hends hfree, h.store hitem hd hends hfree hnew,
    ⟨rfl, rfl, rfl⟩⟩

/-- Storing items one after the other. -/
theorem run_mustInsert (h : Holds t S) {es : List ℕ} (hnodup : es.Nodup) (hnew : ∀ x ∈ es, x ∉ S)
    (hallowed : ∀ x ∈ es, Allowed t.numValidBits x) (hroom : S.card + es.length ≤ 2 ^ t.lgSize) :
    ∃ t', run PairTable.mustInsert t es = .ok t' ∧ Holds t' (S ∪ es.toFinset) ∧ SameSize t t' := by
  induction es generalizing t S with
  | nil => exact ⟨t, rfl, by rwa [List.toFinset_nil, Finset.union_empty], SameSize.refl t⟩
  | cons x es ih =>
      rw [List.nodup_cons] at hnodup
      rw [List.length_cons] at hroom
      have hx := hnew x List.mem_cons_self
      obtain ⟨t₁, hok, h₁, hsame⟩ := h.mustInsert (by omega) (hallowed x List.mem_cons_self) hx
      have hnew₁ : ∀ y ∈ es, y ∉ insert x S := by
        intro y hy hmem
        rcases Finset.mem_insert.mp hmem with rfl | hmem
        · exact hnodup.1 hy
        · exact hnew y (List.mem_cons_of_mem x hy) hmem
      have hallowed₁ : ∀ y ∈ es, Allowed t₁.numValidBits y := by
        intro y hy
        rw [hsame.numValidBits_eq]
        exact hallowed y (List.mem_cons_of_mem x hy)
      obtain ⟨t₂, hok₂, h₂, hsame₂⟩ := ih h₁ hnodup.2 hnew₁ hallowed₁ (by
        rw [Finset.card_insert_of_notMem hx, hsame.lgSize_eq]
        omega)
      refine ⟨t₂, ?_, ?_, hsame.trans hsame₂⟩
      · rw [run_cons, hok]
        exact hok₂
      · rwa [List.toFinset_cons, Finset.union_insert, ← Finset.insert_union]

end Holds

/-- A table without items. -/
theorem holds_replicate (hsize : 2 ≤ t.lgSize ∧ t.lgSize ≤ 26)
    (hbits : t.lgSize + 1 ≤ t.numValidBits ∧ t.numValidBits ≤ 32)
    (hslots : t.slots = List.replicate (2 ^ t.lgSize) u32Max) : Holds t ∅ := by
  refine ⟨⟨hsize.1, hsize.2, hbits.1, hbits.2, ?_⟩, ?_, ?_, fun x hx ↦ absurd hx (Finset.notMem_empty x)⟩
  · rw [hslots, List.length_replicate]
  · rw [hslots, view_replicate]
    exact walked_replicate_none _
  · rw [hslots, view_replicate, contents_replicate_none]
    rfl

/-- `rebuild` keeps the items. -/
theorem Holds.rebuild (h : Holds t S) (hnum : t.numItems = S.card) {lg : ℕ} (hsize : 2 ≤ lg ∧ lg ≤ 26)
    (hbits : lg + 1 ≤ t.numValidBits) (hroom : S.card < 2 ^ lg) :
    ∃ t', t.rebuild lg = .ok t' ∧ Holds t' S ∧ t'.lgSize = lg ∧
      t'.numValidBits = t.numValidBits ∧ t'.numItems = t.numItems := by
  have hempty : Holds { t with lgSize := lg, slots := List.replicate (2 ^ lg) u32Max } ∅ :=
    holds_replicate hsize ⟨hbits, h.numValidBits_le⟩ rfl
  have hlist : (contents (view t.slots)).toFinset = S := by
    ext x
    rw [List.mem_toFinset, h.mem_iff]
  have hnodup : (contents (view t.slots)).Nodup := by
    rw [← Multiset.coe_nodup, h.contents_eq]
    exact S.nodup
  obtain ⟨t', hok, h', hsame⟩ := hempty.run_mustInsert hnodup (fun x _ ↦ Finset.notMem_empty x)
    (fun x hx ↦ h.allowed x (h.mem_iff.mpr hx)) (by
      rw [Finset.card_empty, Nat.zero_add, h.length_contents]
      exact hroom.le)
  rw [hlist, Finset.empty_union] at h'
  refine ⟨t', ?_, h', hsame.lgSize_eq, hsame.numValidBits_eq, hsame.numItems_eq⟩
  rw [PairTable.rebuild, assert_pos hsize, ok_bind, assert_pos ⟨hbits, h.numValidBits_le⟩, ok_bind,
    Nat.one_shiftLeft]
  dsimp only
  rw [assert_pos (by rw [hnum]; exact hroom), ok_bind, ← contents_view]
  exact hok

/-! ## The invariant -/

/-- The table holds the items of a set, counts them, and is not too full. -/
structure Inv (t : PairTable) (S : Finset ℕ) : Prop extends Holds t S where
  numItems_eq : t.numItems = S.card
  load : 4 * t.numItems ≤ 3 * 2 ^ t.lgSize

/-- The set is not too large for the largest table. -/
def Fits (numValidBits : ℕ) (S : Finset ℕ) : Prop := 4 * S.card ≤ 3 * 2 ^ min 26 (numValidBits - 1)

instance (numValidBits : ℕ) (S : Finset ℕ) : Decidable (Fits numValidBits S) := Nat.decLe _ _

theorem Inv.card_lt (h : Inv t S) : S.card < 2 ^ t.lgSize := by
  have hload := h.load
  have hpos := Nat.two_pow_pos t.lgSize
  rw [h.numItems_eq] at hload
  omega

theorem inv_of_new {lgSize numValidBits : ℕ} (hok : new lgSize numValidBits = .ok t) :
    Inv t ∅ ∧ t.numValidBits = numValidBits := by
  obtain ⟨hsize, hok⟩ := assert_bind_eq_ok.mp hok
  obtain ⟨hbits, hok⟩ := assert_bind_eq_ok.mp hok
  cases hok
  exact ⟨⟨holds_replicate hsize hbits (by rw [Nat.one_shiftLeft]), rfl, Nat.zero_le _⟩, rfl⟩

theorem Inv.clear (h : Inv t S) : Inv t.clear ∅ :=
  ⟨holds_replicate ⟨h.two_le, h.le_max⟩ ⟨h.lt_numValidBits, h.numValidBits_le⟩
    (by rw [PairTable.clear, h.length_eq]), rfl, Nat.zero_le _⟩

/-! ## Inserting -/

/-- One more item makes the table grow at most once. -/
theorem grow_spec (h : Holds t S) (hnum : t.numItems = S.card)
    (hload : 4 * t.numItems ≤ 3 * 2 ^ t.lgSize + 4) (hfits : Fits t.numValidBits S) :
    ∃ t', grow 26 t = .ok t' ∧ Inv t' S ∧ t'.numValidBits = t.numValidBits := by
  rw [grow, upsizeDenominator, upsizeNumerator, Nat.one_shiftLeft]
  split_ifs with hover
  · have hlt : t.lgSize < min 26 (t.numValidBits - 1) := by
      by_contra hge
      have hpow := Nat.pow_le_pow_right two_pos (not_lt.mp hge)
      unfold Fits at hfits
      omega
    have hfour : 2 ^ 2 ≤ 2 ^ t.lgSize := Nat.pow_le_pow_right two_pos h.two_le
    obtain ⟨t', hok, h', hlg, hbits, hitems⟩ := @Holds.rebuild _ _ h hnum (t.lgSize + 1)
      ⟨by have := h.two_le; omega, by omega⟩ (by omega) (by rw [pow_succ]; omega)
    have hload' : 4 * t'.numItems ≤ 3 * 2 ^ t'.lgSize := by
      rw [hitems, hlg, pow_succ]
      omega
    refine ⟨t', ?_, ⟨h', hitems.trans hnum, hload'⟩, hbits⟩
    rw [hok, ok_bind, grow, upsizeDenominator, upsizeNumerator, Nat.one_shiftLeft,
      if_neg (not_lt.mpr hload')]
    rfl
  · exact ⟨t, rfl, ⟨h, hnum, not_lt.mp hover⟩, rfl⟩

/-- `maybe_insert` adds an item and tells whether it is new. -/
theorem Inv.maybeInsert (h : Inv t S) (hitem : Allowed t.numValidBits item)
    (hfits : Fits t.numValidBits (insert item S)) :
    ∃ t', t.maybeInsert item = .ok (t', decide (item ∉ S)) ∧ Inv t' (insert item S) ∧
      t'.numValidBits = t.numValidBits := by
  obtain ⟨d, hd, hends⟩ := h.exists_ends h.card_lt item
  have hi : (t.home item + d) % 2 ^ t.lgSize < t.slots.length := by
    rw [h.length_eq]
    exact Nat.mod_lt _ (Nat.two_pow_pos _)
  rw [PairTable.maybeInsert, lookup_eq h.toShaped hitem hd hends, ok_bind]
  rcases h.last hends with ⟨hnew, hfree⟩ | ⟨hmem, hsome⟩
  · have hholds := h.toHolds.store hitem hd hends hfree hnew
    have hcard := Finset.card_insert_of_notMem hnew
    obtain ⟨t', hok, h', hbits⟩ := @grow_spec { t with
        slots := t.slots.set ((t.home item + d) % 2 ^ t.lgSize) item
        numItems := t.numItems + 1 } (insert item S)
      ⟨⟨hholds.1.1, hholds.1.2, hholds.1.3, hholds.1.4, hholds.1.5⟩, hholds.2, hholds.3, hholds.4⟩
      (by rw [hcard, ← h.numItems_eq]) (by have := h.load; dsimp only; omega) hfits
    refine ⟨t', ?_, h', hbits⟩
    rw [slotAt_of_free hi hfree, ok_bind, if_neg hitem.ne_max.symm, assert_pos rfl, ok_bind]
    dsimp only
    rw [hok, ok_bind, decide_eq_true hnew]
    rfl
  · refine ⟨t, ?_, ?_, rfl⟩
    · rw [(slotAt_of_get hsome).1, ok_bind, if_pos rfl, decide_eq_false (not_not.mpr hmem)]
      rfl
    · rwa [Finset.insert_eq_of_mem hmem]

/-! ## Deleting -/

/-- The loop that stores the following items again. -/
theorem reinsertFrom_spec {fuel s p z : ℕ} (hshape : t.Shaped)
    (hre : Reinserting t.home (view t.slots) p s z)
    (hcontents : (contents (view t.slots) : Multiset ℕ) = S.val)
    (hallowed : ∀ x ∈ S, Allowed t.numValidBits x) (hfuel : z < p + s + fuel) :
    ∃ t', reinsertFrom (2 ^ t.lgSize - 1) fuel ((p + s) % 2 ^ t.lgSize) t = .ok t' ∧ Holds t' S ∧
      SameSize t t' := by
  induction fuel generalizing t s with
  | zero =>
      have hle := hre.le
      omega
  | succ fuel ih =>
      have hlen : (view t.slots).length = 2 ^ t.lgSize := by rw [length_view, hshape.length_eq]
      have hq : (p + s) % 2 ^ t.lgSize < t.slots.length := by
        rw [hshape.length_eq]
        exact Nat.mod_lt _ (Nat.two_pow_pos _)
      rw [reinsertFrom]
      cases hget : get (view t.slots) ((p + s) % 2 ^ t.lgSize) with
      | none =>
          rw [slotAt_of_free hq hget, ok_bind, if_neg (not_not.mpr rfl)]
          have hend : p + s = z := hre.eq_iff.mp (by rw [hlen]; exact hget)
          exact ⟨t, rfl, ⟨hshape, hre.walked hend, hcontents, hallowed⟩, SameSize.refl t⟩
      | some x =>
          obtain ⟨hslot, hx⟩ := slotAt_of_get hget
          have hview : view (t.slots.set ((p + s) % 2 ^ t.lgSize) u32Max) =
              (view t.slots).set ((p + s) % 2 ^ t.lgSize) none := view_set_free _ _
          have hout := Multiset.coe_eq_coe.mpr (contents_set_none hget)
          rw [hcontents, ← Multiset.cons_coe] at hout
          have hxS : x ∈ S := by
            rw [← Finset.mem_val, ← hout]
            exact Multiset.mem_cons_self _ _
          have hnot : x ∉ contents ((view t.slots).set ((p + s) % 2 ^ t.lgSize) none) := by
            have hnodup := S.nodup
            rw [← hout, Multiset.nodup_cons] at hnodup
            exact hnodup.1
          have hends := hre.ends (by rw [hlen]; exact hget) (by rw [hlen]; exact hnot)
          rw [hlen, ← hview] at hends
          obtain ⟨d, hd, hends, hfree, hback⟩ := hends
          have hshape₁ : Shaped { t with slots := t.slots.set ((p + s) % 2 ^ t.lgSize) u32Max } :=
            ⟨hshape.1, hshape.2, hshape.3, hshape.4, by rw [List.length_set, hshape.length_eq]⟩
          have hmust := mustInsert_eq hshape₁ (hallowed x hxS) hd hends hfree
          have hstep := hre.step (by rw [hlen]; exact hget) (hlen.symm ▸ hd)
            (by rw [hlen, ← hview]; exact hends) (by rw [hlen]; exact hback)
          rw [hlen, ← hview, ← view_set_item hx] at hstep
          have hy : (t.home x + d) % 2 ^ t.lgSize <
              (view (t.slots.set ((p + s) % 2 ^ t.lgSize) u32Max)).length := by
            rw [length_view, List.length_set, hshape.length_eq]
            exact Nat.mod_lt _ (Nat.two_pow_pos _)
          have hin := Multiset.coe_eq_coe.mpr (contents_set_free hy hfree x)
          rw [← Multiset.cons_coe, hview, hout, ← hview, ← view_set_item hx] at hin
          obtain ⟨t', hok, h', hsame⟩ := @ih { t with slots :=
              (t.slots.set ((p + s) % 2 ^ t.lgSize) u32Max).set ((t.home x + d) % 2 ^ t.lgSize) x }
            (s + 1) ⟨hshape.1, hshape.2, hshape.3, hshape.4,
              by rw [List.length_set, List.length_set, hshape.length_eq]⟩ hstep hin hallowed (by omega)
          refine ⟨t', ?_, h', ⟨hsame.1, hsame.2, hsame.3⟩⟩
          rw [hslot, ok_bind, if_pos hx, hmust, ok_bind, Nat.and_two_pow_sub_one_eq_mod,
            Nat.mod_add_mod, Nat.add_assoc]
          exact hok

theorem shrink_spec {fuel : ℕ} (h : Inv t S) (hfuel : t.lgSize < fuel + 2) :
    ∃ t', shrink fuel t = .ok t' ∧ Inv t' S ∧ t'.numValidBits = t.numValidBits := by
  induction fuel generalizing t with
  | zero =>
      have hle := h.two_le
      omega
  | succ fuel ih =>
      rw [shrink, downsizeDenominator, downsizeNumerator, Nat.one_shiftLeft]
      split_ifs with hsmall
      · obtain ⟨hload, htwo⟩ := hsmall
        have hpow : 2 ^ t.lgSize = 2 * 2 ^ (t.lgSize - 1) := by
          rw [← Nat.pow_succ', Nat.succ_eq_add_one, Nat.sub_add_cancel (by omega)]
        have hnum := h.numItems_eq
        have hbits := h.lt_numValidBits
        have hmax := h.le_max
        obtain ⟨t', hok, h', hlg, hbits', hitems⟩ := @Holds.rebuild _ _ h.toHolds hnum (t.lgSize - 1)
          ⟨by omega, by omega⟩ (by omega) (by omega)
        have hinv : Inv t' S := ⟨h', hitems.trans hnum, by rw [hitems, hlg]; omega⟩
        obtain ⟨t'', hok', h'', hbits''⟩ := ih hinv (by omega)
        exact ⟨t'', by rw [hok, ok_bind]; exact hok', h'', hbits''.trans hbits'⟩
      · exact ⟨t, rfl, h, rfl⟩

/-- `maybe_delete` removes an item and tells whether it was there. -/
theorem Inv.maybeDelete (h : Inv t S) (hitem : Allowed t.numValidBits item) :
    ∃ t', t.maybeDelete item = .ok (t', decide (item ∈ S)) ∧ Inv t' (S.erase item) ∧
      t'.numValidBits = t.numValidBits := by
  obtain ⟨d, hd, hends⟩ := h.exists_ends h.card_lt item
  have hlen : (view t.slots).length = 2 ^ t.lgSize := by rw [length_view, h.length_eq]
  have hp : (t.home item + d) % 2 ^ t.lgSize < (view t.slots).length := by
    rw [hlen]
    exact Nat.mod_lt _ (Nat.two_pow_pos _)
  rw [PairTable.maybeDelete, lookup_eq h.toShaped hitem hd hends, ok_bind]
  have hlast := h.last hends
  generalize (t.home item + d) % 2 ^ t.lgSize = p at hp hlast
  rcases hlast with ⟨hnew, hfree⟩ | ⟨hmem, hsome⟩
  · refine ⟨t, ?_, ?_, rfl⟩
    · rw [slotAt_of_free (length_view t.slots ▸ hp) hfree, ok_bind, if_pos rfl, decide_eq_false hnew]
      rfl
    · rwa [Finset.erase_eq_of_notMem hnew]
  · obtain ⟨i, hi, hfree⟩ := h.exists_free h.card_lt
    have hne : i ≠ p := by
      rintro rfl
      rw [hfree] at hsome
      cases hsome
    obtain ⟨z, hre⟩ := h.walked.remove hp hi hne hfree
    have hz := hre.lt
    rw [List.length_set, hlen] at hz
    have hout := Multiset.coe_eq_coe.mpr (contents_set_none hsome)
    rw [h.contents_eq, ← Multiset.cons_coe] at hout
    have hcard := Finset.card_erase_of_mem hmem
    have hpos := Finset.card_pos.mpr ⟨item, hmem⟩
    have hnum := h.numItems_eq
    obtain ⟨t₁, hok₁, h₁, hsame⟩ := @reinsertFrom_spec { t with
        slots := t.slots.set p u32Max
        numItems := t.numItems - 1 } (S.erase item) (2 ^ t.lgSize) 1 p z
      ⟨h.1.1.1, h.1.1.2, h.1.1.3, h.1.1.4, by rw [List.length_set, h.length_eq]⟩
      (by dsimp only; rw [view_set_free]; exact hre)
      (by dsimp only; rw [view_set_free, Finset.erase_val, ← hout, Multiset.erase_cons_head])
      (fun x hx ↦ h.allowed x (Finset.mem_of_mem_erase hx)) (by omega)
    have hload := h.load
    have hinv : Inv t₁ (S.erase item) := by
      refine ⟨h₁, ?_, ?_⟩
      · rw [hsame.numItems_eq, hcard, ← hnum]
      · rw [hsame.numItems_eq, hsame.lgSize_eq]
        dsimp only
        omega
    obtain ⟨t₂, hok₂, h₂, hbits⟩ := @shrink_spec _ _ 26 hinv (by have := hinv.le_max; omega)
    refine ⟨t₂, ?_, h₂, hbits.trans hsame.numValidBits_eq⟩
    rw [(slotAt_of_get hsome).1, ok_bind, if_neg hitem.ne_max, assert_pos rfl, ok_bind,
      assert_pos (by omega), ok_bind]
    dsimp only
    rw [Nat.one_shiftLeft, Nat.and_two_pow_sub_one_eq_mod]
    dsimp only at hok₁
    rw [hok₁, ok_bind, hok₂, ok_bind, decide_eq_true hmem]
    rfl

end PairTable

end Cpc

end DataSketches
