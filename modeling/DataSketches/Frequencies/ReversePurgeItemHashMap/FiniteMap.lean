import DataSketches.Frequencies.ReversePurgeItemHashMap.Purge

/-!
# Runs of the reverse purge hash map

The finite map of a run is known without looking at any slot: an adjustment adds
to one counter, a resize changes nothing, and a purge lowers all counters by the
median that it returns.  Every map that a run reaches is this finite map.
-/

namespace DataSketches

open Runs OpenAddressing LinearProbing Counters

namespace ReversePurgeItemHashMap

variable {T : Type} [DecidableEq T] [Hash T] {m m' : ReversePurgeItemHashMap T} {f : T →₀ ℕ}

/-- Some slot is free. -/
def HasFree (m : ReversePurgeItemHashMap T) : Prop := ∃ i < m.slots.length, get m.slots i = none

/-- The maps that runs reach, with their counters.  The amounts are positive: every caller leaves
an amount of zero out. -/
inductive Reached : ReversePurgeItemHashMap T → (T →₀ ℕ) → Prop
  | new {mapSize m} (hok : new mapSize = .ok m) : Reached m 0
  | adjustOrPutValue {m m' f key adjustAmount} (h : Reached m f) (hfree : m.HasFree)
      (hpos : 0 < adjustAmount) (hok : m.adjustOrPutValue key adjustAmount = .ok m') :
      Reached m' (f + Finsupp.single key adjustAmount)
  | adjustOrPutValueRef {m m' f Q} [DecidableEq Q] [Hash Q] [Borrow T Q] {key : Q} {adjustAmount}
      (h : Reached m f) (hfree : m.HasFree) (hpos : 0 < adjustAmount)
      (hok : m.adjustOrPutValueRef key adjustAmount = .ok m') :
      Reached m' (f + Finsupp.single (Borrow.toOwned key) adjustAmount)
  | resize {m m' f lg} (h : Reached m f) (hlarger : m.slots.length < 2 ^ lg)
      (hok : m.resize (2 ^ lg) = .ok m') : Reached m' f
  | purge {m f sampleSize r} (h : Reached m f) (hfree : m.HasFree)
      (hok : m.purge sampleSize = .ok r) : Reached r.1 (lower f r.2)

/-- What every map is, and its counters. -/
structure Represents (m : ReversePurgeItemHashMap T) (f : T →₀ ℕ) : Prop where
  inv : m.Inv
  holds : Holds m.entries f

omit [DecidableEq T] in
theorem Inv.numActive_lt (h : m.Inv) (hfree : m.HasFree) : m.numActive < 2 ^ m.lgLength := by
  obtain ⟨i, hi, hnone⟩ := hfree
  -- one more entry still fits
  rw [h.numActive_eq, entries, pairs, Multiset.coe_card, List.length_map, ← h.length_eq]
  exact length_contents_lt hi hnone

namespace Represents

theorem adjusted (h : Represents m f) {key : T} {v : ℕ} (hv : 0 < v) (h' : m.Adjusted key v m') :
    Represents m' (f + Finsupp.single key v) :=
  ⟨h'.inv, h.holds.put hv h'.put h'.inv.nodup⟩

/-- `adjust_or_put_value` adds to the counter or inserts it. -/
theorem adjustOrPutValue (h : Represents m f) (hfree : m.HasFree) (key : T) {v : ℕ} (hv : 0 < v) :
    Outcome (fun p ↦ Drifted p ∨ p = .overflow ∧ 2 ^ 64 ≤ f key + v) (m.adjustOrPutValue key v)
      (Represents · (f + Finsupp.single key v)) := by
  have hcases := adjustOrPutValue_cases h.inv (h.inv.numActive_lt hfree) key v
  refine (hcases.mono fun m' _ h' ↦ h.adjusted hv h').weaken ?_
  rintro p (hp | ⟨hp, -, hlarge⟩)
  · exact .inl hp
  · rw [h.holds.count_eq] at hlarge
    exact .inr ⟨hp, hlarge⟩

/-- `resize` keeps all pairs. -/
theorem resize (h : Represents m f) {lg : ℕ} (hlarger : m.slots.length < 2 ^ lg) :
    Outcome Drifted (m.resize (2 ^ lg)) (Represents · f) := by
  have hroom : m.numActive < 2 ^ lg := by
    rw [h.inv.numActive_eq, entries, card_pairs]
    exact (length_contents_le _).trans_lt hlarger
  refine (resize_outcome h.inv hroom).mono ?_
  rintro m' - ⟨hinv, -, hentries⟩
  exact ⟨hinv, hentries ▸ h.holds⟩

/-- `purge` lowers the counters by one of them. -/
theorem purge (h : Represents m f) (hfree : m.HasFree) {sampleSize : ℕ} (hsize : 0 < sampleSize)
    (hf : f ≠ 0) : Outcome Drifted (m.purge sampleSize) fun r ↦
      (∃ key, f key = r.2 ∧ 0 < r.2) ∧ Represents r.1 (lower f r.2) := by
  have hactive : 0 < m.numActive := by
    rw [h.inv.numActive_eq, h.holds.card_eq, Finset.card_pos, Finsupp.support_nonempty_iff]
    exact hf
  refine (purge_outcome h.inv (h.inv.numActive_lt hfree) hsize hactive).mono fun r _ hr ↦ ?_
  refine ⟨?_, hr.inv, ?_⟩
  · obtain ⟨p, hp, hvalue⟩ := hr.mem
    obtain ⟨hpos, hkey⟩ := h.holds.mem_iff.mp hp
    exact ⟨p.1, hkey.trans hvalue, hvalue ▸ hpos⟩
  · rw [hr.entries_eq]
    exact h.holds.decrement r.2

end Represents

omit [DecidableEq T] in
/-- A purge without a sample has no median. -/
theorem pos_of_purge_eq_ok (h : m.Inv) {sampleSize : ℕ} {r : ReversePurgeItemHashMap T × ℕ}
    (hok : m.purge sampleSize = .ok r) : 0 < sampleSize ∧ 0 < m.numActive := by
  by_contra hnot
  have hlimit : min (min sampleSize m.numActive) maxSampleSize = 0 := by omega
  rw [ReversePurgeItemHashMap.purge, hlimit] at hok
  simp only [sample, pure_eq_ok, ok_bind, selectNth, List.length_nil, List.mergeSort_nil,
    List.getElem?_nil, throw_eq_error, error_bind, reduceCtorEq] at hok

theorem Represents.numActive_eq (h : Represents m f) : m.numActive = f.support.card := by
  rw [h.inv.numActive_eq, h.holds.card_eq]

/-- Every map that a run reaches has the counters of the run. -/
theorem Reached.represents (h : Reached m f) : Represents m f := by
  induction h with
  | @new mapSize m hok =>
      obtain ⟨⟨lg, rfl⟩, hm⟩ := assert_bind_eq_ok.mp hok
      cases hm
      exact ⟨inv_empty lg, entries_empty (2 ^ lg) ▸ holds_zero⟩
  | @adjustOrPutValue m m' f key v _ hfree hpos hok ih =>
      exact (ih.adjustOrPutValue hfree key hpos).post_of_ok hok
  | @adjustOrPutValueRef m m' f Q _ _ _ key v _ hfree hpos hok ih =>
      rw [adjustOrPutValueRef_eq] at hok
      exact (ih.adjustOrPutValue hfree _ hpos).post_of_ok hok
  | @resize m m' f lg _ hlarger hok ih => exact (ih.resize hlarger).post_of_ok hok
  | @purge m f sampleSize r _ hfree hok ih =>
      obtain ⟨hsize, hactive⟩ := pos_of_purge_eq_ok ih.inv hok
      rw [ih.numActive_eq, Finset.card_pos, Finsupp.support_nonempty_iff] at hactive
      exact ((ih.purge hfree hsize hactive).post_of_ok hok).2

/-! ## The finite map of a run -/

/-- The map `m` is the finite map `f`. -/
structure Behaves (m : ReversePurgeItemHashMap T) (f : T →₀ ℕ) : Prop where
  /-- A slot holds the counter of its key.  Its state is the distance from the home slot plus one,
  and there is no free slot on the way, which may lead around the end of the array. -/
  slot : ∀ i s, get m.slots i = some s → 0 < s.value ∧ f s.key = s.value ∧
    ∃ d < m.slots.length, s.state = d + 1 ∧ (home s.key + d) % m.slots.length = i ∧
      ∀ j < d, get m.slots ((home s.key + j) % m.slots.length) ≠ none
  /-- A key that has a counter is in one slot. -/
  stored : ∀ key, 0 < f key → ∃! i, ∃ s, get m.slots i = some s ∧ s.key = key
  numActive_eq : m.numActive = f.support.card
  get : ∀ {Q : Type} [DecidableEq Q] [Hash Q] [Borrow T Q] (key : Q),
    Outcome Drifted (m.get key) (· = f (Borrow.toOwned key))
  iter : ∃ items, m.iter = .ok items ∧ items.Nodup ∧ ∀ p, p ∈ items ↔ 0 < p.2 ∧ f p.1 = p.2
  adjustOrPutValue : m.HasFree → ∀ key v, 0 < v →
    Outcome (fun p ↦ Drifted p ∨ p = .overflow ∧ 2 ^ 64 ≤ f key + v) (m.adjustOrPutValue key v)
      (Reached · (f + Finsupp.single key v))
  adjustOrPutValueRef : m.HasFree →
    ∀ {Q : Type} [DecidableEq Q] [Hash Q] [Borrow T Q] (key : Q) (v : ℕ), 0 < v →
      Outcome (fun p ↦ Drifted p ∨ p = .overflow ∧ 2 ^ 64 ≤ f (Borrow.toOwned key) + v)
        (m.adjustOrPutValueRef key v)
        (Reached · (f + Finsupp.single (Borrow.toOwned key : T) v))
  resize : ∀ lg, m.slots.length < 2 ^ lg → Outcome Drifted (m.resize (2 ^ lg)) (Reached · f)
  /-- The median is a counter. -/
  purge : m.HasFree → f ≠ 0 → ∀ sampleSize, 0 < sampleSize →
    Outcome Drifted (m.purge sampleSize) fun r ↦
      (∃ key, f key = r.2 ∧ 0 < r.2) ∧ Reached r.1 (lower f r.2)

omit [DecidableEq T] in
theorem Represents.slot (h : Represents m f) {i : ℕ} {s : Slot T}
    (hs : OpenAddressing.get m.slots i = some s) :
    0 < s.value ∧ f s.key = s.value ∧
      ∃ d < m.slots.length, s.state = d + 1 ∧ (home s.key + d) % m.slots.length = i ∧
        ∀ j < d, OpenAddressing.get m.slots ((home s.key + j) % m.slots.length) ≠ none := by
  obtain ⟨hpos, hf⟩ := h.holds.mem_iff.mp (mem_pairs.mpr ⟨i, s, hs, rfl⟩)
  obtain ⟨d, hd, hlt, hat, hpath⟩ := h.inv.probed i s hs
  exact ⟨hpos, hf, d, hlt, hd, hat, fun j hj ↦ (hpath j hj).resolve_right id⟩

omit [DecidableEq T] in
/-- Two slots do not hold the same key. -/
theorem Inv.slot_unique (h : m.Inv) {i j : ℕ} {s s' : Slot T}
    (hi : OpenAddressing.get m.slots i = some s) (hj : OpenAddressing.get m.slots j = some s')
    (hkey : s.key = s'.key) : i = j := by
  by_contra hne
  have hnodup := h.nodup
  have hback : OpenAddressing.get (m.slots.set i none) j = some s' := by
    rw [get_set_ne hne, hj]
  rw [entries, pairs_set_none hi, pairs_set_none hback, Multiset.map_cons, Multiset.map_cons,
    Multiset.nodup_cons] at hnodup
  refine hnodup.1 ?_
  rw [show s.entry.1 = s'.entry.1 from hkey]
  exact Multiset.mem_cons_self _ _

theorem Represents.stored (h : Represents m f) {key : T} (hpos : 0 < f key) :
    ∃! i, ∃ s, OpenAddressing.get m.slots i = some s ∧ s.key = key := by
  obtain ⟨i, s, hs, hentry⟩ := mem_pairs.mp ((h.holds.mem_iff (p := (key, f key))).mpr ⟨hpos, rfl⟩)
  have hkey : s.key = key := congrArg Prod.fst hentry
  refine ⟨i, ⟨s, hs, hkey⟩, ?_⟩
  rintro j ⟨s', hs', hkey'⟩
  exact h.inv.slot_unique hs' hs (hkey'.trans hkey.symm)

omit [DecidableEq T] in
theorem Represents.iter (h : Represents m f) :
    ∃ items, m.iter = .ok items ∧ items.Nodup ∧ ∀ p, p ∈ items ↔ 0 < p.2 ∧ f p.1 = p.2 := by
  obtain ⟨items, hitems, hcoe⟩ := iter_total h.inv
  refine ⟨items, hitems, ?_, fun p ↦ ?_⟩
  · rw [← Multiset.coe_nodup, hcoe]
    exact h.holds.nodup.of_map _
  · rw [← Multiset.mem_coe, hcoe]
    exact h.holds.mem_iff

end ReversePurgeItemHashMap

end DataSketches
