import Mathlib

/-!
# Open addressing

A table with open addressing stores its entries in a list of slots and looks a
key up by walking the slots in an order that depends on the key.  This file is
the part of that story that does not depend on a particular table: the cyclic
walk, the order an odd stride induces over a power of two, and the invariant
under which a lookup is right.

## Main definitions

* `walk`: the loop "test, step, give up when back at the start".
* `strideOrder`: the indices such a loop visits when it steps by a fixed stride.
* `find`: the first slot of a key's order that is free or holds the key.
* `Valid`: every stored entry is where `find` looks for it.

`Valid` is stated through `find` itself.  It makes the uniqueness of keys a
consequence (`Valid.unique`), and it is preserved by every write to the slot
that `find` returned (`Valid.set`), which is the only kind of write an insertion
makes.
-/

universe u v

namespace OpenAddressing

/-! ## Cyclic walks -/

/-- The loop of a cyclic search: stop at the first index that is `hit`, give up
when stepping leads back to `start`.  The fuel bounds the number of tests. -/
def walk (hit : ℕ → Bool) (next : ℕ → ℕ) (start : ℕ) : ℕ → ℕ → Option ℕ
  | 0, _ => none
  | fuel + 1, i =>
      if hit i then some i
      else if next i = start then none
      else walk hit next start fuel (next i)

/-- The indices visited from `start` in steps of `stride`, modulo `size`. -/
def strideOrder (size start stride : ℕ) : List ℕ :=
  (List.range size).map fun i ↦ (start + i * stride) % size

section Stride

variable {size start stride : ℕ}

@[simp] theorem length_strideOrder : (strideOrder size start stride).length = size := by
  simp [strideOrder]

theorem lt_of_mem_strideOrder {i : ℕ} (h : i ∈ strideOrder size start stride) : i < size := by
  obtain ⟨j, hj, rfl⟩ := List.mem_map.mp h
  exact Nat.mod_lt _ (Nat.zero_lt_of_lt (List.mem_range.mp hj))

/-- Two steps of a walk meet only when the difference of their counts is a
multiple of `size`. -/
theorem stride_step_inj (hc : Nat.Coprime stride size) {i j : ℕ} (hi : i < size) (hj : j < size)
    (h : (start + i * stride) % size = (start + j * stride) % size) : i = j := by
  have hmod : i * stride ≡ j * stride [MOD size] := Nat.ModEq.add_left_cancel' start h
  have hij : i ≡ j [MOD size] := Nat.ModEq.cancel_right_of_coprime (Nat.coprime_comm.mp hc) hmod
  rwa [Nat.ModEq, Nat.mod_eq_of_lt hi, Nat.mod_eq_of_lt hj] at hij

/-- A stride coprime to the size visits every index exactly once. -/
theorem nodup_strideOrder (hc : Nat.Coprime stride size) :
    (strideOrder size start stride).Nodup :=
  List.Nodup.map_on
    (fun _ hi _ hj h ↦ stride_step_inj hc (List.mem_range.mp hi) (List.mem_range.mp hj) h)
    List.nodup_range

/-- A stride coprime to the size reaches every index. -/
theorem mem_strideOrder (hc : Nat.Coprime stride size) {i : ℕ} (hi : i < size) :
    i ∈ strideOrder size start stride := by
  have hsub : (strideOrder size start stride).toFinset ⊆ Finset.range size := fun j hj ↦
    Finset.mem_range.mpr (lt_of_mem_strideOrder (List.mem_toFinset.mp hj))
  have hcard : (Finset.range size).card ≤ (strideOrder size start stride).toFinset.card := by
    rw [List.toFinset_card_of_nodup (nodup_strideOrder hc)]
    simp
  have heq := Finset.eq_of_subset_of_card_le hsub hcard
  rw [← List.mem_toFinset, heq]
  exact Finset.mem_range.mpr hi

/-- Stepping returns to the start exactly when all indices were visited. -/
theorem stride_step_eq_start_iff (hc : Nat.Coprime stride size) (hs : start < size) {m : ℕ}
    (hm : m < size) : (start + (m + 1) * stride) % size = start ↔ m + 1 = size := by
  constructor
  · intro h
    by_contra hne
    have h0 : (start + (m + 1) * stride) % size = (start + 0 * stride) % size := by
      rw [h, Nat.zero_mul, Nat.add_zero, Nat.mod_eq_of_lt hs]
    exact absurd (stride_step_inj hc (by omega) (by omega) h0) (by omega)
  · intro h
    rw [h, Nat.add_mul_mod_self_left, Nat.mod_eq_of_lt hs]

private theorem walk_eq_find?_drop (hit : ℕ → Bool) (hc : Nat.Coprime stride size)
    (hs : start < size) (n : ℕ) : ∀ m, m + n = size → 0 < n →
      walk hit (fun i ↦ (i + stride) % size) start n ((start + m * stride) % size) =
        ((List.range' m n).map fun i ↦ (start + i * stride) % size).find? hit := by
  induction n with
  | zero => intro m _ h; exact absurd h (lt_irrefl 0)
  | succ n ih =>
      intro m hmn _
      have hstep : ((start + m * stride) % size + stride) % size =
          (start + (m + 1) * stride) % size := by
        rw [Nat.mod_add_mod]
        ring_nf
      rw [walk, hstep, List.range'_succ, List.map_cons, List.find?_cons]
      cases hhit : hit ((start + m * stride) % size) with
      | true => rfl
      | false =>
          simp only [Bool.false_eq_true, if_false]
          by_cases hlast : m + 1 = size
          · rw [if_pos ((stride_step_eq_start_iff hc hs (by omega)).mpr hlast)]
            obtain rfl : n = 0 := by omega
            rfl
          · rw [if_neg fun h ↦ hlast ((stride_step_eq_start_iff hc hs (by omega)).mp h)]
            exact ih (m + 1) (by omega) (by omega)

/-- The cyclic loop is a search along `strideOrder`: `size` tests suffice, and it
gives up only after having tested every index. -/
theorem walk_eq_find? (hit : ℕ → Bool) (hc : Nat.Coprime stride size) (hs : start < size) :
    walk hit (fun i ↦ (i + stride) % size) start size start =
      (strideOrder size start stride).find? hit := by
  have h := walk_eq_find?_drop hit hc hs size 0 (by omega) (by omega)
  rw [Nat.zero_mul, Nat.add_zero, Nat.mod_eq_of_lt hs] at h
  rw [h, strideOrder, List.range_eq_range']

end Stride

/-- An odd stride is coprime to a power of two. -/
theorem coprime_odd_two_pow {stride : ℕ} (h : stride % 2 = 1) (n : ℕ) :
    Nat.Coprime stride (2 ^ n) :=
  Nat.Coprime.pow_right n (Nat.coprime_two_right.mpr (Nat.odd_iff.mpr h))

/-! ## Slots and their contents -/

section Slots

variable {α : Type u} {κ : Type v}

/-- The occupant of slot `i`, if there is one. -/
def get (slots : List (Option α)) (i : ℕ) : Option α := slots.getD i none

/-- The stored entries, in slot order. -/
def contents (slots : List (Option α)) : List α := slots.filterMap id

theorem get_set_self {slots : List (Option α)} {i : ℕ} (hi : i < slots.length) (o : Option α) :
    get (slots.set i o) i = o := by
  simp [get, List.getD_eq_getElem?_getD, hi]

theorem get_set_ne {slots : List (Option α)} {i j : ℕ} (h : i ≠ j) (o : Option α) :
    get (slots.set i o) j = get slots j := by
  simp [get, List.getD_eq_getElem?_getD, h]

@[simp] theorem get_replicate_none (n i : ℕ) : get (List.replicate n (none : Option α)) i = none := by
  by_cases h : i < n <;> simp [get, List.getD_eq_getElem?_getD, h]

theorem lt_length_of_get {slots : List (Option α)} {i : ℕ} {e : α} (h : get slots i = some e) :
    i < slots.length := by
  by_contra hlt
  simp [get, List.getD_eq_getElem?_getD, List.getElem?_eq_none (not_lt.mp hlt)] at h

@[simp] theorem contents_replicate_none (n : ℕ) :
    contents (List.replicate n (none : Option α)) = [] := by
  simp [contents]

theorem mem_contents_iff {slots : List (Option α)} {e : α} :
    e ∈ contents slots ↔ ∃ i, get slots i = some e := by
  simp only [contents, List.mem_filterMap, id, exists_eq_right, get, List.getD_eq_getElem?_getD]
  rw [List.mem_iff_getElem?]
  refine exists_congr fun i ↦ ?_
  cases slots[i]? <;> simp

theorem length_contents_le (slots : List (Option α)) : (contents slots).length ≤ slots.length :=
  List.length_filterMap_le _ _

/-- A table with a free slot stores fewer entries than it has slots. -/
theorem length_contents_lt {slots : List (Option α)} {i : ℕ} (hi : i < slots.length)
    (h : get slots i = none) : (contents slots).length < slots.length := by
  rw [get, List.getD_eq_getElem _ _ hi] at h
  exact List.length_filterMap_lt_length_iff_exists.mpr ⟨slots[i], List.getElem_mem hi, h⟩

/-- Writing into a free slot adds the entry. -/
theorem contents_set_free {slots : List (Option α)} {i : ℕ} (hi : i < slots.length)
    (h : get slots i = none) (e : α) :
    (contents (slots.set i (some e))).Perm (e :: contents slots) := by
  have hget : slots[i] = none := by
    simpa [get, List.getD_eq_getElem?_getD, hi] using h
  have hsplit : slots = slots.take i ++ none :: slots.drop (i + 1) := by
    rw [← hget, List.cons_getElem_drop_succ, List.take_append_drop]
  rw [contents, contents, List.set_eq_take_append_cons_drop, if_pos hi]
  conv_rhs => rw [hsplit]
  simp only [List.filterMap_append, List.filterMap_cons, id]
  exact List.perm_middle

/-- Overwriting an occupied slot exchanges its entry. -/
theorem contents_set_occupied {slots : List (Option α)} {i : ℕ} {e : α}
    (h : get slots i = some e) (e' : α) :
    (e :: contents (slots.set i (some e'))).Perm (e' :: contents slots) := by
  have hi := lt_length_of_get h
  have hget : slots[i] = some e := by
    simpa [get, List.getD_eq_getElem?_getD, hi] using h
  have hsplit : slots = slots.take i ++ some e :: slots.drop (i + 1) := by
    rw [← hget, List.cons_getElem_drop_succ, List.take_append_drop]
  rw [contents, contents, List.set_eq_take_append_cons_drop, if_pos hi]
  conv_rhs => rw [hsplit]
  simp only [List.filterMap_append, List.filterMap_cons, id]
  exact ((List.perm_middle.cons e).trans (List.Perm.swap e' e _)).trans
    (List.perm_middle.symm.cons e')

/-- Clearing an occupied slot removes its entry. -/
theorem contents_set_none {slots : List (Option α)} {i : ℕ} {e : α} (h : get slots i = some e) :
    (e :: contents (slots.set i none)).Perm (contents slots) := by
  have hi := lt_length_of_get h
  have hget : slots[i] = some e := by
    simpa [get, List.getD_eq_getElem?_getD, hi] using h
  have hsplit : slots = slots.take i ++ some e :: slots.drop (i + 1) := by
    rw [← hget, List.cons_getElem_drop_succ, List.take_append_drop]
  rw [contents, contents, List.set_eq_take_append_cons_drop, if_pos hi]
  conv_rhs => rw [hsplit]
  simp only [List.filterMap_append, List.filterMap_cons, id]
  exact List.perm_middle.symm

/-- A table that stores fewer entries than it has slots has a free slot. -/
theorem exists_free {slots : List (Option α)} (h : (contents slots).length < slots.length) :
    ∃ i < slots.length, get slots i = none := by
  by_contra hfull
  push Not at hfull
  have hlen : ∀ l : List (Option α), (∀ o ∈ l, o ≠ none) → (contents l).length = l.length := by
    intro l hl
    induction l with
    | nil => rfl
    | cons o l ih =>
        have ho := hl o List.mem_cons_self
        obtain ⟨e, rfl⟩ := Option.ne_none_iff_exists'.mp ho
        simpa [contents] using ih fun o ho ↦ hl o (List.mem_cons_of_mem _ ho)
  refine absurd (hlen slots fun o ho ↦ ?_) h.ne
  obtain ⟨i, hi, rfl⟩ := List.mem_iff_getElem.mp ho
  simpa [get, List.getD_eq_getElem?_getD, hi] using hfull i hi

/-! ## Searching for a key -/

variable [DecidableEq κ] (key : α → κ) (order : κ → List ℕ)

/-- Slot `i` ends the search for `k`: it is free, or it holds `k`. -/
def hits (slots : List (Option α)) (k : κ) (i : ℕ) : Bool :=
  match get slots i with
  | none => true
  | some e => key e = k

/-- The slot at which the search for `k` ends. -/
def find (slots : List (Option α)) (k : κ) : Option ℕ := (order k).find? (hits key slots k)

/-- Every stored entry is found by the search for its own key. -/
structure Valid (slots : List (Option α)) : Prop where
  /-- The search for the key of the entry at `i` ends at `i`. -/
  reach : ∀ i e, get slots i = some e → find key order slots (key e) = some i

variable {key order}

theorem hits_of_free {slots : List (Option α)} {k : κ} {i : ℕ} (h : get slots i = none) :
    hits key slots k i = true := by
  simp [hits, h]

theorem hits_of_key {slots : List (Option α)} {k : κ} {i : ℕ} {e : α} (h : get slots i = some e)
    (hk : key e = k) : hits key slots k i = true := by
  simp [hits, h, hk]

/-- A search keeps its result when no slot it rejected becomes acceptable. -/
theorem find?_of_imp {β : Type u} {p q : β → Bool} {l : List β} {b : β} (h : l.find? p = some b)
    (hb : q b = true) (himp : ∀ a ∈ l, p a = false → q a = false) : l.find? q = some b := by
  obtain ⟨-, as, bs, rfl, has⟩ := List.find?_eq_some_iff_append.mp h
  refine List.find?_eq_some_iff_append.mpr ⟨hb, as, bs, rfl, fun a ha ↦ ?_⟩
  have hpa : p a = false := by simpa using has a ha
  simp [himp a (List.mem_append_left _ ha) hpa]

theorem valid_replicate_none (n : ℕ) : Valid key order (List.replicate n none) :=
  ⟨fun i e h ↦ by simp at h⟩

namespace Valid

variable {slots : List (Option α)} (hv : Valid key order slots)
include hv

/-- No two slots hold the same key. -/
theorem unique {i j : ℕ} {e e' : α} (hi : get slots i = some e) (hj : get slots j = some e')
    (h : key e = key e') : i = j := by
  have hei := hv.reach i e hi
  rw [h, hv.reach j e' hj] at hei
  exact (Option.some.inj hei).symm

/-- Writing an entry of key `k` at the slot found for `k` keeps the table valid,
whether the slot was free or held `k`. -/
theorem set {i : ℕ} {e : α} (hf : find key order slots (key e) = some i) (hi : i < slots.length) :
    Valid key order (slots.set i (some e)) := by
  have hhit : hits key slots (key e) i = true := List.find?_some hf
  refine ⟨fun j e' hj ↦ ?_⟩
  by_cases hij : i = j
  · subst hij
    rw [get_set_self hi, Option.some.injEq] at hj
    subst hj
    refine find?_of_imp hf (hits_of_key (get_set_self hi _) rfl) fun a _ ha ↦ ?_
    have hai : i ≠ a := fun h ↦ by simp [← h, hhit] at ha
    simpa [hits, get_set_ne hai] using ha
  · have hj' : get slots j = some e' := by rwa [get_set_ne hij] at hj
    refine find?_of_imp (hv.reach j e' hj') (hits_of_key hj rfl) fun a _ ha ↦ ?_
    by_cases hai : i = a
    · subst hai
      cases hgi : get slots i with
      | none => simp [hits, hgi] at ha
      | some e₀ =>
          have hke : key e₀ = key e := by simpa [hits, hgi] using hhit
          have hne : key e₀ ≠ key e' := by simpa [hits, hgi] using ha
          simp [hits, get_set_self hi, ← hke, hne]
    · simpa [hits, get_set_ne hai] using ha

/-- The keys of a valid table are distinct. -/
theorem nodup_keys : ((contents slots).map key).Nodup := by
  have hpair : slots.Pairwise fun o o' ↦
      ∀ e e', o = some e → o' = some e' → key e ≠ key e' := by
    refine List.pairwise_iff_getElem.mpr fun i j hi hj hij e e' he he' hk ↦ ?_
    have hgi : get slots i = some e := by simp [get, List.getD_eq_getElem?_getD, hi, he]
    have hgj : get slots j = some e' := by simp [get, List.getD_eq_getElem?_getD, hj, he']
    exact absurd (hv.unique hgi hgj hk) hij.ne
  rw [List.nodup_iff_pairwise_ne, List.pairwise_map, contents, List.pairwise_filterMap]
  exact hpair.imp fun h e he e' he' ↦ h e e' he he'

theorem nodup_contents : (contents slots).Nodup := (hv.nodup_keys).of_map _

end Valid

/-- The search orders reach exactly the slots of a table with `n` slots. -/
structure Covers (order : κ → List ℕ) (n : ℕ) : Prop where
  /-- An order stays inside the table. -/
  lt : ∀ k, ∀ i ∈ order k, i < n
  /-- An order reaches every slot. -/
  mem : ∀ k, ∀ i < n, i ∈ order k

/-- A search over an order that reaches every slot ends when there is a free one:
at the slot that holds the key, or at a free slot when no slot holds it. -/
theorem find_spec {slots : List (Option α)} {k : κ} (hv : Valid key order slots)
    (hcov : Covers order slots.length) (hfree : (contents slots).length < slots.length) :
    ∃ i < slots.length, find key order slots k = some i ∧
      ((get slots i = none ∧ ∀ e ∈ contents slots, key e ≠ k) ∨
        ∃ e, get slots i = some e ∧ key e = k) := by
  obtain ⟨j, hj, hgj⟩ := exists_free hfree
  have hsome : (find key order slots k).isSome := by
    rw [find, List.find?_isSome]
    exact ⟨j, hcov.mem k j hj, hits_of_free hgj⟩
  obtain ⟨i, hi⟩ := Option.isSome_iff_exists.mp hsome
  have hil : i < slots.length := hcov.lt k i (List.mem_of_find?_eq_some hi)
  have hhit : hits key slots k i = true := List.find?_some hi
  refine ⟨i, hil, hi, ?_⟩
  cases hgi : get slots i with
  | some e => exact .inr ⟨e, rfl, by simpa [hits, hgi] using hhit⟩
  | none =>
      refine .inl ⟨rfl, fun e he hk ↦ ?_⟩
      obtain ⟨l, hl⟩ := mem_contents_iff.mp he
      have hfl := hv.reach l e hl
      rw [hk, hi] at hfl
      obtain rfl := Option.some.inj hfl
      simp [hgi] at hl

/-- A key that is not stored is found at a free slot. -/
theorem find_absent {slots : List (Option α)} {k : κ} (hv : Valid key order slots)
    (hcov : Covers order slots.length) (hfree : (contents slots).length < slots.length)
    (habs : ∀ e ∈ contents slots, key e ≠ k) :
    ∃ i < slots.length, find key order slots k = some i ∧ get slots i = none := by
  obtain ⟨i, hil, hi, ⟨hnone, -⟩ | ⟨e, he, hk⟩⟩ := find_spec (k := k) hv hcov hfree
  · exact ⟨i, hil, hi, hnone⟩
  · exact absurd hk (habs e (mem_contents_iff.mpr ⟨i, he⟩))

/-! ## Filling a table -/

variable (key order) in
/-- Store entries one after the other, each where the search for its key ends. -/
def placeAll : List α → List (Option α) → Option (List (Option α))
  | [], slots => some slots
  | e :: es, slots =>
      (find key order slots (key e)).bind fun i ↦ placeAll es (slots.set i (some e))

/-- Filling a table with new, distinct keys succeeds while there is room, and adds
exactly the given entries. -/
theorem placeAll_spec (es : List α) : ∀ {slots : List (Option α)}, Valid key order slots →
    Covers order slots.length → (es.map key).Nodup →
    (∀ e ∈ es, ∀ e' ∈ contents slots, key e' ≠ key e) →
    (contents slots).length + es.length ≤ slots.length →
    ∃ slots', placeAll key order es slots = some slots' ∧ Valid key order slots' ∧
      slots'.length = slots.length ∧ (contents slots').Perm (es ++ contents slots) := by
  induction es with
  | nil => exact fun {slots} hv _ _ _ _ ↦ ⟨slots, rfl, hv, rfl, List.Perm.refl _⟩
  | cons e es ih =>
      intro slots hv hcov hnd hnew hroom
      rw [List.map_cons, List.nodup_cons] at hnd
      rw [List.length_cons] at hroom
      obtain ⟨i, hil, hi, hfree⟩ := find_absent hv hcov (by omega) (hnew e List.mem_cons_self)
      have hperm := contents_set_free hil hfree e
      obtain ⟨slots', hp, hv', hl', hc'⟩ := ih (hv.set hi hil) (by simpa using hcov) hnd.2
        (fun e₁ h₁ e₂ h₂ ↦ by
          rcases List.mem_cons.mp (hperm.mem_iff.mp h₂) with rfl | h₂
          · exact fun h ↦ hnd.1 (h ▸ List.mem_map_of_mem h₁)
          · exact hnew e₁ (List.mem_cons_of_mem _ h₁) e₂ h₂)
        (by rw [hperm.length_eq, List.length_set, List.length_cons]; omega)
      refine ⟨slots', by rw [placeAll, hi]; exact hp, hv', by rw [hl', List.length_set], ?_⟩
      exact hc'.trans ((hperm.append_left es).trans List.perm_middle)

end Slots

end OpenAddressing
