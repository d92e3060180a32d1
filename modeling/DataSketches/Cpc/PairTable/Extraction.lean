import DataSketches.Cpc.PairTable.FiniteSet

/-!
# Extraction of the items of a pair table

`unwrapping_get_items` fills its result from both ends.  The items that go to the
right end are in the region before the first free slot and have their high bit
set.  They are never all items: if the first slot holds such an item then it was
wrapped, so the last slot, which is not in that region, holds an item too.
-/

namespace DataSketches

namespace Cpc

open Runs OpenAddressing LinearProbing

namespace PairTable

namespace Extraction

/-- The left part `A` and the right part `B` are filled, with `m` places between them. -/
structure Filled (x : Extraction) (A B : List ℕ) (m : ℕ) : Prop where
  result_eq : x.result = A ++ (List.replicate m 0 ++ B)
  l_eq : x.l = A.length
  r_eq : x.r + 1 = A.length + m

variable {x : Extraction} {A B : List ℕ} {m item : ℕ}

theorem Filled.pushLeft (h : x.Filled A B (m + 1)) (item : ℕ) :
    ∃ y, x.pushLeft item = .ok y ∧ y.Filled (A ++ [item]) B m := by
  have hlt : x.l < x.result.length := by
    rw [h.result_eq, h.l_eq, List.length_append, List.length_append, List.length_replicate]
    omega
  refine ⟨{ x with result := x.result.set x.l item, l := x.l + 1 }, ?_, ?_, ?_, ?_⟩
  · rw [Extraction.pushLeft, store, if_pos hlt]
    rfl
  · dsimp only
    rw [h.result_eq, h.l_eq, List.set_append_right _ _ le_rfl, Nat.sub_self, List.replicate_succ,
      List.cons_append, List.set_cons_zero, List.append_assoc]
    rfl
  · dsimp only
    rw [h.l_eq, List.length_append]
    rfl
  · have hr := h.r_eq
    rw [List.length_append, List.length_singleton]
    dsimp only
    omega

theorem Filled.pushRight (h : x.Filled A B (m + 1)) (hroom : 1 ≤ A.length + m) (item : ℕ) :
    ∃ y, x.pushRight item = .ok y ∧ y.Filled A (item :: B) m := by
  have hr : x.r = A.length + m := by
    have hr := h.r_eq
    omega
  have hlt : x.r < x.result.length := by
    rw [h.result_eq, hr, List.length_append, List.length_append, List.length_replicate]
    omega
  refine ⟨{ x with result := x.result.set x.r item, r := x.r - 1 }, ?_, ?_, h.l_eq, ?_⟩
  · rw [Extraction.pushRight, store, if_pos hlt, pure_eq_ok, ok_bind,
      checkedSub_of_le (by rw [hr]; exact hroom)]
    rfl
  · dsimp only
    rw [h.result_eq, hr, List.set_append_right _ _ (Nat.le_add_right _ _), Nat.add_sub_cancel_left,
      List.replicate_succ', List.append_assoc, List.set_append_right _ _ (by rw [List.length_replicate]),
      List.length_replicate, Nat.sub_self]
    rfl
  · dsimp only
    omega

/-- The region before the first free slot. -/
theorem Filled.run_pushEarly {hiBit : ℕ} {items : List ℕ} (h : x.Filled A B (items.length + m))
    (hroom : (items.filter (· &&& hiBit ≠ 0)).length < A.length + items.length + m) :
    ∃ y, run (pushEarly hiBit) x items = .ok y ∧
      y.Filled (A ++ items.filter (¬ · &&& hiBit ≠ 0)) ((items.filter (· &&& hiBit ≠ 0)).reverse ++ B) m := by
  induction items generalizing x A B with
  | nil => exact ⟨x, rfl, by rw [List.length_nil, Nat.zero_add] at h; simpa using h⟩
  | cons item items ih =>
      rw [List.length_cons, show items.length + 1 + m = items.length + m + 1 by omega] at h
      rw [List.length_cons] at hroom
      rw [run_cons, pushEarly]
      by_cases hbit : item &&& hiBit ≠ 0
      · rw [List.filter_cons_of_pos (by exact decide_eq_true hbit), List.length_cons] at hroom
        obtain ⟨y, hok, hy⟩ := h.pushRight (by omega) item
        obtain ⟨z, hok', hz⟩ := ih hy (by omega)
        refine ⟨z, by rw [if_pos hbit, hok]; exact hok', ?_⟩
        rw [List.filter_cons_of_neg (by simpa using hbit),
          List.filter_cons_of_pos (by exact decide_eq_true hbit), List.reverse_cons, List.append_assoc]
        exact hz
      · rw [List.filter_cons_of_neg (by simpa using hbit)] at hroom
        obtain ⟨y, hok, hy⟩ := h.pushLeft item
        obtain ⟨z, hok', hz⟩ := ih hy (by
          rw [List.length_append, List.length_singleton]
          omega)
        refine ⟨z, by rw [if_neg hbit, hok]; exact hok', ?_⟩
        rw [List.filter_cons_of_pos (by simpa using hbit),
          List.filter_cons_of_neg (by simpa using hbit)]
        rw [List.append_assoc] at hz
        exact hz

/-- The rest of the table. -/
theorem Filled.run_pushLate {slots : List ℕ}
    (h : x.Filled A B ((slots.filter (· ≠ u32Max)).length + m)) :
    ∃ y, run pushLate x slots = .ok y ∧ y.Filled (A ++ slots.filter (· ≠ u32Max)) B m := by
  induction slots generalizing x A with
  | nil => exact ⟨x, rfl, by rw [List.filter_nil, List.length_nil, Nat.zero_add] at h; simpa using h⟩
  | cons slot slots ih =>
      rw [run_cons, pushLate]
      by_cases hslot : slot ≠ u32Max
      · rw [List.filter_cons_of_pos (by exact decide_eq_true hslot)] at h ⊢
        rw [List.length_cons, show (slots.filter (· ≠ u32Max)).length + 1 + m =
          (slots.filter (· ≠ u32Max)).length + m + 1 by omega] at h
        obtain ⟨y, hok, hy⟩ := h.pushLeft slot
        obtain ⟨z, hok', hz⟩ := ih hy
        refine ⟨z, by rw [if_pos hslot, hok]; exact hok', ?_⟩
        rw [List.append_assoc] at hz
        exact hz
      · rw [List.filter_cons_of_neg (by simpa using hslot)] at h ⊢
        obtain ⟨z, hok', hz⟩ := ih h
        exact ⟨z, by rw [if_neg hslot]; exact hok', hz⟩

end Extraction

variable {t t' : PairTable} {S : Finset ℕ} {item : ℕ}

/-- The home slot of an item with the high bit is in the second half. -/
theorem le_home {bits lg : ℕ} (ht : t.numValidBits = bits) (hlg : t.lgSize = lg) (hpos : 1 ≤ lg)
    (hle : lg ≤ bits) (hbit : item &&& 1 <<< (bits - 1) ≠ 0) : 2 ^ (lg - 1) ≤ t.home item := by
  have hitem : 2 ^ (bits - 1) ≤ item := by
    by_contra hlt
    rw [Nat.one_shiftLeft, Nat.and_two_pow, Nat.testBit_lt_two_pow (not_le.mp hlt)] at hbit
    exact hbit (Nat.zero_mul _)
  rw [home, ht, hlg, Nat.shiftRight_eq_div_pow, Nat.le_div_iff_mul_le (Nat.two_pow_pos _), ← pow_add,
    show lg - 1 + (bits - lg) = bits - 1 by omega]
  exact hitem

/-- Not all items go to the right end. -/
theorem Inv.length_filter_lt (h : Inv t S) (hne : S.Nonempty) :
    ((t.slots.takeWhile (· ≠ u32Max)).filter (· &&& 1 <<< (t.numValidBits - 1) ≠ 0)).length <
      (t.slots.takeWhile (· ≠ u32Max)).length +
        ((t.slots.dropWhile (· ≠ u32Max)).filter (· ≠ u32Max)).length := by
  obtain ⟨pre, hpre⟩ : ∃ pre, pre = t.slots.takeWhile (· ≠ u32Max) := ⟨_, rfl⟩
  obtain ⟨rest, hrest⟩ : ∃ rest, rest = t.slots.dropWhile (· ≠ u32Max) := ⟨_, rfl⟩
  have hsplit : t.slots = pre ++ rest := by rw [hpre, hrest, List.takeWhile_append_dropWhile]
  have hmem : ∀ x ∈ pre, x ≠ u32Max := by
    intro x hx
    rw [hpre] at hx
    exact of_decide_eq_true (List.mem_takeWhile_imp (p := fun x ↦ decide (x ≠ u32Max)) hx)
  rw [← hpre, ← hrest]
  by_contra hge
  have hfilter := List.length_filter_le (· &&& 1 <<< (t.numValidBits - 1) ≠ 0) pre
  have hnil : rest.filter (· ≠ u32Max) = [] := List.eq_nil_of_length_eq_zero (by omega)
  have hall : ∀ x ∈ pre, x &&& 1 <<< (t.numValidBits - 1) ≠ 0 := by
    have heq := List.length_filter_eq_length_iff.mp
      (show (pre.filter (· &&& 1 <<< (t.numValidBits - 1) ≠ 0)).length = pre.length by omega)
    exact fun x hx ↦ of_decide_eq_true (heq x hx)
  -- the first slot holds an item, and it was wrapped
  have hlen := h.length_eq
  have hcons : ∃ x pre', pre = x :: pre' := by
    refine List.exists_cons_of_ne_nil fun hempty ↦ ?_
    have hcard := h.length_contents
    rw [contents_view, hsplit, hempty, List.nil_append, hnil] at hcard
    exact absurd hcard.symm hne.card_pos.ne'
  obtain ⟨x, pre', hx⟩ := hcons
  have hzero : get (view t.slots) 0 = some x := by
    rw [get_view (by rw [hlen]; exact Nat.two_pow_pos _)]
    simp only [hsplit, hx, List.cons_append, List.getElem_cons_zero]
    rw [if_neg (hmem x (hx ▸ List.mem_cons_self))]
  obtain ⟨d, hd, hat, hpath⟩ := h.walked 0 x hzero
  rw [length_view, hlen] at hd hat hpath
  have hhome := @le_home t x _ _ rfl rfl (by have := h.two_le; omega)
    ((Nat.le_succ _).trans h.lt_numValidBits) (hall x (hx ▸ List.mem_cons_self))
  have hhomelt : t.home x < 2 ^ t.lgSize := by
    refine home_lt ((Nat.le_succ _).trans h.lt_numValidBits) (h.allowed x ?_).lt
    exact h.mem_iff.mpr (mem_contents_iff.mpr ⟨0, hzero⟩)
  have hhalf : 2 ^ t.lgSize = 2 * 2 ^ (t.lgSize - 1) := by
    rw [← Nat.pow_succ', Nat.succ_eq_add_one, Nat.sub_add_cancel (by have := h.two_le; omega)]
  have hpos := Nat.two_pow_pos (t.lgSize - 1)
  have hround : t.home x + d = 2 ^ t.lgSize := by
    have hdvd := Nat.dvd_of_mod_eq_zero hat
    obtain ⟨c, hc⟩ := hdvd
    have hc1 : c = 1 := by
      rcases Nat.lt_trichotomy c 1 with hlt | heq | hgt
      · obtain rfl : c = 0 := by omega
        rw [Nat.mul_zero] at hc
        omega
      · exact heq
      · have hle := Nat.mul_le_mul_left (2 ^ t.lgSize) hgt
        omega
    rw [hc, hc1, Nat.mul_one]
  have hlast := (hpath (d - 1) (by omega)).resolve_right id
  rw [show t.home x + (d - 1) = 2 ^ t.lgSize - 1 by omega, Nat.mod_eq_of_lt (by omega)] at hlast
  -- the last slot is not in the first region
  obtain ⟨i, hi, hfree⟩ := h.exists_free h.card_lt
  rw [length_view] at hi
  have hle : pre.length ≤ i := by
    by_contra hlt
    rw [get_view hi] at hfree
    simp only [hsplit, List.getElem_append_left (not_le.mp hlt)] at hfree
    rw [if_neg (hmem _ (List.getElem_mem (not_le.mp hlt)))] at hfree
    cases hfree
  have hne' : i ≠ 2 ^ t.lgSize - 1 := by
    rintro rfl
    exact hlast hfree
  have hend : 2 ^ t.lgSize - 1 < t.slots.length := by omega
  rw [get_view hend] at hlast
  have hge' : pre.length ≤ 2 ^ t.lgSize - 1 := by omega
  simp only [hsplit, List.getElem_append_right hge'] at hlast
  split_ifs at hlast with hmax
  · exact hlast rfl
  · have hrest : 2 ^ t.lgSize - 1 - pre.length < rest.length := by
      rw [hsplit, List.length_append] at hend
      omega
    exact absurd hnil (List.ne_nil_of_mem (List.mem_filter.mpr
      ⟨List.getElem_mem hrest, decide_eq_true hmax⟩))

/-- `unwrapping_get_items` returns every item once. -/
theorem Inv.unwrappingGetItems (h : Inv t S) :
    ∃ items, t.unwrappingGetItems = .ok items ∧ (items : Multiset ℕ) = S.val := by
  rw [PairTable.unwrappingGetItems]
  split_ifs with hzero
  · rw [h.numItems_eq, Finset.card_eq_zero] at hzero
    exact ⟨[], rfl, by rw [hzero]; rfl⟩
  · have hne : S.Nonempty := by
      rw [← Finset.card_pos, ← h.numItems_eq]
      exact Nat.pos_of_ne_zero hzero
    have hlt := h.length_filter_lt hne
    obtain ⟨pre, hpre⟩ : ∃ pre, pre = t.slots.takeWhile (· ≠ u32Max) := ⟨_, rfl⟩
    obtain ⟨rest, hrest⟩ : ∃ rest, rest = t.slots.dropWhile (· ≠ u32Max) := ⟨_, rfl⟩
    have hitems : t.slots.filter (· ≠ u32Max) = pre ++ rest.filter (· ≠ u32Max) := by
      have hfilter : pre.filter (· ≠ u32Max) = pre := by
        refine List.filter_eq_self.mpr fun x hx ↦ ?_
        rw [hpre] at hx
        exact List.mem_takeWhile_imp (p := fun x ↦ decide (x ≠ u32Max)) hx
      conv_rhs => rw [← hfilter, ← List.filter_append, hpre, hrest, List.takeWhile_append_dropWhile]
    rw [← hpre, ← hrest] at hlt ⊢
    have hcontents := h.contents_eq
    rw [contents_view, hitems] at hcontents
    have hnum : t.numItems = pre.length + (rest.filter (· ≠ u32Max)).length := by
      rw [h.numItems_eq, Finset.card_def, ← hcontents, Multiset.coe_card, List.length_append]
    have hstart : Extraction.Filled ⟨List.replicate t.numItems 0, 0, t.numItems - 1⟩ [] []
        (pre.length + ((rest.filter (· ≠ u32Max)).length + 0)) := by
      refine ⟨?_, rfl, ?_⟩
      · rw [List.append_nil, List.nil_append, hnum, Nat.add_zero]
      · rw [List.length_nil]
        dsimp only
        omega
    obtain ⟨y, hok, hy⟩ := @Extraction.Filled.run_pushEarly _ _ _ _ (1 <<< (t.numValidBits - 1)) _ hstart (by
      rw [List.length_nil]
      omega)
    obtain ⟨z, hok', hz⟩ := hy.run_pushLate
    have hl : z.l = z.r + 1 := by
      rw [hz.l_eq, hz.r_eq, Nat.add_zero]
    refine ⟨z.result, ?_, ?_⟩
    · dsimp only
      rw [hok, ok_bind, hok', ok_bind, assert_pos hl]
      rfl
    · rw [hz.result_eq, ← hcontents, List.replicate_zero, List.nil_append, List.append_nil,
        List.nil_append]
      refine Multiset.coe_eq_coe.mpr ?_
      have hsplit := List.filter_append_perm (fun x ↦ decide (x &&& 1 <<< (t.numValidBits - 1) ≠ 0)) pre
      refine List.Perm.trans ?_ (hsplit.append_right _)
      simp only [decide_not]
      refine List.perm_append_comm.trans ?_
      rw [List.append_assoc]
      exact (List.reverse_perm _).append_right _

/-! ## Runs -/

/-- The tables that runs reach, with their sets.  The items have at most `num_valid_bits` bits, and
no set is too large for the largest table. -/
inductive Reached : PairTable → Finset ℕ → Prop
  | new {lgSize numValidBits : ℕ} {t : PairTable} (hok : new lgSize numValidBits = .ok t) :
      Reached t ∅
  | clear {t : PairTable} {S : Finset ℕ} (h : Reached t S) : Reached t.clear ∅
  | maybeInsert {t : PairTable} {S : Finset ℕ} {item : ℕ} {r : PairTable × Bool} (h : Reached t S)
      (hitem : Allowed t.numValidBits item) (hfits : Fits t.numValidBits (insert item S))
      (hok : t.maybeInsert item = .ok r) : Reached r.1 (insert item S)
  | maybeDelete {t : PairTable} {S : Finset ℕ} {item : ℕ} {r : PairTable × Bool} (h : Reached t S)
      (hitem : Allowed t.numValidBits item) (hok : t.maybeDelete item = .ok r) :
      Reached r.1 (S.erase item)

/-- The table is the finite set. -/
structure Behaves (t : PairTable) (S : Finset ℕ) : Prop where
  /-- An insertion succeeds and reports whether the set changed. -/
  maybeInsert : ∀ item, Allowed t.numValidBits item → Fits t.numValidBits (insert item S) →
    ∃ t', t.maybeInsert item = .ok (t', decide (item ∉ S)) ∧ t'.numValidBits = t.numValidBits ∧
      Reached t' (insert item S)
  maybeDelete : ∀ item, Allowed t.numValidBits item →
    ∃ t', t.maybeDelete item = .ok (t', decide (item ∈ S)) ∧ t'.numValidBits = t.numValidBits ∧
      Reached t' (S.erase item)
  lookup : ∀ item, Allowed t.numValidBits item → ∃ index, t.lookup item = .ok index
  numItems_eq : t.numItems = S.card
  /-- The slots hold each item once and nothing else. -/
  slots : (t.slots.filter (· ≠ u32Max)).Nodup ∧ ∀ x, x ∈ t.slots.filter (· ≠ u32Max) ↔ x ∈ S
  items : ∃ items, t.unwrappingGetItems = .ok items ∧ items.Nodup ∧ ∀ x, x ∈ items ↔ x ∈ S

theorem Reached.inv (h : Reached t S) : Inv t S := by
  induction h with
  | new hok => exact (inv_of_new hok).1
  | clear _ ih => exact ih.clear
  | maybeInsert _ hitem hfits hok ih =>
      obtain ⟨t', hok', h', -⟩ := ih.maybeInsert hitem hfits
      rw [hok] at hok'
      cases hok'
      exact h'
  | maybeDelete _ hitem hok ih =>
      obtain ⟨t', hok', h', -⟩ := ih.maybeDelete hitem
      rw [hok] at hok'
      cases hok'
      exact h'

/-- A table that a run reaches behaves as the finite set of the run. -/
theorem pair_table_behaves (h : Reached t S) : Behaves t S := by
  have hinv := h.inv
  constructor
  · intro item hitem hfits
    obtain ⟨t', hok, -, hbits⟩ := hinv.maybeInsert hitem hfits
    exact ⟨t', hok, hbits, h.maybeInsert hitem hfits hok⟩
  · intro item hitem
    obtain ⟨t', hok, -, hbits⟩ := hinv.maybeDelete hitem
    exact ⟨t', hok, hbits, h.maybeDelete hitem hok⟩
  · intro item hitem
    obtain ⟨d, hd, hends⟩ := hinv.exists_ends hinv.card_lt item
    exact ⟨_, lookup_eq hinv.toShaped hitem hd hends⟩
  · exact hinv.numItems_eq
  · rw [← contents_view]
    refine ⟨?_, fun x ↦ hinv.mem_iff.symm⟩
    rw [← Multiset.coe_nodup, hinv.contents_eq]
    exact S.nodup
  · obtain ⟨items, hok, hitems⟩ := hinv.unwrappingGetItems
    refine ⟨items, hok, ?_, fun x ↦ ?_⟩
    · rw [← Multiset.coe_nodup, hitems]
      exact S.nodup
    · rw [← Multiset.mem_coe, hitems, Finset.mem_val]

/-- Two items in the smallest table, one of which is deleted again. -/
theorem behaves_of_deleted : ∃ t₀ t₁ t₂ t₃, new 2 10 = .ok t₀ ∧
    t₀.maybeInsert 1000 = .ok (t₁, true) ∧ t₁.maybeInsert 700 = .ok (t₂, true) ∧
    t₂.maybeDelete 1000 = .ok (t₃, true) ∧ Behaves t₃ {700} := by
  have hnew : new 2 10 = .ok ⟨2, 10, 0, List.replicate 4 u32Max⟩ := rfl
  have h₀ : Reached ⟨2, 10, 0, List.replicate 4 u32Max⟩ ∅ := .new hnew
  obtain ⟨t₁, hok₁, hbits₁, h₁⟩ :=
    (pair_table_behaves h₀).maybeInsert 1000 ⟨by decide, by decide⟩ (by decide)
  obtain ⟨t₂, hok₂, hbits₂, h₂⟩ := (pair_table_behaves h₁).maybeInsert 700
    ⟨by rw [hbits₁]; decide, by decide⟩ (by rw [hbits₁]; decide)
  obtain ⟨t₃, hok₃, -, h₃⟩ := (pair_table_behaves h₂).maybeDelete 1000
    ⟨by rw [hbits₂, hbits₁]; decide, by decide⟩
  exact ⟨_, t₁, t₂, t₃, hnew, hok₁, hok₂, hok₃, pair_table_behaves h₃⟩

end PairTable

end Cpc

end DataSketches
