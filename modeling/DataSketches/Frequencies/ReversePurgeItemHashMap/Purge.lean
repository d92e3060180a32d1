import DataSketches.Frequencies.ReversePurgeItemHashMap.Invariant

/-!
# Purging and iterating

A purge decrements all counters by the median of a sample.  The slots are scanned
from a free slot backwards around the table, so a removal only moves entries that
were already scanned.
-/

namespace DataSketches

open Runs OpenAddressing LinearProbing Counters

namespace ReversePurgeItemHashMap

variable {T : Type} [Hash T]

/-! ## Removing an entry -/

/-- What closing a hole between `p` and the free slot `z` leaves behind. -/
structure Closed (n p z : ℕ) (E : Multiset (T × ℕ)) (slots : List (Option (Slot T))) : Prop where
  length_eq : slots.length = n
  probed : Probed (fun s : Slot T ↦ home s.key) Slot.state (fun _ ↦ False) slots
  pairs_eq : pairs slots = E
  free : get slots (z % n) = none
  positive : ∀ r, p ≤ r → r < z → ∀ s, get slots (r % n) = some s → s.value ≠ 0

theorem deleteFrom_outcome {lg p z : ℕ} {fuel x t : ℕ} {slots : List (Option (Slot T))}
    {E : Multiset (T × ℕ)} (hlen : slots.length = 2 ^ lg)
    (hscan : Scan (fun s : Slot T ↦ home s.key) Slot.state slots x t) (ht : t < driftLimit)
    (hp : p ≤ x) (hxz : x + t ≤ z) (hz : z < p + 2 ^ lg) (hfuel : z < x + t + fuel)
    (hE : pairs slots = E) (hfree : get slots (z % 2 ^ lg) = none)
    (hpos : ∀ r, p ≤ r → r < z → ∀ s, get slots (r % 2 ^ lg) = some s → s.value ≠ 0) :
    Outcome Drifted (deleteFrom (2 ^ lg) fuel (x % 2 ^ lg) ((x + t) % 2 ^ lg) t slots)
      (Closed (2 ^ lg) p z E) := by
  induction fuel generalizing x t slots with
  | zero => omega
  | succ fuel ih =>
      have hmask : ((x + t) % 2 ^ lg + 1) &&& (2 ^ lg - 1) = (x + t + 1) % 2 ^ lg := by
        rw [Nat.and_two_pow_sub_one_eq_mod, Nat.mod_add_mod]
      rw [deleteFrom]
      cases hget : get slots ((x + t) % 2 ^ lg) with
      | none =>
          have hclose := hscan.close (by rw [hlen]; omega) (by rw [hlen]; exact hget)
          exact Outcome.ok ⟨hlen, hclose, hE, hfree, hpos⟩
      | some slot =>
          have hne : x + t ≠ z := by
            rintro rfl
            rw [hfree] at hget
            cases hget
          dsimp only
          by_cases hlimit : (if slot.state > t then 0 else t) + 1 < driftLimit
          swap
          · rw [assert_neg hlimit]
            exact Outcome.error rfl
          rw [assert_pos hlimit, ok_bind, hmask, toU16_of_lt ht]
          by_cases hstate : slot.state > t
          · rw [if_pos hstate]
            have hmove := hscan.move (by rw [hlen]; exact hget) hstate
              (show home ({ slot with state := slot.state - t } : Slot T).key = home slot.key from rfl)
              (show ({ slot with state := slot.state - t } : Slot T).state = slot.state - t from rfl)
            rw [hlen] at hmove
            have hx : x % 2 ^ lg < slots.length := by
              rw [hlen]
              exact Nat.mod_lt _ (Nat.two_pow_pos lg)
            have hy : (x + t) % 2 ^ lg < slots.length := by
              rw [hlen]
              exact Nat.mod_lt _ (Nat.two_pow_pos lg)
            have hxfree : get slots (x % 2 ^ lg) = none := hlen ▸ hscan.free
            have hxy : x % 2 ^ lg ≠ (x + t) % 2 ^ lg := by
              intro heq
              rw [← heq, hxfree] at hget
              cases hget
            have hzx : z % 2 ^ lg ≠ x % 2 ^ lg := by
              intro heq
              have hzero : z - x = 0 := step_inj (n := 2 ^ lg) (a := x) (by omega)
                (Nat.two_pow_pos lg) (by rw [Nat.add_zero, Nat.add_sub_cancel' (by omega)]; exact heq)
              omega
            have hat := fun i ↦ get_set_set hx hy
              (some { slot with state := slot.state - t }) none i
            refine ih ?_ hmove (by decide) (by omega) (by omega) (by omega) ?_ ?_ fun r hr hrz s hs ↦ ?_
            · rw [List.length_set, List.length_set, hlen]
            · have hset := pairs_set_free hx hxfree { slot with state := slot.state - t }
              have hback : get (slots.set (x % 2 ^ lg)
                  (some { slot with state := slot.state - t })) ((x + t) % 2 ^ lg) = some slot := by
                rw [get_set_ne hxy, hget]
              rw [pairs_set_none hback] at hset
              exact ((Multiset.cons_inj_right _).mp hset).trans hE
            · rw [hat, if_neg hzx]
              split_ifs
              · rfl
              · exact hfree
            · rw [hat] at hs
              split_ifs at hs
              · cases hs
                exact hpos (x + t) (by omega) (by omega) slot hget
              · exact hpos r hr hrz s hs
          · rw [if_neg hstate, Nat.add_assoc]
            rw [if_neg hstate] at hlimit
            have hskip := hscan.skip (by rw [hlen]; exact hget) (not_lt.mp hstate)
            exact ih hlen hskip hlimit hp (by omega) (by omega) hE hfree hpos

/-- The scan from the free slot `z` backwards has reached `q`. -/
structure Clean (lg z q : ℕ) (E : Multiset (T × ℕ)) (m : ReversePurgeItemHashMap T) : Prop where
  inv : m.Inv
  lgLength_eq : m.lgLength = lg
  free : get m.slots (z % 2 ^ lg) = none
  positive : ∀ r, q ≤ r → r < z → ∀ s, get m.slots (r % 2 ^ lg) = some s → s.value ≠ 0
  filter_eq : m.entries.filter (·.2 ≠ 0) = E

variable {m : ReversePurgeItemHashMap T} {lg z q : ℕ} {E : Multiset (T × ℕ)}

/-- The body of the loops. -/
theorem Clean.deleteIfZero_outcome (h : Clean lg z (q + 1) E m) (hqz : q < z) (hz : z ≤ q + 2 ^ lg) :
    Outcome Drifted (m.deleteIfZero (q % 2 ^ lg)) (Clean lg z q E) := by
  have hlen : m.slots.length = 2 ^ lg := by rw [h.inv.length_eq, h.lgLength_eq]
  have hnext : ∀ r, q ≤ r → r ≠ q → q + 1 ≤ r := fun r hr hne ↦ by omega
  rw [deleteIfZero]
  cases hget : get m.slots (q % 2 ^ lg) with
  | none =>
      refine Outcome.ok ⟨h.inv, h.lgLength_eq, h.free, fun r hr hrz s hs ↦ ?_, h.filter_eq⟩
      by_cases hrq : r = q
      · rw [hrq, hget] at hs
        cases hs
      · exact h.positive r (hnext r hr hrq) hrz s hs
  | some slot =>
      dsimp only
      split_ifs with hvalue
      · have hzq : z % 2 ^ lg ≠ q % 2 ^ lg := by
          intro heq
          rw [← heq, h.free] at hget
          cases hget
        have hne : z ≠ q + 2 ^ lg := by
          rintro rfl
          exact hzq (Nat.add_mod_right q _)
        have hstart := h.inv.probed.remove (by rw [hlen]; exact hget)
        have hpairs := pairs_set_none hget
        have hlt := lt_length_of_get hget
        rw [hlen] at hstart
        rw [hashDelete, hlen, Nat.and_two_pow_sub_one_eq_mod, Nat.mod_add_mod]
        have hclose := @deleteFrom_outcome T _ lg q z (2 ^ lg) q 1 _ _
          (by rw [List.length_set, hlen]) hstart (by decide) le_rfl hqz (by omega) (by omega) rfl
          (by rw [get_set_ne (Ne.symm hzq), h.free]) fun r hr hrz s hs ↦ by
            by_cases hrq : r = q
            · rw [hrq, get_set_self hlt] at hs
              cases hs
            · by_cases hmod : q % 2 ^ lg = r % 2 ^ lg
              · rw [← hmod, get_set_self hlt] at hs
                cases hs
              · rw [get_set_ne hmod] at hs
                exact h.positive r (hnext r hr hrq) hrz s hs
        rw [bind_assoc]
        refine hclose.bind fun slots _ hslots ↦ ?_
        have hcard := h.inv.numActive_eq
        rw [entries, hpairs, Multiset.card_cons] at hcard
        have hsub : checkedSub m.numActive 1 = .ok (m.numActive - 1) :=
          checkedSub_of_le (by omega)
        rw [pure_eq_ok, ok_bind, hsub, ok_bind]
        refine Outcome.ok ⟨⟨?_, ?_, ?_, ?_, ?_⟩, h.lgLength_eq, hslots.free, hslots.positive, ?_⟩
        · dsimp only
          rw [hslots.length_eq, h.lgLength_eq]
        · dsimp only
          exact h.inv.threshold_eq
        · exact hslots.probed
        · have hnodup := h.inv.nodup
          rw [entries, hpairs, Multiset.map_cons, Multiset.nodup_cons] at hnodup
          rw [entries, hslots.pairs_eq]
          exact hnodup.2
        · rw [entries, hslots.pairs_eq]
          dsimp only
          omega
        · have hfilter := h.filter_eq
          rw [entries, hpairs, Multiset.filter_cons_of_neg (p := fun e : T × ℕ ↦ e.2 ≠ 0) _
            (not_not.mpr hvalue)] at hfilter
          rw [entries, hslots.pairs_eq]
          exact hfilter
      · refine Outcome.ok ⟨h.inv, h.lgLength_eq, h.free, fun r hr hrz s hs ↦ ?_, h.filter_eq⟩
        by_cases hrq : r = q
        · rw [hrq, hget] at hs
          cases hs
          exact hvalue
        · exact h.positive r (hnext r hr hrq) hrz s hs

/-- A loop over the slots `lo`, …, `lo + n - 1`, backwards, in round `c`. -/
theorem Clean.run_outcome {lo n c : ℕ} (hlo : lo + n ≤ 2 ^ lg)
    (h : Clean lg z (lo + n + 2 ^ lg * c) E m) (hlz : lo + n + 2 ^ lg * c ≤ z)
    (hz : z ≤ lo + 2 ^ lg * c + 2 ^ lg) :
    Outcome Drifted (run deleteIfZero m (List.range' lo n).reverse)
      (Clean lg z (lo + 2 ^ lg * c) E) := by
  induction n generalizing m with
  | zero => exact Outcome.ok h
  | succ n ih =>
      rw [List.range'_1_concat, List.reverse_append, List.reverse_singleton, List.singleton_append,
        run_cons]
      have hmod : (lo + n + 2 ^ lg * c) % 2 ^ lg = lo + n := by
        rw [Nat.add_mul_mod_self_left, Nat.mod_eq_of_lt (by omega)]
      have hstep := @Clean.deleteIfZero_outcome T _ m lg z (lo + n + 2 ^ lg * c) E
        (by rwa [show lo + n + 2 ^ lg * c + 1 = lo + (n + 1) + 2 ^ lg * c by omega])
        (by omega) (by omega)
      rw [hmod] at hstep
      exact hstep.bind fun m' _ h' ↦ ih (by omega) h' (by omega)

omit [Hash T] in
/-- Going down from above a free slot, one is found. -/
theorem firstProbe_total {slots : List (Option (Slot T))} {start i : ℕ} (hi : i ≤ start)
    (hfree : get slots i = none) :
    ∃ first ≤ start, firstProbe slots start = .ok first ∧ get slots first = none := by
  induction start with
  | zero =>
      obtain rfl : i = 0 := Nat.le_zero.mp hi
      exact ⟨0, le_rfl, by rw [firstProbe, hfree]; rfl, hfree⟩
  | succ start ih =>
      cases hget : get slots (start + 1) with
      | none => exact ⟨start + 1, le_rfl, by rw [firstProbe, hget]; rfl, hget⟩
      | some s =>
          have hne : i ≠ start + 1 := by
            rintro rfl
            rw [hget] at hfree
            cases hfree
          obtain ⟨first, hle, hok, hnone⟩ := ih (by omega)
          exact ⟨first, by omega, by rw [firstProbe, hget]; exact hok, hnone⟩

/-- Exactly the zero counters are dropped. -/
theorem keepOnlyPositiveCounts_outcome (h : m.Inv) (hroom : m.numActive < 2 ^ m.lgLength) :
    Outcome Drifted m.keepOnlyPositiveCounts fun m' ↦ m'.Inv ∧ m'.lgLength = m.lgLength ∧
      m'.entries = m.entries.filter (·.2 ≠ 0) := by
  have hpos := h.length_pos
  obtain ⟨i, hi, hfree⟩ := h.exists_free hroom
  obtain ⟨first, hle, hfirst, hnone⟩ := firstProbe_total (show i ≤ m.slots.length - 1 by omega) hfree
  have hlen := h.length_eq
  have hstart : Clean m.lgLength (first + 2 ^ m.lgLength) (0 + first + 2 ^ m.lgLength * 1)
      (m.entries.filter (·.2 ≠ 0)) m := by
    refine ⟨h, rfl, ?_, fun r hr hrz ↦ by omega, rfl⟩
    rw [Nat.add_mod_right, Nat.mod_eq_of_lt (by omega)]
    exact hnone
  rw [keepOnlyPositiveCounts, hfirst, ok_bind, hlen]
  refine (hstart.run_outcome (by omega) (by omega) (by omega)).bind fun m₁ _ h₁ ↦ ?_
  have hmid : Clean m.lgLength (first + 2 ^ m.lgLength)
      (first + (2 ^ m.lgLength - first) + 2 ^ m.lgLength * 0) (m.entries.filter (·.2 ≠ 0)) m₁ := by
    refine ⟨h₁.inv, h₁.lgLength_eq, h₁.free, fun r hr hrz ↦ h₁.positive r (by omega) hrz, h₁.filter_eq⟩
  refine (hmid.run_outcome (by omega) (by omega) (by omega)).mono fun m₂ _ h₂ ↦
    ⟨h₂.inv, h₂.lgLength_eq, ?_⟩
  rw [← h₂.filter_eq, Multiset.filter_eq_self.mpr]
  intro p hp
  obtain ⟨j, s, hs, rfl⟩ := mem_pairs.mp hp
  have hj : j < 2 ^ m.lgLength := by
    have hlt := lt_length_of_get hs
    rwa [h₂.inv.length_eq, h₂.lgLength_eq] at hlt
  -- the round starts at the free slot
  rcases Nat.lt_or_ge j first with hjf | hjf
  · refine h₂.positive (j + 2 ^ m.lgLength) (by omega) (by omega) s ?_
    rwa [Nat.add_mod_right, Nat.mod_eq_of_lt hj]
  · refine h₂.positive j (by omega) (by omega) s ?_
    rwa [Nat.mod_eq_of_lt hj]

/-! ## The median of the sample -/

omit [Hash T] in
theorem contents_map (f : Slot T → Slot T) (slots : List (Option (Slot T))) :
    contents (slots.map (Option.map f)) = (contents slots).map f := by
  rw [contents, contents, List.filterMap_map, List.map_filterMap]
  rfl

omit [Hash T] in
theorem get_map (f : Slot T → Slot T) (slots : List (Option (Slot T))) (i : ℕ) :
    get (slots.map (Option.map f)) i = (get slots i).map f := by
  unfold OpenAddressing.get
  rw [List.getD_eq_getElem?_getD, List.getElem?_map, List.getD_eq_getElem?_getD]
  cases slots[i]? <;> rfl

theorem adjustAllValuesBy_inv (h : m.Inv) (v : ℕ) : (m.adjustAllValuesBy v).Inv ∧
    (m.adjustAllValuesBy v).entries = m.entries.map fun p ↦ (p.1, p.2 - v) := by
  have hentries : (m.adjustAllValuesBy v).entries = m.entries.map fun p ↦ (p.1, p.2 - v) := by
    rw [adjustAllValuesBy, entries, pairs, contents_map, entries, pairs, Multiset.map_coe, List.map_map,
      List.map_map]
    rfl
  refine ⟨⟨?_, h.threshold_eq, ?_, ?_, ?_⟩, hentries⟩
  · rw [adjustAllValuesBy, List.length_map, h.length_eq]
  · intro i s hs
    rw [adjustAllValuesBy, get_map, Option.map_eq_some_iff] at hs
    obtain ⟨s₀, hs₀, rfl⟩ := hs
    obtain ⟨d, hd, hlt, hat, hpath⟩ := h.probed i s₀ hs₀
    rw [adjustAllValuesBy, List.length_map]
    refine ⟨d, hd, hlt, hat, fun j hj ↦ .inl ?_⟩
    rw [get_map, Ne, Option.map_eq_none_iff]
    exact (hpath j hj).resolve_right id
  · rw [hentries, Multiset.map_map]
    exact h.nodup
  · rw [hentries, Multiset.card_map]
    exact h.numActive_eq

omit [Hash T] in
/-- The sample is what comes first. -/
theorem sample_eq {slots : List (Option (Slot T))} {limit : ℕ} (h : limit ≤ (contents slots).length) :
    sample limit slots = .ok (((contents slots).map Slot.value).take limit) := by
  induction slots generalizing limit with
  | nil =>
      obtain rfl : limit = 0 := Nat.le_zero.mp h
      rfl
  | cons o slots ih =>
      cases limit with
      | zero => rfl
      | succ limit =>
          cases o with
          | none => exact ih h
          | some s =>
              have hrest := ih (Nat.le_of_succ_le_succ h)
              rw [sample, hrest]
              rfl

/-- From a place in a sorted list on, no number is smaller. -/
theorem length_sub_le_filter {l : List ℕ} (hl : l.Pairwise (· ≤ ·)) {mid : ℕ} (h : mid < l.length) :
    l.length - mid ≤ (l.filter (l[mid] ≤ ·)).length := by
  have hdrop : (l.drop mid).filter (l[mid] ≤ ·) = l.drop mid := by
    refine List.filter_eq_self.mpr fun x hx ↦ decide_eq_true ?_
    obtain ⟨i, hi, rfl⟩ := List.mem_iff_getElem.mp hx
    rw [List.getElem_drop]
    rcases Nat.eq_zero_or_pos i with rfl | hpos
    · exact le_rfl
    · exact List.pairwise_iff_getElem.mp hl _ _ _ _ (Nat.lt_add_of_pos_right hpos)
  rw [← List.length_drop, ← hdrop]
  exact ((List.drop_sublist mid l).filter _).length_le

/-- A number of a list, and as many at least as large as there are from its place in the sorted
list on. -/
theorem selectNth_total {samples : List ℕ} {mid : ℕ} (h : mid < samples.length) :
    ∃ median ∈ samples, selectNth samples mid = .ok median ∧
      samples.length - mid ≤ (samples.filter (median ≤ ·)).length := by
  have hsorted : (samples.mergeSort fun a b ↦ a ≤ b).Pairwise (· ≤ ·) := by
    have hpair := @List.pairwise_mergeSort ℕ (fun a b ↦ decide (a ≤ b))
      (fun a b c hab hbc ↦ by simp only [decide_eq_true_eq] at *; exact hab.trans hbc)
      (fun a b ↦ by simp only [Bool.or_eq_true, decide_eq_true_eq]; exact Nat.le_total a b) samples
    exact hpair.imp of_decide_eq_true
  have hperm := List.mergeSort_perm samples fun a b ↦ decide (a ≤ b)
  generalize hs : (samples.mergeSort fun a b ↦ a ≤ b) = sorted at hsorted hperm
  have hlt : mid < sorted.length := hperm.length_eq ▸ h
  refine ⟨sorted[mid], hperm.mem_iff.mp (List.getElem_mem hlt), ?_, ?_⟩
  · rw [selectNth, hs, List.getElem?_eq_getElem hlt]
    rfl
  · rw [← (hperm.filter _).length_eq, ← hperm.length_eq]
    exact length_sub_le_filter hsorted hlt

/-! ## Purging -/

/-- What a purge does. -/
structure Purged (m : ReversePurgeItemHashMap T) (sampleSize : ℕ)
    (r : ReversePurgeItemHashMap T × ℕ) : Prop where
  inv : r.1.Inv
  lgLength_eq : r.1.lgLength = m.lgLength
  entries_eq : r.1.entries = decrement m.entries r.2
  /-- The median is the value of a key. -/
  mem : ∃ p ∈ m.entries, p.2 = r.2
  /-- At least half of the sample is not less than the median. -/
  half : min (min sampleSize m.numActive) maxSampleSize -
    min (min sampleSize m.numActive) maxSampleSize / 2 ≤ (m.entries.filter (r.2 ≤ ·.2)).card

/-- `purge` decrements all counters by the median of the sample and drops those that are zero. -/
theorem purge_outcome (h : m.Inv) (hroom : m.numActive < 2 ^ m.lgLength) {sampleSize : ℕ}
    (hsize : 0 < sampleSize) (hactive : 0 < m.numActive) :
    Outcome Drifted (m.purge sampleSize) (m.Purged sampleSize) := by
  have hlen : m.numActive = (contents m.slots).length := by
    rw [h.numActive_eq, entries, card_pairs]
  have hlimit : min (min sampleSize m.numActive) maxSampleSize ≤ (contents m.slots).length :=
    hlen ▸ (min_le_left _ _).trans (min_le_right _ _)
  have hpos : 0 < min (min sampleSize m.numActive) maxSampleSize :=
    lt_min (lt_min hsize hactive) (by decide)
  rw [purge, sample_eq hlimit, ok_bind]
  generalize hlim : min (min sampleSize m.numActive) maxSampleSize = limit at hlimit hpos
  have hsamples : (((contents m.slots).map Slot.value).take limit).length = limit := by
    rw [List.length_take, List.length_map]
    exact min_eq_left hlimit
  obtain ⟨median, hmem, hselect, hhalf⟩ := selectNth_total
    (show limit / 2 < (((contents m.slots).map Slot.value).take limit).length by
      rw [hsamples]
      exact Nat.div_lt_self hpos one_lt_two)
  rw [hsamples] at hhalf ⊢
  have hvalues : m.entries.map Prod.snd = ↑((contents m.slots).map Slot.value) := by
    rw [entries, pairs, Multiset.map_coe, List.map_map]
    rfl
  obtain ⟨hinv, hentries⟩ := adjustAllValuesBy_inv h median
  rw [hselect, ok_bind]
  refine (keepOnlyPositiveCounts_outcome hinv hroom).bind fun m' _ hkeep ↦ ?_
  obtain ⟨h', hlg, hm'⟩ := hkeep
  refine Outcome.ok ⟨h', hlg, ?_, ?_, ?_⟩
  · rw [hm', hentries]
    rfl
  · have hvalue : median ∈ m.entries.map Prod.snd := by
      rw [hvalues, Multiset.mem_coe]
      exact List.mem_of_mem_take hmem
    exact Multiset.mem_map.mp hvalue
  · have hcard : (m.entries.filter (median ≤ ·.2)).card =
        ((m.entries.map Prod.snd).filter (median ≤ ·)).card := by
      rw [Multiset.filter_map, Multiset.card_map]
      rfl
    rw [hlim, hcard, hvalues, Multiset.filter_coe, Multiset.coe_card]
    exact hhalf.trans ((List.take_sublist _ _).filter _).length_le

/-! ## Iterating -/

omit [Hash T] in
/-- The slots of a table in order. -/
theorem contents_eq_filterMap (slots : List (Option (Slot T))) :
    contents slots = (List.range slots.length).filterMap (get slots) := by
  have hmap : slots = (List.range slots.length).map (get slots) := by
    refine List.ext_getElem (by rw [List.length_map, List.length_range]) fun i hi hi' ↦ ?_
    rw [List.getElem_map, List.getElem_range, OpenAddressing.get, List.getD_eq_getElem _ _ hi]
  conv_lhs => rw [hmap, contents, List.filterMap_map]
  rfl

/-- The iterator finds the entries of the slots that are left. -/
theorem iterFrom_eq (h : m.Inv) {fuel j count : ℕ}
    (hcount : (((List.range' j fuel).map fun i ↦ (0 + i * stride m.slots.length) % m.slots.length).filterMap
      (get m.slots)).length = count) :
    m.iterFrom fuel (j * stride m.slots.length % m.slots.length) count =
      .ok ((((List.range' j fuel).map fun i ↦ (0 + i * stride m.slots.length) % m.slots.length).filterMap
        (get m.slots)).map Slot.entry) := by
  induction fuel generalizing j count with
  | zero =>
      subst hcount
      rfl
  | succ fuel ih =>
      rw [List.range'_succ, List.map_cons, Nat.zero_add] at hcount ⊢
      have hnext : (j * stride m.slots.length % m.slots.length + stride m.slots.length) &&&
          (m.slots.length - 1) = (j + 1) * stride m.slots.length % m.slots.length := by
        rw [h.mask_eq, Nat.mod_add_mod, Nat.succ_mul]
      cases hget : get m.slots (j * stride m.slots.length % m.slots.length) with
      | none =>
          rw [List.filterMap_cons_none hget] at hcount ⊢
          cases count with
          | zero =>
              rw [List.eq_nil_of_length_eq_zero hcount]
              rfl
          | succ count =>
              rw [iterFrom, hget]
              dsimp only
              rw [hnext]
              exact ih hcount
      | some slot =>
          rw [List.filterMap_cons_some hget] at hcount ⊢
          cases count with
          | zero => cases hcount
          | succ count =>
              rw [iterFrom, hget]
              dsimp only
              rw [hnext, ih (Nat.succ_injective hcount), ok_bind]
              rfl

/-- The iterator yields each pair exactly once. -/
theorem iter_total (h : m.Inv) : ∃ items, m.iter = .ok items ∧ ↑items = m.entries := by
  have hodd : stride m.slots.length % 2 = 1 := by
    rw [stride, Nat.or_mod_two_eq_one]
    exact .inr rfl
  have hcop : Nat.Coprime (stride m.slots.length) m.slots.length :=
    h.length_eq ▸ coprime_odd_two_pow (by rw [← h.length_eq]; exact hodd) m.lgLength
  have hperm : (strideOrder m.slots.length 0 (stride m.slots.length)).Perm
      (List.range m.slots.length) := by
    refine (List.perm_ext_iff_of_nodup (nodup_strideOrder hcop) List.nodup_range).mpr fun i ↦ ?_
    exact ⟨fun hi ↦ List.mem_range.mpr (lt_of_mem_strideOrder hi),
      fun hi ↦ mem_strideOrder hcop (List.mem_range.mp hi)⟩
  have hcontents : ((strideOrder m.slots.length 0 (stride m.slots.length)).filterMap
      (get m.slots)).Perm (contents m.slots) := by
    rw [contents_eq_filterMap]
    exact hperm.filterMap _
  rw [strideOrder, List.range_eq_range'] at hcontents
  have hiter := @iterFrom_eq T _ m h m.slots.length 0 m.numActive
    (by rw [hcontents.length_eq, h.numActive_eq, entries, card_pairs])
  rw [Nat.zero_mul, Nat.zero_mod] at hiter
  exact ⟨_, hiter, Multiset.coe_eq_coe.mpr (hcontents.map Slot.entry)⟩

omit [Hash T] in
theorem activeEntries_coe (m : ReversePurgeItemHashMap T) : ↑m.activeEntries = m.entries := rfl

end ReversePurgeItemHashMap

end DataSketches
