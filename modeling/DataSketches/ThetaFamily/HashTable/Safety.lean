import DataSketches.ThetaFamily.Intersection

/-!
# No run of the hash table goes wrong

`Reachable` has the tables of all runs: of the sketches and the unions, whose
tables are created with `new` and may be reset, and of the intersections, whose
tables are made for a number of entries.  A table that is reset starts with at
least `2 ^ minLgK` slots, also where its full size is smaller, so the invariant
of this file leaves the full size out.
-/

namespace DataSketches

open OpenAddressing Selection Runs

namespace SketchHashTable

variable {E : Type} [SketchEntry E] {t u : SketchHashTable E}

/-- The tables that runs reach.  A callback keeps the hash of an entry that it changes, and a new
entry has the hash that it is inserted for. -/
inductive Reachable : SketchHashTable E → Prop
  | new {lgNomSize : ℕ} {rf : ResizeFactor} {p : ℚ} {seed : UInt64} {t : SketchHashTable E}
      (hok : SketchHashTable.new lgNomSize rf p seed = .ok t) : Reachable t
  | sized {table t : SketchHashTable E} {count : ℕ}
      (hok : IntersectionState.newTableFor table count = .ok t) : Reachable t
  | reset {t : SketchHashTable E} (h : Reachable t) : Reachable t.reset
  | upsertEntry {t : SketchHashTable E} {hash : ℕ} {onExisting : E → E} {onNew : Option E}
      {r : SketchHashTable E × Bool} (h : Reachable t)
      (hex : ∀ e, SketchEntry.hash (onExisting e) = SketchEntry.hash e)
      (hnew : ∀ e, onNew = some e → SketchEntry.hash e = hash)
      (hok : t.upsertEntry hash onExisting onNew = .ok r) : Reachable r.1
  | trim {t t' : SketchHashTable E} (h : Reachable t) (hok : t.trim = .ok t') : Reachable t'

/-- The invariant of all tables. -/
structure Sound (t : SketchHashTable E) : Prop extends Placed t where
  one_le_lgCurSize : 1 ≤ t.lgCurSize
  lgMaxSize_eq : t.lgMaxSize = t.lgNomSize + 1
  grows : t.lgCurSize ≤ t.lgNomSize → 1 ≤ t.resizeFactor.lgValue
  numRetained_le : t.numRetained ≤ t.capacityThreshold

theorem Inv.sound (h : Inv t) : Sound t :=
  ⟨h.placed, h.one_le_lgCurSize, h.lgMaxSize_eq, h.grows, h.numRetained_le⟩

/-- The table `u` is `t` with a new entry, just before its load is checked. -/
structure Grown (t u : SketchHashTable E) : Prop where
  exists_slot : ∃ i e, t.findInCurrEntries (SketchEntry.hash e) = some i ∧
    get t.entries i = none ∧ 0 < SketchEntry.hash e ∧ SketchEntry.hash e < t.theta ∧ u = t.storeAt i e

namespace Sound

theorem inv (h : Sound t) (hle : t.lgCurSize ≤ t.lgMaxSize) : Inv t :=
  ⟨⟨h.length_eq, h.one_le_lgCurSize, h.lgMaxSize_eq, hle, h.grows, h.valid, h.numRetained_eq,
    h.below⟩, h.numRetained_le⟩

theorem length_pos (h : Sound t) : 0 < t.entries.length := h.length_eq ▸ Nat.two_pow_pos _

theorem numRetained_lt (h : Sound t) : t.numRetained < t.entries.length :=
  h.numRetained_le.trans_lt (capacityThreshold_lt h.length_pos)

theorem setUsed (h : Sound t) (b : Bool) : Sound { t with isEmpty := b } :=
  ⟨⟨h.length_eq, h.valid, h.numRetained_eq, h.below⟩, h.one_le_lgCurSize, h.lgMaxSize_eq, h.grows,
    h.numRetained_le⟩

/-! ## Growing -/

theorem placed_of_grown (h : Sound t) (hu : Grown t u) : Placed u := by
  obtain ⟨i, e, hi, hfree, hpos, hlt, rfl⟩ := hu.exists_slot
  obtain ⟨j, hjl, hj, -⟩ := h.toPlaced.findInCurrEntries_spec h.numRetained_lt (SketchEntry.hash e)
  obtain rfl : j = i := Option.some.inj (hj.symm.trans hi)
  exact h.toPlaced.storeAt hi hjl hfree ⟨hpos, hlt⟩

/-- A table that is not of full size grows. -/
theorem resize_of_grown (h : Sound t) (hu : Grown t u) (hle : u.lgCurSize ≤ u.lgNomSize) :
    ∃ u', u.resize = .ok u' ∧ Sound u' ∧ u.entries.length < u'.entries.length := by
  have hplaced := h.placed_of_grown hu
  obtain ⟨i, e, -, -, -, -, rfl⟩ := hu.exists_slot
  have hgrow : 1 ≤ t.resizeFactor.lgValue := h.grows hle
  have hmax := h.lgMaxSize_eq
  have hle' : t.lgCurSize ≤ t.lgNomSize := hle
  have hcap := h.numRetained_le
  rw [capacityThreshold_of_le hle'] at hcap
  have hst : Stored (t.storeAt i e) := ⟨hplaced.length_eq, h.one_le_lgCurSize, hmax,
    show t.lgCurSize ≤ t.lgMaxSize by omega, h.grows, hplaced.valid, hplaced.numRetained_eq,
    hplaced.below⟩
  obtain ⟨u', hok, hinv, -⟩ := resize_spec hst hle (by
    rw [storeAt, List.length_set]
    exact Nat.succ_le_succ hcap)
  have hlg : u'.lgCurSize = min (t.lgCurSize + t.resizeFactor.lgValue) t.lgMaxSize := by
    rw [resize] at hok
    obtain ⟨slots, -, hslots⟩ := bind_eq_ok.mp hok
    cases hslots
    rfl
  refine ⟨u', hok, hinv.sound, ?_⟩
  rw [hplaced.length_eq, hinv.length_eq, hlg]
  exact Nat.pow_lt_pow_right one_lt_two (show t.lgCurSize < _ by omega)

/-- A table of full size that is over its threshold has more than `k` entries. -/
theorem full_of_grown (h : Sound t) (hu : Grown t u) (hover : u.capacityThreshold < u.numRetained)
    (hgt : u.lgNomSize < u.lgCurSize) : 2 ^ u.lgNomSize < u.iterEntries.length := by
  have hplaced := h.placed_of_grown hu
  have hpow : 2 * 2 ^ u.lgNomSize ≤ 2 ^ u.lgCurSize := by
    rw [← Nat.pow_succ']
    exact Nat.pow_le_pow_right two_pos hgt
  rw [capacityThreshold_of_gt hgt, hplaced.length_eq] at hover
  rw [← hplaced.numRetained_eq]
  have hpos := Nat.two_pow_pos u.lgNomSize
  omega

theorem rebuild (h : Sound t) (hgt : t.lgNomSize < t.lgCurSize)
    (hnum : 2 ^ t.lgNomSize < t.numRetained) : ∃ t', t.rebuild = .ok t' ∧ Sound t' := by
  obtain ⟨slots, kth, hok, hplaced, hcap, -, -⟩ := h.toPlaced.rebuild hgt hnum
  exact ⟨_, hok, hplaced, h.one_le_lgCurSize, h.lgMaxSize_eq, h.grows, hcap⟩

/-- The load check that ends an insertion. -/
theorem checkLoad_of_grown (h : Sound t) (hu : Grown t u) : ∃ u', u.checkLoad = .ok u' ∧ Sound u' := by
  have hplaced := h.placed_of_grown hu
  have hcfg : 1 ≤ u.lgCurSize ∧ u.lgMaxSize = u.lgNomSize + 1 ∧
      (u.lgCurSize ≤ u.lgNomSize → 1 ≤ u.resizeFactor.lgValue) := by
    obtain ⟨i, e, -, -, -, -, rfl⟩ := hu.exists_slot
    exact ⟨h.one_le_lgCurSize, h.lgMaxSize_eq, h.grows⟩
  rw [checkLoad]
  split_ifs with hover hle
  · obtain ⟨u', hok, hsound, -⟩ := h.resize_of_grown hu hle
    exact ⟨u', hok, hsound⟩
  · have hfull := h.full_of_grown hu hover (not_le.mp hle)
    rw [← hplaced.numRetained_eq] at hfull
    obtain ⟨slots, kth, hok, hplaced', hcap, -, -⟩ := hplaced.rebuild (not_le.mp hle) hfull
    exact ⟨_, hok, hplaced', hcfg.1, hcfg.2.1, hcfg.2.2, hcap⟩
  · exact ⟨u, rfl, hplaced, hcfg.1, hcfg.2.1, hcfg.2.2, not_lt.mp hover⟩

/-! ## The operations -/

theorem upsertEntry (h : Sound t) {hash : ℕ} {onExisting : E → E} {onNew : Option E}
    (hex : ∀ e, SketchEntry.hash (onExisting e) = SketchEntry.hash e)
    (hnew : ∀ e, onNew = some e → SketchEntry.hash e = hash) :
    ∃ r, t.upsertEntry hash onExisting onNew = .ok r ∧ Sound r.1 := by
  by_cases hscreen : hash = 0 ∨ hash ≥ t.theta
  · exact ⟨_, upsertEntry_of_screened hscreen, h.setUsed false⟩
  obtain ⟨i, hil, hi, hcase⟩ := h.toPlaced.findInCurrEntries_spec h.numRetained_lt hash
  rcases hcase with ⟨hfree, -⟩ | ⟨e, hocc, -⟩
  · cases honNew : onNew with
    | none => exact ⟨_, upsertEntry_of_declined hscreen hi hfree, h.setUsed false⟩
    | some e =>
        obtain rfl := hnew e honNew
        have hu : Grown t (t.storeAt i e) := ⟨i, e, hi, hfree, by omega, by omega, rfl⟩
        obtain ⟨u', hok, hsound⟩ := h.checkLoad_of_grown hu
        refine ⟨(u', true), ?_, hsound⟩
        rw [upsertEntry_of_new hscreen hi hfree, hok]
        rfl
  · refine ⟨_, upsertEntry_of_existing hscreen hi hocc, ?_⟩
    refine ⟨(h.setUsed false).toPlaced.replace hocc (hex e), h.one_le_lgCurSize, h.lgMaxSize_eq,
      h.grows, ?_⟩
    have hcap := h.numRetained_le
    rw [capacityThreshold] at hcap ⊢
    rw [List.length_set]
    exact hcap

/-- A table with more than `k` entries has its full size. -/
theorem lgNomSize_lt (h : Sound t) (hnum : 2 ^ t.lgNomSize < t.numRetained) :
    t.lgNomSize < t.lgCurSize := by
  by_contra hle
  have hthr := h.numRetained_le
  have hpow : 2 ^ t.lgCurSize ≤ 2 ^ t.lgNomSize := Nat.pow_le_pow_right two_pos (not_lt.mp hle)
  rw [capacityThreshold_of_le (not_lt.mp hle), h.length_eq] at hthr
  omega

theorem trim (h : Sound t) : ∃ t', t.trim = .ok t' ∧ Sound t' := by
  rw [SketchHashTable.trim, Nat.one_shiftLeft]
  split_ifs with hnum
  · exact h.rebuild (h.lgNomSize_lt hnum) hnum
  · exact ⟨t, rfl, h⟩

theorem reset (h : Sound t) : Sound t.reset := by
  have hstart : 1 ≤ startingSubMultiple (t.lgNomSize + 1) minLgK t.resizeFactor.lgValue ∧
      (startingSubMultiple (t.lgNomSize + 1) minLgK t.resizeFactor.lgValue ≤ t.lgNomSize →
        1 ≤ t.resizeFactor.lgValue) := by
    rcases le_or_gt minLgK (t.lgNomSize + 1) with hmin | hmin
    · obtain ⟨hpos, -, hgrows⟩ := startingSubMultiple_spec hmin t.resizeFactor
      exact ⟨hpos, hgrows⟩
    · rw [startingSubMultiple, if_pos hmin.le]
      exact ⟨by decide, fun hle ↦ absurd hle (by omega)⟩
  refine ⟨⟨?_, ?_, ?_, ?_⟩, hstart.1, h.lgMaxSize_eq, hstart.2, Nat.zero_le _⟩
  · rw [SketchHashTable.reset, List.length_replicate, Nat.one_shiftLeft]
  · exact valid_replicate_none _
  · rw [SketchHashTable.reset, iterEntries, contents_replicate_none]
    rfl
  · intro e he
    rw [SketchHashTable.reset, iterEntries, contents_replicate_none] at he
    exact absurd he List.not_mem_nil

end Sound

/-- A table is only created with room for the minimum size. -/
theorem minLgK_le_of_new {lgNomSize : ℕ} {rf : ResizeFactor} {p : ℚ} {seed : UInt64}
    (hok : SketchHashTable.new lgNomSize rf p seed = .ok t) : minLgK ≤ lgNomSize + 1 := by
  by_contra hlt
  rw [SketchHashTable.new, fromRawParts, startingSubMultiple, if_pos (by omega)] at hok
  exact hlt (assert_bind_eq_ok.mp hok).1

theorem Reachable.sound (h : Reachable t) : Sound t := by
  induction h with
  | @new lgNomSize rf p seed t hok =>
      obtain ⟨t', hok', hinv, -⟩ := @new_spec E _ _ (minLgK_le_of_new hok) rf p seed
      rw [hok] at hok'
      cases hok'
      exact hinv.sound
  | @sized table t count hok =>
      obtain ⟨t', hok', hinv, -⟩ := IntersectionState.newTableFor_spec table count
      rw [hok] at hok'
      cases hok'
      exact hinv.sound
  | reset _ ih => exact ih.reset
  | upsertEntry _ hex hnew hok ih =>
      obtain ⟨r', hok', hsound⟩ := ih.upsertEntry hex hnew
      rw [hok] at hok'
      cases hok'
      exact hsound
  | trim _ hok ih =>
      obtain ⟨t', hok', hsound⟩ := ih.trim
      rw [hok] at hok'
      cases hok'
      exact hsound

/-! ## Tables made for a number of entries -/

/-- A new entry is only stored while the table is below its threshold. -/
theorem Sound.upsertEntry_of_room (h : Sound t) {e : E} (hnew : ∀ e' ∈ t.iterEntries,
      SketchEntry.hash e' ≠ SketchEntry.hash e)
    (hrange : 0 < SketchEntry.hash e ∧ SketchEntry.hash e < t.theta)
    (hroom : t.numRetained < t.capacityThreshold) (onExisting : E → E) :
    ∃ i, t.upsertEntry (SketchEntry.hash e) onExisting (some e) = .ok (t.storeAt i e, true) := by
  obtain ⟨i, hil, hi, hcase⟩ :=
    h.toPlaced.findInCurrEntries_spec h.numRetained_lt (SketchEntry.hash e)
  rcases hcase with ⟨hfree, -⟩ | ⟨e', hocc, hkey⟩
  · refine ⟨i, ?_⟩
    have hload : ¬ (t.storeAt i e).numRetained > (t.storeAt i e).capacityThreshold := by
      rw [capacityThreshold_storeAt]
      exact not_lt.mpr hroom
    rw [upsertEntry_of_new (by omega) hi hfree, checkLoad, if_neg hload]
    rfl
  · exact absurd hkey (hnew e' (mem_contents_iff.mpr ⟨i, hocc⟩))

/-- The table takes `count` entries with distinct hashes: each of them is stored, and nothing
else happens. -/
def Accepts (t : SketchHashTable E) (count : ℕ) : Prop :=
  ∀ (msg : String) (es : List E), es.length ≤ count → (es.map SketchEntry.hash).Nodup →
    (∀ e ∈ es, 0 < SketchEntry.hash e ∧ SketchEntry.hash e < t.theta) →
    (∃ t', IntersectionState.insertAll msg es t = .ok (t', .ok ()) ∧ t'.retained = es ∧
      t'.theta = t.theta ∧ t'.entries.length = t.entries.length) ∧
    ∀ xs e ys, es = xs ++ e :: ys → ∃ t₁ i, IntersectionState.insertAll msg xs t = .ok (t₁, .ok ()) ∧
      t₁.upsertEntry (SketchEntry.hash e) id (some e) = .ok (t₁.storeAt i e, true)

theorem accepts_of_newTableFor {table : SketchHashTable E} {count : ℕ}
    (hok : IntersectionState.newTableFor table count = .ok t) : t.Accepts count := by
  obtain ⟨t', hok', hinv, hentries, hfull, hcap, -⟩ := IntersectionState.newTableFor_spec table count
  rw [hok] at hok'
  cases hok'
  have hhashes : t.hashes = ∅ := by
    rw [hashes, hentries]
    rfl
  have hzero : t.numRetained = 0 := by
    rw [hinv.numRetained_eq, hentries]
    rfl
  have hretained : t.retained = 0 := by
    rw [retained, hentries]
    rfl
  intro msg es hlen hnodup hrange
  have hfill : ∀ xs, xs.Sublist es → ∃ t₁, IntersectionState.insertAll msg xs t = .ok (t₁, .ok ()) ∧
      Inv t₁ ∧ SameConfig t t₁ ∧ t₁.retained = xs ∧ t₁.theta = t.theta := by
    intro xs hxs
    obtain ⟨t₁, hok₁, hinv₁, hcfg, hret, htheta, -⟩ := IntersectionState.insertAll_spec msg hinv hfull
      (hnodup.sublist (hxs.map _)) (fun e _ ↦ by rw [hhashes]; exact Finset.notMem_empty _)
      (fun e he ↦ hrange e (hxs.subset he))
      (by rw [hzero, Nat.zero_add]; exact hxs.length_le.trans (hlen.trans hcap))
    exact ⟨t₁, hok₁, hinv₁, hcfg, by rw [hret, hretained, add_zero], htheta⟩
  constructor
  · obtain ⟨t₁, hok₁, hinv₁, hcfg, hret, htheta⟩ := hfill es (List.Sublist.refl es)
    refine ⟨t₁, hok₁, hret, htheta, ?_⟩
    have hle := hinv₁.lgCurSize_le
    rw [hinv₁.lgMaxSize_eq, hcfg.lgNomSize_eq] at hle
    have hge := hcfg.lgCurSize_le
    rw [hinv₁.length_eq, hinv.length_eq, show t₁.lgCurSize = t.lgCurSize by omega]
  · rintro xs e ys rfl
    obtain ⟨t₁, hok₁, hinv₁, hcfg, hret, htheta⟩ := hfill xs (List.sublist_append_left _ _)
    rw [List.map_append, List.map_cons] at hnodup
    rw [List.length_append, List.length_cons] at hlen
    have hnew : ∀ e' ∈ t₁.iterEntries, SketchEntry.hash e' ≠ SketchEntry.hash e := by
      intro e' he'
      have hmem : e' ∈ xs := by
        rw [← Multiset.mem_coe, ← hret]
        exact he'
      exact (List.nodup_append.mp hnodup).2.2 _ (List.mem_map_of_mem hmem) _ List.mem_cons_self
    have hroom : t₁.numRetained < t₁.capacityThreshold := by
      rw [capacityThreshold_eq hinv hinv₁ hcfg hfull, ← hinv₁.card_retained, hret, Multiset.coe_card]
      omega
    obtain ⟨i, hi⟩ := hinv₁.sound.upsertEntry_of_room hnew
      (htheta ▸ hrange e (List.mem_append_right _ List.mem_cons_self)) hroom id
    exact ⟨t₁, i, hok₁, hi⟩

/-! ## What holds of every table -/

/-- The table is as it should be, and no call fails. -/
structure Safe (t : SketchHashTable E) : Prop where
  numRetained_le : t.numRetained ≤ t.capacityThreshold
  numRetained_eq : t.numRetained = t.iterEntries.length
  exists_free : ∃ i < t.entries.length, get t.entries i = none
  /-- The search returns the slot of the key, or else a free slot. -/
  find : ∀ key, ∃ i < t.entries.length, t.findInCurrEntries key = some i ∧
    ((get t.entries i = none ∧ ∀ e ∈ t.iterEntries, SketchEntry.hash e ≠ key) ∨
      ∃ e, get t.entries i = some e ∧ SketchEntry.hash e = key)
  /-- An insertion leads to the load check. -/
  grown : ∀ i e, t.findInCurrEntries (SketchEntry.hash e) = some i → get t.entries i = none →
    0 < SketchEntry.hash e → SketchEntry.hash e < t.theta → Grown t (t.storeAt i e) ∧
      ∀ onExisting, t.upsertEntry (SketchEntry.hash e) onExisting (some e) =
        (·, true) <$> (t.storeAt i e).checkLoad
  resize : ∀ u, Grown t u → u.lgCurSize ≤ u.lgNomSize →
    ∃ u', u.resize = .ok u' ∧ u.entries.length < u'.entries.length
  /-- The check calls `rebuild` with more than `k` entries. -/
  rebuild : ∀ u, Grown t u → u.capacityThreshold < u.numRetained → u.lgNomSize < u.lgCurSize →
    2 ^ u.lgNomSize < u.iterEntries.length ∧ ∃ u', u.rebuild = .ok u'
  upsertEntry : ∀ hash onExisting onNew,
    (∀ e, SketchEntry.hash (onExisting e) = SketchEntry.hash e) →
    (∀ e, onNew = some e → SketchEntry.hash e = hash) →
    ∃ r, t.upsertEntry hash onExisting onNew = .ok r
  trim : ∃ t', t.trim = .ok t'

/-- No run of the table goes wrong. -/
theorem safe_of_reachable (h : Reachable t) : t.Safe := by
  have hs := h.sound
  constructor
  · exact hs.numRetained_le
  · exact hs.numRetained_eq
  · apply exists_free
    rw [← iterEntries, ← hs.numRetained_eq]
    exact hs.numRetained_lt
  · intro key
    exact hs.toPlaced.findInCurrEntries_spec hs.numRetained_lt key
  · intro i e hi hfree hpos hlt
    exact ⟨⟨i, e, hi, hfree, hpos, hlt, rfl⟩, fun onExisting ↦ upsertEntry_of_new (by omega) hi hfree⟩
  · intro u hu hle
    obtain ⟨u', hok, -, hlt⟩ := hs.resize_of_grown hu hle
    exact ⟨u', hok, hlt⟩
  · intro u hu hover hgt
    have hplaced := hs.placed_of_grown hu
    have hfull := hs.full_of_grown hu hover hgt
    obtain ⟨slots, kth, hok, -⟩ := hplaced.rebuild hgt (hplaced.numRetained_eq ▸ hfull)
    exact ⟨hfull, _, hok⟩
  · intro hash onExisting onNew hex hnew
    obtain ⟨r, hok, -⟩ := hs.upsertEntry hex hnew
    exact ⟨r, hok⟩
  · obtain ⟨t', hok, -⟩ := hs.trim
    exact ⟨t', hok⟩

/-- Every table of every run is safe, and a table made for `count` entries takes them. -/
theorem hash_table_safe : (∀ t : SketchHashTable E, Reachable t → t.Safe) ∧
    ∀ (table : SketchHashTable E) (count : ℕ),
      ∃ t, IntersectionState.newTableFor table count = .ok t ∧ Reachable t ∧ t.Accepts count := by
  refine ⟨fun t h ↦ safe_of_reachable h, fun table count ↦ ?_⟩
  obtain ⟨t, hok, -⟩ := IntersectionState.newTableFor_spec table count
  exact ⟨t, hok, .sized hok, accepts_of_newTableFor hok⟩

/-- A table made for three entries, which is then reset to more slots than its full size has. -/
theorem hash_table_safe_three : ∃ t₀ t : SketchHashTable ThetaEntry,
    SketchHashTable.new 12 .x8 1 defaultUpdateSeed = .ok t₀ ∧
      IntersectionState.newTableFor t₀ 3 = .ok t ∧ t.reset.Safe := by
  obtain ⟨t₀, hnew, -⟩ :=
    new_spec (E := ThetaEntry) (show minLgK ≤ 12 + 1 by decide) .x8 1 defaultUpdateSeed
  obtain ⟨hsafe, hsized⟩ := hash_table_safe (E := ThetaEntry)
  obtain ⟨t, hok, hreach, -⟩ := hsized t₀ 3
  exact ⟨t₀, t, hnew, hok, hsafe _ (.reset hreach)⟩

end SketchHashTable

end DataSketches
