import DataSketches.ThetaFamily.HashTable

/-!
# The invariant of the hash table

`Stored` is what every table between two operations and in the middle of one has:
its entries are where the probing finds them, they are counted, and their hashes
are below theta.  `Inv` adds that the load threshold is respected, which is what
leaves a free slot for the next search.

`upsertEntry` has one specification, `upsertEntry_spec`: it succeeds, preserves
`Inv` and its effect on the retained entries is one of the five outcomes of
`UpsertOutcome`.  Nothing after this file unfolds it.
-/

namespace DataSketches

open OpenAddressing Selection Runs

namespace SketchHashTable

variable {E : Type}

/-! ## Settings and thresholds -/

/-- The settings no update changes.  Nor does a table shrink. -/
structure SameConfig (t t' : SketchHashTable E) : Prop where
  lgNomSize_eq : t'.lgNomSize = t.lgNomSize
  resizeFactor_eq : t'.resizeFactor = t.resizeFactor
  samplingProbability_eq : t'.samplingProbability = t.samplingProbability
  seed_eq : t'.seed = t.seed
  lgCurSize_le : t.lgCurSize ≤ t'.lgCurSize

theorem SameConfig.refl (t : SketchHashTable E) : SameConfig t t :=
  ⟨rfl, rfl, rfl, rfl, le_refl _⟩

theorem SameConfig.trans {t t' t'' : SketchHashTable E} (h : SameConfig t t')
    (h' : SameConfig t' t'') : SameConfig t t'' :=
  ⟨h'.1.trans h.1, h'.2.trans h.2, h'.3.trans h.3, h'.4.trans h.4, h.5.trans h'.5⟩

/-- The threshold of a table that can still grow. -/
theorem capacityThreshold_of_le {t : SketchHashTable E} (h : t.lgCurSize ≤ t.lgNomSize) :
    t.capacityThreshold = t.entries.length / 2 := by
  rw [capacityThreshold, if_pos h, hashTableResizeThreshold, div_mul_eq_mul_div, one_mul]
  exact_mod_cast Nat.floor_div_eq_div (K := ℚ) t.entries.length 2

/-- The threshold of a table at its full size. -/
theorem capacityThreshold_of_gt {t : SketchHashTable E} (h : t.lgNomSize < t.lgCurSize) :
    t.capacityThreshold = 15 * t.entries.length / 16 := by
  rw [capacityThreshold, if_neg (not_le.mpr h), hashTableRebuildThreshold, div_mul_eq_mul_div]
  exact_mod_cast Nat.floor_div_eq_div (K := ℚ) (15 * t.entries.length) 16

/-- A threshold never reaches the number of slots. -/
theorem capacityThreshold_lt {t : SketchHashTable E} (h : 0 < t.entries.length) :
    t.capacityThreshold < t.entries.length := by
  rcases le_or_gt t.lgCurSize t.lgNomSize with hle | hgt
  · rw [capacityThreshold_of_le hle]
    omega
  · rw [capacityThreshold_of_gt hgt]
    omega

variable [SketchEntry E]

/-! ## Probing -/

/-- The slots probed for a key, in a table of `2 ^ lgSize` slots. -/
def probeOrder (lgSize key : ℕ) : List ℕ :=
  strideOrder (2 ^ lgSize) (key % 2 ^ lgSize) (getStride key lgSize)

/-- The stride is odd. -/
theorem coprime_getStride (key lgSize : ℕ) :
    Nat.Coprime (getStride key lgSize) (2 ^ lgSize) :=
  coprime_odd_two_pow (by rw [getStride]; omega) lgSize

theorem covers_probeOrder (lgSize : ℕ) : Covers (probeOrder lgSize) (2 ^ lgSize) where
  lt _ _ hi := lt_of_mem_strideOrder hi
  mem key _ hi := mem_strideOrder (coprime_getStride key lgSize) hi

/-- The probing loop is the search along `probeOrder`. -/
theorem findInEntries_eq {entries : List (Option E)} {lgSize : ℕ}
    (hlen : entries.length = 2 ^ lgSize) (key : ℕ) :
    findInEntries entries key lgSize = find SketchEntry.hash (probeOrder lgSize) entries key := by
  have hpos : 0 < 2 ^ lgSize := Nat.two_pow_pos lgSize
  have hne : entries.isEmpty = false := by
    rw [List.isEmpty_eq_false_iff, ← List.length_pos_iff, hlen]
    exact hpos
  simp only [findInEntries, hne, Bool.false_eq_true, if_false, hlen,
    Nat.and_two_pow_sub_one_eq_mod]
  exact walk_eq_find? _ (coprime_getStride key lgSize) (Nat.mod_lt _ hpos)

/-- Filling a new table cannot fail while the entries fit. -/
theorem reinsert_spec {lgSize : ℕ} {es : List E} (hnd : (es.map SketchEntry.hash).Nodup)
    (hroom : es.length ≤ 2 ^ lgSize) :
    ∃ slots, reinsert lgSize es (List.replicate (1 <<< lgSize) none) = .ok slots ∧
      Valid SketchEntry.hash (probeOrder lgSize) slots ∧ slots.length = 2 ^ lgSize ∧
      (contents slots).Perm es := by
  have hloop : ∀ (es : List E) (new slots : List (Option E)), new.length = 2 ^ lgSize →
      placeAll SketchEntry.hash (probeOrder lgSize) es new = some slots →
      reinsert lgSize es new = .ok slots := by
    intro es
    induction es with
    | nil => intro new slots _ h; cases h; rfl
    | cons e es ih =>
        intro new slots hlen h
        obtain ⟨i, hi, hrest⟩ := Option.bind_eq_some_iff.mp h
        rw [reinsert, findInEntries_eq hlen, hi]
        exact ih _ _ (by rw [List.length_set, hlen]) hrest
  have hlen : (List.replicate (1 <<< lgSize) (none : Option E)).length = 2 ^ lgSize := by
    rw [List.length_replicate, Nat.one_shiftLeft]
  obtain ⟨slots, hp, hv, hl, hc⟩ := placeAll_spec es
    (valid_replicate_none (1 <<< lgSize)) (by rw [hlen]; exact covers_probeOrder lgSize) hnd
    (by simp) (by simpa [hlen] using hroom)
  exact ⟨slots, hloop _ _ _ hlen hp, hv, hl.trans hlen, by simpa using hc⟩

/-! ## The invariant -/

/-- The entries are where the probing finds them, counted and below theta. -/
structure Placed (t : SketchHashTable E) : Prop where
  length_eq : t.entries.length = 2 ^ t.lgCurSize
  valid : Valid SketchEntry.hash (probeOrder t.lgCurSize) t.entries
  numRetained_eq : t.numRetained = t.iterEntries.length
  below : ∀ e ∈ t.iterEntries, 0 < SketchEntry.hash e ∧ SketchEntry.hash e < t.theta

/-- What holds of a table at every moment, including just before it is resized or rebuilt. -/
structure Stored (t : SketchHashTable E) : Prop where
  length_eq : t.entries.length = 2 ^ t.lgCurSize
  one_le_lgCurSize : 1 ≤ t.lgCurSize
  lgMaxSize_eq : t.lgMaxSize = t.lgNomSize + 1
  lgCurSize_le : t.lgCurSize ≤ t.lgMaxSize
  /-- A table below its full size can grow. -/
  grows : t.lgCurSize ≤ t.lgNomSize → 1 ≤ t.resizeFactor.lgValue
  valid : Valid SketchEntry.hash (probeOrder t.lgCurSize) t.entries
  numRetained_eq : t.numRetained = t.iterEntries.length
  below : ∀ e ∈ t.iterEntries, 0 < SketchEntry.hash e ∧ SketchEntry.hash e < t.theta

/-- The invariant between operations: the load threshold is respected. -/
structure Inv (t : SketchHashTable E) : Prop extends Stored t where
  numRetained_le : t.numRetained ≤ t.capacityThreshold

/-- The retained entries, without their order. -/
def retained (t : SketchHashTable E) : Multiset E := t.iterEntries

/-- The retained hashes. -/
def hashes (t : SketchHashTable E) : Finset ℕ := (t.iterEntries.map SketchEntry.hash).toFinset

theorem Placed.nodup_hashes {t : SketchHashTable E} (h : Placed t) :
    (t.iterEntries.map SketchEntry.hash).Nodup := h.valid.nodup_keys

namespace Stored

variable {t : SketchHashTable E} (h : Stored t)
include h

theorem placed : Placed t := ⟨h.length_eq, h.valid, h.numRetained_eq, h.below⟩

theorem length_pos : 0 < t.entries.length := h.length_eq ▸ Nat.two_pow_pos _

theorem nodup_hashes : (t.iterEntries.map SketchEntry.hash).Nodup := h.valid.nodup_keys

theorem card_hashes : t.hashes.card = t.numRetained := by
  rw [hashes, List.toFinset_card_of_nodup h.nodup_hashes, List.length_map, h.numRetained_eq]

theorem card_retained : Multiset.card t.retained = t.numRetained := h.numRetained_eq.symm

theorem mem_hashes_below {x : ℕ} (hx : x ∈ t.hashes) : 0 < x ∧ x < t.theta := by
  obtain ⟨e, he, rfl⟩ := List.mem_map.mp (List.mem_toFinset.mp hx)
  exact h.below e he

end Stored

theorem mem_hashes {t : SketchHashTable E} {x : ℕ} :
    x ∈ t.hashes ↔ ∃ e ∈ t.retained, SketchEntry.hash e = x := by
  rw [hashes, List.mem_toFinset, List.mem_map]
  exact Iff.rfl

/-- A table of full size keeps its size and its threshold. -/
theorem capacityThreshold_eq {t t' : SketchHashTable E} (h : Inv t) (h' : Inv t')
    (hcfg : SameConfig t t') (hfull : t.lgNomSize < t.lgCurSize) :
    t'.capacityThreshold = t.capacityThreshold := by
  have hsize : t'.lgCurSize = t.lgCurSize := by
    have hle := h'.lgCurSize_le
    rw [h'.lgMaxSize_eq, hcfg.lgNomSize_eq] at hle
    exact le_antisymm (hle.trans hfull) hcfg.lgCurSize_le
  have hfull' : t'.lgNomSize < t'.lgCurSize := by
    rw [hcfg.lgNomSize_eq, hsize]
    exact hfull
  rw [capacityThreshold_of_gt hfull, capacityThreshold_of_gt hfull', h'.length_eq, h.length_eq,
    hsize]

/-- The hashes depend on the retained entries only. -/
theorem hashes_eq (t : SketchHashTable E) :
    t.hashes = (t.retained.map SketchEntry.hash).toFinset := rfl

/-! ## Resizing and rebuilding -/

/-- Resizing keeps the entries and restores the load threshold. -/
theorem resize_spec {t : SketchHashTable E} (h : Stored t) (hle : t.lgCurSize ≤ t.lgNomSize)
    (hnum : t.numRetained ≤ t.entries.length / 2 + 1) :
    ∃ t', t.resize = .ok t' ∧ Inv t' ∧ SameConfig t t' ∧ t'.isEmpty = t.isEmpty ∧
      t'.theta = t.theta ∧ t'.retained = t.retained := by
  obtain ⟨lg, hlg⟩ : ∃ lg, lg = min (t.lgCurSize + t.resizeFactor.lgValue) t.lgMaxSize := ⟨_, rfl⟩
  have hgrow := h.grows hle
  have hmax := h.lgMaxSize_eq
  have hlt : t.lgCurSize < lg := by omega
  have hpow : 2 * 2 ^ t.lgCurSize ≤ 2 ^ lg := by
    rw [← Nat.pow_succ']
    exact Nat.pow_le_pow_right two_pos hlt
  have htwo : 2 ≤ 2 ^ t.lgCurSize := Nat.le_self_pow (by have := h.one_le_lgCurSize; omega) 2
  rw [h.length_eq] at hnum
  obtain ⟨slots, hre, hv, hl, hc⟩ := reinsert_spec h.nodup_hashes
    (show t.iterEntries.length ≤ 2 ^ lg by rw [← h.numRetained_eq]; omega)
  refine ⟨{ t with entries := slots, lgCurSize := lg }, ?_, ⟨⟨hl, ?_, hmax, ?_, ?_, hv, ?_, ?_⟩, ?_⟩,
    ⟨rfl, rfl, rfl, rfl, hlt.le⟩, rfl, rfl, Multiset.coe_eq_coe.mpr hc⟩
  · rw [resize, ← hlg, hre]
    rfl
  · exact (Nat.zero_lt_of_lt hlt)
  · change lg ≤ t.lgMaxSize
    omega
  · exact fun _ ↦ hgrow
  · exact h.numRetained_eq.trans hc.length_eq.symm
  · exact fun e he ↦ h.below e (hc.mem_iff.mp he)
  · rcases le_or_gt lg t.lgNomSize with hle' | hgt'
    · rw [capacityThreshold_of_le hle']
      change t.numRetained ≤ slots.length / 2
      omega
    · rw [capacityThreshold_of_gt hgt']
      change t.numRetained ≤ 15 * slots.length / 16
      omega

/-- Selecting position `k` finds the hash of rank `k` and the entries below it. -/
theorem selectNthByHash_spec {k : ℕ} {es : List E} (hnd : (es.map SketchEntry.hash).Nodup)
    (hk : k < es.length) :
    ∃ retained kth, selectNthByHash k es = .ok (retained, kth) ∧ retained.length = k ∧
      retained.Perm (es.filter (SketchEntry.hash · < SketchEntry.hash kth)) ∧
      IsRank (es.map SketchEntry.hash).toFinset k (SketchEntry.hash kth) := by
  obtain ⟨sorted, hsorted⟩ : ∃ sorted, sorted = es.mergeSort
    (fun a b ↦ SketchEntry.hash a ≤ SketchEntry.hash b) := ⟨_, rfl⟩
  have hperm : sorted.Perm es := hsorted ▸ List.mergeSort_perm _ _
  have hlen : k < sorted.length := by rwa [hperm.length_eq]
  have hpw : sorted.Pairwise (SketchEntry.hash · < SketchEntry.hash ·) :=
    hsorted ▸ pairwise_mergeSort_key hnd
  have hfilter := filter_key_lt_getElem hpw hlen
  have htake : (sorted.take k).length = k := by rw [List.length_take, min_eq_left hlen.le]
  have hbelow : (sorted.take k).Perm
      (es.filter (SketchEntry.hash · < SketchEntry.hash sorted[k])) := hfilter ▸ hperm.filter _
  refine ⟨sorted.take k, sorted[k], ?_, htake, hbelow, ?_, ?_⟩
  · simp only [selectNthByHash, ← hsorted, List.getElem?_eq_getElem hlen]
  · exact List.mem_toFinset.mpr
      (List.mem_map_of_mem (hperm.mem_iff.mp (List.getElem_mem hlen)))
  · have hsplit : (es.map SketchEntry.hash).toFinset.filter (· < SketchEntry.hash sorted[k]) =
        ((sorted.take k).map SketchEntry.hash).toFinset := by
      ext x
      simp only [Finset.mem_filter, List.mem_toFinset, List.mem_map, hbelow.mem_iff,
        List.mem_filter, decide_eq_true_eq]
      constructor
      · rintro ⟨⟨e, he, rfl⟩, hlt⟩
        exact ⟨e, ⟨he, hlt⟩, rfl⟩
      · rintro ⟨e, ⟨he, hlt⟩, rfl⟩
        exact ⟨⟨e, he, rfl⟩, hlt⟩
    rw [hsplit, List.toFinset_card_of_nodup, List.length_map, htake]
    exact ((hperm.map SketchEntry.hash).nodup_iff.mpr hnd).sublist
      ((List.take_sublist _ _).map _)

/-- Rebuilding a table of more than `k` entries keeps the `k` smallest and lowers theta
to the next hash. -/
theorem Placed.rebuild {t : SketchHashTable E} (h : Placed t) (hfull : t.lgNomSize < t.lgCurSize)
    (hnum : 2 ^ t.lgNomSize < t.numRetained) :
    ∃ slots kth, t.rebuild = .ok
        { t with theta := kth, entries := slots, numRetained := 2 ^ t.lgNomSize } ∧
      Placed { t with theta := kth, entries := slots, numRetained := 2 ^ t.lgNomSize } ∧
      2 ^ t.lgNomSize ≤ capacityThreshold
        { t with theta := kth, entries := slots, numRetained := 2 ^ t.lgNomSize } ∧
      IsRank t.hashes (2 ^ t.lgNomSize) kth ∧
      (contents slots : Multiset E) = t.retained.filter (SketchEntry.hash · < kth) := by
  obtain ⟨k, hk⟩ : ∃ k, k = 2 ^ t.lgNomSize := ⟨_, rfl⟩
  obtain ⟨es, kth, hsel, hlen, hbelow, hrank⟩ := selectNthByHash_spec h.nodup_hashes
    (show k < t.iterEntries.length by rw [← h.numRetained_eq, hk]; exact hnum)
  have hsize : 2 * k ≤ 2 ^ t.lgCurSize := by
    rw [hk, ← Nat.pow_succ']
    exact Nat.pow_le_pow_right two_pos hfull
  have hnd : (es.map SketchEntry.hash).Nodup :=
    (hbelow.map SketchEntry.hash).nodup_iff.mpr
      (h.nodup_hashes.sublist (List.filter_sublist.map _))
  obtain ⟨slots, hre, hv, hl, hc⟩ := reinsert_spec hnd
    (show es.length ≤ 2 ^ t.lgCurSize by omega)
  have hret : (contents slots : Multiset E) =
      t.retained.filter (SketchEntry.hash · < SketchEntry.hash kth) := by
    rw [Multiset.coe_eq_coe.mpr (hc.trans hbelow), retained, Multiset.filter_coe]
  refine ⟨slots, SketchEntry.hash kth, ?_, ⟨hl, hv, ?_, ?_⟩, ?_, hk ▸ hrank, hret⟩
  · simp only [SketchHashTable.rebuild, Nat.one_shiftLeft, ← hk, hsel, ok_bind, hlen, assert_pos,
      pure_eq_ok]
    rw [← Nat.one_shiftLeft, hre]
    rfl
  · exact hk.symm.trans (hlen.symm.trans hc.length_eq.symm)
  · intro e he
    obtain ⟨hmem, hlt⟩ := List.mem_filter.mp ((hc.trans hbelow).mem_iff.mp he)
    exact ⟨(h.below e hmem).1, of_decide_eq_true hlt⟩
  · rw [capacityThreshold_of_gt (by exact hfull)]
    change 2 ^ t.lgNomSize ≤ 15 * slots.length / 16
    have hkpos : 0 < k := hk ▸ Nat.two_pow_pos _
    rw [hl, ← hk]
    omega

/-- Rebuilding at full size restores the invariant. -/
theorem rebuild_spec {t : SketchHashTable E} (h : Stored t) (hfull : t.lgCurSize = t.lgMaxSize)
    (hnum : 2 ^ t.lgNomSize < t.numRetained) :
    ∃ t', t.rebuild = .ok t' ∧ Inv t' ∧ SameConfig t t' ∧ t'.isEmpty = t.isEmpty ∧
      IsRank t.hashes (2 ^ t.lgNomSize) t'.theta ∧
      t'.retained = t.retained.filter (SketchEntry.hash · < t'.theta) ∧
      t'.numRetained = 2 ^ t.lgNomSize := by
  have hlt : t.lgNomSize < t.lgCurSize := by
    rw [hfull, h.lgMaxSize_eq]
    exact Nat.lt_succ_self _
  obtain ⟨slots, kth, hok, hplaced, hcap, hrank, hret⟩ := h.placed.rebuild hlt hnum
  exact ⟨_, hok, ⟨⟨hplaced.length_eq, h.one_le_lgCurSize, h.lgMaxSize_eq, h.lgCurSize_le, h.grows,
    hplaced.valid, hplaced.numRetained_eq, hplaced.below⟩, hcap⟩, ⟨rfl, rfl, rfl, rfl, le_refl _⟩, rfl,
    hrank, hret, rfl⟩

/-! ## Searching -/

/-- While a slot is free, the search for any key ends at the slot holding it or at a free slot. -/
theorem Placed.findInCurrEntries_spec {t : SketchHashTable E} (h : Placed t)
    (hroom : t.numRetained < t.entries.length) (key : ℕ) :
    ∃ i < t.entries.length, t.findInCurrEntries key = some i ∧
      ((get t.entries i = none ∧ ∀ e ∈ t.iterEntries, SketchEntry.hash e ≠ key) ∨
        ∃ e, get t.entries i = some e ∧ SketchEntry.hash e = key) := by
  rw [findInCurrEntries, findInEntries_eq h.length_eq]
  exact find_spec h.valid (by rw [h.length_eq]; exact covers_probeOrder _) (h.numRetained_eq ▸ hroom)

namespace Inv

variable {t : SketchHashTable E} (h : Inv t)
include h

theorem numRetained_lt : t.numRetained < t.entries.length :=
  h.numRetained_le.trans_lt (capacityThreshold_lt h.length_pos)

/-- The search for any key ends at the slot holding it or at a free slot. -/
theorem findInCurrEntries_spec (key : ℕ) :
    ∃ i < t.entries.length, t.findInCurrEntries key = some i ∧
      ((get t.entries i = none ∧ ∀ e ∈ t.iterEntries, SketchEntry.hash e ≠ key) ∨
        ∃ e, get t.entries i = some e ∧ SketchEntry.hash e = key) :=
  h.placed.findInCurrEntries_spec h.numRetained_lt key

/-- Looking a hash up finds the retained entry with that hash. -/
theorem entry_eq_some_iff {x : ℕ} {e : E} :
    t.entry x = some e ↔ e ∈ t.retained ∧ SketchEntry.hash e = x := by
  obtain ⟨i, hil, hi, hcase⟩ := h.findInCurrEntries_spec x
  simp only [entry, hi]
  constructor
  · intro he
    split_ifs at he with hx
    rcases hcase with ⟨hnone, -⟩ | ⟨e', he', hk⟩
    · simp [hnone] at he
    · rw [he'] at he
      simp only [hk, if_true, Option.some.injEq] at he
      exact he ▸ ⟨mem_contents_iff.mpr ⟨i, he'⟩, hk⟩
  · rintro ⟨hmem, rfl⟩
    have hpos : SketchEntry.hash e ≠ 0 := (h.below e hmem).1.ne'
    rcases hcase with ⟨-, habs⟩ | ⟨e', he', hk⟩
    · exact absurd rfl (habs e hmem)
    · obtain ⟨j, hj⟩ := mem_contents_iff.mp hmem
      obtain rfl := h.valid.unique he' hj hk
      rw [hj] at he'
      cases he'
      simp [hpos, hj]

/-- A hash is not found exactly when it is not retained. -/
theorem entry_eq_none_iff {x : ℕ} : t.entry x = none ↔ x ∉ t.hashes := by
  rw [mem_hashes, Option.eq_none_iff_forall_ne_some]
  constructor
  · rintro hnone ⟨e, he⟩
    exact hnone e (h.entry_eq_some_iff.mpr he)
  · exact fun hx e he ↦ hx ⟨e, h.entry_eq_some_iff.mp he⟩

end Inv

/-! ## Inserting and updating -/

/-- What an insertion or update did to the retained entries and to theta. -/
inductive UpsertOutcome (t : SketchHashTable E) (hash : ℕ) (onExisting : E → E)
    (onNew : Option E) (t' : SketchHashTable E) : Bool → Prop
  /-- The hash was zero or not below theta. -/
  | screened (h : hash = 0 ∨ t.theta ≤ hash) (hret : t'.retained = t.retained)
      (htheta : t'.theta = t.theta) : UpsertOutcome t hash onExisting onNew t' false
  /-- The entry with this hash was changed in place. -/
  | existing (e : E) (h : 0 < hash ∧ hash < t.theta) (hmem : e ∈ t.retained)
      (hkey : SketchEntry.hash e = hash) (hret : e ::ₘ t'.retained = onExisting e ::ₘ t.retained)
      (htheta : t'.theta = t.theta) : UpsertOutcome t hash onExisting onNew t' false
  /-- The hash was new and the callback declined. -/
  | declined (h : 0 < hash ∧ hash < t.theta) (hnew : hash ∉ t.hashes) (hnone : onNew = none)
      (hret : t'.retained = t.retained) (htheta : t'.theta = t.theta) :
      UpsertOutcome t hash onExisting onNew t' false
  /-- A new entry was added. -/
  | inserted (e : E) (h : 0 < hash ∧ hash < t.theta) (hnew : hash ∉ t.hashes)
      (hsome : onNew = some e) (hret : t'.retained = e ::ₘ t.retained)
      (htheta : t'.theta = t.theta) : UpsertOutcome t hash onExisting onNew t' true
  /-- A new entry was added, and the table was cut to its `k` smallest entries. -/
  | rebuilt (e : E) (h : 0 < hash ∧ hash < t.theta) (hnew : hash ∉ t.hashes)
      (hsome : onNew = some e)
      (hret : t'.retained = (e ::ₘ t.retained).filter (SketchEntry.hash · < t'.theta))
      (hrank : IsRank (insert hash t.hashes) (2 ^ t.lgNomSize) t'.theta)
      (hfull : t.capacityThreshold ≤ t.numRetained) (hmax : t.lgNomSize < t.lgCurSize) :
      UpsertOutcome t hash onExisting onNew t' true

/-- The table just after a new entry was stored in slot `i`, before its load is checked. -/
def storeAt (t : SketchHashTable E) (i : ℕ) (e : E) : SketchHashTable E :=
  { t with
    isEmpty := false
    entries := t.entries.set i (some e)
    numRetained := t.numRetained + 1 }

/-- The load check that ends an insertion. -/
def checkLoad (t : SketchHashTable E) : Checked (SketchHashTable E) :=
  if t.numRetained > t.capacityThreshold then
    if t.lgCurSize ≤ t.lgNomSize then t.resize else t.rebuild
  else .ok t

/-- A new entry in the free slot that the search for it found. -/
theorem Placed.storeAt {t : SketchHashTable E} (h : Placed t) {e : E} {i : ℕ}
    (hi : t.findInCurrEntries (SketchEntry.hash e) = some i) (hil : i < t.entries.length)
    (hfree : get t.entries i = none)
    (hrange : 0 < SketchEntry.hash e ∧ SketchEntry.hash e < t.theta) : Placed (t.storeAt i e) := by
  have hperm := contents_set_free hil hfree e
  refine ⟨?_, h.valid.set ?_ hil, ?_, fun e' he' ↦ ?_⟩
  · rw [SketchHashTable.storeAt, List.length_set, h.length_eq]
  · rw [← findInEntries_eq h.length_eq]
    exact hi
  · change t.numRetained + 1 = (contents (t.entries.set i (some e))).length
    rw [hperm.length_eq, List.length_cons, h.numRetained_eq]
    rfl
  · rcases List.mem_cons.mp (hperm.mem_iff.mp he') with rfl | he'
    · exact hrange
    · exact h.below e' he'

section Insert

variable {t : SketchHashTable E} (h : Inv t) {e : E} {i : ℕ}
  (hi : t.findInCurrEntries (SketchEntry.hash e) = some i) (hil : i < t.entries.length)
  (hfree : get t.entries i = none)
  (hrange : 0 < SketchEntry.hash e ∧ SketchEntry.hash e < t.theta)
include h hi hil hfree hrange

theorem stored_storeAt : Stored (t.storeAt i e) := by
  have hplaced := h.placed.storeAt hi hil hfree hrange
  exact ⟨hplaced.length_eq, h.one_le_lgCurSize, h.lgMaxSize_eq, h.lgCurSize_le, h.grows,
    hplaced.valid, hplaced.numRetained_eq, hplaced.below⟩

omit [SketchEntry E] h hi hrange in
theorem retained_storeAt : (t.storeAt i e).retained = e ::ₘ t.retained :=
  Multiset.coe_eq_coe.mpr (contents_set_free hil hfree e)

omit h hi hrange in
theorem hashes_storeAt : (t.storeAt i e).hashes = insert (SketchEntry.hash e) t.hashes := by
  rw [hashes_eq, retained_storeAt hil hfree, Multiset.map_cons, Multiset.toFinset_cons, hashes_eq]

omit [SketchEntry E] h hi hil hfree hrange in
theorem capacityThreshold_storeAt : (t.storeAt i e).capacityThreshold = t.capacityThreshold := by
  unfold capacityThreshold storeAt
  rw [List.length_set]

/-- After storing a new entry the load check succeeds, and either keeps all entries or cuts
them to the `k` smallest. -/
theorem checkLoad_storeAt (onExisting : E → E) (hnotin : SketchEntry.hash e ∉ t.hashes) :
    ∃ t', (t.storeAt i e).checkLoad = .ok t' ∧ Inv t' ∧ SameConfig t t' ∧ t'.isEmpty = false ∧
      UpsertOutcome t (SketchEntry.hash e) onExisting (some e) t' true := by
  have hst := stored_storeAt h hi hil hfree hrange
  have hret := retained_storeAt hil hfree (e := e)
  have hcfg : SameConfig t (t.storeAt i e) := ⟨rfl, rfl, rfl, rfl, le_refl _⟩
  have hcap : (t.storeAt i e).capacityThreshold = t.capacityThreshold := capacityThreshold_storeAt
  by_cases hover : (t.storeAt i e).numRetained > (t.storeAt i e).capacityThreshold
  · rw [checkLoad, if_pos hover]
    have hover' : t.numRetained + 1 > t.capacityThreshold := hcap ▸ hover
    by_cases hle : (t.storeAt i e).lgCurSize ≤ (t.storeAt i e).lgNomSize
    · have hthr : t.numRetained ≤ t.entries.length / 2 := by
        have hcapt := capacityThreshold_of_le (t := t) hle
        rw [← hcapt]
        exact h.numRetained_le
      obtain ⟨t', hrs, hinv, hcfg', hempty, htheta, hret'⟩ := resize_spec hst hle
        (by simpa [storeAt] using hthr)
      exact ⟨t', by rw [if_pos hle, hrs], hinv, hcfg.trans hcfg', hempty,
        .inserted e hrange hnotin rfl (hret'.trans hret) htheta⟩
    · have hfull : (t.storeAt i e).lgCurSize = (t.storeAt i e).lgMaxSize := by
        have := hst.lgMaxSize_eq
        have := hst.lgCurSize_le
        omega
      have hnum : 2 ^ (t.storeAt i e).lgNomSize < (t.storeAt i e).numRetained := by
        rw [capacityThreshold_of_gt (not_le.mp hle), hst.length_eq, hfull, hst.lgMaxSize_eq,
          pow_succ] at hover
        have := Nat.two_pow_pos (t.storeAt i e).lgNomSize
        omega
      obtain ⟨t', hrb, hinv, hcfg', hempty, hrank, hret', -⟩ := rebuild_spec hst hfull hnum
      exact ⟨t', by rw [if_neg hle, hrb], hinv, hcfg.trans hcfg', hempty,
        .rebuilt e hrange hnotin rfl (by rw [hret', hret])
          (by rw [← hashes_storeAt hil hfree]; exact hrank) (by omega) (not_le.mp hle)⟩
  · exact ⟨t.storeAt i e, by rw [checkLoad, if_neg hover], ⟨hst, not_lt.mp hover⟩, hcfg, rfl,
      .inserted e hrange hnotin rfl hret rfl⟩

end Insert

/-- Marking a table as used changes nothing else. -/
theorem Inv.setUsed {t : SketchHashTable E} (h : Inv t) (b : Bool) :
    Inv { t with isEmpty := b } :=
  ⟨⟨h.1.1, h.1.2, h.1.3, h.1.4, h.1.5, h.1.6, h.1.7, h.1.8⟩, h.2⟩

/-- Changing an entry in place, as long as its hash is kept. -/
theorem Placed.replace {t : SketchHashTable E} (h : Placed t) {e e' : E} {i : ℕ}
    (hocc : get t.entries i = some e) (hkey : SketchEntry.hash e' = SketchEntry.hash e) :
    Placed { t with entries := t.entries.set i (some e') } := by
  have hperm := contents_set_occupied hocc e'
  have hmem : e ∈ t.iterEntries := mem_contents_iff.mpr ⟨i, hocc⟩
  refine ⟨by rw [List.length_set, h.length_eq], h.valid.set ?_ (lt_length_of_get hocc), ?_,
    fun e₁ he₁ ↦ ?_⟩
  · rw [hkey]
    exact h.valid.reach i e hocc
  · exact h.numRetained_eq.trans (Nat.succ_injective hperm.length_eq).symm
  · rcases List.mem_cons.mp (hperm.mem_iff.mp (List.mem_cons_of_mem e he₁)) with rfl | he₁
    · rw [hkey]
      exact h.below e hmem
    · exact h.below e₁ he₁

/-- Changing an entry in place keeps the invariant, as long as its hash is kept. -/
theorem Inv.replace {t : SketchHashTable E} (h : Inv t) {e e' : E} {i : ℕ}
    (hocc : get t.entries i = some e) (hkey : SketchEntry.hash e' = SketchEntry.hash e) :
    Inv { t with entries := t.entries.set i (some e') } := by
  have hplaced := h.placed.replace hocc hkey
  refine ⟨⟨hplaced.length_eq, h.one_le_lgCurSize, h.lgMaxSize_eq, h.lgCurSize_le, h.grows,
    hplaced.valid, hplaced.numRetained_eq, hplaced.below⟩, ?_⟩
  have hcap := h.numRetained_le
  rw [capacityThreshold] at hcap ⊢
  rw [List.length_set]
  exact hcap

section Equations

variable {t : SketchHashTable E} {hash i : ℕ} {onExisting : E → E} {onNew : Option E}

theorem upsertEntry_of_screened (h : hash = 0 ∨ hash ≥ t.theta) :
    t.upsertEntry hash onExisting onNew = .ok ({ t with isEmpty := false }, false) := by
  simp [upsertEntry, h]

theorem upsertEntry_of_existing (h : ¬ (hash = 0 ∨ hash ≥ t.theta))
    (hi : t.findInCurrEntries hash = some i) {e : E} (hocc : get t.entries i = some e) :
    t.upsertEntry hash onExisting onNew =
      .ok ({ t with isEmpty := false, entries := t.entries.set i (some (onExisting e)) }, false) := by
  have hfind : findInCurrEntries { t with isEmpty := false } hash = some i := hi
  simp [upsertEntry, h, hfind, hocc]

theorem upsertEntry_of_declined (h : ¬ (hash = 0 ∨ hash ≥ t.theta))
    (hi : t.findInCurrEntries hash = some i) (hfree : get t.entries i = none) :
    t.upsertEntry hash onExisting none = .ok ({ t with isEmpty := false }, false) := by
  have hfind : findInCurrEntries { t with isEmpty := false } hash = some i := hi
  simp [upsertEntry, h, hfind, hfree]

/-- A new entry is stored, then the load is checked. -/
theorem upsertEntry_of_new {e : E} (h : ¬ (SketchEntry.hash e = 0 ∨ SketchEntry.hash e ≥ t.theta))
    (hi : t.findInCurrEntries (SketchEntry.hash e) = some i) (hfree : get t.entries i = none) :
    t.upsertEntry (SketchEntry.hash e) onExisting (some e) =
      (·, true) <$> (t.storeAt i e).checkLoad := by
  have hfind : findInCurrEntries { t with isEmpty := false } (SketchEntry.hash e) = some i := hi
  rw [checkLoad, apply_ite (Functor.map _), apply_ite (Functor.map _)]
  simp only [upsertEntry, h, if_false, hfind, hfree, assert_pos, ok_bind, pure_eq_ok]
  rfl

end Equations

/-- An insertion or update succeeds, keeps the invariant and the settings, marks the table
as used, and has one of the outcomes of `UpsertOutcome`. -/
theorem upsertEntry_spec {t : SketchHashTable E} (h : Inv t) (hash : ℕ) (onExisting : E → E)
    (onNew : Option E) (hex : ∀ e, SketchEntry.hash (onExisting e) = SketchEntry.hash e)
    (hnew : ∀ e, onNew = some e → SketchEntry.hash e = hash) :
    ∃ t' b, t.upsertEntry hash onExisting onNew = .ok (t', b) ∧ Inv t' ∧ SameConfig t t' ∧
      t'.isEmpty = false ∧ UpsertOutcome t hash onExisting onNew t' b := by
  have hused := h.setUsed false
  by_cases hscreen : hash = 0 ∨ hash ≥ t.theta
  · exact ⟨_, false, upsertEntry_of_screened hscreen, hused, ⟨rfl, rfl, rfl, rfl, le_refl _⟩, rfl,
      .screened hscreen rfl rfl⟩
  obtain ⟨i, hil, hi, hcase⟩ := h.findInCurrEntries_spec hash
  have hrange : 0 < hash ∧ hash < t.theta := by omega
  rcases hcase with ⟨hfree, habs⟩ | ⟨e, hocc, hkey⟩
  · have hnotin : hash ∉ t.hashes := fun hmem ↦ by
      obtain ⟨e, he, hk⟩ := mem_hashes.mp hmem
      exact habs e he hk
    cases honNew : onNew with
    | none =>
        exact ⟨_, false, upsertEntry_of_declined hscreen hi hfree, hused,
          ⟨rfl, rfl, rfl, rfl, le_refl _⟩, rfl, .declined hrange hnotin rfl rfl rfl⟩
    | some e =>
        obtain rfl := hnew e honNew
        obtain ⟨t', hload, hinv, hcfg, hempty, hout⟩ :=
          checkLoad_storeAt h hi hil hfree hrange onExisting hnotin
        refine ⟨t', true, ?_, hinv, hcfg, hempty, hout⟩
        rw [upsertEntry_of_new hscreen hi hfree, hload]
        rfl
  · exact ⟨_, false, upsertEntry_of_existing hscreen hi hocc,
      hused.replace hocc (hex e), ⟨rfl, rfl, rfl, rfl, le_refl _⟩, rfl,
      .existing e hrange (mem_contents_iff.mpr ⟨i, hocc⟩) hkey
        (Multiset.coe_eq_coe.mpr (contents_set_occupied hocc (onExisting e))) rfl⟩

/-! ## Trimming, creating and resetting -/

/-- Trimming leaves a table of at most `k` entries as it is and rebuilds a larger one. -/
theorem trim_spec {t : SketchHashTable E} (h : Inv t) :
    ∃ t', t.trim = .ok t' ∧ Inv t' ∧ SameConfig t t' ∧ t'.isEmpty = t.isEmpty ∧
      t'.numRetained ≤ 2 ^ t.lgNomSize ∧
      ((t.numRetained ≤ 2 ^ t.lgNomSize ∧ t' = t) ∨
        (2 ^ t.lgNomSize < t.numRetained ∧ IsRank t.hashes (2 ^ t.lgNomSize) t'.theta ∧
          t'.retained = t.retained.filter (SketchEntry.hash · < t'.theta))) := by
  rw [trim, Nat.one_shiftLeft]
  by_cases hnum : t.numRetained > 2 ^ t.lgNomSize
  · have hfull : t.lgCurSize = t.lgMaxSize := by
      by_contra hne
      have hle : t.lgCurSize ≤ t.lgNomSize := by
        have := h.lgMaxSize_eq
        have := h.lgCurSize_le
        omega
      have hthr := h.numRetained_le
      have hpow : 2 ^ t.lgCurSize ≤ 2 ^ t.lgNomSize := Nat.pow_le_pow_right two_pos hle
      rw [capacityThreshold_of_le hle, h.length_eq] at hthr
      omega
    obtain ⟨t', hrb, hinv, hcfg, hempty, hrank, hret, hcard⟩ := rebuild_spec h.toStored hfull hnum
    exact ⟨t', by rw [if_pos hnum, hrb], hinv, hcfg, hempty, hcard.le, .inr ⟨hnum, hrank, hret⟩⟩
  · exact ⟨t, if_neg hnum, h, SameConfig.refl t, rfl, not_lt.mp hnum, .inl ⟨not_lt.mp hnum, rfl⟩⟩

/-- A table without entries satisfies the invariant. -/
theorem inv_of_no_entries {t : SketchHashTable E}
    (hentries : t.entries = List.replicate (2 ^ t.lgCurSize) none) (hnum : t.numRetained = 0)
    (hpos : 1 ≤ t.lgCurSize) (hmax : t.lgMaxSize = t.lgNomSize + 1) (hle : t.lgCurSize ≤ t.lgMaxSize)
    (hgrows : t.lgCurSize ≤ t.lgNomSize → 1 ≤ t.resizeFactor.lgValue) : Inv t where
  length_eq := by rw [hentries, List.length_replicate]
  one_le_lgCurSize := hpos
  lgMaxSize_eq := hmax
  lgCurSize_le := hle
  grows := hgrows
  valid := hentries ▸ valid_replicate_none _
  numRetained_eq := by rw [hnum, iterEntries, hentries, contents_replicate_none]; rfl
  below := fun e he ↦ by simp [iterEntries, hentries] at he
  numRetained_le := hnum ▸ Nat.zero_le _

/-- The size a table starts with is reached from below by whole resizes. -/
theorem startingSubMultiple_spec {lgNomSize : ℕ} (h : minLgK ≤ lgNomSize + 1) (rf : ResizeFactor) :
    1 ≤ startingSubMultiple (lgNomSize + 1) minLgK rf.lgValue ∧
      startingSubMultiple (lgNomSize + 1) minLgK rf.lgValue ≤ lgNomSize + 1 ∧
      (startingSubMultiple (lgNomSize + 1) minLgK rf.lgValue ≤ lgNomSize → 1 ≤ rf.lgValue) := by
  have hmod := Nat.mod_le (lgNomSize + 1 - minLgK) rf.lgValue
  have hmin : minLgK = 5 := rfl
  unfold startingSubMultiple
  split_ifs with h₁ h₂
  · refine ⟨by omega, h, fun hle ↦ ?_⟩
    omega
  · exact ⟨by omega, le_refl _, fun hle ↦ by omega⟩
  · exact ⟨by omega, by omega, fun _ ↦ Nat.pos_of_ne_zero h₂⟩

/-- A new table is empty and satisfies the invariant. -/
theorem new_spec {lgNomSize : ℕ} (h : minLgK ≤ lgNomSize + 1) (rf : ResizeFactor) (p : ℚ)
    (seed : UInt64) :
    ∃ t : SketchHashTable E, SketchHashTable.new lgNomSize rf p seed = .ok t ∧ Inv t ∧
      t.iterEntries = [] ∧ t.theta = startingThetaFromSamplingProbability p ∧
      t.lgNomSize = lgNomSize ∧ t.resizeFactor = rf ∧ t.samplingProbability = p ∧ t.seed = seed ∧
      t.isEmpty = true := by
  obtain ⟨hpos, hle, hgrows⟩ := startingSubMultiple_spec h rf
  refine ⟨_, ?_, inv_of_no_entries (t := {
    lgCurSize := startingSubMultiple (lgNomSize + 1) minLgK rf.lgValue
    lgNomSize := lgNomSize
    lgMaxSize := lgNomSize + 1
    resizeFactor := rf
    samplingProbability := p
    seed := seed
    isEmpty := true
    theta := startingThetaFromSamplingProbability p
    entries := List.replicate (2 ^ startingSubMultiple (lgNomSize + 1) minLgK rf.lgValue) none
    numRetained := 0 }) rfl rfl hpos rfl hle hgrows, by simp [iterEntries], rfl, rfl, rfl, rfl, rfl,
    rfl⟩
  simp only [SketchHashTable.new, fromRawParts, assert_pos hle, ok_bind, pure_eq_ok, Nat.one_shiftLeft]
  rw [if_pos (show startingSubMultiple (lgNomSize + 1) minLgK rf.lgValue > 0 from hpos)]

theorem startingTheta_le (p : ℚ) : startingThetaFromSamplingProbability p ≤ maxTheta := by
  unfold startingThetaFromSamplingProbability
  split_ifs with hp
  · have hlt : ⌊2 ^ 63 * p⌋₊ < 2 ^ 63 := by
      rw [Nat.floor_lt' (by norm_num)]
      push_cast
      exact mul_lt_of_lt_one_right (by norm_num) hp
    exact Nat.le_sub_one_of_lt hlt
  · exact le_refl _

omit [SketchEntry E] in
/-- Resetting a table leaves what creating it anew with the same settings gives. -/
theorem new_eq_reset {t : SketchHashTable E} (hmax : t.lgMaxSize = t.lgNomSize + 1)
    (hmin : minLgK ≤ t.lgNomSize + 1) :
    SketchHashTable.new t.lgNomSize t.resizeFactor t.samplingProbability t.seed = .ok t.reset := by
  obtain ⟨hpos, hle, -⟩ := startingSubMultiple_spec hmin t.resizeFactor
  simp only [SketchHashTable.new, fromRawParts, assert_pos hle, ok_bind, pure_eq_ok]
  rw [if_pos (show startingSubMultiple (t.lgNomSize + 1) minLgK t.resizeFactor.lgValue > 0 from hpos),
    reset]
  congr 2
  exact hmax.symm

/-! ## The table as a sample of the hashes fed to it -/

/-- The table holds the sample of the hash set `s`, with the thresholds starting at `top`. -/
abbrev Samples (t : SketchHashTable E) (top : ℕ) (s : Finset ℕ) : Prop :=
  KMin (2 ^ t.lgNomSize) top s t.theta t.hashes

theorem hashes_filter {t t' : SketchHashTable E}
    (h : t'.retained = t.retained.filter (SketchEntry.hash · < t'.theta)) :
    t'.hashes = t.hashes.filter (· < t'.theta) := by
  ext x
  simp only [mem_hashes, h, Multiset.mem_filter, Finset.mem_filter]
  constructor
  · rintro ⟨e, ⟨he, hlt⟩, rfl⟩
    exact ⟨⟨e, he, rfl⟩, hlt⟩
  · rintro ⟨⟨e, he, rfl⟩, hlt⟩
    exact ⟨e, ⟨he, hlt⟩, rfl⟩

/-- No insertion or update raises theta. -/
theorem UpsertOutcome.theta_le {t t' : SketchHashTable E} {hash : ℕ} {onExisting : E → E}
    {onNew : Option E} {b : Bool} (hout : UpsertOutcome t hash onExisting onNew t' b)
    (hinv : Stored t) : t'.theta ≤ t.theta := by
  cases hout with
  | screened _ _ htheta => exact htheta.le
  | existing _ _ _ _ _ htheta => exact htheta.le
  | declined _ _ _ _ htheta => exact htheta.le
  | inserted _ _ _ _ _ htheta => exact htheta.le
  | rebuilt e hrange _ hsome _ hrank _ _ =>
      rcases Finset.mem_insert.mp hrank.mem with heq | hmem
      · rw [heq]
        exact hrange.2.le
      · exact (hinv.mem_hashes_below hmem).2.le

/-- An insertion that does not decline adds the hash to the sampled set. -/
theorem UpsertOutcome.samples {t t' : SketchHashTable E} {hash : ℕ} {onExisting : E → E}
    {e : E} {b : Bool} (hout : UpsertOutcome t hash onExisting (some e) t' b)
    (hcfg : SameConfig t t') (hex : ∀ e, SketchEntry.hash (onExisting e) = SketchEntry.hash e)
    (hkey : SketchEntry.hash e = hash) (hpos : hash ≠ 0) {top : ℕ} {s : Finset ℕ}
    (hs : Samples t top s) : Samples t' top (insert hash s) := by
  unfold Samples
  rw [hcfg.lgNomSize_eq]
  cases hout with
  | screened h hret htheta =>
      rw [hashes_eq t', hret, htheta]
      exact hs.insert_of_le (h.resolve_left hpos)
  | existing e₁ h hmem hkey₁ hret htheta =>
      have hhash : t'.hashes = t.hashes := by
        have := congrArg (fun m : Multiset E ↦ (m.map SketchEntry.hash).toFinset) hret
        simp only [Multiset.map_cons, Multiset.toFinset_cons, hex] at this
        have hin : SketchEntry.hash e₁ ∈ t.hashes := mem_hashes.mpr ⟨e₁, hmem, rfl⟩
        have hin' : SketchEntry.hash e₁ ∈ t'.hashes := by
          have hmem' : onExisting e₁ ∈ e₁ ::ₘ t'.retained := hret ▸ Multiset.mem_cons_self _ _
          rcases Multiset.mem_cons.mp hmem' with heq | hmem'
          · rw [heq] at hret
            exact mem_hashes.mpr ⟨e₁, (Multiset.cons_inj_right _).mp hret ▸ hmem, rfl⟩
          · exact mem_hashes.mpr ⟨_, hmem', hex e₁⟩
        rwa [← hashes_eq, ← hashes_eq, Finset.insert_eq_of_mem hin, Finset.insert_eq_of_mem hin']
          at this
      rw [hhash, htheta, Finset.insert_eq_of_mem]
      · exact hs
      · rw [← hkey₁]
        exact (hs.mem_iff.mp (mem_hashes.mpr ⟨e₁, hmem, rfl⟩)).1
  | declined h hnew hnone hret htheta => cases hnone
  | inserted e₁ h hnew hsome hret htheta =>
      cases hsome
      have hhash : t'.hashes = insert hash t.hashes := by
        rw [hashes_eq, hret, Multiset.map_cons, Multiset.toFinset_cons, hkey, hashes_eq]
      rw [hhash, htheta]
      exact hs.insert_of_lt h.2
  | rebuilt e₁ h hnew hsome hret hrank hfull hmax =>
      cases hsome
      have hhash : t'.hashes = (insert hash t.hashes).filter (· < t'.theta) := by
        rw [hashes_eq, hret]
        ext x
        simp only [Multiset.mem_toFinset, Multiset.mem_map, Multiset.mem_filter, Multiset.mem_cons,
          Finset.mem_filter, Finset.mem_insert, mem_hashes]
        constructor
        · rintro ⟨e₂, ⟨rfl | he₂, hlt⟩, rfl⟩
          · exact ⟨.inl hkey, hlt⟩
          · exact ⟨.inr ⟨e₂, he₂, rfl⟩, hlt⟩
        · rintro ⟨rfl | ⟨e₂, he₂, rfl⟩, hlt⟩
          · exact ⟨e, ⟨.inl rfl, hkey ▸ hlt⟩, hkey⟩
          · exact ⟨e₂, ⟨.inr he₂, hlt⟩, rfl⟩
      rw [hhash]
      exact (hs.insert_of_lt h.2).cut hrank

/-- Trimming keeps the sampled set and leaves at most `k` hashes. -/
theorem trim_samples {t : SketchHashTable E} (h : Inv t) {top : ℕ} {s : Finset ℕ}
    (hs : Samples t top s) :
    ∃ t', t.trim = .ok t' ∧ Inv t' ∧ SameConfig t t' ∧ t'.isEmpty = t.isEmpty ∧ Samples t' top s ∧
      t'.hashes.card ≤ 2 ^ t.lgNomSize := by
  obtain ⟨t', htrim, hinv, hcfg, hempty, hcard, ⟨-, rfl⟩ | ⟨-, hrank, hret⟩⟩ := trim_spec h
  · exact ⟨t', htrim, hinv, hcfg, hempty, hs, by rw [hinv.card_hashes]; exact hcard⟩
  · refine ⟨t', htrim, hinv, hcfg, hempty, ?_, by rw [hinv.card_hashes]; exact hcard⟩
    unfold Samples
    rw [hcfg.lgNomSize_eq, hashes_filter hret]
    exact hs.cut hrank

end SketchHashTable

end DataSketches
