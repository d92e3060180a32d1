import DataSketches.Req.Levels

/-!
# Passes of `compress`

Every pass keeps the invariant of the levels, and each level that was full at the
beginning is still full when its turn comes.
-/

namespace DataSketches

namespace Req

open Comparator Runs ReqValue

namespace ReqSketch

variable {T : Type} [ReqValue T] {S : UnstableSort} {s s' : ReqSketch T} {level : ℕ} {xs : List T}

theorem compactorAt_eq {c : Compactor T} (h : s.compactors[level]? = some c) :
    s.compactorAt level = .ok c := by
  rw [compactorAt, h]
  rfl

/-- Everything but the compactors and their totals is the same. -/
structure SameStream (s s' : ReqSketch T) : Prop where
  k_eq : s'.k = s.k
  rankAccuracy_eq : s'.rankAccuracy = s.rankAccuracy
  n_eq : s'.n = s.n
  minItem_eq : s'.minItem = s.minItem
  maxItem_eq : s'.maxItem = s.maxItem

theorem SameStream.refl (s : ReqSketch T) : SameStream s s := ⟨rfl, rfl, rfl, rfl, rfl⟩

theorem SameStream.trans {s'' : ReqSketch T} (h : SameStream s s') (h' : SameStream s' s'') :
    SameStream s s'' :=
  ⟨h'.k_eq.trans h.k_eq, h'.rankAccuracy_eq.trans h.rankAccuracy_eq, h'.n_eq.trans h.n_eq,
    h'.minItem_eq.trans h.minItem_eq, h'.maxItem_eq.trans h.maxItem_eq⟩

/-- The totals are those of the compactors. -/
structure Totals (s : ReqSketch T) : Prop where
  maxNomSize_eq : s.maxNomSize = capacity s.compactors
  numRetained_eq : s.numRetained = itemCount s.compactors

theorem totals_update (s : ReqSketch T) : Totals s.updateMaxNomSize.updateNumRetained := ⟨rfl, rfl⟩

theorem promote_eq {d : Compactor T} (hd : s.compactors[level]? = some d) {promoted : List T}
    (hne : promoted ≠ []) :
    s.promote S level promoted = .ok (s.setCompactor level ((d.sort S).mergeSorted promoted)) := by
  rw [promote, if_neg (by rwa [List.isEmpty_iff]), compactorAt_eq hd]
  rfl

/-- What the first statements of a pass do to a full level. -/
theorem grown_spec (hk : ValidK s.k) (hlt : level < s.compactors.length) :
    ∃ grown, Grown s.k level s.rankAccuracy s.compactors grown ∧
      ∀ c, (if level + 1 ≥ (s.setCompactor level c).compactors.length
        then (s.setCompactor level c).grow else s.setCompactor level c) =
          { (s.setCompactor level c) with
            compactors := grown.set level c
            maxNomSize := if level + 1 ≥ s.compactors.length then capacity (grown.set level c)
              else s.maxNomSize } := by
  have hset : ∀ c, (s.setCompactor level c).compactors.length = s.compactors.length :=
    fun c ↦ List.length_set
  rcases Nat.lt_or_ge (level + 1) s.compactors.length with hnext | hlast
  · refine ⟨_, .same hnext, fun c ↦ ?_⟩
    rw [hset, if_neg (not_le.mpr hnext), if_neg (not_le.mpr hnext)]
    rfl
  · refine ⟨_, .grow (by omega), fun c ↦ ?_⟩
    rw [hset, if_pos hlast, if_pos hlast, grow, updateMaxNomSize, totalNominalCapacity, hset,
      List.set_append_left _ _ hlt]
    rfl

theorem setCompactor_self {c : Compactor T} (h : s.compactors[level]? = some c) :
    s.setCompactor level c = s := by
  obtain ⟨hlt, rfl⟩ := List.getElem?_eq_some_iff.mp h
  rw [setCompactor, List.set_getElem_self]

/-- Level 0 is sorted before it is compacted. -/
theorem sortFirst_eq {c : Compactor T} (h : s.compactors[level]? = some c) :
    (if level = 0 then s.setCompactor 0 (c.sort S) else s) =
      s.setCompactor level (if level = 0 then c.sort S else c) := by
  split_ifs with hzero
  · rw [hzero]
  · exact (setCompactor_self h).symm

/-- What a pass over a full level does. -/
theorem compressLevel_full {c : Compactor T} (hk : ValidK s.k)
    (hlevels : Levels s.k s.rankAccuracy xs s.compactors) (hc : s.compactors[level]? = some c)
    (hfull : c.nominalCapacity ≤ c.items.length) (coins : ℕ → Bool) :
    ∃ s' grown c' d d' promoted, s.compressLevel S coins level = .ok s' ∧
      Grown s.k level s.rankAccuracy s.compactors grown ∧
        Promotion s.rankAccuracy level grown s'.compactors c c' d d' promoted ∧
          SameStream s s' ∧ Totals s' := by
  have hlt : level < s.compactors.length := (List.getElem?_eq_some_iff.mp hc).1
  have hinv := hlevels.inv level c hc
  obtain ⟨grown, hgrown, hstate⟩ := grown_spec hk hlt
  obtain ⟨d, hd⟩ : ∃ d, grown[level + 1]? = some d :=
    ⟨_, List.getElem?_eq_getElem hgrown.lt_length⟩
  have hdinv := hgrown.inv hk hlevels.inv _ d hd
  obtain ⟨e, he⟩ : ∃ e, e = if level = 0 then c.sort S else c := ⟨_, rfl⟩
  have hsorted : e.items.Perm c.items ∧ e.Inv level s.rankAccuracy ∧ c.SameSections e := by
    rw [he]
    split_ifs
    · obtain ⟨hperm, -, -, hinv', hsame⟩ := Compactor.sort_spec (S := S) hinv
      exact ⟨hperm, hinv', hsame⟩
    · exact ⟨List.Perm.refl _, hinv, Compactor.SameSections.refl c⟩
  obtain ⟨hperm, heinv, hsame⟩ := hsorted
  have hcompacted := Compactor.compactInto_spec (S := S) heinv (coins level)
  obtain ⟨hpromoted, hleft⟩ := Compactor.compactInto_of_full (S := S) heinv
    (by rwa [hsame.nominalCapacity_eq, hperm.length_eq]) (coins level)
  obtain ⟨c', hc'⟩ : ∃ c', c' = (e.compactInto S (coins level)).1 := ⟨_, rfl⟩
  obtain ⟨promoted, hp⟩ : ∃ promoted, promoted = (e.compactInto S (coins level)).2 := ⟨_, rfl⟩
  rw [← hc', ← hp] at hcompacted
  rw [← hp] at hpromoted
  rw [← hc', hsame.nominalCapacity_eq] at hleft
  have hne : promoted ≠ [] := List.length_pos_iff.mp hpromoted
  obtain ⟨hmerged, hinv', hsame'⟩ := Compactor.sort_mergeSorted_spec (S := S) hdinv hcompacted.sorted
  have hglt : level < grown.length := Nat.lt_of_succ_lt hgrown.lt_length
  have hat : (grown.set level e)[level]? = some e := List.getElem?_set_self hglt
  have hnext : (grown.set level c')[level + 1]? = some d := by
    rw [List.getElem?_set_ne (Nat.succ_ne_self level).symm]
    exact hd
  obtain ⟨cs, hcs⟩ : ∃ cs, cs = (grown.set level c').set (level + 1) ((d.sort S).mergeSorted promoted) :=
    ⟨_, rfl⟩
  refine ⟨{ s with compactors := cs, maxNomSize := capacity cs, numRetained := itemCount cs }, grown,
    c', d, (d.sort S).mergeSorted promoted, promoted, ?_, hgrown, ⟨?_, hd, ?_, hne, hleft, hinv',
    hinv.lgWeight_eq, hdinv.lgWeight_eq, hmerged, hsame', hcs⟩, ?_, ?_⟩
  · rw [compressLevel, compactorAt_eq hc, ok_bind,
      if_pos (show c.numItems ≥ c.nominalCapacity from hfull)]
    dsimp only
    rw [sortFirst_eq hc, ← he, hstate e, compactorAt_eq hat, ok_bind]
    dsimp only
    rw [← hc', ← hp, setCompactor]
    dsimp only
    rw [List.set_set, promote_eq hnext hne, ok_bind, hcs]
    rfl
  · rw [hgrown.getElem?_eq hlt]
    exact hc
  · refine ⟨hcompacted.inv, hcompacted.sorted, hcompacted.subperm.trans hperm.subperm,
      hcompacted.weight_eq.trans hperm.length_eq, hsame.state_eq ▸ hcompacted.state_le,
      fun k hk hlayout hstate ↦ ?_⟩
    rw [← hsame.nominalCapacity_eq]
    exact hcompacted.layout k hk (hlayout.of_sameSections hsame) (hsame.state_eq.symm ▸ hstate)
  · exact ⟨rfl, rfl, rfl, rfl, rfl⟩
  · exact ⟨rfl, rfl⟩

theorem compressLevel_of_not_full {c : Compactor T} (hc : s.compactors[level]? = some c)
    (hfull : ¬ c.nominalCapacity ≤ c.items.length) (coins : ℕ → Bool) :
    s.compressLevel S coins level = .ok s := by
  rw [compressLevel, compactorAt_eq hc, ok_bind,
    if_neg (show ¬ c.numItems ≥ c.nominalCapacity from hfull)]
  rfl

/-- A promotion keeps the invariant of the levels. -/
theorem levels_of_promotion {grown : List (Compactor T)} {c c' d d' : Compactor T}
    {promoted : List T} (hk : ValidK s.k) (hlevels : Levels s.k s.rankAccuracy xs s.compactors)
    (hroom : xs.length < 2 ^ 64) (hc : s.compactors[level]? = some c)
    (hgrown : Grown s.k level s.rankAccuracy s.compactors grown)
    (h : Promotion s.rankAccuracy level grown s'.compactors c c' d d' promoted) :
    Levels s.k s.rankAccuracy xs s'.compactors := by
  refine h.levels hk (hgrown.inv hk hlevels.inv) (hgrown.layout hlevels.layout)
    (hlevels.state_lt hroom hc) (hgrown.flow hlevels.flow)
    (hgrown.weightedCount_eq.trans hlevels.weight_eq) (hgrown.retained_eq.trans_le hlevels.retained_le) fun hlong e he ↦ ?_
  cases hgrown with
  | same => exact hlevels.top e (by omega) he
  | grow heq =>
      rw [List.length_append, List.length_singleton] at hlong
      omega

/-- What passes of `compress` keep, and what they gain. -/
structure Pressed (xs : List T) (s s' : ReqSketch T) : Prop where
  levels : Levels s.k s.rankAccuracy xs s'.compactors
  totals : Totals s'
  sameStream : SameStream s s'
  length_le : s.compactors.length ≤ s'.compactors.length
  itemCount_le : itemCount s'.compactors ≤ itemCount s.compactors
  capacity_le : capacity s.compactors ≤ capacity s'.compactors

theorem Pressed.refl (hlevels : Levels s.k s.rankAccuracy xs s.compactors) (htotals : Totals s) :
    Pressed xs s s := ⟨hlevels, htotals, SameStream.refl s, le_rfl, le_rfl, le_rfl⟩

theorem Pressed.trans {s'' : ReqSketch T} (h : Pressed xs s s') (h' : Pressed xs s' s'') :
    Pressed xs s s'' := by
  have hlevels := h'.levels
  rw [h.sameStream.k_eq, h.sameStream.rankAccuracy_eq] at hlevels
  exact ⟨hlevels, h'.totals, h.sameStream.trans h'.sameStream, h.length_le.trans h'.length_le,
    h'.itemCount_le.trans h.itemCount_le, h.capacity_le.trans h'.capacity_le⟩

theorem Pressed.levels' (h : Pressed xs s s') : Levels s'.k s'.rankAccuracy xs s'.compactors := by
  rw [h.sameStream.k_eq, h.sameStream.rankAccuracy_eq]
  exact h.levels

theorem pressed_of_promotion {grown : List (Compactor T)} {c c' d d' : Compactor T}
    {promoted : List T} (hk : ValidK s.k) (hlevels : Levels s.k s.rankAccuracy xs s.compactors)
    (hroom : xs.length < 2 ^ 64) (hc : s.compactors[level]? = some c)
    (hgrown : Grown s.k level s.rankAccuracy s.compactors grown)
    (h : Promotion s.rankAccuracy level grown s'.compactors c c' d d' promoted) (htotals : Totals s')
    (hsame : SameStream s s') : Pressed xs s s' where
  levels := levels_of_promotion hk hlevels hroom hc hgrown h
  totals := htotals
  sameStream := hsame
  length_le := hgrown.length_le.trans_eq h.length_eq.symm
  itemCount_le := (hgrown.itemCount_eq ▸ h.itemCount_lt).le
  capacity_le := hgrown.capacity_le.trans (h.capacity_le hk
    (hlevels.layout c (List.mem_of_getElem? hc)) (hlevels.state_lt hroom hc))

/-- A pass over a full level drops some of its items. -/
theorem compressLevel_press {c : Compactor T} (hk : ValidK s.k)
    (hlevels : Levels s.k s.rankAccuracy xs s.compactors) (hroom : xs.length < 2 ^ 64)
    (hc : s.compactors[level]? = some c) (hfull : c.nominalCapacity ≤ c.items.length)
    (coins : ℕ → Bool) :
    ∃ s', s.compressLevel S coins level = .ok s' ∧ Pressed xs s s' ∧
      itemCount s'.compactors < itemCount s.compactors := by
  obtain ⟨s', grown, c', d, d', promoted, hok, hgrown, hpromotion, hsame, htotals⟩ :=
    compressLevel_full (S := S) hk hlevels hc hfull coins
  exact ⟨s', hok, pressed_of_promotion hk hlevels hroom hc hgrown hpromotion htotals hsame,
    hgrown.itemCount_eq ▸ hpromotion.itemCount_lt⟩

/-- A pass keeps the invariants. -/
theorem compressLevel_spec (hk : ValidK s.k) (hlevels : Levels s.k s.rankAccuracy xs s.compactors)
    (hroom : xs.length < 2 ^ 64) (htotals : Totals s) (hlt : level < s.compactors.length)
    (coins : ℕ → Bool) : ∃ s', s.compressLevel S coins level = .ok s' ∧ Pressed xs s s' := by
  obtain ⟨c, hc⟩ : ∃ c, s.compactors[level]? = some c := ⟨_, List.getElem?_eq_getElem hlt⟩
  by_cases hfull : c.nominalCapacity ≤ c.items.length
  · obtain ⟨s', hok, hpressed, -⟩ := compressLevel_press (S := S) hk hlevels hroom hc hfull coins
    exact ⟨s', hok, hpressed⟩
  · exact ⟨s, compressLevel_of_not_full hc hfull coins, Pressed.refl hlevels htotals⟩

theorem run_compressLevel {levels : List ℕ} (hk : ValidK s.k)
    (hlevels : Levels s.k s.rankAccuracy xs s.compactors) (hroom : xs.length < 2 ^ 64)
    (htotals : Totals s) (hlt : ∀ level ∈ levels, level < s.compactors.length) (coins : ℕ → Bool) :
    ∃ s', run (compressLevel S coins) s levels = .ok s' ∧ Pressed xs s s' := by
  induction levels generalizing s with
  | nil => exact ⟨s, rfl, Pressed.refl hlevels htotals⟩
  | cons level levels ih =>
      obtain ⟨s₁, hok₁, h₁⟩ := compressLevel_spec (S := S) hk hlevels hroom htotals
        (hlt level List.mem_cons_self) coins
      obtain ⟨s', hok, h'⟩ := ih (h₁.sameStream.k_eq ▸ hk) h₁.levels' h₁.totals
        fun l hl ↦ (hlt l (List.mem_cons_of_mem _ hl)).trans_le h₁.length_le
      exact ⟨s', by rw [run_cons, hok₁, ok_bind, hok], h₁.trans h'⟩

/-- How far `compress` has come: the levels below `count` have room, and a level is added only after
the last one, for at most half of its items. -/
structure Passed (count : ℕ) (s s' : ReqSketch T) : Prop where
  roomy : Roomy count s'.compactors
  length_eq : s'.compactors.length = s.compactors.length ∨
    count = s.compactors.length ∧ s'.compactors.length = s.compactors.length + 1
  added_le : 2 * itemCount (s'.compactors.drop s.compactors.length) ≤ itemCount s.compactors

theorem Passed.zero (s : ReqSketch T) : Passed 0 s s where
  roomy _ hi := absurd hi (Nat.not_lt_zero _)
  length_eq := .inl rfl
  added_le := by
    rw [List.drop_length]
    exact Nat.zero_le _

/-- The pass over the next level. -/
theorem Passed.compressLevel {s₁ : ReqSketch T} (h : Passed level s s₁) (hpressed : Pressed xs s s₁)
    (hk : ValidK s.k) (hroom : xs.length < 2 ^ 64) (hlt : level < s.compactors.length)
    (coins : ℕ → Bool) :
    ∃ s', s₁.compressLevel S coins level = .ok s' ∧ Pressed xs s s' ∧ Passed (level + 1) s s' := by
  have hlength : s₁.compactors.length = s.compactors.length :=
    h.length_eq.resolve_right fun hlast ↦ absurd hlast.1 hlt.ne
  have hlt₁ : level < s₁.compactors.length := hlength ▸ hlt
  have hk₁ : ValidK s₁.k := hpressed.sameStream.k_eq ▸ hk
  obtain ⟨c, hc⟩ : ∃ c, s₁.compactors[level]? = some c := ⟨_, List.getElem?_eq_getElem hlt₁⟩
  by_cases hfull : c.nominalCapacity ≤ c.items.length
  · obtain ⟨s', grown, c', d, d', promoted, hok, hgrown, hpromotion, hsame, htotals⟩ :=
      compressLevel_full (S := S) hk₁ hpressed.levels' hc hfull coins
    have hpress := hpressed.trans (pressed_of_promotion hk₁ hpressed.levels' hroom hc hgrown
      hpromotion htotals hsame)
    have hlayout := hpressed.levels'.layout c (List.mem_of_getElem? hc)
    refine ⟨s', hok, hpress, hpromotion.roomy hk₁ hlayout (hpressed.levels'.state_lt hroom hc)
      (hgrown.roomy hlt₁ h.roomy), ?_, ?_⟩
    · rw [hpromotion.length_eq]
      cases hgrown with
      | same => exact .inl hlength
      | grow hlast =>
          rw [List.length_append, List.length_singleton]
          exact .inr ⟨by omega, by omega⟩
    · rw [hpromotion.result_eq, ← hlength]
      cases hgrown with
      | same =>
          rw [List.drop_eq_nil_of_le (by rw [List.length_set, List.length_set])]
          exact Nat.zero_le _
      | grow hlast =>
          have hnew := hpromotion.next_eq
          rw [hlast, List.getElem?_append_right le_rfl, Nat.sub_self, List.getElem?_cons_zero,
            Option.some_inj] at hnew
          have hcount : d'.items.length = promoted.length := by
            rw [hpromotion.perm.length_eq, ← hnew]
            exact congrArg _ (List.nil_append _)
          have hweight := hpromotion.compacted.weight_eq
          have hle := (length_le_itemCount (List.mem_of_getElem? hc)).trans hpressed.itemCount_le
          rw [hlast, List.drop_set, if_neg (lt_irrefl _), Nat.sub_self,
            List.drop_set_of_lt (by omega), List.drop_left, List.set_cons_zero]
          rw [itemCount, List.map_singleton, List.sum_singleton, Compactor.numItems]
          omega
  · refine ⟨s₁, compressLevel_of_not_full hc hfull coins, hpressed, fun i hi e he ↦ ?_,
      .inl hlength, h.added_le⟩
    rcases Nat.lt_succ_iff_lt_or_eq.mp hi with hi | rfl
    · exact h.roomy i hi e he
    · rw [hc, Option.some_inj] at he
      exact he ▸ not_le.mp hfull

/-- `compress` leaves room in all levels but one that it adds. -/
theorem compress_passed (hk : ValidK s.k) (hlevels : Levels s.k s.rankAccuracy xs s.compactors)
    (hroom : xs.length < 2 ^ 64) (htotals : Totals s) (coins : ℕ → Bool) :
    ∃ s', s.compress S coins = .ok s' ∧ Pressed xs s s' ∧ Passed s.compactors.length s s' := by
  have hrun : ∀ count ≤ s.compactors.length, ∃ s', run (compressLevel S coins) s (List.range count) =
      .ok s' ∧ Pressed xs s s' ∧ Passed count s s' := by
    intro count hle
    induction count with
    | zero => exact ⟨s, rfl, Pressed.refl hlevels htotals, Passed.zero s⟩
    | succ count ih =>
        obtain ⟨s₁, hok₁, hpressed₁, h₁⟩ := ih (Nat.le_of_succ_le hle)
        obtain ⟨s', hok, hpressed, h⟩ := h₁.compressLevel (S := S) hpressed₁ hk hroom hle coins
        exact ⟨s', by rw [List.range_succ, run_concat, hok₁, ok_bind, hok], hpressed, h⟩
  exact hrun _ le_rfl

/-- Levels that hold twice what they may are compressed to what they may hold. -/
theorem Passed.itemCount_le (h : Passed s.compactors.length s s') (hpressed : Pressed xs s s')
    (hk : ValidK s.k) (hroom : xs.length < 2 ^ 64)
    (hle : itemCount s.compactors ≤ 2 * (s.compactors.length * levelBound)) :
    itemCount s'.compactors ≤ s'.compactors.length * levelBound := by
  have htake := h.roomy.itemCount_take_le.trans (hpressed.levels.capacity_le hk hroom)
  have hsplit := itemCount_take_add_drop s'.compactors s.compactors.length
  have hadded := h.added_le
  have hpos := List.length_pos_iff.mpr hpressed.levels.ne_nil
  rcases h.length_eq with heq | ⟨-, heq⟩
  · rw [← heq, List.drop_length] at hsplit
    have hnil : itemCount ([] : List (Compactor T)) = 0 := rfl
    have hone := Nat.le_mul_of_pos_left levelBound hpos
    rw [← heq] at htake
    omega
  · rw [heq, Nat.add_mul]
    omega

/-- Passes over levels of which one is full drop some items: until its turn comes, a level that is
full is left alone. -/
theorem run_compressLevel_lt {levels : List ℕ} (hk : ValidK s.k)
    (hlevels : Levels s.k s.rankAccuracy xs s.compactors) (hroom : xs.length < 2 ^ 64)
    (htotals : Totals s) (hlt : ∀ level ∈ levels, level < s.compactors.length) {c : Compactor T}
    (hmem : level ∈ levels) (hc : s.compactors[level]? = some c)
    (hfull : c.nominalCapacity ≤ c.items.length) (coins : ℕ → Bool) :
    ∃ s', run (compressLevel S coins) s levels = .ok s' ∧ Pressed xs s s' ∧
      itemCount s'.compactors < itemCount s.compactors := by
  induction levels generalizing s with
  | nil => cases hmem
  | cons first levels ih =>
      have hrest : ∀ s₁, Pressed xs s s₁ → itemCount s₁.compactors < itemCount s.compactors →
          s.compressLevel S coins first = .ok s₁ →
            ∃ s', run (compressLevel S coins) s (first :: levels) = .ok s' ∧ Pressed xs s s' ∧
              itemCount s'.compactors < itemCount s.compactors := by
        intro s₁ h₁ hcount hok₁
        obtain ⟨s', hok, h'⟩ := run_compressLevel (S := S)
          (h₁.sameStream.k_eq ▸ hk) h₁.levels' hroom h₁.totals
          (fun l hl ↦ (hlt l (List.mem_cons_of_mem _ hl)).trans_le h₁.length_le) coins
        exact ⟨s', by rw [run_cons, hok₁, ok_bind, hok], h₁.trans h',
          h'.itemCount_le.trans_lt hcount⟩
      obtain ⟨e, he⟩ : ∃ e, s.compactors[first]? = some e :=
        ⟨_, List.getElem?_eq_getElem (hlt first List.mem_cons_self)⟩
      by_cases hfirst : e.nominalCapacity ≤ e.items.length
      · obtain ⟨s₁, hok₁, h₁, hcount⟩ := compressLevel_press (S := S) hk hlevels hroom he hfirst coins
        exact hrest s₁ h₁ hcount hok₁
      · have hne : level ≠ first := by
          rintro rfl
          rw [hc, Option.some_inj] at he
          exact hfirst (he ▸ hfull)
        obtain ⟨s', hok, h', hcount⟩ := ih hk hlevels htotals
          (fun l hl ↦ hlt l (List.mem_cons_of_mem _ hl))
          ((List.mem_cons.mp hmem).resolve_left hne) hc
        exact ⟨s', by rw [run_cons, compressLevel_of_not_full he hfirst coins, ok_bind, hok], h',
          hcount⟩

end ReqSketch

end Req

end DataSketches
