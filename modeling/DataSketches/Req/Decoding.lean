import DataSketches.Req.RoundTrip

/-!
# Decoding REQ sketches

Whatever the bytes are, decoding gives a sketch or an error.  A sketch that is accepted
has levels that the growth of sections can reach, and as many items, weighted by level,
as it says.

## Main definitions

* `Compactor.Valid`: what the decoder checks of a level.
* `ReqSketch.WellFormed`: what it checks of a sketch.
-/

namespace DataSketches

namespace Req

open Comparator Runs ReqValue LittleEndian ByteReader SketchBytes SketchSlice

/-! ## Checks -/

/-- A number of sections that the growth of sections can reach. -/
def ReachableSections (state numSections : ℕ) : Prop :=
  ∃ doublings ≤ 5, numSections = initialSectionsPerCompactor * 2 ^ doublings ∧
    ∀ i < doublings, 2 ^ (initialSectionsPerCompactor * 2 ^ i - 1) ≤ state

/-- What the loop over the numbers of sections has found. -/
theorem reached_of_reachesSectionCount {state numSections : ℕ} (i fuel : ℕ) (hi : i ≤ 5)
    (hreached : ∀ j < i, 2 ^ (initialSectionsPerCompactor * 2 ^ j - 1) ≤ state)
    (h : reachesSectionCount state numSections fuel (initialSectionsPerCompactor * 2 ^ i) = true) :
    ReachableSections state numSections := by
  induction fuel generalizing i with
  | zero => cases h
  | succ fuel ih =>
      rw [reachesSectionCount] at h
      by_cases hmore : initialSectionsPerCompactor * 2 ^ i < numSections
      · rw [if_pos hmore, sectionGrowthThreshold] at h
        by_cases hshift : initialSectionsPerCompactor * 2 ^ i = 0 ∨
            initialSectionsPerCompactor * 2 ^ i - 1 ≥ 64
        · rw [if_pos hshift] at h
          cases h
        rw [if_neg hshift, Nat.one_shiftLeft] at h
        dsimp only at h
        split_ifs at h with hstate hwide
        rw [Nat.mul_assoc, ← pow_succ] at h
        refine ih (i + 1) ?_ (fun j hj ↦ ?_) h
        · by_contra hlarge
          obtain rfl : i = 5 := by omega
          exact hshift (.inr (by decide))
        · rcases Nat.lt_succ_iff_lt_or_eq.mp hj with hj | rfl
          · exact hreached j hj
          · exact not_lt.mp hstate
      · rw [if_neg hmore] at h
        exact ⟨i, hi, (beq_iff_eq.mp h).symm, hreached⟩

/-- The check of the number of sections is exact. -/
theorem hasReachableSectionCount_iff {state numSections : ℕ} :
    hasReachableSectionCount state numSections = true ↔ ReachableSections state numSections := by
  constructor
  · intro h
    refine reached_of_reachesSectionCount 0 8 (Nat.zero_le 5) (fun j hj ↦ absurd hj
      (Nat.not_lt_zero j)) ?_
    rw [pow_zero, Nat.mul_one]
    exact h
  · rintro ⟨doublings, hfew, rfl, hreached⟩
    have hreaches := reachesSectionCount_of_reached hfew hreached 0 8 (Nat.zero_le _) (by omega)
    rwa [pow_zero, Nat.mul_one] at hreaches

theorem validateCompactorState_eq_ok {k expectedLgWeight state lgWeight numSections : ℕ}
    {sectionSizeRaw : Float32} (h : validateCompactorState k expectedLgWeight state sectionSizeRaw
      lgWeight numSections = .ok ()) :
    lgWeight = expectedLgWeight ∧ sectionSizeRaw.isFinite = true ∧
      minK ≤ nearestEvenSectionSize sectionSizeRaw ∧ nearestEvenSectionSize sectionSizeRaw ≤ k ∧
        ReachableSections state numSections := by
  rw [validateCompactorState] at h
  dsimp only at h
  by_cases hlg : lgWeight = expectedLgWeight
  · rw [if_neg (not_not.mpr hlg)] at h
    by_cases hlayout : (!sectionSizeRaw.isFinite) = true ∨
        ¬ (minK ≤ nearestEvenSectionSize sectionSizeRaw ∧ nearestEvenSectionSize sectionSizeRaw ≤ k) ∨
          (!hasReachableSectionCount state numSections) = true
    · rw [if_pos hlayout] at h
      cases h
    · push Not at hlayout
      obtain ⟨hfinite, hsize, hreachable⟩ := hlayout
      exact ⟨hlg, by simpa using hfinite, hsize.1, hsize.2,
        hasReachableSectionCount_iff.mp (by simpa using hreachable)⟩
  · rw [if_pos hlg] at h
    cases h

variable {T : Type} [ReqValue T]

/-- A list that is found to be sorted is. -/
theorem sortStateFrom_eq_ok {items : List T} {previous : Option T} {sorted r : Bool}
    (h : sortStateFrom previous sorted items = .ok r) :
    (∀ x ∈ items, isNan x = false) ∧ (r = true → sorted = true ∧
      (previous.toList ++ items).IsChain fun x y ↦ (totalCmp x y).isLE = true) := by
  induction items generalizing previous sorted with
  | nil =>
      obtain rfl : sorted = r := Except.ok.inj h
      refine ⟨nofun, fun hr ↦ ⟨hr, ?_⟩⟩
      cases previous with
      | none => exact List.isChain_nil
      | some p => exact List.isChain_singleton p
  | cons item items ih =>
      rw [sortStateFrom] at h
      cases hnan : isNan item with
      | true =>
          rw [hnan, if_pos rfl] at h
          cases h
      | false =>
          rw [hnan, if_neg Bool.false_ne_true] at h
          obtain ⟨hall, hchain⟩ := ih h
          refine ⟨fun x hx ↦ ?_, fun hr ↦ ?_⟩
          · rcases List.mem_cons.mp hx with rfl | hx
            · exact hnan
            · exact hall x hx
          · obtain ⟨hkept, hrest⟩ := hchain hr
            obtain ⟨hsorted, hnext⟩ := Bool.and_eq_true_iff.mp hkept
            refine ⟨hsorted, ?_⟩
            cases previous with
            | none => exact hrest
            | some p =>
                refine List.isChain_cons_cons.mpr ⟨?_, hrest⟩
                rw [Option.any_some] at hnext
                cases hcmp : totalCmp p item with
                | lt => rfl
                | eq => rfl
                | gt =>
                    rw [hcmp] at hnext
                    cases hnext

theorem normalizedSortState_eq_ok {items : List T} {claimed r : Bool}
    (h : normalizedSortState items claimed = .ok r) :
    (∀ x ∈ items, isNan x = false) ∧ (r = true → Sorted totalCmp items) := by
  obtain ⟨hnan, hchain⟩ := sortStateFrom_eq_ok h
  refine ⟨hnan, fun hr ↦ ?_⟩
  haveI : Trans (fun x y : T ↦ (totalCmp x y).isLE = true) (fun x y ↦ (totalCmp x y).isLE = true)
      (fun x y ↦ (totalCmp x y).isLE = true) := ⟨fun h h' ↦ Std.TransCmp.isLE_trans h h'⟩
  exact List.isChain_iff_pairwise.mp (hchain hr).2

/-! ## Levels -/

/-- What the decoder checks of the compactor of a level. -/
structure Compactor.Valid (k level : ℕ) (rankAccuracy : RankAccuracy) (c : Compactor T) : Prop where
  lgWeight_eq : c.lgWeight = level
  rankAccuracy_eq : c.rankAccuracy = rankAccuracy
  sorted : c.isSorted = true → Sorted totalCmp c.items
  notNan : ∀ x ∈ c.items, isNan x = false
  isFinite : c.sectionSizeRaw.isFinite = true
  sectionSize_eq : c.sectionSize = nearestEvenSectionSize c.sectionSizeRaw
  minK_le : minK ≤ c.sectionSize
  sectionSize_le : c.sectionSize ≤ k
  reachable : ReachableSections c.state c.numSections

/-- The readers of items fail with errors only. -/
def CarefulValue (T : Type) [ReqValue T] : Prop :=
  Reads (Tolerated fun _ ↦ False) (deserializeValue (T := T)) fun _ ↦ True

theorem reads_readItems (h : CarefulValue T) (n : ℕ) :
    Reads (Tolerated fun _ ↦ False) (readItems n : SketchSlice (List T)) fun items ↦
      items.length = n := by
  induction n with
  | zero => exact Reads.pure rfl
  | succ n ih =>
      exact h.bind fun _ _ ↦ ih.bind fun _ hrest ↦ Reads.pure (congrArg Nat.succ hrest)

variable {k level : ℕ} {rankAccuracy : RankAccuracy}

theorem reads_readF32Le {bad : Panic → Prop} (tag : String) :
    Reads (Tolerated bad) (readF32Le tag) fun _ ↦ True :=
  (reads_readU32Le tag).bind fun _ _ ↦ Reads.pure trivial

theorem Compactor.reads_deserialize (h : CarefulValue T) (k level : ℕ) (rankAccuracy : RankAccuracy)
    (sorted : Bool) : Reads (Tolerated fun _ ↦ False)
      (Compactor.deserialize k level rankAccuracy sorted : SketchSlice (Compactor T))
        (Valid k level rankAccuracy) := by
  refine (reads_readU64Le _).bind fun state _ ↦ (reads_readF32Le _).bind fun sectionSizeRaw _ ↦
    (reads_readU8 _).bind fun lgWeight _ ↦ (reads_readU8 _).bind fun numSections _ ↦
      (reads_readU16Le _).bind fun _ _ ↦ (reads_readU32Le _).bind fun numItems _ ↦
        (reads_liftResult fun _ hvalid ↦ validateCompactorState_eq_ok hvalid).bind fun _ hlayout ↦
          (reads_readItems h numItems).bind fun items _ ↦
            (reads_liftResult fun _ hsorted ↦ normalizedSortState_eq_ok hsorted).bind
              fun isSorted hitems ↦ Reads.pure ?_
  obtain ⟨hlg, hfinite, hmin, hmax, hreachable⟩ := hlayout
  exact ⟨hlg, rfl, hitems.2, hitems.1, hfinite, rfl, hmin, hmax, hreachable⟩

/-- The layout of a new compactor is valid. -/
theorem Compactor.valid_of_raw {k : ℕ} (hk : ValidK k) (rankAccuracy : RankAccuracy) {items : List T}
    {claimed : Bool} {c : Compactor T} (h : rawItemsCompactor k rankAccuracy items claimed = .ok c) :
    c.Valid k 0 rankAccuracy := by
  obtain ⟨isSorted, hsorted, h⟩ := bind_eq_ok.mp h
  obtain ⟨hnan, hitems⟩ := normalizedSortState_eq_ok hsorted
  obtain ⟨_, heq⟩ := foldl_append_new items (new 0 k rankAccuracy)
  obtain rfl := Except.ok.inj h
  obtain ⟨hrepresents, husable, -⟩ := fits_of_le hk (Nat.zero_le 6)
  have hsize : nearestEvenSectionSize (.ofNat k) = k := nearestEvenSectionSize_ofNat hk
  rw [heq]
  exact {
    lgWeight_eq := rfl
    rankAccuracy_eq := rfl
    sorted := hitems
    notNan := hnan
    isFinite := hrepresents.isFinite husable.1
    sectionSize_eq := rfl
    minK_le := hk.1.trans_eq hsize.symm
    sectionSize_le := hsize.le
    reachable := ⟨0, Nat.zero_le 5, rfl, nofun⟩ }

namespace ReqSketch

/-- The compactors of the levels from `i` on are valid. -/
def ValidLevels (k : ℕ) (rankAccuracy : RankAccuracy) (i : ℕ) (cs : List (Compactor T)) : Prop :=
  ∀ (j : ℕ) (c : Compactor T), cs[j]? = some c → c.Valid k (i + j) rankAccuracy

theorem ValidLevels.cons {k i : ℕ} {rankAccuracy : RankAccuracy} {c : Compactor T}
    {cs : List (Compactor T)} (hc : c.Valid k i rankAccuracy)
    (hcs : ValidLevels k rankAccuracy (i + 1) cs) : ValidLevels k rankAccuracy i (c :: cs) := by
  intro j d hd
  cases j with
  | zero =>
      obtain rfl := Option.some.inj hd
      exact hc
  | succ j =>
      rw [Nat.add_comm j 1, ← Nat.add_assoc]
      exact hcs j d hd

theorem validLevels_nil (k i : ℕ) (rankAccuracy : RankAccuracy) :
    ValidLevels k rankAccuracy i ([] : List (Compactor T)) := nofun

theorem reads_readLevels (h : CarefulValue T) (p : Preamble) (i count : ℕ) :
    Reads (Tolerated fun _ ↦ False) (readLevels p i count : SketchSlice (List (Compactor T)))
      fun cs ↦ cs.length = count ∧ ValidLevels p.k p.rankAccuracy i cs := by
  induction count generalizing i with
  | zero => exact Reads.pure ⟨rfl, validLevels_nil _ _ _⟩
  | succ count ih =>
      exact (Compactor.reads_deserialize h _ _ _ _).bind fun c hc ↦
        (ih (i + 1)).bind fun cs hcs ↦ Reads.pure ⟨congrArg Nat.succ hcs.1, .cons hc hcs.2⟩

/-! ## Before the levels -/

theorem reads_readPreamble :
    Reads (Tolerated fun _ ↦ False) readPreamble fun p ↦ ValidK p.k := by
  refine (reads_readU8 _).bind fun _ _ ↦ (reads_readU8 _).bind fun _ _ ↦
    (reads_readU8 _).bind fun _ _ ↦ (reads_readU8 _).bind fun _ _ ↦ (reads_readU16Le _).bind fun k _ ↦
      (reads_readU8 _).bind fun _ _ ↦ (reads_readU8 _).bind fun _ _ ↦ reads_liftResult_any.bind
        fun _ _ ↦ reads_liftResult_any.bind fun _ _ ↦ reads_liftResult_any.bind fun _ _ ↦
          Reads.ite (fun _ ↦ reads_err _) fun hk ↦ Reads.pure ?_
  obtain ⟨hrange, heven⟩ := not_or.mp hk
  exact ⟨(not_not.mp hrange).1, (not_not.mp hrange).2, not_not.mp heven⟩

/-- What the preamble of a sketch that is not flagged empty says. -/
structure Preamble.Checked (p : Preamble) : Prop where
  numLevels_pos : 0 < p.numLevels
  numLevels_le : p.numLevels ≤ 64
  one_of_raw : p.rawItems = true → p.numLevels = 1

theorem Preamble.checked_of_checkLevels {p : Preamble} (h : p.checkLevels = .ok ()) : p.Checked := by
  rw [checkLevels] at h
  by_cases hzero : p.numLevels = 0
  · rw [if_pos hzero] at h
    cases h
  rw [if_neg hzero] at h
  by_cases hmany : p.numLevels > 64
  · rw [if_pos hmany] at h
    cases h
  rw [if_neg hmany] at h
  refine ⟨Nat.pos_of_ne_zero hzero, not_lt.mp hmany, fun hraw ↦ ?_⟩
  rw [if_pos hraw] at h
  by_contra hone
  rw [if_pos hone] at h
  cases h

/-- There are items between which all items can be. -/
def Ordered (minItem maxItem : Option T) : Prop :=
  ∃ min max, minItem = some min ∧ maxItem = some max ∧ AtMost min max ∧
    isNan min = false ∧ isNan max = false

theorem reads_readBounds (h : CarefulValue T) (numLevels : ℕ) :
    Reads (Tolerated fun _ ↦ False) (readBounds numLevels : SketchSlice (Bounds T)) fun b ↦
      1 < numLevels → Ordered b.minItem b.maxItem := by
  refine Reads.ite (fun _ ↦ ?_) fun hone ↦ Reads.pure fun hmany ↦ absurd hmany hone
  refine (reads_readU64Le _).bind fun n _ ↦ h.bind fun min _ ↦ h.bind fun max _ ↦
    Reads.ite (fun _ ↦ reads_err _) fun hnan ↦ Reads.ite (fun _ ↦ reads_err _) fun hcmp ↦
      Reads.pure fun _ ↦ ⟨min, max, rfl, rfl, ?_, ?_, ?_⟩
  · rw [AtMost]
    cases hmin : totalCmp min max with
    | lt => rfl
    | eq => rfl
    | gt =>
        rw [hmin] at hcmp
        exact absurd rfl hcmp
  · exact Bool.eq_false_iff.mpr (not_or.mp hnan).1
  · exact Bool.eq_false_iff.mpr (not_or.mp hnan).2

theorem reads_readCompactors (h : CarefulValue T) {p : Preamble} (hk : ValidK p.k) (hp : p.Checked) :
    Reads (Tolerated fun _ ↦ False) (readCompactors p : SketchSlice (List (Compactor T))) fun cs ↦
      cs.length = p.numLevels ∧ ValidLevels p.k p.rankAccuracy 0 cs := by
  refine Reads.ite (fun hraw ↦ ?_) fun _ ↦ reads_readLevels h p 0 p.numLevels
  exact (reads_readItems h _).bind fun items _ ↦
    (reads_liftResult fun c hc ↦ Compactor.valid_of_raw hk p.rankAccuracy hc).bind fun c hc ↦
      Reads.pure ⟨(hp.one_of_raw hraw).symm, .cons hc (validLevels_nil _ _ _)⟩

/-! ## The totals -/

theorem inRange_eq_ok {bits n m : ℕ} (h : inRange bits n = .ok m) : n < 2 ^ bits ∧ m = n := by
  rw [inRange] at h
  by_cases hlt : n < 2 ^ bits
  · rw [if_pos hlt] at h
    exact ⟨hlt, (Except.ok.inj h).symm⟩
  · rw [if_neg hlt] at h
    cases h

theorem outcome_inRange (bits n : ℕ) :
    Outcome (Tolerated fun _ ↦ False) (inRange bits n) fun m ↦ n < 2 ^ bits ∧ m = n := by
  cases h : inRange bits n with
  | ok m => exact inRange_eq_ok h
  | error e =>
      rw [inRange] at h
      split_ifs at h
      · cases h
      · obtain rfl := Except.error.inj h
        exact tolerated_error _

/-- The sums over some levels. -/
def TotalsOf (cs : List (Compactor T)) (t : LevelTotals) : Prop :=
  t = ⟨itemCount cs, capacity cs, weightedCount cs⟩ ∧ t.weighted < 2 ^ 64

theorem outcome_addTotals {cs : List (Compactor T)} {t : LevelTotals} (ht : TotalsOf cs t)
    {c : Compactor T} (hweight : c.lgWeight < 64) :
    Outcome (Tolerated fun _ ↦ False) (addTotals t c) (TotalsOf (cs ++ [c])) := by
  have hone : c.weight = .ok (2 ^ c.lgWeight) := by
    rw [Compactor.weight, if_pos hweight, Nat.one_shiftLeft]
    rfl
  refine (outcome_inRange _ _).bind fun retained _ hretained ↦
    (outcome_inRange _ _).bind fun capacity _ hcapacity ↦ ?_
  rw [hone]
  refine (outcome_inRange _ _).bind fun weighted _ hweighted ↦
    (outcome_inRange _ _).bind fun total _ htotal ↦ Outcome.ok ?_
  obtain ⟨-, rfl⟩ := hretained
  obtain ⟨-, rfl⟩ := hcapacity
  obtain ⟨-, rfl⟩ := hweighted
  obtain ⟨hlt, rfl⟩ := htotal
  obtain ⟨rfl, -⟩ := ht
  refine ⟨?_, hlt⟩
  rw [itemCount_append, capacity_append, weightedCount_append]
  rfl

/-- The levels up to 63 have a weight. -/
theorem outcome_run_addTotals {cs : List (Compactor T)} (hweight : ∀ c ∈ cs, c.lgWeight < 64) :
    Outcome (Tolerated fun _ ↦ False) (run addTotals ⟨0, 0, 0⟩ cs) (TotalsOf cs) := by
  induction cs using List.reverseRecOn with
  | nil => exact Outcome.ok ⟨rfl, Nat.two_pow_pos 64⟩
  | append_singleton cs c ih =>
      rw [run_concat]
      exact (ih fun d hd ↦ hweight d (List.mem_append_left _ hd)).bind fun t _ ht ↦
        outcome_addTotals ht (hweight c List.mem_concat_self)

/-! ## Sketches -/

/-- What the decoder checks of a sketch. -/
structure WellFormed (s : ReqSketch T) : Prop where
  validK : ValidK s.k
  ne_nil : s.compactors ≠ []
  length_le : s.compactors.length ≤ 64
  levels : ValidLevels s.k s.rankAccuracy 0 s.compactors
  totals : Totals s
  weightedCount_eq : weightedCount s.compactors = s.n
  n_lt : s.n < 2 ^ 64
  empty : s.isEmpty = true → s.minItem = none ∧ s.maxItem = none
  bounds : s.isEmpty = false → Ordered s.minItem s.maxItem
  exact : ∀ c, s.compactors = [c] → Extreme AtMost s.minItem c.items ∧ Extreme AtLeast s.maxItem c.items

theorem wellFormed_create {k : ℕ} (hk : ValidK k) (rankAccuracy : RankAccuracy) :
    WellFormed (create k rankAccuracy : ReqSketch T) where
  validK := hk
  ne_nil := List.cons_ne_nil _ _
  length_le := Nat.le_of_ble_eq_true rfl
  levels := .cons (Compactor.valid_of_raw hk rankAccuracy
    (show Compactor.rawItemsCompactor k rankAccuracy [] true = .ok _ from rfl)) (validLevels_nil _ _ _)
  totals := ⟨rfl, rfl⟩
  weightedCount_eq := rfl
  n_lt := Nat.two_pow_pos 64
  empty _ := ⟨rfl, rfl⟩
  bounds := nofun
  exact c hc := by
    obtain rfl := List.head_eq_of_cons_eq hc
    exact ⟨.nil _, .nil _⟩

/-- The extreme items of a list that has some are in order. -/
theorem ordered_of_extreme {min max : Option T} {items : List T} (hmin : Extreme AtMost min items)
    (hmax : Extreme AtLeast max items) (hnan : ∀ x ∈ items, isNan x = false)
    (hsome : min.isNone = false) : Ordered min max := by
  rcases hmin with ⟨rfl, -⟩ | ⟨x, hx, rfl, hle⟩
  · cases hsome
  rcases hmax with ⟨-, rfl⟩ | ⟨y, hy, rfl, -⟩
  · cases hx
  · exact ⟨x, y, rfl, rfl, hle y hy, hnan x hx, hnan y hy⟩

/-- With one level, the bounds are those of its items. -/
theorem recoverBounds_spec {p : Preamble} {b : Bounds T} {cs : List (Compactor T)}
    (hlen : cs.length = p.numLevels) (hp : p.Checked)
    (hb : 1 < p.numLevels → Ordered b.minItem b.maxItem)
    (hnan : ∀ c ∈ cs, ∀ x ∈ c.items, isNan x = false) :
    ∃ b', recoverBounds p b cs = .ok b' ∧ (b'.minItem.isNone = false → Ordered b'.minItem b'.maxItem) ∧
      ∀ c, cs = [c] → Extreme AtMost b'.minItem c.items ∧ Extreme AtLeast b'.maxItem c.items := by
  rw [recoverBounds]
  by_cases hone : p.numLevels = 1
  · obtain ⟨c, rfl⟩ := List.length_eq_one_iff.mp (hlen.trans hone)
    have hextreme := extremes_spec c.items
    rw [if_pos hone]
    refine ⟨_, rfl, ordered_of_extreme hextreme.1 hextreme.2 (hnan c List.mem_cons_self), ?_⟩
    rintro d hd
    obtain rfl := List.head_eq_of_cons_eq hd
    exact hextreme
  · have hmany : 1 < p.numLevels := Nat.lt_of_le_of_ne hp.numLevels_pos (Ne.symm hone)
    rw [if_neg hone]
    refine ⟨b, rfl, fun _ ↦ hb hmany, ?_⟩
    rintro c rfl
    exact absurd hlen.symm hone

theorem outcome_assemble {p : Preamble} {b : Bounds T} {cs : List (Compactor T)} (hk : ValidK p.k)
    (hp : p.Checked) (hb : 1 < p.numLevels → Ordered b.minItem b.maxItem)
    (hlen : cs.length = p.numLevels) (hcs : ValidLevels p.k p.rankAccuracy 0 cs) :
    Outcome (Tolerated fun _ ↦ False) (assemble p b cs) WellFormed := by
  have hvalid : ∀ c ∈ cs, ∃ j < cs.length, c.Valid p.k j p.rankAccuracy := by
    intro c hc
    obtain ⟨j, hj⟩ := List.mem_iff_getElem?.mp hc
    exact ⟨j, (List.getElem?_eq_some_iff.mp hj).1, Nat.zero_add j ▸ hcs j c hj⟩
  have hlg : ∀ c ∈ cs, c.lgWeight < 64 := by
    intro c hc
    obtain ⟨j, hlt, hvalid⟩ := hvalid c hc
    have hmany := hp.numLevels_le
    exact hvalid.lgWeight_eq.trans_lt (by omega)
  obtain ⟨b', hrecover, hordered, hextreme⟩ := recoverBounds_spec hlen hp hb fun c hc ↦ by
    obtain ⟨j, -, hvalid⟩ := hvalid c hc
    exact hvalid.notNan
  rw [assemble, hrecover, ok_mapError, ok_bind]
  dsimp only
  by_cases hnone : b'.n = 0 ∨ b'.minItem.isNone = true ∨ b'.maxItem.isNone = true
  · rw [if_pos hnone]
    exact tolerated_error _
  rw [if_neg hnone]
  by_cases hraw : p.rawItems ≠ decide (p.numLevels = 1 ∧ b'.n ≤ rawItemsThreshold)
  · rw [if_pos hraw]
    exact tolerated_error _
  rw [if_neg hraw]
  refine (outcome_run_addTotals hlg).bind fun t _ ht ↦ ?_
  obtain ⟨rfl, hlt⟩ := ht
  dsimp only
  by_cases hcount : weightedCount cs ≠ b'.n
  · rw [if_pos hcount]
    exact tolerated_error _
  rw [if_neg hcount, tryNew_ok_of_valid hk]
  have hn : weightedCount cs = b'.n := not_not.mp hcount
  have hpos : ¬ b'.n = 0 := (not_or.mp hnone).1
  have hsome := Bool.eq_false_iff.mpr (not_or.mp (not_or.mp hnone).2).1
  exact Outcome.ok {
    validK := hk
    ne_nil := List.length_pos_iff.mp (hp.numLevels_pos.trans_eq hlen.symm)
    length_le := hlen.trans_le hp.numLevels_le
    levels := hcs
    totals := ⟨rfl, rfl⟩
    weightedCount_eq := hn
    n_lt := hn ▸ hlt
    empty := fun hempty ↦ absurd (of_decide_eq_true hempty) hpos
    bounds := fun _ ↦ hordered hsome
    exact := hextreme }

theorem reads_deserializer (h : CarefulValue T) :
    Reads (Tolerated fun _ ↦ False) deserializer (WellFormed (T := T)) := by
  refine reads_readPreamble.bind fun p hk ↦ Reads.ite (fun _ ↦ ?_) fun _ ↦ ?_
  · refine reads_liftResult_any.bind fun _ _ ↦ reads_liftResult fun s hs ↦ ?_
    rw [tryNew_ok_of_valid hk] at hs
    obtain rfl := Except.ok.inj hs
    exact wellFormed_create hk p.rankAccuracy
  · exact (reads_liftResult fun _ hp ↦ p.checked_of_checkLevels hp).bind fun _ hp ↦
      (reads_readBounds h p.numLevels).bind fun b hb ↦
        (reads_readCompactors h hk hp).bind fun cs hcs ↦
          Reads.lift (outcome_assemble hk hp hb hcs.1 hcs.2)

/-- Whatever the bytes are, decoding does not panic, and the sketch it gives has passed the
checks. -/
theorem deserialize_is_sound (h : CarefulValue T) (bytes : List UInt8) :
    (∀ p, (deserialize bytes : Except Fault (ReqSketch T)) ≠ .error (.panic p)) ∧
      ∀ s : ReqSketch T, deserialize bytes = .ok s → WellFormed s := by
  have houtcome := outcome_fst (reads_deserializer h bytes)
  exact ⟨fun p hp ↦ houtcome.bad_of_error hp p rfl, fun s hs ↦ houtcome.post_of_ok hs⟩

end ReqSketch

theorem careful_primitive {T : Type} [Ord T] [Std.TransOrd T] (name : String) (size : ℕ)
    (toBits : T → ℕ) (ofBits : ℕ → T) : @CarefulValue T (primitive name size toBits ofBits) :=
  @Reads.bind _ _ _ _ _ _ (Reads.readLe (tolerated_error _) size) _ _ fun _ _ ↦ Reads.pure trivial

/-- An image of two items. -/
theorem ReqSketch.deserialize_is_sound_pair :
    ∃ s : ReqSketch UInt32,
      deserialize [2, 1, 17, 24, 12, 0, 1, 2, 5, 0, 0, 0, 9, 0, 0, 0] = .ok s ∧ WellFormed s := by
  obtain ⟨s, hs⟩ := exists_ok_of_isOk (show (deserialize
    [2, 1, 17, 24, 12, 0, 1, 2, 5, 0, 0, 0, 9, 0, 0, 0] : Except Fault (ReqSketch UInt32)).isOk = true
      by decide +kernel)
  exact ⟨s, hs, (deserialize_is_sound (careful_primitive "u32" 4 UInt32.toNat UInt32.ofNat) _).2 s hs⟩

end Req

end DataSketches
