import DataSketches.Req.Operations
import DataSketches.Req.Primitive
import DataSketches.Req.Serialization

/-!
# Reading back a serialized REQ sketch

Every check of the decoder accepts what a sketch with the invariant writes, and the
decoded sketch has the same levels.  With one level the extreme items are not written:
they are recovered up to the order of the items.
-/

namespace DataSketches

namespace Req

open Comparator Runs ReqValue LittleEndian ByteReader SketchBytes SketchSlice

/-! ## Section sizes -/

/-- The raw sizes of the schedule are read back. -/
theorem readF32Le_write {k doublings : ℕ} (hk : ValidK k) (hle : doublings ≤ 6) (tag : String)
    (rest : List UInt8) :
    readF32Le tag (writeF32Le (rawSize k doublings) ++ rest) = .ok (rawSize k doublings, rest) := by
  obtain ⟨hrepresents, husable, -⟩ := fits_of_le hk hle
  have hread : readU32Le tag (writeF32Le (rawSize k doublings) ++ rest) =
      .ok ((rawSize k doublings).toBits.toNat, rest) :=
    readLe_append (rawSize k doublings).toBits.toNat_lt rest
  rw [readF32Le, bind_of_ok hread, UInt32.ofNat_toNat, hrepresents.ofBits_toBits husable.1]
  rfl

/-- The numbers of sections up to one that has been reached are passed. -/
theorem reachesSectionCount_of_reached {state doublings : ℕ} (hfew : doublings ≤ 5)
    (hreached : ∀ i < doublings, 2 ^ (initialSectionsPerCompactor * 2 ^ i - 1) ≤ state) (i fuel : ℕ)
    (hi : i ≤ doublings) (hfuel : doublings - i < fuel) :
    reachesSectionCount state (initialSectionsPerCompactor * 2 ^ doublings) fuel
      (initialSectionsPerCompactor * 2 ^ i) = true := by
  induction fuel generalizing i with
  | zero => exact absurd hfuel (Nat.not_lt_zero _)
  | succ fuel ih =>
      rw [reachesSectionCount]
      rcases hi.lt_or_eq with hlt | rfl
      · have hpow : 2 ^ i ≤ 2 ^ 4 := Nat.pow_le_pow_right Nat.two_pos (by omega)
        have hpos := Nat.two_pow_pos i
        have hgrow : 2 ^ i < 2 ^ doublings := Nat.pow_lt_pow_right (by decide) hlt
        have hfrom : initialSectionsPerCompactor * 2 ^ i = 3 * 2 ^ i := rfl
        have hto : initialSectionsPerCompactor * 2 ^ doublings = 3 * 2 ^ doublings := rfl
        have hthreshold := hreached i hlt
        rw [if_pos (by omega), sectionGrowthThreshold, if_neg (by omega), Nat.one_shiftLeft]
        dsimp only
        rw [if_neg (not_lt.mpr hthreshold), if_neg (by omega), Nat.mul_assoc, ← pow_succ]
        exact ih (i + 1) hlt (by omega)
      · rw [if_neg (lt_irrefl _)]
        exact beq_self_eq_true _

variable {T : Type} [ReqValue T] {xs : List T}

omit [ReqValue T] in
theorem hasReachableSectionCount_of_layout {k doublings : ℕ} {c : Compactor T}
    (h : c.Layout k doublings) : hasReachableSectionCount c.state c.numSections = true := by
  have hreaches := reachesSectionCount_of_reached h.doublings_le h.reached 0 8 (Nat.zero_le _)
    (by have := h.doublings_le; omega)
  rw [hasReachableSectionCount, h.numSections_eq]
  rwa [pow_zero, Nat.mul_one] at hreaches

/-- The layout of a compactor is valid. -/
theorem validateCompactorState_ok {k doublings level : ℕ} {rankAccuracy : RankAccuracy}
    {c : Compactor T} (hk : ValidK k) (h : c.Layout k doublings) (hinv : c.Inv level rankAccuracy) :
    validateCompactorState k level c.state c.sectionSizeRaw c.lgWeight c.numSections = .ok () := by
  have hle : doublings ≤ 6 := h.doublings_le.trans (by decide)
  obtain ⟨hrepresents, husable, -⟩ := fits_of_le hk hle
  have hfinite : c.sectionSizeRaw.isFinite = true := by
    rw [h.sectionSizeRaw_eq]
    exact hrepresents.isFinite husable.1
  have hsize : nearestEvenSectionSize c.sectionSizeRaw = c.sectionSize := by
    rw [h.sectionSizeRaw_eq, h.sectionSize_eq]
    rfl
  have hmax : c.sectionSize ≤ k := h.sectionSize_eq.trans_le (sectionSize_le hk hle)
  rw [validateCompactorState, if_neg (not_not.mpr hinv.lgWeight_eq)]
  dsimp only
  rw [hsize, hfinite, hasReachableSectionCount_of_layout h]
  exact if_neg fun hbad ↦ hbad.elim Bool.false_ne_true fun hbad ↦
    hbad.elim (fun hrange ↦ hrange ⟨hinv.minK_le, hmax⟩) Bool.false_ne_true

/-! ## Items -/

theorem readItems_write [LawfulValue T] (items : List T) (rest : List UInt8) :
    readItems items.length (items.flatMap serializeValue ++ rest) = .ok (items, rest) := by
  induction items with
  | nil => rfl
  | cons item items ih =>
      rw [List.length_cons, readItems, List.flatMap_cons, List.append_assoc,
        bind_of_ok (LawfulValue.read_write item _), bind_of_ok ih]
      rfl

/-- A list that is sorted if it is claimed to be. -/
theorem sortStateFrom_ok {items : List T} (hnan : ∀ x ∈ items, isNan x = false) {sorted : Bool}
    (previous : Option T) (h : sorted = true → Sorted totalCmp (previous.toList ++ items)) :
    sortStateFrom previous sorted items = .ok sorted := by
  induction items generalizing previous with
  | nil => rfl
  | cons item items ih =>
      have hkeep : (sorted && !previous.any fun p ↦ (totalCmp p item).isGT) = sorted := by
        cases sorted with
        | false => rfl
        | true =>
            cases previous with
            | none => rfl
            | some p =>
                have hle : (totalCmp p item).isLE = true :=
                  List.rel_of_pairwise_cons (h rfl) List.mem_cons_self
                rw [Option.any_some, Bool.true_and]
                cases hcmp : totalCmp p item with
                | lt => rfl
                | eq => rfl
                | gt =>
                    rw [hcmp] at hle
                    cases hle
      rw [sortStateFrom, hnan item List.mem_cons_self, if_neg Bool.false_ne_true, hkeep]
      refine ih (fun x hx ↦ hnan x (List.mem_cons_of_mem _ hx)) (some item) fun hsorted ↦ ?_
      exact List.Pairwise.sublist (List.sublist_append_right _ _) (h hsorted)

theorem normalizedSortState_ok {items : List T} (hnan : ∀ x ∈ items, isNan x = false) {sorted : Bool}
    (h : sorted = true → Sorted totalCmp items) : normalizedSortState items sorted = .ok sorted :=
  sortStateFrom_ok hnan none h

/-! ## Compactors -/

namespace Compactor

variable {k level : ℕ} {rankAccuracy : RankAccuracy} {c : Compactor T}

/-- A compactor but for its coin, which is not written. -/
def withoutCoin (c : Compactor T) : Compactor T := { c with coin := false }

/-- What the fields of a compactor need to fit in. -/
structure Writable (c : Compactor T) : Prop where
  state_lt : c.state < 2 ^ 64
  lgWeight_lt : c.lgWeight < 2 ^ 8
  numItems_lt : c.numItems < 2 ^ 32
  notNan : ∀ x ∈ c.items, isNan x = false

theorem deserialize_write [LawfulValue T] (hk : ValidK k) (hlayout : c.HasLayout k)
    (hinv : c.Inv level rankAccuracy) (h : c.Writable) (rest : List UInt8) :
    deserialize k level rankAccuracy c.isSorted (c.serializeInto ++ rest) =
      .ok (c.withoutCoin, rest) := by
  obtain ⟨doublings, hlayout⟩ := hlayout
  have hle : doublings ≤ 6 := hlayout.doublings_le.trans (by decide)
  have hsections : c.numSections < 2 ^ 8 := by
    have hpow : 2 ^ doublings ≤ 2 ^ 5 := Nat.pow_le_pow_right Nat.two_pos hlayout.doublings_le
    have hthree : initialSectionsPerCompactor = 3 := rfl
    rw [hlayout.numSections_eq, hthree]
    omega
  have hraw : ∀ tail, readF32Le "compactor.section_size_raw" (writeF32Le c.sectionSizeRaw ++ tail) =
      .ok (c.sectionSizeRaw, tail) := by
    intro tail
    rw [hlayout.sectionSizeRaw_eq]
    exact readF32Le_write hk hle _ tail
  have hvalid := validateCompactorState_ok hk hlayout hinv
  have hsize : nearestEvenSectionSize c.sectionSizeRaw = c.sectionSize := by
    rw [hlayout.sectionSizeRaw_eq, hlayout.sectionSize_eq]
    rfl
  simp only [deserialize, serializeInto, List.append_assoc]
  rw [bind_of_ok (readU64Le_write h.state_lt _ _), bind_of_ok (hraw _),
    bind_of_ok (readU8_write h.lgWeight_lt _ _), bind_of_ok (readU8_write hsections _ _),
    bind_of_ok (readU16Le_write (Nat.two_pow_pos 16) _ _),
    bind_of_ok (readU32Le_write h.numItems_lt _ _), hvalid, bind_of_ok (liftResult_ok () _),
    bind_of_ok (show readItems c.numItems _ = _ from readItems_write c.items rest), normalizedSortState_ok h.notNan hinv.sorted,
    bind_of_ok (liftResult_ok _ _), fromSerializedState, hsize, ← hinv.rankAccuracy_eq]
  rfl

/-- Appending items to a new compactor. -/
theorem foldl_append_new (items : List T) (c : Compactor T) :
    ∃ sorted, items.foldl append c = { c with items := c.items ++ items, isSorted := sorted } := by
  induction items generalizing c with
  | nil => exact ⟨c.isSorted, by rw [List.foldl_nil, List.append_nil]⟩
  | cons item items ih =>
      obtain ⟨sorted, heq⟩ := ih (c.append item)
      exact ⟨sorted, by rw [List.foldl_cons, heq, append, List.append_assoc]; rfl⟩

/-- A compactor that has never been compacted is known by its items. -/
theorem withoutCoin_of_fresh (hlayout : c.HasLayout k) (hinv : c.Inv 0 rankAccuracy)
    (hstate : c.state = 0) :
    c.withoutCoin =
      { (new 0 k rankAccuracy : Compactor T) with items := c.items, isSorted := c.isSorted } := by
  obtain ⟨doublings, hlayout⟩ := hlayout
  obtain rfl : doublings = 0 := by
    by_contra hne
    have hreached := hlayout.reached 0 (Nat.pos_of_ne_zero hne)
    rw [hstate] at hreached
    exact absurd hreached (by decide)
  rw [withoutCoin]
  obtain ⟨items, isSorted, state, sectionSize, numSections, lgWeight, acc, raw, coin⟩ := c
  obtain rfl : raw = rawSize k 0 := hlayout.sectionSizeRaw_eq
  obtain rfl : sectionSize = Req.sectionSize k 0 := hlayout.sectionSize_eq
  obtain rfl : numSections = initialSectionsPerCompactor := hlayout.numSections_eq
  obtain rfl : state = 0 := hstate
  obtain rfl : lgWeight = 0 := hinv.lgWeight_eq
  obtain rfl : acc = rankAccuracy := hinv.rankAccuracy_eq
  rfl

theorem rawItemsCompactor_ok (hlayout : c.HasLayout k) (hinv : c.Inv 0 rankAccuracy)
    (hstate : c.state = 0) (hnan : ∀ x ∈ c.items, isNan x = false) :
    rawItemsCompactor k rankAccuracy c.items c.isSorted = .ok c.withoutCoin := by
  obtain ⟨sorted, heq⟩ := foldl_append_new c.items (new 0 k rankAccuracy)
  rw [rawItemsCompactor, normalizedSortState_ok hnan hinv.sorted, ok_bind, heq,
    withoutCoin_of_fresh hlayout hinv hstate]
  rfl

end Compactor

namespace ReqSketch

variable {s s' : ReqSketch T} {p : Preamble}

/-! ## The preamble -/

/-- The flags of an image. -/
theorem flags_spec (isEmpty highRank rawItems sorted : Bool) : ∃ flags,
    flags = ((if isEmpty then flagIsEmpty else 0) ||| (if highRank then flagIsHighRank else 0) |||
      (if rawItems then flagRawItems else 0) ||| (if sorted then flagIsLevelZeroSorted else 0)) ∧
    flags < 2 ^ 8 ∧ decide (flags &&& flagIsEmpty ≠ 0) = isEmpty ∧
      decide (flags &&& flagIsHighRank ≠ 0) = highRank ∧
        decide (flags &&& flagRawItems ≠ 0) = rawItems ∧
          decide (flags &&& flagIsLevelZeroSorted ≠ 0) = sorted := by
  refine ⟨_, rfl, ?_⟩
  revert isEmpty highRank rawItems sorted
  decide

/-- What the preamble of a sketch says. -/
def preamble (s : ReqSketch T) (sorted : Bool) : Preamble where
  isEmpty := s.isEmpty
  rawItems := s.isRawItems
  isLevelZeroSorted := sorted
  rankAccuracy := s.rankAccuracy
  k := s.k
  numLevels := if s.isEmpty then 0 else s.compactors.length
  numRawItems := if s.isRawItems then s.n else 0

theorem readPreamble_write (hk : ValidK s.k) (hfew : s.compactors.length ≤ 64)
    (hempty : s.isEmpty = true → s.compactors.length = 1) {first : Compactor T}
    (hfirst : s.compactors[0]? = some first) :
    ∃ flags, s.flagsByte = .ok flags ∧ ∀ rest,
      readPreamble (s.preambleBytes flags ++ rest) = .ok (s.preamble first.isSorted, rest) := by
  obtain ⟨flags, hflags, hlt, hisEmpty, hhigh, hraw, hsorted⟩ :=
    flags_spec s.isEmpty (decide (s.rankAccuracy = .highRank)) s.isRawItems first.isSorted
  refine ⟨flags, ?_, fun rest ↦ ?_⟩
  · rw [flagsByte, compactorAt_eq hfirst, ok_bind, hflags]
    simp only [decide_eq_true_eq]
    rfl
  · have hints : (if s.isEstimationMode then preambleIntsEstimation else preambleIntsExact) =
        if (if s.isEmpty then 0 else s.compactors.length) > 1 then preambleIntsEstimation
          else preambleIntsExact := by
      rw [isEstimationMode]
      cases hs : s.isEmpty with
      | true =>
          rw [hempty hs]
          rfl
      | false => simp only [decide_eq_true_eq, Bool.false_eq_true, if_false]
    have hlevels : (if s.isEmpty then 0 else s.compactors.length) < 2 ^ 8 := by
      split_ifs <;> omega
    have hitems : (if s.isRawItems then s.n else 0) < 2 ^ 8 := by
      split_ifs with hraw
      · rw [isRawItems, decide_eq_true_eq, rawItemsThreshold] at hraw
        omega
      · exact Nat.two_pow_pos 8
    have hacc : (if flags &&& flagIsHighRank ≠ 0 then RankAccuracy.highRank else .lowRank) =
        s.rankAccuracy := by
      rw [decide_eq_decide] at hhigh
      cases hs : s.rankAccuracy with
      | highRank => exact if_pos (hhigh.mpr hs)
      | lowRank =>
          refine if_neg fun hflag ↦ ?_
          rw [hs] at hhigh
          cases hhigh.mp hflag
    obtain ⟨hmin, hmax, heven⟩ := hk
    rw [maxK] at hmax
    simp only [readPreamble, preambleBytes, List.append_assoc]
    rw [bind_of_ok (readU8_write (by split_ifs <;> decide) _ _),
      bind_of_ok (readU8_write (by decide) _ _), bind_of_ok (readU8_write (by decide) _ _),
      bind_of_ok (readU8_write hlt _ _), bind_of_ok (readU16Le_write (by omega) _ _),
      bind_of_ok (readU8_write hlevels _ _), bind_of_ok (readU8_write hitems _ _), hints,
      checkPreambleInts, ensurePreambleLongsIn, if_pos (List.mem_singleton_self _),
      bind_of_ok (liftResult_ok _ _), checkSerialVersion, ensureSerialVersionIs, if_pos rfl,
      bind_of_ok (liftResult_ok _ _), Family.validateId, if_neg (not_not.mpr rfl),
      bind_of_ok (liftResult_ok _ _), if_neg, hisEmpty, hraw, hsorted, hacc]
    · rfl
    · rintro (hrange | hodd)
      · exact hrange ⟨hmin, by rw [maxK]; exact hmax⟩
      · exact hodd heven

/-! ## The levels -/

/-- The levels of a sketch that can be written. -/
structure WritableLevels (k : ℕ) (rankAccuracy : RankAccuracy) (i : ℕ) (cs : List (Compactor T)) :
    Prop where
  inv : ∀ (j : ℕ) (c : Compactor T), cs[j]? = some c → c.Inv (i + j) rankAccuracy
  layout : ∀ c ∈ cs, c.HasLayout k
  writable : ∀ c ∈ cs, c.Writable

theorem WritableLevels.tail {k i : ℕ} {rankAccuracy : RankAccuracy} {c : Compactor T}
    {cs : List (Compactor T)} (h : WritableLevels k rankAccuracy i (c :: cs)) :
    WritableLevels k rankAccuracy (i + 1) cs where
  inv j d hd := by
    rw [Nat.add_assoc, Nat.add_comm 1 j]
    exact h.inv (j + 1) d hd
  layout d hd := h.layout d (List.mem_cons_of_mem c hd)
  writable d hd := h.writable d (List.mem_cons_of_mem c hd)

/-- Only level 0 may be unsorted, and its flag is in the preamble. -/
theorem readLevels_write [LawfulValue T] (hk : ValidK p.k) {i : ℕ} {cs : List (Compactor T)}
    (h : WritableLevels p.k p.rankAccuracy i cs)
    (hfirst : i = 0 → ∀ c, cs[0]? = some c → c.isSorted = p.isLevelZeroSorted) (rest : List UInt8) :
    readLevels p i cs.length (cs.flatMap Compactor.serializeInto ++ rest) =
      .ok (cs.map Compactor.withoutCoin, rest) := by
  induction cs generalizing i with
  | nil => rfl
  | cons c cs ih =>
      have hinv : c.Inv i p.rankAccuracy := h.inv 0 c rfl
      have hsorted : (decide (i > 0) || p.isLevelZeroSorted) = c.isSorted := by
        rcases Nat.eq_zero_or_pos i with rfl | hpos
        · rw [hfirst rfl c rfl]
          rfl
        · rw [hinv.flagged (.inl hpos), decide_eq_true hpos, Bool.true_or]
      have hread := Compactor.deserialize_write hk (h.layout c List.mem_cons_self) hinv
        (h.writable c List.mem_cons_self) (cs.flatMap Compactor.serializeInto ++ rest)
      have hrest := ih h.tail fun hzero ↦ absurd hzero (Nat.succ_ne_zero i)
      rw [List.length_cons, readLevels, List.flatMap_cons, List.append_assoc, hsorted,
        bind_of_ok hread, bind_of_ok hrest]
      rfl

/-! ## The extreme items -/

theorem extreme_foldl {before : T → T → Prop} {choose : Option T → T → T} (h : Chooses before choose)
    {m : T} {ys : List T} (hm : Extreme before (some m) ys) (rest : List T) :
    Extreme before (some (rest.foldl (fun m x ↦ choose (some m) x) m)) (ys ++ rest) := by
  induction rest generalizing m ys with
  | nil =>
      rw [List.append_nil]
      exact hm
  | cons x rest ih =>
      have hx := ih (hm.append h (.singleton h x))
      rwa [List.append_assoc] at hx

/-- The recovered items are the extreme items of the level. -/
theorem extremes_spec (items : List T) :
    Extreme AtMost (extremes items).1 items ∧ Extreme AtLeast (extremes items).2 items := by
  cases items with
  | nil => exact ⟨.nil _, .nil _⟩
  | cons first rest =>
      exact ⟨extreme_foldl chooses_lesser (.singleton chooses_lesser first) rest,
        extreme_foldl chooses_greater (.singleton chooses_greater first) rest⟩

/-! ## The totals -/

theorem inRange_of_lt {bits n : ℕ} (h : n < 2 ^ bits) : inRange bits n = .ok n := if_pos h

/-- No total overflows. -/
theorem run_addTotals {cs : List (Compactor T)} {t : LevelTotals}
    (hweight : ∀ c ∈ cs, c.lgWeight < 64) (hretained : t.retained + itemCount cs < 2 ^ 32)
    (hcapacity : t.capacity + capacity cs < 2 ^ 32)
    (hweighted : t.weighted + weightedCount cs < 2 ^ 64) :
    run addTotals t cs = .ok ⟨t.retained + itemCount cs, t.capacity + capacity cs,
      t.weighted + weightedCount cs⟩ := by
  induction cs generalizing t with
  | nil => rfl
  | cons c cs ih =>
      have hcount : itemCount (c :: cs) = c.numItems + itemCount cs := List.sum_cons
      have hnominal : capacity (c :: cs) = c.nominalCapacity + capacity cs := List.sum_cons
      have hsum : weightedCount (c :: cs) = c.numItems * 2 ^ c.lgWeight + weightedCount cs :=
        List.sum_cons
      rw [hcount, ← Nat.add_assoc] at hretained
      rw [hnominal, ← Nat.add_assoc] at hcapacity
      rw [hsum, ← Nat.add_assoc] at hweighted
      have hone : c.weight = .ok (2 ^ c.lgWeight) := by
        rw [Compactor.weight, if_pos (hweight c List.mem_cons_self), Nat.one_shiftLeft]
        rfl
      have hstep : addTotals t c = .ok ⟨t.retained + c.numItems, t.capacity + c.nominalCapacity,
          t.weighted + c.numItems * 2 ^ c.lgWeight⟩ := by
        rw [addTotals, inRange_of_lt (by omega), ok_bind, inRange_of_lt (by omega), ok_bind, hone,
          ok_mapError, ok_bind, inRange_of_lt (by omega), ok_bind, inRange_of_lt (by omega)]
        rfl
      rw [run_cons, hstep, ok_bind, ih (fun d hd ↦ hweight d (List.mem_cons_of_mem c hd)) hretained
        hcapacity hweighted, hcount, hnominal, hsum, Nat.add_assoc, Nat.add_assoc, Nat.add_assoc]

/-! ## The image of a sketch -/

section Image

variable [LawfulValue T]

theorem length_flatMap_serializeValue (items : List T) :
    (items.flatMap serializeValue).length = (items.map serializeSize).sum := by
  rw [List.length_flatMap]
  exact congrArg List.sum (List.map_congr_left fun x _ ↦ LawfulValue.length_eq x)

theorem length_serializeInto (c : Compactor T) :
    c.serializeInto.length = 20 + (c.items.map serializeSize).sum := by
  rw [← length_flatMap_serializeValue]
  simp only [Compactor.serializeInto, List.length_append, writeU64Le, writeF32Le, writeU8, writeU16Le,
    writeU32Le, length_leBytes]
  omega

/-- The size is that of what is written. -/
theorem serializedSizeBytes_eq (hempty : s.isEmpty = false) {bounds levels : List UInt8}
    (hbounds : s.boundsBytes = .ok bounds) (hlevels : s.levelsBytes = .ok levels) :
    s.serializedSizeBytes = .ok (8 + bounds.length + levels.length) := by
  have hfirst : s.boundsSize = .ok bounds.length := by
    rw [boundsBytes] at hbounds
    rw [boundsSize]
    split_ifs at hbounds ⊢
    · obtain ⟨min, hmin, hbounds⟩ := bind_eq_ok.mp hbounds
      obtain ⟨max, hmax, hbounds⟩ := bind_eq_ok.mp hbounds
      rw [hmin, ok_bind, hmax, ok_bind, ← Except.ok.inj hbounds, List.length_append,
        List.length_append, LawfulValue.length_eq, LawfulValue.length_eq, writeU64Le, length_leBytes,
        ← Nat.add_assoc]
      rfl
    · rw [← Except.ok.inj hbounds]
      rfl
  have hsecond : s.levelsSize = .ok levels.length := by
    rw [levelsBytes] at hlevels
    rw [levelsSize]
    split_ifs at hlevels ⊢
    · obtain ⟨first, hfirst, hlevels⟩ := bind_eq_ok.mp hlevels
      rw [hfirst, ok_bind, ← Except.ok.inj hlevels, length_flatMap_serializeValue]
      rfl
    · rw [← Except.ok.inj hlevels, List.length_flatMap]
      exact congrArg (fun sizes ↦ Except.ok (List.sum sizes))
        (List.map_congr_left fun c _ ↦ (length_serializeInto c).symm)
  rw [serializedSizeBytes, hempty, if_neg Bool.false_ne_true, hfirst, ok_bind, hsecond, ok_bind]
  rfl

omit [LawfulValue T] in
theorem length_preambleBytes (s : ReqSketch T) (flags : ℕ) : (s.preambleBytes flags).length = 8 := by
  simp only [preambleBytes, List.length_append, writeU8, writeU16Le, length_leBytes]

omit [LawfulValue T] in
/-- The levels of a sketch can be written. -/
theorem Inv.writableLevels (h : Inv s xs) : WritableLevels s.k s.rankAccuracy 0 s.compactors where
  inv j c hc := by
    rw [Nat.zero_add]
    exact h.levels.inv j c hc
  layout := h.levels.layout
  writable c hc := by
    obtain ⟨i, hi⟩ := List.mem_iff_getElem?.mp hc
    have hlt := (List.getElem?_eq_some_iff.mp hi).1
    have hfew := h.levels.length_le_64 h.length_lt
    have hretained := (length_le_itemCount hc).trans h.retained_le
    have hbound := Nat.mul_le_mul_right levelBound hfew
    have hsmall : 64 * levelBound < 2 ^ 32 := by decide
    refine ⟨Nat.lt_of_succ_lt (h.levels.state_lt h.length_lt hi), ?_, ?_, fun x hx ↦
      h.notNan x (h.levels.mem hc hx)⟩
    · rw [(h.levels.inv i c hi).lgWeight_eq]
      omega
    · exact (hretained.trans hbound).trans_lt hsmall

omit [LawfulValue T] in
/-- With one level, all items are retained. -/
theorem Inv.exact (h : Inv s xs) (hone : s.compactors.length = 1) :
    ∃ c, s.compactors = [c] ∧ (c.items : Multiset T) = xs ∧ c.state = 0 ∧ c.items.length = s.n := by
  obtain ⟨c, hc⟩ := List.length_eq_one_iff.mp hone
  have hget : s.compactors[0]? = some c := by rw [hc, List.getElem?_cons_zero]
  have hinv := h.levels.inv 0 c hget
  have hflow := h.levels.flow 0 c hget
  have hweight := h.levels.weight_eq
  rw [hc, weightedCount, List.map_singleton, List.sum_singleton, hinv.lgWeight_eq, pow_zero,
    Nat.mul_one] at hweight
  rw [hc] at hflow
  refine ⟨c, hc, ?_, ?_, hweight.trans h.n_eq.symm⟩
  · have hle := h.levels.retained_le
    rw [hc] at hle
    exact Multiset.eq_of_le_of_card_le ((le_retained (List.mem_singleton_self c)).trans hle)
      hweight.ge
  · have hzero : weightedCount ([] : List (Compactor T)) = 0 := rfl
    rw [List.drop_succ_cons, List.drop_nil, hzero] at hflow
    omega

omit [LawfulValue T] in
theorem Inv.length_of_isEmpty (h : Inv s xs) (hempty : s.isEmpty = true) :
    s.compactors.length = 1 := by
  have hnil := h.isEmpty_iff.mp hempty
  have hpos := List.length_pos_iff.mpr h.levels.ne_nil
  have hle := h.levels.length_le
  rw [hnil, List.length_nil, Nat.log2_zero] at hle
  omega

/-- What the bounds of an image say. -/
def writtenBounds (s : ReqSketch T) : Bounds T :=
  if s.isEstimationMode then ⟨s.n, s.minItem, s.maxItem⟩ else ⟨1, none, none⟩

theorem Inv.readBounds_write (h : Inv s xs) (hempty : s.isEmpty = false) :
    ∃ bytes, s.boundsBytes = .ok bytes ∧
      ∀ rest, readBounds s.compactors.length (bytes ++ rest) = .ok (s.writtenBounds, rest) := by
  rw [boundsBytes, writtenBounds]
  by_cases hlong : s.compactors.length > 1
  · have hmode : s.isEstimationMode = true := decide_eq_true hlong
    have hne : xs ≠ [] := fun hnil ↦ by
      rw [h.isEmpty_iff.mpr hnil] at hempty
      cases hempty
    rcases h.min with ⟨-, hnil⟩ | ⟨min, hmin, hminItem, hall⟩
    · exact absurd hnil hne
    rcases h.max with ⟨-, hnil⟩ | ⟨max, hmax, hmaxItem, -⟩
    · exact absurd hnil hne
    rw [if_pos hmode, if_pos hmode, hminItem, hmaxItem]
    refine ⟨_, rfl, fun rest ↦ ?_⟩
    have hle : (totalCmp min max).isGT = false := by
      have hle : (totalCmp min max).isLE = true := hall max hmax
      cases hcmp : totalCmp min max with
      | lt => rfl
      | eq => rfl
      | gt =>
          rw [hcmp] at hle
          cases hle
    rw [readBounds, if_pos hlong, List.append_assoc, List.append_assoc,
      bind_of_ok (readU64Le_write h.n_lt _ _), bind_of_ok (LawfulValue.read_write min _),
      bind_of_ok (LawfulValue.read_write max _), h.notNan min hmin, h.notNan max hmax, hle]
    rfl
  · have hmode : ¬ s.isEstimationMode = true := fun hmode ↦ hlong (of_decide_eq_true hmode)
    rw [if_neg hmode, if_neg hmode]
    refine ⟨_, rfl, fun rest ↦ ?_⟩
    rw [readBounds, if_neg hlong]
    rfl

theorem Inv.readCompactors_write (h : Inv s xs) {first : Compactor T}
    (hfirst : s.compactors[0]? = some first) (hempty : s.isEmpty = false) :
    ∃ bytes, s.levelsBytes = .ok bytes ∧ ∀ rest, readCompactors (s.preamble first.isSorted)
      (bytes ++ rest) = .ok (s.compactors.map Compactor.withoutCoin, rest) := by
  rw [levelsBytes]
  cases hraw : s.isRawItems with
  | true =>
      have hone : s.compactors.length = 1 := (of_decide_eq_true hraw).2
      obtain ⟨c, hc, -, hstate, hcount⟩ := h.exact hone
      rw [hc, List.getElem?_cons_zero, Option.some_inj] at hfirst
      subst hfirst
      have hget : s.compactors[0]? = some c := by rw [hc, List.getElem?_cons_zero]
      have hmem : c ∈ s.compactors := List.mem_of_getElem? hget
      have hnum : (s.preamble c.isSorted).numRawItems = c.items.length := by
        rw [preamble, hraw, hcount]
        rfl
      rw [if_pos rfl, compactorAt_eq hget, ok_bind]
      refine ⟨_, rfl, fun rest ↦ ?_⟩
      rw [readCompactors, if_pos (show (s.preamble c.isSorted).rawItems = true from hraw), hnum,
        bind_of_ok (readItems_write c.items rest)]
      have hraw := Compactor.rawItemsCompactor_ok (h.levels.layout c hmem) (h.levels.inv 0 c hget)
        hstate fun x hx ↦ h.notNan x (h.levels.mem hmem hx)
      rw [preamble]
      dsimp only
      rw [hraw, bind_of_ok (liftResult_ok _ _), hc]
      rfl
  | false =>
      rw [if_neg Bool.false_ne_true]
      refine ⟨_, rfl, fun rest ↦ ?_⟩
      have hnum : (s.preamble first.isSorted).numLevels = s.compactors.length := by
        rw [preamble, hempty]
        rfl
      have hnot : (s.preamble first.isSorted).rawItems = false := hraw
      rw [readCompactors, hnot, if_neg Bool.false_ne_true, hnum]
      refine readLevels_write h.validK h.writableLevels (fun _ c hc ↦ ?_) rest
      rw [hfirst, Option.some_inj] at hc
      rw [← hc]
      rfl

end Image

/-! ## The sketch that is read back -/

section Coins

variable (cs : List (Compactor T))

omit [ReqValue T]

theorem weightedCount_withoutCoin :
    weightedCount (cs.map Compactor.withoutCoin) = weightedCount cs := by
  rw [weightedCount, List.map_map]
  rfl

theorem itemCount_withoutCoin : itemCount (cs.map Compactor.withoutCoin) = itemCount cs := by
  rw [itemCount, List.map_map]
  rfl

theorem capacity_withoutCoin : capacity (cs.map Compactor.withoutCoin) = capacity cs := by
  rw [capacity, List.map_map]
  rfl

theorem retained_withoutCoin : retained (cs.map Compactor.withoutCoin) = retained cs := by
  rw [retained, List.map_map]
  rfl

end Coins

/-- The levels do not depend on the coins. -/
theorem levels_withoutCoin {k : ℕ} {rankAccuracy : RankAccuracy} {cs : List (Compactor T)}
    (h : Levels k rankAccuracy xs cs) : Levels k rankAccuracy xs (cs.map Compactor.withoutCoin) := by
  have hget : ∀ (i : ℕ) (c' : Compactor T), (cs.map Compactor.withoutCoin)[i]? = some c' →
      ∃ c, cs[i]? = some c ∧ c.withoutCoin = c' := by
    intro i c' hc'
    rw [List.getElem?_map] at hc'
    exact Option.map_eq_some_iff.mp hc'
  refine ⟨fun i c' hc' ↦ ?_, fun c' hc' ↦ ?_, fun i c' hc' ↦ ?_, ?_, ?_, ?_, fun c' hlong hc' ↦ ?_⟩
  · obtain ⟨c, hc, rfl⟩ := hget i c' hc'
    have hinv := h.inv i c hc
    exact ⟨hinv.lgWeight_eq, hinv.rankAccuracy_eq, hinv.sorted, hinv.flagged, hinv.minK_le,
      hinv.numSections_pos⟩
  · obtain ⟨c, hc, rfl⟩ := List.mem_map.mp hc'
    exact (h.layout c hc).of_sameSections ⟨rfl, rfl, rfl, rfl⟩
  · obtain ⟨c, hc, rfl⟩ := hget i c' hc'
    rw [← List.map_drop, weightedCount_withoutCoin]
    exact h.flow i c hc
  · rw [weightedCount_withoutCoin, h.weight_eq]
  · rw [retained_withoutCoin]
    exact h.retained_le
  · exact fun hnil ↦ h.ne_nil (List.map_eq_nil_iff.mp hnil)
  · rw [List.length_map] at hlong hc'
    obtain ⟨c, hc, rfl⟩ := hget _ c' hc'
    exact h.top c hlong hc

/-- What is read back: everything but the coins and, with one level, which ones of several equally
extreme items are the extreme items. -/
structure Restored (s s' : ReqSketch T) : Prop where
  k_eq : s'.k = s.k
  rankAccuracy_eq : s'.rankAccuracy = s.rankAccuracy
  n_eq : s'.n = s.n
  maxNomSize_eq : s'.maxNomSize = s.maxNomSize
  numRetained_eq : s'.numRetained = s.numRetained
  compactors_eq : s'.compactors = s.compactors.map Compactor.withoutCoin
  minItem_rel : Option.Rel SameRank s.minItem s'.minItem
  maxItem_rel : Option.Rel SameRank s.maxItem s'.maxItem
  extremes_eq : s.isEstimationMode = true → s'.minItem = s.minItem ∧ s'.maxItem = s.maxItem

/-- The extreme items that are recovered or read. -/
theorem Inv.recoverBounds_ok (h : Inv s xs) (hempty : s.isEmpty = false) (sorted : Bool) :
    ∃ min max, recoverBounds (s.preamble sorted) s.writtenBounds
        (s.compactors.map Compactor.withoutCoin) = .ok ⟨s.n, min, max⟩ ∧
      Extreme AtMost min xs ∧ Extreme AtLeast max xs ∧
        (s.isEstimationMode = true → min = s.minItem ∧ max = s.maxItem) := by
  have hnum : (s.preamble sorted).numLevels = s.compactors.length := by
    rw [preamble, hempty]
    rfl
  rw [recoverBounds, hnum]
  by_cases hone : s.compactors.length = 1
  · obtain ⟨c, hc, hitems, -, hcount⟩ := h.exact hone
    obtain ⟨hmin, hmax⟩ := extremes_spec c.items
    have hmem : ∀ x, x ∈ c.items ↔ x ∈ xs := by
      intro x
      rw [← Multiset.mem_coe, hitems, Multiset.mem_coe]
    have hmode : ¬ s.isEstimationMode = true := fun hmode ↦
      absurd hone (of_decide_eq_true hmode).ne'
    refine ⟨_, _, ?_, hmin.of_mem hmem, hmax.of_mem hmem, fun h ↦ absurd h hmode⟩
    rw [if_pos hone, hc, ← hcount]
    rfl
  · have hpos := List.length_pos_iff.mpr h.levels.ne_nil
    have hmode : s.isEstimationMode = true := decide_eq_true (by omega)
    refine ⟨s.minItem, s.maxItem, ?_, h.min, h.max, fun _ ↦ ⟨rfl, rfl⟩⟩
    rw [if_neg hone, writtenBounds, if_pos hmode]
    rfl

omit [ReqValue T] in
theorem tryNew_ok_of_valid {k : ℕ} (hk : ValidK k) (rankAccuracy : RankAccuracy) :
    (tryNew k rankAccuracy : Except Error (ReqSketch T)) = .ok (create k rankAccuracy) := by
  obtain ⟨hmin, hmax, heven⟩ := hk
  rw [tryNew, if_neg (not_not.mpr ⟨hmin, hmax⟩)]
  exact if_neg (not_not.mpr heven)

/-- The image of a sketch passes the checks of the totals. -/
theorem Inv.assemble_ok (h : Inv s xs) (hempty : s.isEmpty = false) (sorted : Bool) :
    ∃ s', assemble (s.preamble sorted) s.writtenBounds (s.compactors.map Compactor.withoutCoin) =
      .ok s' ∧ Restored s s' ∧ Inv s' xs := by
  obtain ⟨min, max, hrecover, hmin, hmax, heq⟩ := h.recoverBounds_ok hempty sorted
  have hne : xs ≠ [] := fun hnil ↦ by
    rw [h.isEmpty_iff.mpr hnil] at hempty
    cases hempty
  have hfew := h.levels.length_le_64 h.length_lt
  have hbound := Nat.mul_le_mul_right levelBound hfew
  have hsmall : 64 * levelBound < 2 ^ 32 := by decide
  have hcapacity := h.levels.capacity_le h.validK h.length_lt
  have hretained := h.retained_le
  have hlg : ∀ c ∈ s.compactors.map Compactor.withoutCoin, c.lgWeight < 64 := by
    intro c' hc'
    obtain ⟨c, hc, rfl⟩ := List.mem_map.mp hc'
    obtain ⟨i, hi⟩ := List.mem_iff_getElem?.mp hc
    have hlt := (List.getElem?_eq_some_iff.mp hi).1
    exact (h.levels.inv i c hi).lgWeight_eq.trans_lt (by omega)
  have htotals := run_addTotals (t := ⟨0, 0, 0⟩) hlg
    (by rw [itemCount_withoutCoin, Nat.zero_add]; omega)
    (by rw [capacity_withoutCoin, Nat.zero_add]; omega)
    (by
      rw [weightedCount_withoutCoin, h.levels.weight_eq, Nat.zero_add]
      exact h.length_lt)
  rw [itemCount_withoutCoin, capacity_withoutCoin, weightedCount_withoutCoin, h.levels.weight_eq,
    ← h.n_eq, Nat.zero_add, Nat.zero_add, Nat.zero_add] at htotals
  have hsome : ¬ (s.n = 0 ∨ min.isNone = true ∨ max.isNone = true) := by
    rintro (hzero | hnone | hnone)
    · rw [h.n_eq] at hzero
      exact hne (List.length_eq_zero_iff.mp hzero)
    · rcases hmin with ⟨-, hnil⟩ | ⟨x, -, rfl, -⟩
      · exact hne hnil
      · cases hnone
    · rcases hmax with ⟨-, hnil⟩ | ⟨x, -, rfl, -⟩
      · exact hne hnil
      · cases hnone
  have hraw : (s.preamble sorted).rawItems =
      decide ((s.preamble sorted).numLevels = 1 ∧ s.n ≤ rawItemsThreshold) := by
    rw [preamble, hempty]
    exact decide_eq_decide.mpr and_comm
  have hnew : (tryNew (s.preamble sorted).k (s.preamble sorted).rankAccuracy : Except Error _) =
      .ok (create s.k s.rankAccuracy : ReqSketch T) := tryNew_ok_of_valid h.validK _
  refine ⟨{ s with
    minItem := min
    maxItem := max
    compactors := s.compactors.map Compactor.withoutCoin
    maxNomSize := capacity s.compactors
    numRetained := itemCount s.compactors }, ?_, ?_, ?_⟩
  · rw [assemble, hrecover, ok_mapError, ok_bind]
    dsimp only
    rw [if_neg hsome, ← hraw, if_neg (not_not.mpr rfl), htotals, ok_bind]
    dsimp only
    rw [if_neg (not_not.mpr rfl), hnew]
    rfl
  · exact ⟨rfl, rfl, rfl, h.totals.maxNomSize_eq.symm, h.totals.numRetained_eq.symm, rfl,
      h.min.sameRank atMost_antisymm hmin fun _ ↦ Iff.rfl,
      h.max.sameRank (fun h h' ↦ atMost_antisymm h' h) hmax fun _ ↦ Iff.rfl, heq⟩
  · refine ⟨⟨h.validK, levels_withoutCoin h.levels, ⟨(capacity_withoutCoin _).symm,
      (itemCount_withoutCoin _).symm⟩, h.n_eq, h.n_lt, hmin, hmax, h.notNan⟩, ?_⟩
    rw [List.length_map, itemCount_withoutCoin]
    exact h.retained_le

theorem Preamble.checkLevels_ok (h : Inv s xs) (hempty : s.isEmpty = false) (sorted : Bool) :
    (s.preamble sorted).checkLevels = .ok () := by
  have hfew := h.levels.length_le_64 h.length_lt
  have hpos := List.length_pos_iff.mpr h.levels.ne_nil
  have hn : s.n ≠ 0 := of_decide_eq_false hempty
  have hnum : (s.preamble sorted).numLevels = s.compactors.length := by
    rw [preamble, hempty]
    rfl
  have hrawItems : (s.preamble sorted).rawItems = s.isRawItems := rfl
  have hnumRaw : (s.preamble sorted).numRawItems = if s.isRawItems then s.n else 0 := rfl
  rw [Preamble.checkLevels, hnum, hrawItems, hnumRaw, if_neg hpos.ne', if_neg (not_lt.mpr hfew)]
  cases hraw : s.isRawItems with
  | true =>
      obtain ⟨hle, hone⟩ : s.n ≤ rawItemsThreshold ∧ s.compactors.length = 1 := of_decide_eq_true hraw
      dsimp only
      rw [if_pos rfl, if_neg (not_not.mpr hone), if_pos rfl, if_neg (by omega)]
      rfl
  | false => rfl

/-- An empty sketch is read back as a new one. -/
theorem Inv.restored_create (h : Inv s xs) (hempty : s.isEmpty = true) :
    Restored s (create s.k s.rankAccuracy) ∧ Inv (create s.k s.rankAccuracy) xs := by
  have hnil := h.isEmpty_iff.mp hempty
  obtain ⟨c, hc, hitems, hstate, hcount⟩ := h.exact (h.length_of_isEmpty hempty)
  have hget : s.compactors[0]? = some c := by rw [hc, List.getElem?_cons_zero]
  have hinv := h.levels.inv 0 c hget
  have hnone : c.items = [] := by
    rw [hnil] at hitems
    exact Multiset.coe_eq_zero c.items |>.mp hitems
  have hnew : (create s.k s.rankAccuracy : ReqSketch T).compactors =
      s.compactors.map Compactor.withoutCoin := by
    rw [hc, List.map_singleton, Compactor.withoutCoin_of_fresh (h.levels.layout c
      (List.mem_of_getElem? hget)) hinv hstate, hinv.flagged (.inr hnone), hnone]
    rfl
  have hextremes : s.minItem = none ∧ s.maxItem = none := by
    rcases h.min with ⟨hmin, -⟩ | ⟨x, hx, -⟩
    · rcases h.max with ⟨hmax, -⟩ | ⟨x, hx, -⟩
      · exact ⟨hmin, hmax⟩
      · rw [hnil] at hx
        cases hx
    · rw [hnil] at hx
      cases hx
  obtain ⟨hmin, hmax⟩ := hextremes
  have hcreate := inv_create (T := T) h.validK s.rankAccuracy
  refine ⟨⟨rfl, rfl, (of_decide_eq_true hempty).symm, ?_, ?_, hnew, hmin ▸ .none, hmax ▸ .none,
    fun _ ↦ ⟨hmin.symm, hmax.symm⟩⟩, hnil ▸ hcreate⟩
  · rw [hcreate.totals.maxNomSize_eq, hnew, capacity_withoutCoin, h.totals.maxNomSize_eq]
  · rw [hcreate.totals.numRetained_eq, hnew, itemCount_withoutCoin, h.totals.numRetained_eq]

/-- A sketch is read back from what it writes, which has the size that is announced. -/
theorem Inv.deserialize_serialize [LawfulValue T] (h : Inv s xs) :
    ∃ bytes s', s.serialize = .ok bytes ∧ s.serializedSizeBytes = .ok bytes.length ∧
      deserialize bytes = .ok s' ∧ Restored s s' ∧ Inv s' xs := by
  obtain ⟨first, hfirst⟩ := h.exists_first
  obtain ⟨flags, hflags, hpreamble⟩ := readPreamble_write h.validK
    (h.levels.length_le_64 h.length_lt) h.length_of_isEmpty hfirst
  cases hempty : s.isEmpty with
  | true =>
      have hsize : s.serializedSizeBytes = .ok 8 := by
        rw [serializedSizeBytes, hempty]
        rfl
      have hnew : (tryNew s.k s.rankAccuracy : Except Error (ReqSketch T)) =
          .ok (create s.k s.rankAccuracy) := tryNew_ok_of_valid h.validK _
      have hread := hpreamble []
      rw [List.append_nil] at hread
      refine ⟨_, _, ?_, hsize.trans (congrArg Except.ok (length_preambleBytes s flags).symm), ?_,
        h.restored_create hempty⟩
      · rw [serialize, hsize, ok_bind, hflags, ok_bind, hempty]
        rfl
      · have hcheck : (s.preamble first.isSorted).checkEmpty = .ok () := by
          have hraw : s.isRawItems = true :=
            decide_eq_true ⟨(of_decide_eq_true hempty).trans_le (Nat.zero_le 4),
              h.length_of_isEmpty hempty⟩
          rw [Preamble.checkEmpty, preamble, hempty, hraw]
          dsimp only
          rw [if_pos rfl, if_pos rfl, if_neg (not_not.mpr rfl),
            if_neg (not_not.mpr (of_decide_eq_true hempty))]
          rfl
        rw [deserialize, deserializer, bind_of_ok hread,
          if_pos (show (s.preamble first.isSorted).isEmpty = true from hempty), hcheck,
          bind_of_ok (liftResult_ok _ _)]
        rw [preamble]
        dsimp only
        rw [hnew]
        rfl
  | false =>
      obtain ⟨bounds, hbounds, hreadBounds⟩ := h.readBounds_write hempty
      obtain ⟨levels, hlevels, hreadLevels⟩ := h.readCompactors_write hfirst hempty
      obtain ⟨s', hassemble, hrestored, hinv⟩ := h.assemble_ok hempty first.isSorted
      have hsize := serializedSizeBytes_eq hempty hbounds hlevels
      refine ⟨s.preambleBytes flags ++ (bounds ++ levels), s', ?_, ?_, ?_, hrestored, hinv⟩
      · rw [serialize, hsize, ok_bind, hflags, ok_bind, hempty, if_neg Bool.false_ne_true, hbounds,
          ok_bind, hlevels, ok_bind]
        rfl
      · rw [hsize, List.length_append, List.length_append, length_preambleBytes, Nat.add_assoc]
      · have hnum : (s.preamble first.isSorted).numLevels = s.compactors.length := by
          rw [preamble, hempty]
          rfl
        have hlast := hreadLevels []
        rw [List.append_nil] at hlast
        have hnot : (s.preamble first.isSorted).isEmpty = false := hempty
        rw [deserialize, deserializer, bind_of_ok (hpreamble _), hnot, if_neg Bool.false_ne_true,
          Preamble.checkLevels_ok h hempty, bind_of_ok (liftResult_ok _ _), hnum,
          bind_of_ok (hreadBounds levels), bind_of_ok hlast, hassemble, lift_ok]
        rfl

end ReqSketch

end Req

end DataSketches
