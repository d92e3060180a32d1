import DataSketches.Frequencies.Run

/-!
# Decoding frequent items sketches

A sketch that a script makes is decoded to an equal one: the table is rebuilt at
the size it had, so no update of the rebuilding grows or purges it.  An image from
elsewhere holds its weights, the stream weight and the offset as independent
fields, and only the weights and the offset decide whether decoding and asking
stay within 64 bits.
-/

namespace DataSketches

open Runs Counters SketchSlice ByteReader

namespace FrequentItemsSketch

variable {T Q : Type} [DecidableEq T] [Hash T] [DecidableEq Q] [Hash Q] [Borrow T Q]
variable {f g : FrequentItemsSketch T}

/-! ## Images of sketches -/

/-- A sketch that was made is of a supported size, and its weight never exceeded 64 bits. -/
theorem Script.supported_of_eval (value : FrequentItemValue T) {s : Script T Q}
    (h : s.eval value = .ok f) : s.Sized ∧ s.Fits := by
  induction s generalizing f with
  | new maxMapSize =>
      obtain ⟨hpow, hnew⟩ := assert_bind_eq_ok.mp (checked_eq_ok.mp h)
      exact ⟨⟨hpow, (assert_bind_eq_ok.mp hnew).1⟩, trivial⟩
  | update s item count ih =>
      obtain ⟨f₀, h₀, h⟩ := bind_eq_ok.mp h
      obtain ⟨hsized, hfit⟩ := ih h₀
      have hmade := (Script.made value hsized hfit).post_of_ok h₀
      refine ⟨hsized, ?_, hfit⟩
      have hadd := checked_eq_ok.mp h
      rw [updateWithCount] at hadd
      split_ifs at hadd with hzero
      · rw [hzero]
        exact hfit.weight_lt
      · obtain ⟨-, hadd⟩ := assert_bind_eq_ok.mp hadd
        obtain ⟨w, hw, -⟩ := bind_eq_ok.mp hadd
        exact hmade.summary.weight_eq ▸ (checkedAdd_eq_ok.mp hw).1
  | updateRef s item count ih =>
      obtain ⟨f₀, h₀, h⟩ := bind_eq_ok.mp h
      obtain ⟨hsized, hfit⟩ := ih h₀
      have hmade := (Script.made value hsized hfit).post_of_ok h₀
      refine ⟨hsized, ?_, hfit⟩
      have hadd := checked_eq_ok.mp h
      rw [updateWithCountRef] at hadd
      split_ifs at hadd with hzero
      · rw [hzero]
        exact hfit.weight_lt
      · obtain ⟨-, hadd⟩ := assert_bind_eq_ok.mp hadd
        obtain ⟨w, hw, -⟩ := bind_eq_ok.mp hadd
        exact hmade.summary.weight_eq ▸ (checkedAdd_eq_ok.mp hw).1
  | merge s s' ih ih' =>
      obtain ⟨f₀, h₀, h⟩ := bind_eq_ok.mp h
      obtain ⟨g₀, h₀', h⟩ := bind_eq_ok.mp h
      obtain ⟨hsized, hfit⟩ := ih h₀
      obtain ⟨hsized', hfit'⟩ := ih' h₀'
      have hmade := (Script.made value hsized hfit).post_of_ok h₀
      have hmade' := (Script.made value hsized' hfit').post_of_ok h₀'
      refine ⟨⟨hsized, hsized'⟩, ?_, hfit, hfit'⟩
      have hadd := checked_eq_ok.mp h
      rw [FrequentItemsSketch.merge] at hadd
      split_ifs at hadd with hinit
      · rw [(hmade'.summary.of_isInitialState hinit).1]
        exact hfit.weight_lt
      · obtain ⟨w, hw, -⟩ := bind_eq_ok.mp hadd
        have hlt := (checkedAdd_eq_ok.mp hw).1
        rwa [hmade.summary.weight_eq, hmade'.summary.weight_eq] at hlt
  | reset s ih =>
      obtain ⟨f₀, h₀, -⟩ := bind_eq_ok.mp h
      exact ih h₀
  | reload s ih =>
      obtain ⟨f₀, h₀, -⟩ := bind_eq_ok.mp h
      exact ih h₀

/-! ## Images from elsewhere -/

omit [DecidableEq T] [Hash T] in
theorem reads_readHeader (bad : Panic → Prop) : Reads (Tolerated bad) readHeader fun header ↦
    lgMinMapSize ≤ header.lgCur ∧ header.lgCur ≤ header.lgMax ∧ header.lgMax ≤ lgMaxMapSizeLimit := by
  refine (reads_readU8 _).bind fun preLongs _ ↦ (reads_readU8 _).bind fun serialVer _ ↦
    (reads_readU8 _).bind fun family _ ↦ (reads_readU8 _).bind fun lgMax _ ↦
    (reads_readU8 _).bind fun lgCur _ ↦ (reads_readU8 _).bind fun flags _ ↦
    (reads_readU16Le _).bind fun _ _ ↦
    reads_liftResult_any.bind fun _ _ ↦ reads_liftResult_any.bind fun _ _ ↦ ?_
  have hvalidate : Reads (Tolerated bad) (liftResult (validateLgMapSizes lgMax lgCur)) fun _ ↦
      lgMinMapSize ≤ lgCur ∧ lgCur ≤ lgMax ∧ lgMax ≤ lgMaxMapSizeLimit := by
    refine reads_liftResult fun _ hvalid ↦ ?_
    unfold validateLgMapSizes at hvalid
    split_ifs at hvalid with hcur hmax hle
    exact ⟨not_lt.mp hcur, not_lt.mp hle, not_lt.mp hmax⟩
  refine hvalidate.bind fun _ hsizes ↦ ?_
  split_ifs
  · exact reads_liftResult_any.bind fun _ _ ↦ Reads.pure hsizes
  · exact reads_liftResult_any.bind fun _ _ ↦ Reads.pure hsizes

omit [DecidableEq T] [Hash T] in
theorem reads_readWeights {bad : Panic → Prop} (activeItems i n : ℕ) :
    Reads (Tolerated bad) (readWeights activeItems i n) fun values ↦ values.length = n := by
  induction n generalizing i with
  | zero => exact Reads.pure rfl
  | succ n ih =>
      exact (Reads.readLe (tolerated_error _) 8).bind fun _ _ ↦ (ih (i + 1)).bind fun _ hrest ↦
        Reads.pure (congrArg Nat.succ hrest)

omit [DecidableEq T] [Hash T] in
theorem reads_readItems {bad : Panic → Prop} (decode : ItemDecoder T) (numItems i n : ℕ) :
    Reads (Tolerated bad) (readItems decode numItems i n) fun items ↦ items.length = n := by
  induction n generalizing i with
  | zero => exact Reads.pure rfl
  | succ n ih =>
      have hitem : Reads (Tolerated bad) (readItem decode numItems i) fun _ ↦ True := by
        intro bs
        rw [readItem]
        split
        · exact Outcome.ok trivial
        · exact Outcome.error (tolerated_error _)
      exact hitem.bind fun _ _ ↦ (ih (i + 1)).bind fun _ hrest ↦
        Reads.pure (congrArg Nat.succ hrest)

omit [DecidableEq T] [Hash T] in
/-- What is read holds no more counters than the table has room for. -/
theorem reads_readImage (bad : Panic → Prop) (decode : ItemDecoder T) {lgMax lgCur : ℕ}
    (hlg : lgCur ≤ lgMaxMapSizeLimit) :
    Reads (Tolerated bad) (readImage decode lgMax lgCur) fun image ↦
      image.lgMax = lgMax ∧ image.lgCur = lgCur ∧ image.offset < 2 ^ 64 ∧
        image.counters.length ≤ 2 ^ lgCur * 3 / 4 := by
  refine (reads_readU32Le _).bind fun activeItems _ ↦
    (reads_liftChecked (Outcome.of_eq_ok (mapCapacityForLg_eq hlg) rfl)).bind fun cap hcap ↦ ?_
  subst hcap
  split_ifs with hroom
  · exact reads_err _
  have hcheck : Reads (Tolerated bad) (checkWeightBytes activeItems) fun _ ↦ True := by
    refine Reads.remaining.bind fun left _ ↦ ?_
    split_ifs
    · exact Reads.pure trivial
    · exact reads_err _
  refine (reads_readU32Le _).bind fun _ _ ↦ (reads_readU64Le _).bind fun _ _ ↦
    (reads_readU64Le _).bind fun offset hoffset ↦ hcheck.bind fun _ _ ↦
    (reads_readWeights activeItems 0 activeItems).bind fun values hvalues ↦
    (reads_readItems decode activeItems 0 activeItems).bind fun items hitems ↦ ?_
  rw [if_neg (not_not.mpr hitems)]
  refine Reads.pure ⟨rfl, rfl, hoffset, ?_⟩
  rw [List.length_zip, hitems, hvalues, Nat.min_self]
  exact not_lt.mp hroom

/-- The bytes are read to the end, and are not flagged empty. -/
def Holds (decode : ItemDecoder T) (bytes : List UInt8) (image : Image T) : Prop :=
  ∃ header mid rest, readHeader bytes = .ok (header, mid) ∧ header.isEmpty = false ∧
    readImage decode header.lgMax header.lgCur mid = .ok (image, rest)

/-- The weights of an image add up to at most 64 bits, and so does the error with the weight of
each item. -/
def Image.Fits (image : Image T) : Prop :=
  total (image.counters : Multiset (T × ℕ)) < 2 ^ 64 ∧
    ∀ x, 0 < count (image.counters : Multiset (T × ℕ)) x →
      count (image.counters : Multiset (T × ℕ)) x + image.offset < 2 ^ 64

variable (Q) in
/-- Every query of the sketch gives a result, or fails in one of the ways of `bad`. -/
structure Answers (bad : Panic → Prop) (s : FrequentItemsSketch T) : Prop where
  estimate : ∀ item : Q, Outcome bad (s.estimate item) fun _ ↦ True
  lowerBound : ∀ item : Q, Outcome bad (s.lowerBound item) fun _ ↦ True
  upperBound : ∀ item : Q, Outcome bad (s.upperBound item) fun _ ↦ True
  frequentItems : ∀ errorType threshold,
    Outcome bad (s.frequentItemsWithThreshold errorType threshold) fun _ ↦ True

/-- A sketch whose counters fit answers every query. -/
theorem Inv.answers {s : FrequentItemsSketch T} (h : s.Inv) (hoffset : s.offset < 2 ^ 64)
    (hfit : ∀ x, 0 < count s.hashMap.entries x → count s.hashMap.entries x + s.offset < 2 ^ 64) :
    s.Answers Q Drifted := by
  have hadd : ∀ x, count s.hashMap.entries x + s.offset < 2 ^ 64 := by
    intro x
    rcases Nat.eq_zero_or_pos (count s.hashMap.entries x) with hzero | hpos
    · rw [hzero, Nat.zero_add]
      exact hoffset
    · exact hfit x hpos
  constructor
  · intro item
    rw [FrequentItemsSketch.estimate]
    refine (ReversePurgeItemHashMap.get_outcome h.map item).bind fun value _ heq ↦ ?_
    subst heq
    split_ifs
    · exact Outcome.of_eq_ok (checkedAdd_of_lt (hadd _)) trivial
    · exact Outcome.ok trivial
  · intro item
    exact (ReversePurgeItemHashMap.get_outcome h.map item).mono fun _ _ _ ↦ trivial
  · intro item
    rw [FrequentItemsSketch.upperBound]
    refine (ReversePurgeItemHashMap.get_outcome h.map item).bind fun value _ heq ↦ ?_
    subst heq
    exact Outcome.of_eq_ok (checkedAdd_of_lt (hadd _)) trivial
  · intro errorType threshold
    obtain ⟨items, hiter, hitems⟩ := ReversePurgeItemHashMap.iter_total h.map
    have hrows : ∀ p ∈ items, p.2 + s.offset < 2 ^ 64 := by
      intro p hp
      have hmem : p ∈ s.hashMap.entries := by
        rw [← hitems, Multiset.mem_coe]
        exact hp
      have hcount := hadd p.1
      rwa [count_eq h.map.nodup hmem] at hcount
    rw [frequentItemsWithThreshold, hiter, ok_bind, rowsOf_total hrows, ok_bind]
    exact Outcome.ok trivial

omit [DecidableEq T] [Hash T] in
/-- The rows are made only if every counter fits with the error. -/
theorem lt_of_rowsOf {offset threshold : ℕ} {errorType : ErrorType} {items : List (T × ℕ)}
    {rows : List (Row T)} (h : rowsOf offset threshold errorType items = .ok rows) :
    ∀ p ∈ items, p.2 + offset < 2 ^ 64 := by
  induction items generalizing rows with
  | nil => exact fun p hp ↦ absurd hp List.not_mem_nil
  | cons p items ih =>
      obtain ⟨upper, hupper, h⟩ := bind_eq_ok.mp h
      obtain ⟨rows', hrest, -⟩ := bind_eq_ok.mp h
      intro q hq
      rcases List.mem_cons.mp hq with rfl | hq
      · exact (checkedAdd_eq_ok.mp hupper).1
      · exact ih hrest q hq

/-- Rebuilding gives a sketch of the counters of the image, with its totals. -/
theorem Image.restore_outcome (image : Image T) (hcur : lgMinMapSize ≤ image.lgCur)
    (hle : image.lgCur ≤ image.lgMax) (hmax : image.lgMax ≤ lgMaxMapSizeLimit)
    (hroom : image.counters.length ≤ 2 ^ image.lgCur * 3 / 4) :
    Outcome (Overfull image.counters) image.restore fun s ↦
      s.Inv ∧ s.offset = image.offset ∧ total (image.counters : Multiset (T × ℕ)) < 2 ^ 64 ∧
        ∀ x, count s.hashMap.entries x = count (image.counters : Multiset (T × ℕ)) x := by
  obtain ⟨s₀, hnew, hloaded⟩ := loaded_withLgMapSizes (T := T) hcur hle hmax
  rw [Image.restore, hnew, ok_bind]
  refine (run_outcome_loaded hloaded hroom).bind fun s _ hs ↦ Outcome.ok ?_
  exact ⟨⟨hs.inv.map, hs.inv.lg_min, hs.inv.lg_le, hs.inv.lg_max, hs.inv.cap_eq,
    hs.inv.sampleSize_eq, hs.inv.active_le, hs.inv.positive⟩, rfl, hs.weight_lt, hs.count_eq⟩

variable (Q) in
/-- Decoding gives a sketch that answers every query, or an error, or fails in one of the ways of
`bad`. -/
def Safe (bad : Panic → Prop) (decode : ItemDecoder T) (bytes : List UInt8) : Prop :=
  Outcome (Tolerated bad) (deserializeInner decode bytes) fun s ↦ s.Answers Q bad

/-- A decoder reads the header, then makes an empty sketch or rebuilds the image that follows. -/
theorem outcome_deserializeInner {bad : Fault → Prop} {decode : ItemDecoder T} {bytes : List UInt8}
    {post : FrequentItemsSketch T → Prop}
    (hheader : Outcome bad (readHeader bytes) fun r ↦
      lgMinMapSize ≤ r.1.lgCur ∧ r.1.lgCur ≤ r.1.lgMax ∧ r.1.lgMax ≤ lgMaxMapSizeLimit)
    (hempty : ∀ lgMax, lgMinMapSize ≤ lgMax → lgMax ≤ lgMaxMapSizeLimit → ∀ bs,
      Outcome bad (liftChecked (withLgMapSizes lgMax lgMinMapSize) bs) fun r ↦ post r.1)
    (himage : ∀ header mid, readHeader bytes = .ok (header, mid) → header.isEmpty = false →
      Outcome bad ((readImage decode header.lgMax header.lgCur >>= fun image ↦
        liftChecked image.restore) mid) fun r ↦ post r.1) :
    Outcome bad (deserializeInner decode bytes) post := by
  refine outcome_fst (hheader.bind fun r hr hsizes ↦ ?_)
  obtain ⟨header, mid⟩ := r
  cases hflag : header.isEmpty with
  | true =>
      dsimp only
      rw [if_pos hflag]
      exact hempty header.lgMax (hsizes.1.trans hsizes.2.1) hsizes.2.2 mid
  | false =>
      dsimp only
      rw [if_neg (ne_true_of_eq_false hflag)]
      exact himage header mid hr hflag

/-- Every byte string is decoded to a sketch that answers every query, or is refused, without
exceeding 64 bits, exactly if what it holds fits: its weights in sum, and the error with the weight
of each item.  That no search exceeds the drift limit is a debug assertion. -/
theorem decoding_spec (decode : ItemDecoder T) (bytes : List UInt8) :
    (Safe Q (fun _ ↦ False) decode bytes → ∀ image, Holds decode bytes image → image.Fits) ∧
      ((∀ image, Holds decode bytes image → image.Fits) → Safe Q Drifted decode bytes) := by
  constructor
  · rintro hsafe image ⟨header, mid, rest, hheader, hflag, himage⟩
    have hsizes := (reads_readHeader (fun _ ↦ False) bytes).post_of_ok hheader
    obtain ⟨hlgMax, hlgCur, -, hroom⟩ := (reads_readImage (fun _ ↦ False) decode
      (hsizes.2.1.trans hsizes.2.2) mid).post_of_ok himage
    have hrestore := Image.restore_outcome image (hlgCur ▸ hsizes.1)
      (hlgCur ▸ hlgMax ▸ hsizes.2.1) (hlgMax ▸ hsizes.2.2) (hlgCur ▸ hroom)
    have hdecode : deserializeInner decode bytes =
        Prod.fst <$> liftChecked image.restore rest := by
      rw [deserializeInner, deserializer, bind_of_ok hheader,
        if_neg (ne_true_of_eq_false hflag), bind_of_ok himage]
    cases hs : image.restore with
    | error p =>
        rw [hs] at hdecode
        exact absurd rfl ((hsafe.bad_of_error hdecode) p)
    | ok s =>
        rw [hs] at hdecode
        obtain ⟨hinv, hoffset, htotal, hcount⟩ := hrestore.post_of_ok hs
        have hanswers := hsafe.post_of_ok hdecode
        refine ⟨htotal, fun x hx ↦ ?_⟩
        rw [← hcount] at hx ⊢
        obtain ⟨v, hv⟩ := mem_of_count_pos hx
        obtain ⟨items, hiter, hitems⟩ := ReversePurgeItemHashMap.iter_total hinv.map
        cases hrows : rowsOf s.offset (max 0 s.offset) .noFalseNegatives items with
        | error p =>
            have hquery := hanswers.frequentItems .noFalseNegatives 0
            rw [frequentItemsWithThreshold, hiter, ok_bind, hrows] at hquery
            exact hquery.elim
        | ok rows =>
            have hmem : (x, v) ∈ items := by
              rw [← Multiset.mem_coe, hitems]
              exact hv
            rw [count_eq hinv.map.nodup hv, ← hoffset]
            exact lt_of_rowsOf hrows _ hmem
  · intro hfit
    refine outcome_deserializeInner (reads_readHeader _ bytes) ?_ ?_
    · intro lgMax hmin hmax bs
      obtain ⟨s, hnew, hloaded⟩ := loaded_withLgMapSizes (T := T) le_rfl hmin hmax
      have hoffset : s.offset < 2 ^ 64 := hloaded.offset_eq ▸ Nat.two_pow_pos 64
      rw [hnew, liftChecked_ok]
      refine Outcome.ok (hloaded.inv.answers hoffset fun x hx ↦ ?_)
      rw [hloaded.count_eq] at hx
      exact absurd hx (lt_irrefl 0)
    · intro header mid hheader hflag
      have hsizes := (reads_readHeader Drifted bytes).post_of_ok hheader
      refine (reads_readImage _ decode (hsizes.2.1.trans hsizes.2.2) mid).bind fun r hr himage ↦ ?_
      obtain ⟨image, rest⟩ := r
      obtain ⟨hlgMax, hlgCur, hoffset, hroom⟩ := himage
      obtain ⟨htotal, heach⟩ := hfit image ⟨header, mid, rest, hheader, hflag, hr⟩
      have hrestore := Image.restore_outcome image (hlgCur ▸ hsizes.1)
        (hlgCur ▸ hlgMax ▸ hsizes.2.1) (hlgMax ▸ hsizes.2.2) (hlgCur ▸ hroom)
      refine reads_liftChecked ((hrestore.weaken fun e he ↦
        he.resolve_right (not_le.mpr htotal)).mono fun s _ hs ↦ ?_) rest
      obtain ⟨hinv, hoffset', -, hcount⟩ := hs
      refine hinv.answers (hoffset' ▸ hoffset) fun x hx ↦ ?_
      rw [hcount] at hx ⊢
      rw [hoffset']
      exact heach x hx

/-- Two weights of `2 ^ 63`, and an offset. -/
def heavyImage : List UInt8 :=
  [4, 1, 10, 3, 3, 0, 0, 0, 2, 0, 0, 0, 0, 0, 0, 0, 0, 0, 0, 0, 0, 0, 0, 0, 0, 0, 0, 0, 0, 0, 0, 0,
    0, 0, 0, 0, 0, 0, 0, 0x80, 0, 0, 0, 0, 0, 0, 0, 0x80, 1, 0, 0, 0, 0, 0, 0, 0,
    2, 0, 0, 0, 0, 0, 0, 0]

/-- Weights that exceed 64 bits in sum overflow the stream weight while they are added up. -/
theorem decoding_overflow :
    ¬ Safe UInt64 (fun _ ↦ False) u64Value.deserializeValue heavyImage := by
  have hrun : deserializeInner u64Value.deserializeValue heavyImage =
      .error (.panic .overflow) := by decide +kernel
  exact fun hsafe ↦ hsafe.bad_of_error hrun .overflow rfl

end FrequentItemsSketch

end DataSketches
