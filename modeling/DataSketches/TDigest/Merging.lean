import DataSketches.TDigest.Exact

/-!
# Merging digests that were read

The reader takes the minimum, the maximum and the centroids of an image as they
come.  A merge looks at its own minimum and maximum and at the means of all
centroids, so an extreme value of the other digest is lost if no centroid has it for
its mean, as in images of other writers.
-/

namespace DataSketches

open Runs FloatFormat ByteReader SketchSlice SketchBytes StableSort

namespace TDigestMut

/-! ## What is read -/

section Reading

variable {M : Type}

/-- Whatever happens, something is read or it is not. -/
theorem reads_any {α : Type} (p : SketchSlice α) :
    Reads (Tolerated fun _ ↦ True) p fun _ ↦ True := by
  intro bs
  cases p bs with
  | ok r => exact Outcome.ok trivial
  | error e => exact Outcome.error fun _ _ ↦ trivial

theorem reads_call {α : Type} {x : Except Error α} {post : α → Prop}
    (h : ∀ a, x = .ok a → post a) : Reads (Tolerated fun _ ↦ True) (liftResult x) post :=
  reads_liftResult h

theorem finite_of_checks {value : F64 M} {tag tag' : String} (hnan : checkNonNan value tag = .ok ())
    (hfinite : checkFinite value tag' = .ok ()) : ∃ x, value = .finite x := by
  cases value with
  | finite x => exact ⟨x, rfl⟩
  | infinity => cases hfinite
  | negInfinity => cases hfinite
  | nan => cases hnan

theorem checkedWeightSum_eq_ok {total weight sum : ℕ} (h : checkedWeightSum total weight = .ok sum) :
    sum = total + weight ∧ sum < 2 ^ 64 := by
  unfold checkedWeightSum at h
  rcases ite_eq_iff.mp h with ⟨hlt, h⟩ | ⟨-, h⟩
  · cases h
    exact ⟨rfl, hlt⟩
  · cases h

variable [FloatFormat M]

/-- What holds of a digest that was read, or reached: it has extremes unless it is as new.  Without
contents it may still have some. -/
structure Loaded (d : TDigestMut M) : Prop extends Counted d where
  extremes : d.contents = [] ∧ d.min = .infinity ∧ d.max = .negInfinity ∨
    ∃ x y, d.min = .finite x ∧ d.max = .finite y

/-- What holds of a digest that was read. -/
structure Accepted (d : TDigestMut M) : Prop extends Loaded d where
  k_le : 10 ≤ d.k
  weight_lt : d.weight < 2 ^ 64

theorem reads_readCentroids (codec : F64Codec M) (isF32 : Bool) (n start : ℕ) :
    Reads (Tolerated fun _ ↦ True) (readCentroids codec isF32 n start) fun r ↦
      r.2 = start + Centroid.totalWeight r.1 ∧ (start < 2 ^ 64 → r.2 < 2 ^ 64) := by
  induction n generalizing start with
  | zero => exact Reads.pure ⟨rfl, id⟩
  | succ n ih =>
      have hrest : ∀ (mean : F64 M) (weight : ℕ), Reads (Tolerated fun _ ↦ True) (do
          let mean ← liftResult (finiteValue mean "centroid mean" "centroid")
          let weight ← liftResult (checkNonzero weight "centroid weight")
          let compressedWeight ← liftResult (checkedWeightSum start weight)
          let r ← readCentroids codec isF32 n compressedWeight
          return (⟨mean, weight⟩ :: r.1, r.2))
          fun r : List (Centroid M) × ℕ ↦
            r.2 = start + Centroid.totalWeight r.1 ∧ (start < 2 ^ 64 → r.2 < 2 ^ 64) := by
        intro mean weight
        refine (reads_any _).bind fun mean _ ↦ (reads_any _).bind fun weight _ ↦
          (reads_call fun _ ↦ checkedWeightSum_eq_ok).bind fun sum hsum ↦
            (ih sum).bind fun r hr ↦ Reads.pure ⟨?_, fun _ ↦ hr.2 hsum.2⟩
        dsimp only
        rw [hr.1, hsum.1, Centroid.totalWeight_cons, Nat.add_assoc]
      exact (reads_any _).bind fun mean _ ↦ Reads.ite
        (fun _ ↦ (reads_any _).bind fun weight _ ↦ hrest mean weight)
        fun _ ↦ (reads_any _).bind fun weight _ ↦ hrest mean weight

theorem reads_readBuffered (codec : F64Codec M) (isF32 : Bool) (n : ℕ) :
    Reads (Tolerated fun _ ↦ True) (readBuffered codec isF32 n) fun values ↦
      values.length = n := by
  induction n with
  | zero => exact Reads.pure rfl
  | succ n ih =>
      exact (reads_any _).bind fun _ _ ↦ (reads_any _).bind fun _ _ ↦ ih.bind fun values hvalues ↦
        Reads.pure (congrArg Nat.succ hvalues)

theorem reads_readCompatCentroids (read : List UInt8 → Option (F64 M × List UInt8))
    (format : String) (n start : ℕ) :
    Reads (Tolerated fun _ ↦ True) (readCompatCentroids read format n start) fun r ↦
      r.2 = start + Centroid.totalWeight r.1 ∧ (start < 2 ^ 64 → r.2 < 2 ^ 64) := by
  induction n generalizing start with
  | zero => exact Reads.pure ⟨rfl, id⟩
  | succ n ih =>
      refine (reads_any _).bind fun weight _ ↦ (reads_any _).bind fun mean _ ↦
        (reads_any _).bind fun weight _ ↦ (reads_any _).bind fun mean _ ↦
          (reads_call fun _ ↦ checkedWeightSum_eq_ok).bind fun sum hsum ↦
            (ih sum).bind fun r hr ↦ Reads.pure ⟨?_, fun _ ↦ hr.2 hsum.2⟩
      dsimp only
      rw [hr.1, hsum.1, Centroid.totalWeight_cons, Nat.add_assoc]

/-- A digest that is made of finite extremes and centroids with a tail of single values. -/
theorem reads_make {k weight : ℕ} {reverse : Bool} {x y : M} {buffer : TDigestBuffer M}
    (hunmerged : ∀ c ∈ buffer.unmerged, c.weight = 1)
    (hweight : weight = Centroid.totalWeight buffer.compressed)
    (hlt : weight + buffer.unmerged.length < 2 ^ 64) :
    Reads (Tolerated fun _ ↦ True)
      (liftChecked (make k reverse (.finite x) (.finite y) buffer weight)) Accepted := by
  refine reads_liftChecked ?_
  unfold make
  by_cases hk : k ≥ 10
  · rw [assert_pos hk, ok_bind]
    by_cases hfits : bufferFits buffer weight = true
    · rw [assert_pos hfits, ok_bind]
      have hcounted : Counted ⟨k, reverse, .finite x, .finite y, buffer, weight⟩ := by
        refine ⟨⟨?_, ?_⟩, hunmerged, hweight⟩
        · cases buffer with
          | staging values => trivial
          | centroids cs n =>
              have hle : n ≤ cs.length := of_decide_eq_true hfits
              exact hle
        · intro values hvalues
          cases hvalues
          exact of_decide_eq_true hfits
      exact Outcome.ok ⟨⟨hcounted, Or.inr ⟨x, y, rfl, rfl⟩⟩, hk, hcounted.weight_eq ▸ hlt⟩
    · rw [assert_neg hfits]
      exact Outcome.error trivial
  · rw [assert_neg hk]
    exact Outcome.error trivial

omit [FloatFormat M] in
theorem weight_of_mem_values {values : List M} {c : Centroid M}
    (h : c ∈ values.map Centroid.ofValue) : c.weight = 1 := by
  obtain ⟨v, -, rfl⟩ := List.mem_map.mp h
  rfl

omit [FloatFormat M] in
/-- The parts of centroids with a tail of single values. -/
theorem parts_append_values (cs : List (Centroid M)) (values : List M) {n : ℕ}
    (h : values.length = n) :
    (TDigestBuffer.centroids (cs ++ values.map Centroid.ofValue) n).compressed = cs ∧
      (TDigestBuffer.centroids (cs ++ values.map Centroid.ofValue) n).unmerged =
        values.map Centroid.ofValue := by
  have hlen : (cs ++ values.map Centroid.ofValue).length - n = cs.length := by
    rw [List.length_append, List.length_map, h, Nat.add_sub_cancel]
  rw [TDigestBuffer.compressed, TDigestBuffer.unmerged, hlen]
  exact ⟨List.take_left, List.drop_left⟩

theorem reads_checked {min max : F64 M} {f : SketchSlice (TDigestMut M)} {minTag maxTag : String}
    (h : ∀ x y, min = .finite x → max = .finite y → Reads (Tolerated fun _ ↦ True) f Accepted) :
    Reads (Tolerated fun _ ↦ True) (do
      liftResult (checkNonNan min minTag)
      liftResult (checkNonNan max maxTag)
      liftResult (checkFinite min minTag)
      liftResult (checkFinite max maxTag)
      f) Accepted := by
  refine (reads_call fun _ h ↦ h).bind fun _ hmin ↦ (reads_call fun _ h ↦ h).bind fun _ hmax ↦
    (reads_call fun _ h ↦ h).bind fun _ hmin' ↦ (reads_call fun _ h ↦ h).bind fun _ hmax' ↦ ?_
  obtain ⟨x, hx⟩ := finite_of_checks hmin hmin'
  obtain ⟨y, hy⟩ := finite_of_checks hmax hmax'
  exact h x y hx hy

theorem reads_deserializeCompatAs (codec : F64Codec M)
    (read : List UInt8 → Option (F64 M × List UInt8)) (format : String)
    (readNumCentroids : SketchSlice ℕ) :
    Reads (Tolerated fun _ ↦ True) (deserializeCompatAs codec read format readNumCentroids)
      Accepted := by
  refine (reads_any _).bind fun min _ ↦ (reads_any _).bind fun max _ ↦
    reads_checked fun x y hx hy ↦ (reads_any _).bind fun k _ ↦ Reads.ite (fun _ ↦ reads_err _)
      fun _ ↦ (reads_any _).bind fun n _ ↦
        (reads_readCompatCentroids read format n 0).bind fun r hr ↦ ?_
  subst hx hy
  refine reads_make (fun c hc ↦ ?_) ?_ ?_
  · rw [TDigestBuffer.unmerged_centroids_zero] at hc
    exact absurd hc List.not_mem_nil
  · rw [TDigestBuffer.compressed_centroids_zero, hr.1, Nat.zero_add]
  · rw [TDigestBuffer.unmerged_centroids_zero]
    exact hr.2 (by decide)

theorem reads_deserializeCompat (codec : F64Codec M) :
    Reads (Tolerated fun _ ↦ True) (deserializeCompat codec) Accepted :=
  (reads_any _).bind fun _ _ ↦ Reads.ite (fun _ ↦ reads_deserializeCompatAs codec _ _ _)
    fun _ ↦ Reads.ite (fun _ ↦ reads_deserializeCompatAs codec _ _ _) fun _ ↦ reads_err _

theorem reads_readMultiple (codec : F64Codec M) (isF32 : Bool) (k : ℕ) (reverse : Bool) :
    Reads (Tolerated fun _ ↦ True) (readMultiple codec isF32 k reverse) Accepted := by
  refine (reads_any _).bind fun numCentroids _ ↦ (reads_any _).bind fun numBuffered _ ↦
    (reads_any _).bind fun min _ ↦ (reads_any _).bind fun max _ ↦ reads_checked fun x y hx hy ↦
      Reads.ite (fun _ ↦ reads_err _) fun _ ↦ (reads_any _).bind fun left _ ↦
        Reads.ite (fun _ ↦ reads_err _) fun _ ↦ Reads.ite (fun _ ↦ ?_) fun _ ↦ ?_
  · subst hx hy
    refine (reads_call fun _ ↦ checkedWeightSum_eq_ok).bind fun sum hsum ↦
      (reads_readBuffered codec isF32 numBuffered).bind fun values hvalues ↦
        reads_make (fun c hc ↦ weight_of_mem_values hc) rfl ?_
    rw [TDigestBuffer.unmerged, List.length_map, hvalues, ← hsum.1]
    exact hsum.2
  · subst hx hy
    refine (reads_readCentroids codec isF32 numCentroids 0).bind fun r hr ↦
      (reads_call fun _ ↦ checkedWeightSum_eq_ok).bind fun sum hsum ↦
        (reads_readBuffered codec isF32 numBuffered).bind fun values hvalues ↦ ?_
    obtain ⟨hcompressed, hunmerged⟩ := parts_append_values r.1 values hvalues
    refine reads_make (fun c hc ↦ ?_) ?_ ?_
    · rw [hunmerged] at hc
      exact weight_of_mem_values hc
    · rw [hcompressed, hr.1, Nat.zero_add]
    · rw [hunmerged, List.length_map, hvalues, ← hsum.1]
      exact hsum.2

theorem reads_readNative (codec : F64Codec M) (isF32 : Bool) (preLongs serVer : ℕ) :
    Reads (Tolerated fun _ ↦ True) (readNative codec isF32 preLongs serVer) Accepted := by
  refine (reads_any _).bind fun _ _ ↦ (reads_any _).bind fun k _ ↦
    Reads.ite (fun _ ↦ reads_err _) fun _ ↦ (reads_any _).bind fun flags _ ↦
      (reads_any _).bind fun _ _ ↦ (reads_any _).bind fun _ _ ↦ Reads.ite (fun _ ↦ ?_) fun _ ↦
        Reads.ite (fun _ ↦ (reads_any _).bind fun value _ ↦ (reads_any _).bind fun x _ ↦ ?_)
          fun _ ↦ reads_readMultiple codec isF32 k _
  · refine reads_liftChecked ?_
    cases hnew : new k with
    | error p => exact Outcome.error trivial
    | ok d =>
        obtain ⟨hk, hd⟩ := assert_bind_eq_ok.mp hnew
        cases hd
        exact Outcome.ok ⟨⟨⟨⟨trivial, fun _ _ ↦ rfl⟩, fun c hc ↦ absurd hc List.not_mem_nil, rfl⟩,
          Or.inl ⟨rfl, rfl, rfl⟩⟩, hk, Nat.two_pow_pos 64⟩
  · refine reads_make (fun c hc ↦ ?_) ?_ ?_
    · rw [TDigestBuffer.unmerged_centroids_zero] at hc
      exact absurd hc List.not_mem_nil
    · rw [TDigestBuffer.compressed_centroids_zero]
      rfl
    · rw [TDigestBuffer.unmerged_centroids_zero, List.length_nil]
      decide

theorem reads_deserializer (codec : F64Codec M) (isF32 : Bool) (bytes : List UInt8) :
    Reads (Tolerated fun _ ↦ True) (deserializer codec isF32 bytes) Accepted := by
  refine (reads_any _).bind fun preLongs _ ↦ (reads_any _).bind fun serVer _ ↦
    (reads_any _).bind fun familyId _ ↦ ?_
  cases Family.tdigest.validateId familyId with
  | error e =>
      exact Reads.ite (fun _ _ ↦ reads_deserializeCompat codec bytes) fun _ ↦ reads_err _
  | ok u => exact reads_readNative codec isF32 preLongs serVer

theorem deserialize_accepted {codec : F64Codec M} {bytes : List UInt8} {isF32 : Bool}
    {d : TDigestMut M} (h : deserialize codec bytes isF32 = .ok d) : d.Accepted := by
  obtain ⟨r, hr, rfl⟩ := map_eq_ok.mp h
  exact (reads_deserializer codec isF32 bytes bytes).post_of_ok hr

theorem deserialize_loaded {codec : F64Codec M} {bytes : List UInt8} {isF32 : Bool}
    {d : TDigestMut M} (h : deserialize codec bytes isF32 = .ok d) : d.Loaded :=
  (deserialize_accepted h).toLoaded

theorem Shape.loaded {d : TDigestMut M} (h : d.Shape) : d.Loaded := by
  refine ⟨h.counted, ?_⟩
  by_cases hnil : d.contents = []
  · obtain ⟨hmin, hmax, -⟩ := h.empty hnil
    exact Or.inl ⟨hnil, hmin, hmax⟩
  · exact Or.inr (h.nonempty hnil)

end Reading

/-! ## Where digests come from -/

/-- All centroids and values lie between the recorded extremes. -/
def Within (d : TDigestMut ℚ) : Prop :=
  ∀ x y, d.min = .finite x → d.max = .finite y → ∀ c ∈ d.contents, x ≤ c.mean ∧ c.mean ≤ y

/-- Digests of runs of fewer than `2 ^ 64` values, and digests that were read and lie between their
extremes. -/
inductive Source (codec : F64Codec ℚ) (scale : ScaleFunction) (d : TDigestMut ℚ) : Prop where
  | reached {vs : Multiset ℚ} (h : Reachable codec scale vs d) (hlt : vs.card < 2 ^ 64)
  | decoded {bytes : List UInt8} {isF32 : Bool} (hok : deserialize codec bytes isF32 = .ok d)
      (hwithin : d.Within)

variable {codec : F64Codec ℚ} {scale : ScaleFunction} {vs : Multiset ℚ} {d a b a' : TDigestMut ℚ}

/-- The extremes of a digest of a run are those of its contents. -/
theorem Stands.extremes_mem (h : Stands vs d) {x y : ℚ} (hx : d.min = .finite x)
    (hy : d.max = .finite y) :
    d.Within ∧ (∃ c ∈ d.contents, c.mean = x) ∧ ∃ c ∈ d.contents, c.mean = y := by
  have hmin := h.isMin
  have hmax := h.isMax
  rw [hx] at hmin
  rw [hy] at hmax
  obtain ⟨first, hfirst, hle⟩ := h.contents.exists_first hmin.1
  obtain ⟨last, hlast, hge⟩ := h.contents.exists_last hmax.1
  obtain ⟨f, hf⟩ : ∃ f, firstMin meanVal d.contents = some f :=
    Option.ne_none_iff_exists'.mp fun hnone ↦
      List.ne_nil_of_mem hfirst (firstMin_eq_none_iff.mp hnone)
  obtain ⟨l, hl⟩ : ∃ l, lastMax meanVal d.contents = some l :=
    Option.ne_none_iff_exists'.mp fun hnone ↦
      List.ne_nil_of_mem hlast (lastMax_eq_none_iff.mp hnone)
  obtain ⟨-, hfmem, -⟩ := h.contents.first f hf
  obtain ⟨-, hlmem, -⟩ := h.contents.last l hl
  have hbetween : ∀ c ∈ d.contents, x ≤ c.mean ∧ c.mean ≤ y := fun c hc ↦
    ⟨(hmin.2 _ hfmem).trans ((firstMin_spec hf).2 c hc),
      ((lastMax_spec hl).2 c hc).trans (hmax.2 _ hlmem)⟩
  refine ⟨fun x' y' hx' hy' c hc ↦ ?_, ⟨first, hfirst, le_antisymm hle (hbetween first hfirst).1⟩,
    last, hlast, le_antisymm (hbetween last hlast).2 hge⟩
  cases hx.symm.trans hx'
  cases hy.symm.trans hy'
  exact hbetween c hc

theorem Source.loaded (h : Source codec scale d) : d.Loaded ∧ d.Within := by
  cases h with
  | reached h hlt =>
      obtain ⟨hd, -, hstands⟩ := h.kept (kept_stands scale) hlt
      exact ⟨hd.loaded, fun x y hx hy ↦ (hstands.extremes_mem hx hy).1 x y hx hy⟩
  | decoded hok hwithin => exact ⟨deserialize_loaded hok, hwithin⟩

/-! ## Extremes of what is merged -/

section Order

variable {α : Type} [LinearOrder α] {m : Option α} {x f : α} {P : Prop}

/-- The lesser of a number and another one, if there is one. -/
def lesser (m : Option α) (x : α) : α := m.elim x (Min.min · x)

/-- The greater of a number and another one, if there is one. -/
def greater (m : Option α) (x : α) : α := m.elim x (Max.max · x)

/-- The least number `f` that is found stands for the recorded one, `x`, if that one is not needed
or is found itself. -/
theorem lesser_eq_lesser_iff (hfound : x ≤ f ∧ (f = x → P) ∨ ∃ p ∈ m, p ≤ f) (hP : P → f ≤ x) :
    lesser m f = lesser m x ↔ (∃ p ∈ m, p ≤ x) ∨ P := by
  cases m with
  | none =>
      obtain ⟨hle, himp⟩ := hfound.resolve_right fun ⟨p, hp, _⟩ ↦ absurd hp (Option.not_mem_none p)
      constructor
      · exact fun heq ↦ Or.inr (himp heq)
      · rintro (⟨p, hp, -⟩ | h)
        · exact absurd hp (Option.not_mem_none p)
        · exact le_antisymm (hP h) hle
  | some p =>
      simp only [Option.mem_some_iff, exists_eq_left'] at hfound ⊢
      constructor
      · intro heq
        have hmin : Min.min p f = Min.min p x := heq
        by_contra hnot
        obtain ⟨hlt, hP⟩ := not_or.mp hnot
        rw [min_eq_right (not_le.mp hlt).le] at hmin
        have hf : f = x := by
          rcases min_choice p f with hp | hf
          · exact absurd (hp.symm.trans hmin).le hlt
          · exact hf.symm.trans hmin
        rcases hfound with ⟨-, himp⟩ | hle
        · exact hP (himp hf)
        · exact hlt (hf ▸ hle)
      · intro h
        have hpx : Min.min p f = Min.min p x := by
          rcases h with hp | h
          · have hpf : p ≤ f := hfound.elim (fun h ↦ hp.trans h.1) id
            rw [min_eq_left hp, min_eq_left hpf]
          · rcases hfound with ⟨hle, -⟩ | hpf
            · rw [le_antisymm (hP h) hle]
            · rw [min_eq_left hpf, min_eq_left (hpf.trans (hP h))]
        exact hpx

theorem greater_eq_greater_iff (hfound : f ≤ x ∧ (f = x → P) ∨ ∃ p ∈ m, f ≤ p) (hP : P → x ≤ f) :
    greater m f = greater m x ↔ (∃ p ∈ m, x ≤ p) ∨ P :=
  @lesser_eq_lesser_iff αᵒᵈ _ m x f P hfound hP

theorem lesser_eq_iff : lesser m f = x ↔ lesser m x = x ∧ lesser m f = lesser m x := by
  constructor
  · intro h
    have hx : lesser m x = x := by
      cases m with
      | none => rfl
      | some p => exact min_eq_right (h ▸ min_le_left p f)
    exact ⟨hx, h.trans hx.symm⟩
  · rintro ⟨hx, h⟩
    exact h.trans hx

theorem greater_eq_iff : greater m f = x ↔ greater m x = x ∧ greater m f = greater m x :=
  @lesser_eq_iff αᵒᵈ _ m x f

end Order

/-- A minimum, infinite if there is none. -/
def infimum : Option ℚ → F64 ℚ
  | some x => .finite x
  | none => .infinity

/-- A maximum, infinite if there is none. -/
def supremum : Option ℚ → F64 ℚ
  | some x => .finite x
  | none => .negInfinity

theorem min_infimum (m : Option ℚ) (x : ℚ) :
    (infimum m).min (.finite x) = .finite (lesser m x) := by
  cases m with
  | none => rfl
  | some p =>
      rw [infimum, F64.min_finite, val_rat, val_rat, ← min_def_lt, min_comm]
      rfl

theorem max_supremum (m : Option ℚ) (x : ℚ) :
    (supremum m).max (.finite x) = .finite (greater m x) := by
  cases m with
  | none => rfl
  | some p =>
      rw [supremum, F64.max_finite, val_rat, val_rat, ← max_def_lt]
      rfl

theorem lt_infimum {m : Option ℚ} {x : ℚ} :
    (F64.finite x).lt (infimum m) = false ↔ ∃ p ∈ m, p ≤ x := by
  cases m with
  | none => simp [infimum, F64.lt]
  | some p => simp [infimum, F64.lt]

theorem supremum_lt {m : Option ℚ} {x : ℚ} :
    (supremum m).lt (.finite x) = false ↔ ∃ p ∈ m, x ≤ p := by
  cases m with
  | none => simp [supremum, F64.lt]
  | some p => simp [supremum, F64.lt]

theorem infimum_lt {m : Option ℚ} {x : ℚ} :
    (infimum m).lt (.finite x) = false ↔ lesser m x = x := by
  cases m with
  | none => simp [infimum, F64.lt, lesser]
  | some p => simp [infimum, F64.lt, lesser]

theorem lt_supremum {m : Option ℚ} {x : ℚ} :
    (F64.finite x).lt (supremum m) = false ↔ greater m x = x := by
  cases m with
  | none => simp [supremum, F64.lt, greater]
  | some p => simp [supremum, F64.lt, greater]

/-! ## What a merge is to keep -/

/-- The lesser of two minima, each of which is missing if there are no values. -/
def lesserValue (x y : Option (F64 ℚ)) : Option (F64 ℚ) :=
  x.elim y fun x ↦ some (y.elim x x.min)

/-- The greater of two maxima. -/
def greaterValue (x y : Option (F64 ℚ)) : Option (F64 ℚ) :=
  x.elim y fun x ↦ some (y.elim x x.max)

/-- What a digest is to be into which another one was merged. -/
structure Merged (a b a' : TDigestMut ℚ) : Prop where
  totalWeight_eq : ∀ v w, a.totalWeight = .ok v → b.totalWeight = .ok w →
    a'.totalWeight = .ok (v + w)
  minValue_eq : a'.minValue = lesserValue a.minValue b.minValue
  maxValue_eq : a'.maxValue = greaterValue a.maxValue b.maxValue
  unchanged : b.isEmpty = true → a' = a

/-- The minimum of the other digest is the mean of a centroid, or this digest has one that is not
greater.  Without values, it has none that is less. -/
def MinSurvives (a b : TDigestMut ℚ) : Prop :=
  (a.isEmpty = true → a.min.lt b.min = false) ∧
    (b.min.lt a.min = false ∨ ∃ c ∈ b.contents, .finite c.mean = b.min)

/-- The same of the maximum. -/
def MaxSurvives (a b : TDigestMut ℚ) : Prop :=
  (a.isEmpty = true → b.max.lt a.max = false) ∧
    (a.max.lt b.max = false ∨ ∃ c ∈ b.contents, .finite c.mean = b.max)

/-! ## Merging -/

theorem exists_finite_mean {cs : List (Centroid ℚ)} {x : ℚ} :
    (∃ c ∈ cs, (.finite c.mean : F64 ℚ) = .finite x) ↔ ∃ c ∈ cs, c.mean = x := by
  simp only [F64.finite.injEq]

theorem minValue_eq_iff {m : Option ℚ} {x f : ℚ} (ha : a.min = infimum m) (hb : b.min = .finite x)
    (hempty : b.isEmpty = false) (hempty' : a'.isEmpty = false)
    (hmin : a'.min = a.min.min (.finite f))
    (hfound : x ≤ f ∧ (f = x → ∃ c ∈ b.contents, c.mean = x) ∨ ∃ p ∈ m, p ≤ f)
    (hle : (∃ c ∈ b.contents, c.mean = x) → f ≤ x) :
    a'.minValue = lesserValue a.minValue b.minValue ↔ MinSurvives a b := by
  have hiff := lesser_eq_lesser_iff hfound hle
  rw [MinSurvives, minValue, hempty', minValue, minValue, hempty, hmin, ha, hb, min_infimum,
    lt_infimum, infimum_lt, exists_finite_mean, ← hiff]
  cases a.isEmpty with
  | true =>
      simp only [lesserValue, Bool.false_eq_true, if_true, if_false, Option.elim_none,
        Option.some.injEq, F64.finite.injEq, forall_const]
      exact lesser_eq_iff
  | false =>
      simp only [lesserValue, Bool.false_eq_true, if_false, Option.elim_some, min_infimum,
        Option.some.injEq, F64.finite.injEq, false_implies, true_and]

theorem maxValue_eq_iff {m : Option ℚ} {x f : ℚ} (ha : a.max = supremum m) (hb : b.max = .finite x)
    (hempty : b.isEmpty = false) (hempty' : a'.isEmpty = false)
    (hmax : a'.max = a.max.max (.finite f))
    (hfound : f ≤ x ∧ (f = x → ∃ c ∈ b.contents, c.mean = x) ∨ ∃ p ∈ m, f ≤ p)
    (hle : (∃ c ∈ b.contents, c.mean = x) → x ≤ f) :
    a'.maxValue = greaterValue a.maxValue b.maxValue ↔ MaxSurvives a b := by
  have hiff := greater_eq_greater_iff hfound hle
  rw [MaxSurvives, maxValue, hempty', maxValue, maxValue, hempty, hmax, ha, hb, max_supremum,
    supremum_lt, lt_supremum, exists_finite_mean, ← hiff]
  cases a.isEmpty with
  | true =>
      simp only [greaterValue, Bool.false_eq_true, if_true, if_false, Option.elim_none,
        Option.some.injEq, F64.finite.injEq, forall_const]
      exact greater_eq_iff
  | false =>
      simp only [greaterValue, Bool.false_eq_true, if_false, Option.elim_some, max_supremum,
        Option.some.injEq, F64.finite.injEq, false_implies, true_and]

theorem mem_mergedContents {c : Centroid ℚ} :
    c ∈ a.mergedContents b ↔ c ∈ a.contents ∨ c ∈ b.contents := by
  rw [mergedContents, TDigestMut.contents.eq_1 a, List.mem_append, List.mem_append, List.mem_append,
    or_right_comm]

/-- The extremes of a digest of either source, where they are. -/
theorem Loaded.exists_extremes (h : d.Loaded) (hwithin : d.Within) :
    ∃ m n, d.min = infimum m ∧ d.max = supremum n ∧
      ∀ c ∈ d.contents, (∃ p ∈ m, p ≤ c.mean) ∧ ∃ p ∈ n, c.mean ≤ p := by
  rcases h.extremes with ⟨hnil, hmin, hmax⟩ | ⟨x, y, hx, hy⟩
  · refine ⟨none, none, hmin, hmax, fun c hc ↦ ?_⟩
    rw [hnil] at hc
    exact absurd hc List.not_mem_nil
  · refine ⟨some x, some y, hx, hy, fun c hc ↦ ?_⟩
    obtain ⟨hle, hge⟩ := hwithin x y hx hy c hc
    exact ⟨⟨x, rfl, hle⟩, y, rfl, hge⟩

/-! ## A centroid of two values -/

/-- The digest of -1 and 1 as a writer leaves it that merges the two. -/
def heavy : TDigestMut ℚ := ⟨10, false, .finite (-1), .finite 1, .centroids [⟨0, 2⟩] 0, 2⟩

/-! ## Digests of runs -/

/-- The extremes of a digest of a run survive a merge into another one. -/
theorem survives_of_reachable {ws : Multiset ℚ} (ha : Reachable codec scale vs a)
    (hb : Reachable codec scale ws b) (hlta : vs.card < 2 ^ 64) (hltb : ws.card < 2 ^ 64)
    (hempty : b.isEmpty = false) : MinSurvives a b ∧ MaxSurvives a b := by
  obtain ⟨hda, -, -⟩ := ha.kept (kept_stands scale) hlta
  obtain ⟨hdb, -, hstands⟩ := hb.kept (kept_stands scale) hltb
  have hne : b.contents ≠ [] := fun hnil ↦
    absurd (hempty.symm.trans (hdb.isEmpty_iff.mpr hnil)) Bool.noConfusion
  obtain ⟨x, y, hx, hy⟩ := hdb.nonempty hne
  obtain ⟨-, hfirst, hlast⟩ := hstands.extremes_mem hx hy
  refine ⟨⟨fun h ↦ ?_, Or.inr ?_⟩, fun h ↦ ?_, Or.inr ?_⟩
  · rw [(hda.empty (hda.isEmpty_iff.mp h)).1, hx]
    rfl
  · rw [hx, exists_finite_mean]
    exact hfirst
  · rw [(hda.empty (hda.isEmpty_iff.mp h)).2.1, hy]
    rfl
  · rw [hy, exists_finite_mean]
    exact hlast

end TDigestMut

end DataSketches
