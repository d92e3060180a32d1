import DataSketches.Req.RoundTrip

/-!
# Runs of REQ sketches

A sketch is reached by updates, merges and resets, with any outcome of the coins, and
by writing it and reading it back.  The number of its items, weighted by level, is
always the number of items it has seen, and its extreme items are exact.

## Main definitions

* `ReqSketch.Reached`: the sketches of all runs, with the items they have seen.
-/

namespace DataSketches

namespace Req

open Comparator Runs ReqValue

variable {T : Type}

namespace ReqSketch

variable [ReqValue T] {S : UnstableSort} {s s' other : ReqSketch T} {xs ys : List T}

/-! ## Runs -/

/-- The sketches that a run can reach, with the items they have seen, in order. -/
inductive Reached (S : UnstableSort) : ReqSketch T → List T → Prop where
  | new : Reached S new []
  | tryNew {k : ℕ} {rankAccuracy : RankAccuracy} {s : ReqSketch T} :
      tryNew k rankAccuracy = .ok s → Reached S s []
  | update {s s' : ReqSketch T} {xs : List T} {coins : ℕ → Bool} {item : T} :
      Reached S s xs → s.update S coins item = .ok s' →
        Reached S s' (if isNan item then xs else xs ++ [item])
  | merge {s s' other : ReqSketch T} {xs ys : List T} {coins : ℕ → Bool} :
      Reached S s xs → Reached S other ys → s.merge S coins other = .ok s' → Reached S s' (xs ++ ys)
  | reset {s : ReqSketch T} {xs : List T} : Reached S s xs → Reached S s.reset []
  | reload [LawfulValue T] {s s' : ReqSketch T} {xs : List T} {bytes : List UInt8} :
      Reached S s xs → s.serialize = .ok bytes → deserialize bytes = .ok s' → Reached S s' xs

omit [ReqValue T] in
theorem tryNew_ok {k : ℕ} {rankAccuracy : RankAccuracy} (h : tryNew k rankAccuracy = .ok s) :
    ValidK k ∧ s = create k rankAccuracy := by
  rw [tryNew] at h
  dsimp only at h
  split_ifs at h with hrange hodd
  · cases h
  · obtain ⟨hmin, hmax⟩ := hrange
    exact ⟨⟨hmin, hmax, not_not.mp hodd⟩, (Except.ok.inj h).symm⟩
  · cases h
  · cases h

theorem checkedAdd_ok {w a b c : ℕ} (h : checkedAdd w a b = .ok c) : a + b < 2 ^ w := by
  by_contra hge
  rw [checkedAdd, if_neg hge] at h
  cases h

/-- An item can be seen only if the number of items stays within a `u64`. -/
theorem lt_of_update {item : T} {coins : ℕ → Bool} (hfirst : s.compactors ≠ [])
    (hnan : isNan item = false) (h : s.update S coins item = .ok s') : s.n + 1 < 2 ^ 64 := by
  obtain ⟨c, hc⟩ : ∃ c, s.compactors[0]? = some c :=
    ⟨_, List.getElem?_eq_getElem (List.length_pos_iff.mpr hfirst)⟩
  rw [ReqSketch.update, if_neg (by rw [hnan]; exact Bool.false_ne_true)] at h
  dsimp only at h
  rw [compactorAt, hc] at h
  dsimp only at h
  rw [pure_eq_ok, ok_bind, setCompactor] at h
  dsimp only at h
  cases hadd : checkedAdd 64 s.n 1 with
  | error e =>
      rw [hadd, error_bind] at h
      cases h
  | ok n => exact checkedAdd_ok hadd

/-- A merge that returns is of sketches with one accuracy, and their items can be counted. -/
theorem of_merge {coins : ℕ → Bool} (h : s.merge S coins other = .ok s') :
    s.rankAccuracy = other.rankAccuracy ∧ (other.isEmpty = false → s.n + other.n < 2 ^ 64) := by
  rw [ReqSketch.merge] at h
  by_cases hacc : s.rankAccuracy = other.rankAccuracy
  · refine ⟨hacc, fun hempty ↦ ?_⟩
    rw [if_neg (not_not.mpr hacc)] at h
    dsimp only at h
    rw [if_neg (by rw [hempty]; exact Bool.false_ne_true)] at h
    cases hadd : checkedAdd 64 s.n other.n with
    | error e =>
        rw [hadd] at h
        cases h
    | ok n => exact checkedAdd_ok hadd
  · rw [if_pos hacc] at h
    cases h

theorem Inv.room_of_merge {coins : ℕ → Bool} (h : Inv s xs) (hother : Inv other ys)
    (hok : s.merge S coins other = .ok s') :
    s.rankAccuracy = other.rankAccuracy ∧ s.n + other.n < 2 ^ 64 := by
  obtain ⟨hacc, hroom⟩ := of_merge hok
  refine ⟨hacc, ?_⟩
  cases hempty : other.isEmpty with
  | true =>
      rw [hother.n_eq, hother.isEmpty_iff.mp hempty]
      exact h.n_lt
  | false => exact hroom hempty

/-- Every sketch of a run keeps the invariant. -/
theorem Reached.inv (h : Reached S s xs) : Inv s xs := by
  induction h with
  | new => exact inv_create (by decide) _
  | tryNew hnew =>
      obtain ⟨hk, rfl⟩ := tryNew_ok hnew
      exact inv_create hk _
  | @update s s' xs coins item _ hok ih =>
      cases hnan : isNan item with
      | true =>
          rw [update_of_nan hnan] at hok
          rw [if_pos rfl, ← Except.ok.inj hok]
          exact ih
      | false =>
          rw [if_neg Bool.false_ne_true]
          obtain ⟨s₁, hok₁, h₁, -⟩ :=
            ih.update (S := S) hnan (lt_of_update ih.levels.ne_nil hnan hok) coins
          rwa [← Except.ok.inj (hok₁.symm.trans hok)]
  | @merge s s' other xs ys coins _ _ hok ih ih' =>
      obtain ⟨hacc, hlt⟩ := ih.room_of_merge ih' hok
      obtain ⟨s₁, hok₁, h₁, -⟩ := ih.merge (S := S) ih' hacc hlt coins
      rwa [← Except.ok.inj (hok₁.symm.trans hok)]
  | reset _ ih => exact ih.reset
  | reload _ hwrite hread ih =>
      obtain ⟨bytes, s₁, hok, -, hok₁, -, h₁⟩ := ih.deserialize_serialize
      rw [Except.ok.inj (hwrite.symm.trans hok)] at hread
      rwa [← Except.ok.inj (hok₁.symm.trans hread)]

/-- The weights of the levels fit in a `u64`. -/
theorem Inv.weight_ok (h : Inv s xs) {i : ℕ} {c : Compactor T} (hc : s.compactors[i]? = some c) :
    c.weight = .ok (2 ^ i) := by
  have hlt : i < s.compactors.length := (List.getElem?_eq_some_iff.mp hc).1
  rw [Compactor.weight, (h.levels.inv i c hc).lgWeight_eq, if_pos (hlt.trans_le
    (h.levels.length_le_64 h.length_lt)), Nat.one_shiftLeft]
  rfl

/-- The sketches of runs without merges, with the items they have seen. -/
inductive Streamed (S : UnstableSort) : ReqSketch T → List T → Prop where
  | new : Streamed S new []
  | tryNew {k : ℕ} {rankAccuracy : RankAccuracy} {s : ReqSketch T} :
      tryNew k rankAccuracy = .ok s → Streamed S s []
  | update {s s' : ReqSketch T} {xs : List T} {coins : ℕ → Bool} {item : T} :
      Streamed S s xs → s.update S coins item = .ok s' →
        Streamed S s' (if isNan item then xs else xs ++ [item])
  | reset {s : ReqSketch T} {xs : List T} : Streamed S s xs → Streamed S s.reset []
  | reload [LawfulValue T] {s s' : ReqSketch T} {xs : List T} {bytes : List UInt8} :
      Streamed S s xs → s.serialize = .ok bytes → deserialize bytes = .ok s' → Streamed S s' xs

theorem Streamed.reached (h : Streamed S s xs) : Reached S s xs := by
  induction h with
  | new => exact .new
  | tryNew hnew => exact .tryNew hnew
  | update _ hok ih => exact .update ih hok
  | reset _ ih => exact .reset ih
  | reload _ hwrite hread ih => exact .reload ih hwrite hread

/-- Every stream that can be counted is seen by a run. -/
theorem exists_streamed (xs : List T) (hroom : xs.length < 2 ^ 64)
    (hnan : ∀ x ∈ xs, isNan x = false) :
    ∃ s : ReqSketch T, Streamed S s xs := by
  induction xs using List.reverseRecOn with
  | nil => exact ⟨_, .new⟩
  | append_singleton xs x ih =>
      rw [List.length_append, List.length_singleton] at hroom
      obtain ⟨s, hs⟩ := ih (Nat.lt_of_succ_lt hroom) fun y hy ↦ hnan y (List.mem_append_left _ hy)
      have hx : isNan x = false := hnan x (List.mem_append_right _ (List.mem_singleton_self x))
      have hinv := hs.reached.inv
      obtain ⟨s', hok, -⟩ := hinv.update (S := S) hx (hinv.n_eq ▸ hroom) fun _ ↦ false
      have hstep := Streamed.update hs hok
      rw [if_neg (by rw [hx]; exact Bool.false_ne_true)] at hstep
      exact ⟨s', hstep⟩

/-- Which calls return. -/
structure Progress (S : UnstableSort) (s : ReqSketch T) : Prop where
  update_nan : ∀ coins item, isNan item = true → s.update S coins item = .ok s
  update : ∀ coins item, isNan item = false →
    ((∃ s', s.update S coins item = .ok s') ↔ s.n + 1 < 2 ^ 64)
  merge : ∀ coins other ys, Reached S other ys →
    ((∃ s', s.merge S coins other = .ok s') ↔
      s.rankAccuracy = other.rankAccuracy ∧ s.n + other.n < 2 ^ 64)

/-- In every run, with any coins: the items weighted by level are as many as were seen, the totals
are those of the levels, every retained item was seen, the extreme items are exact, and nothing but
a counter at its end or another accuracy stops a call. -/
theorem run_accounts_for_items (h : Reached S s xs) :
    Inv s xs ∧ (∀ (i : ℕ) (c : Compactor T), s.compactors[i]? = some c → c.weight = .ok (2 ^ i)) ∧
      Progress S s := by
  have hinv := h.inv
  refine ⟨hinv, fun i c hc ↦ hinv.weight_ok hc, fun coins item hnan ↦ update_of_nan hnan coins,
    fun coins item hnan ↦ ⟨?_, fun hroom ↦ ?_⟩, fun coins other ys hother ↦ ⟨?_, ?_⟩⟩
  · rintro ⟨s', hok⟩
    exact lt_of_update hinv.levels.ne_nil hnan hok
  · obtain ⟨s', hok, -⟩ := hinv.update (S := S) hnan hroom coins
    exact ⟨s', hok⟩
  · rintro ⟨s', hok⟩
    exact hinv.room_of_merge hother.inv hok
  · rintro ⟨hacc, hroom⟩
    obtain ⟨s', hok, -⟩ := hinv.merge (S := S) hother.inv hacc hroom coins
    exact ⟨s', hok⟩

theorem run_accounts_for_items_pair : ∃ s : ReqSketch UInt32, Reached insertionSort s [7, 3] ∧
    Inv s [7, 3] ∧ Progress insertionSort s := by
  obtain ⟨s, hs⟩ := exists_streamed (S := insertionSort) ([7, 3] : List UInt32) (by decide)
    fun _ _ ↦ rfl
  obtain ⟨hinv, -, hprogress⟩ := run_accounts_for_items hs.reached
  exact ⟨s, hs.reached, hinv, hprogress⟩

/-- In every run a sketch can be written, in as many bytes as it announces, and what is written is
read back as a sketch with the same levels from which the run goes on. -/
theorem serialization_round_trips [LawfulValue T] (h : Reached S s xs) :
    ∃ bytes s', s.serialize = .ok bytes ∧ s.serializedSizeBytes = .ok bytes.length ∧
      deserialize bytes = .ok s' ∧ Restored s s' ∧ Reached S s' xs := by
  obtain ⟨bytes, s', hwrite, hsize, hread, hrestored, -⟩ := h.inv.deserialize_serialize
  exact ⟨bytes, s', hwrite, hsize, hread, hrestored, h.reload hwrite hread⟩

theorem serialization_round_trips_pair : ∃ s : ReqSketch UInt32, Reached insertionSort s [7, 3] ∧
    ∃ bytes s', s.serialize = .ok bytes ∧ deserialize bytes = .ok s' ∧ Restored s s' := by
  obtain ⟨s, hs⟩ := exists_streamed (S := insertionSort) ([7, 3] : List UInt32) (by decide)
    fun _ _ ↦ rfl
  obtain ⟨bytes, s', hwrite, -, hread, hrestored, -⟩ := serialization_round_trips hs.reached
  exact ⟨s, hs.reached, bytes, s', hwrite, hread, hrestored⟩

end ReqSketch

end Req

end DataSketches
