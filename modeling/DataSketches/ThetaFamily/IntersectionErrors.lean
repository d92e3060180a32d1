import DataSketches.ThetaFamily.Reachable
import DataSketches.ThetaFamily.Theta.Serialization
import DataSketches.ThetaFamily.Tuple.Sketch

/-!
# Intersections that refuse a sketch

A sketch that repeats a hash passes the decoder and is refused by an
intersection, but only after the state was changed.  `Harmless` says from the
state before a call and its sketch when a refusal leaves no trace: it is refused
by its seed, or repeats no hash that the state would retain.
-/

namespace DataSketches

open Runs SketchHashTable

variable {E : Type} [SketchEntry E]

/-- What holds of every sketch view: the entries have hashes, and are counted. -/
structure Counted (s : EntrySketch E) : Prop where
  pos : ∀ e ∈ s.entries, 0 < SketchEntry.hash e
  numRetained_eq : s.scalars.numRetained = s.entries.length

namespace IntersectionState

/-! ## Matching any sketch -/

/-- The entries of a sketch that are looked at: an ordered one is left at the first hash that is
not below theta. -/
def considered (θ : ℕ) (s : EntrySketch E) : List E :=
  if s.scalars.ordered then s.entries.takeWhile (SketchEntry.hash · < θ) else s.entries

/-- The hashes of a sketch that the state retains as well, in the order of the sketch. -/
def shared (i : IntersectionState E) (θ : ℕ) (s : EntrySketch E) : List ℕ :=
  ((considered θ s).map SketchEntry.hash).filter fun x ↦ x < θ ∧ x ∈ i.table.hashes

/-- The matching loop gives the matched entries, unless there are too many. -/
theorem matchEntries_eq (policy : MergePolicy E) (t : SketchHashTable E) {maxMatches : ℕ}
    (ordered : Bool) (es : List E) {acc : List E} {c : ℕ} (hacc : acc.length ≤ maxMatches) :
    ∃ ms count, ms = (if ordered then es.takeWhile (SketchEntry.hash · < t.theta) else es).filterMap
        (matched policy t) ∧ count ≤ c + es.length ∧ (ordered = false → count = c + es.length) ∧
      matchEntries policy t maxMatches ordered es acc c =
        if acc.length + ms.length ≤ maxMatches then .ok (acc ++ ms, count)
        else .error (.invalidArgument "max matches exceeded, possibly corrupted input sketch") := by
  induction es generalizing acc c with
  | nil =>
      refine ⟨[], c, ?_, le_rfl, fun _ ↦ rfl, ?_⟩
      · cases ordered <;> rfl
      · rw [matchEntries, List.append_nil, List.length_nil, Nat.add_zero, if_pos hacc]
  | cons e es ih =>
      have hlen : (e :: es).length = es.length + 1 := rfl
      by_cases hlt : SketchEntry.hash e < t.theta
      · have htake : (if ordered then (e :: es).takeWhile (SketchEntry.hash · < t.theta) else e :: es) =
            e :: if ordered then es.takeWhile (SketchEntry.hash · < t.theta) else es := by
          cases ordered with
          | true => rw [if_pos rfl, if_pos rfl, List.takeWhile_cons_of_pos (by simpa using hlt)]
          | false => rfl
        rw [htake]
        cases hentry : t.entry (SketchEntry.hash e) with
        | none =>
            obtain ⟨ms, count, hms, hle, heq, hok⟩ := ih (c := c + 1) hacc
            refine ⟨ms, count, ?_, by omega, fun ho ↦ by have := heq ho; omega, ?_⟩
            · rw [List.filterMap_cons_none (by simp [matched, hentry]), hms]
            · rw [matchEntries, if_pos hlt, hentry]
              exact hok
        | some existing =>
            have hsome : matched policy t e = some (policy.merge existing e) := by
              simp [matched, hlt, hentry]
            rw [List.filterMap_cons_some hsome, matchEntries, if_pos hlt, hentry]
            dsimp only
            by_cases hfull : acc.length = maxMatches
            · rw [if_pos hfull]
              exact ⟨_, c + (es.length + 1), rfl, le_rfl, fun _ ↦ rfl, by
                rw [List.length_cons, if_neg (by omega)]⟩
            · obtain ⟨ms, count, hms, hle, heq, hok⟩ := @ih (acc ++ [policy.merge existing e])
                (c + 1) (by rw [List.length_append, List.length_singleton]; omega)
              refine ⟨_, count, rfl, by omega, fun ho ↦ by have := heq ho; omega, ?_⟩
              rw [if_neg hfull, hok, ← hms, List.length_append, List.length_singleton,
                List.length_cons, List.append_assoc, List.singleton_append]
              exact if_congr (by omega) rfl rfl
      · have hnone : matched policy t e = none := by simp [matched, hlt]
        cases ordered with
        | true =>
            refine ⟨[], c, ?_, by omega, (fun h ↦ by cases h), ?_⟩
            · rw [if_pos rfl, List.takeWhile_cons_of_neg (by simpa using hlt)]
              rfl
            · rw [matchEntries, if_neg hlt, if_pos rfl, List.append_nil, List.length_nil,
                Nat.add_zero, if_pos hacc]
        | false =>
            obtain ⟨ms, count, hms, hle, heq, hok⟩ := ih (c := c + 1) hacc
            refine ⟨ms, count, ?_, by omega, fun ho ↦ by have := heq ho; omega, ?_⟩
            · rw [if_neg Bool.false_ne_true, List.filterMap_cons_none hnone, hms,
                if_neg Bool.false_ne_true]
            · rw [matchEntries, if_neg hlt, if_neg Bool.false_ne_true, hok]

/-! ## Calls -/

/-- What holds of every state that calls lead to, refused or not. -/
structure Sound (i : IntersectionState E) : Prop where
  inRange : InRange i.table
  /-- The entries are found by their hashes, but need not be below theta. -/
  placed : i.table.numRetained ≠ 0 → ∃ θ, Inv { i.table with theta := θ }
  numRetained_eq : i.table.numRetained = i.table.iterEntries.length
  used : i.table.isEmpty = true → i.hasResult = true

/-- The two states report the same. -/
structure SameReport (i i' : IntersectionState E) : Prop where
  hasResult_eq : i'.hasResult = i.hasResult
  entries_eq : i'.table.iterEntries = i.table.iterEntries
  theta_eq : i'.table.theta = i.table.theta
  isEmpty_eq : i'.table.isEmpty = i.table.isEmpty

theorem SameReport.refl (i : IntersectionState E) : SameReport i i := ⟨rfl, rfl, rfl, rfl⟩

/-- If the call is refused, the state reports what it reported before. -/
def Atomic (i : IntersectionState E) (s : EntrySketch E) : Prop :=
  ∀ i' e, i.update s = .ok (i', .error e) → SameReport i i'

/-- The theta that a call sets. -/
def nextTheta (i : IntersectionState E) (s : EntrySketch E) : ℕ :=
  if s.scalars.empty then maxTheta else min i.table.theta s.scalars.theta

/-- The first sketch to be copied repeats no hash, and has no hash that theta screens out. -/
def Copies (θ : ℕ) (s : EntrySketch E) : Prop :=
  (s.entries.map SketchEntry.hash).Nodup ∧ ∀ e ∈ s.entries, SketchEntry.hash e < θ

/-- A call that is refused leaves no trace: there is nothing to do for it, or it is refused by its
seed, or it repeats no hash that is copied or shared, or it shares more hashes than the state
retains while not changing its theta. -/
def Harmless (i : IntersectionState E) (s : EntrySketch E) : Prop :=
  i.table.isEmpty = false →
    (s.scalars.empty = false → computeSeedHash i.table.seed = .ok s.scalars.seedHash ∧
      1 ≤ s.scalars.theta) →
    s.entries ≠ [] →
      (i.hasResult = false → Copies (nextTheta i s) s) ∧
      (i.hasResult = true → i.table.numRetained ≠ 0 → (shared i (nextTheta i s) s).Nodup ∨
        s.scalars.empty = false ∧ i.table.theta ≤ s.scalars.theta ∧
          i.table.numRetained < (shared i (nextTheta i s) s).length)

section Calls

variable {i : IntersectionState E} {s : EntrySketch E} {θ : ℕ}

/-- Copying the first sketch makes a result, whether it is refused or not. -/
theorem copyFirst_outcome (hs : Counted s) (hrange : InRange i.table) :
    ∃ i' r, i.copyFirst s = .ok (i', r) ∧ i'.Sound ∧ i'.hasResult = true ∧
      (r = .ok () ↔ Copies i.table.theta s) := by
  obtain ⟨t, t', r, hnew, hok, hinv, htheta, hiff, hall, -⟩ := newTableFor_insertAll_total
    "Insert entries from sketch fail, possibly corrupted input sketch" i.table s.entries
  rw [← hs.numRetained_eq] at hnew
  have hsound : Sound { i with hasResult := true, table := t' } :=
    ⟨by rw [InRange, htheta]; exact hrange, fun _ ↦ ⟨t'.theta, hinv⟩, hinv.numRetained_eq,
      fun _ ↦ rfl⟩
  have hcopies : r = .ok () ↔ Copies i.table.theta s := hiff.trans <| and_congr_right fun _ ↦
    forall₂_congr fun e he ↦ and_iff_right (hs.pos e he)
  cases r with
  | error e =>
      refine ⟨{ i with hasResult := true, table := t' }, .error e, ?_, hsound, rfl, hcopies⟩
      simp only [copyFirst, hnew, hok, ok_bind, pure_eq_ok]
  | ok x =>
      refine ⟨{ i with hasResult := true, table := t' }, .ok (), ?_, hsound, rfl, hcopies⟩
      simp only [copyFirst, hnew, hok, ok_bind, pure_eq_ok]
      rw [if_neg (not_not.mpr ((hall rfl).trans hs.numRetained_eq.symm))]

/-- The matched entries have the shared hashes. -/
theorem map_hash_matched (hinv : Inv { i.table with theta := θ }) {t : SketchHashTable E}
    (ht : ∀ x, t.entry x = i.table.entry x) :
    ((considered t.theta s).filterMap (matched i.policy t)).map SketchEntry.hash =
      shared i t.theta s := by
  have hhashes : SketchHashTable.hashes { i.table with theta := θ } = i.table.hashes := rfl
  rw [shared]
  induction considered t.theta s with
  | nil => rfl
  | cons e es ih =>
      rw [List.map_cons]
      by_cases hlt : SketchEntry.hash e < t.theta
      · have hentry : t.entry (SketchEntry.hash e) =
          SketchHashTable.entry { i.table with theta := θ } (SketchEntry.hash e) := ht _
        cases hex : SketchHashTable.entry { i.table with theta := θ } (SketchEntry.hash e) with
        | none =>
            have hnotin := hinv.entry_eq_none_iff.mp hex
            rw [hhashes] at hnotin
            rw [List.filterMap_cons_none (by simp [matched, hentry, hex]), ih,
              List.filter_cons_of_neg (by simp [hnotin])]
        | some existing =>
            obtain ⟨hret, hkey⟩ := hinv.entry_eq_some_iff.mp hex
            have hin : SketchEntry.hash e ∈ i.table.hashes :=
              SketchHashTable.mem_hashes.mpr ⟨existing, hret, hkey⟩
            have hsome : matched i.policy t e = some (i.policy.merge existing e) := by
              simp [matched, hlt, hentry, hex]
            rw [List.filterMap_cons_some hsome, List.map_cons, ih, i.policy.hash_merge, hkey,
              List.filter_cons_of_pos (by simp [hlt, hin])]
      · rw [List.filterMap_cons_none (by simp [matched, hlt]), ih,
          List.filter_cons_of_neg (by simp [hlt])]

/-- No hash is shared more often than the state retains it, unless the sketch repeats it. -/
theorem length_shared_le (hinv : Inv { i.table with theta := θ }) {θ' : ℕ}
    (hnd : (shared i θ' s).Nodup) : (shared i θ' s).length ≤ i.table.numRetained := by
  rw [← List.toFinset_card_of_nodup hnd]
  refine (Finset.card_le_card fun x hx ↦ ?_).trans hinv.card_hashes.le
  have hmem := (List.mem_filter.mp (List.mem_toFinset.mp hx)).2
  exact (of_decide_eq_true hmem).2

/-- Matching a later sketch is refused if hashes are shared more than once.  If there are more of
them than the state retains, the state is left as it is, else some are lost. -/
theorem matchNext_outcome (hs : Counted s) (hinv : Inv { i.table with theta := θ })
    (hrange : InRange i.table) (hresult : i.hasResult = true) :
    ∃ i' r, i.matchNext s = .ok (i', r) ∧ i'.Sound ∧ i'.hasResult = true ∧
      (r = .ok () → (shared i i.table.theta s).Nodup) ∧
      (r ≠ .ok () → i' = i ∧ i.table.numRetained < (shared i i.table.theta s).length ∨
        i'.table.iterEntries.length < i.table.iterEntries.length ∧
          (shared i i.table.theta s).length ≤ i.table.numRetained ∧
          ¬ (shared i i.table.theta s).Nodup) := by
  have hsound : i.Sound := ⟨hrange, fun _ ↦ ⟨θ, hinv⟩, hinv.numRetained_eq, fun _ ↦ hresult⟩
  obtain ⟨ms, count, hms, hle, heq, hok⟩ := @matchEntries_eq _ _ i.policy i.table
    (min i.table.numRetained s.scalars.numRetained) s.scalars.ordered s.entries [] 0 (Nat.zero_le _)
  have hhash : ms.map SketchEntry.hash = shared i i.table.theta s := by
    rw [hms]
    exact map_hash_matched hinv fun _ ↦ rfl
  rw [List.length_nil, Nat.zero_add, List.nil_append] at hok
  rw [Nat.zero_add] at hle heq
  have hlen : ms.length = (shared i i.table.theta s).length := by rw [← hhash, List.length_map]
  have hseen : ms.length ≤ s.scalars.numRetained := by
    rw [hms, hs.numRetained_eq]
    refine (List.length_filterMap_le _ _).trans ?_
    split_ifs
    · exact (List.takeWhile_sublist _).length_le
    · exact le_rfl
  by_cases hmany : ms.length ≤ min i.table.numRetained s.scalars.numRetained
  swap
  · refine ⟨i, .error (.invalidArgument "max matches exceeded, possibly corrupted input sketch"), ?_,
      hsound, hresult, nofun, fun _ ↦ Or.inl ⟨rfl, ?_⟩⟩
    · simp only [matchNext, hok, if_neg hmany, pure_eq_ok]
    · rw [← hlen]
      exact not_le.mp fun hfit ↦ hmany (le_min hfit hseen)
  have hfew := hmany.trans (min_le_left _ _)
  simp only [matchNext, hok, if_pos hmany]
  rw [if_neg (by rw [hs.numRetained_eq]; omega), if_neg fun hc ↦ by
    have hall := heq (by simpa using hc.1)
    have hlt := hc.2
    rw [hs.numRetained_eq] at hlt
    omega]
  cases hnil : ms.isEmpty with
  | true =>
      rw [if_pos rfl, newDefaultTable_eq, ok_bind]
      rw [List.isEmpty_iff] at hnil
      refine ⟨_, _, rfl, ⟨?_, fun hne ↦ ?_, ?_, fun _ ↦ hresult⟩, hresult, fun _ ↦ ?_,
        fun hne ↦ absurd rfl hne⟩
      · dsimp only
        split_ifs <;> exact hrange
      · dsimp only at hne
        split_ifs at hne <;> exact absurd rfl hne
      · dsimp only
        split_ifs <;> rfl
      · rw [← hhash, hnil]
        exact List.nodup_nil
  | false =>
      have hne : ms ≠ [] := List.isEmpty_eq_false_iff.mp hnil
      obtain ⟨t, t', r, hnew, hins, hinv', htheta, hiff, hall, hfewer⟩ :=
        newTableFor_insertAll_total "duplicate key, possibly corrupted input sketch" i.table ms
      have hrange' : ∀ e ∈ ms, 0 < SketchEntry.hash e ∧ SketchEntry.hash e < i.table.theta := by
        intro e he
        have hmem : SketchEntry.hash e ∈ shared i i.table.theta s :=
          hhash ▸ List.mem_map_of_mem he
        obtain ⟨hlt, hin⟩ := of_decide_eq_true (List.mem_filter.mp hmem).2
        exact ⟨(hinv.mem_hashes_below hin).1, hlt⟩
      have hnodup : r = .ok () ↔ (shared i i.table.theta s).Nodup := by
        rw [hiff, and_iff_left hrange', hhash]
      rw [if_neg Bool.false_ne_true, hnew, ok_bind, hins, ok_bind]
      refine ⟨{ i with table := t' }, r, rfl, ⟨?_, fun _ ↦ ⟨t'.theta, hinv'⟩, hinv'.numRetained_eq,
        fun _ ↦ hresult⟩, hresult, hnodup.mp, fun hr ↦ Or.inr ⟨?_, ?_, ?_⟩⟩
      · rw [InRange, htheta]
        exact hrange
      · have hlt := hfewer hr
        rw [hinv'.numRetained_eq] at hlt
        have hret : i.table.numRetained = i.table.iterEntries.length := hinv.numRetained_eq
        dsimp only
        omega
      · rw [← hlen]
        exact hfew
      · exact fun hnd ↦ hr (hnodup.mpr hnd)

/-- A call that gets past the checks of emptiness and seed makes a result.  It is atomic if it is
harmless. -/
theorem narrow_outcome (h : i.Sound) (hs : Counted s) (hempty : i.table.isEmpty = false)
    (hθ : nextTheta i s = θ) (hrange : 1 ≤ θ ∧ θ ≤ maxTheta) :
    ∃ i' r, narrow { i with table := { i.table with isEmpty := s.scalars.empty } } s = .ok (i', r) ∧
      i'.Sound ∧ i'.hasResult = true ∧
      ((r ≠ .ok () → SameReport i i') ↔ (s.entries ≠ [] →
        (i.hasResult = false → Copies θ s) ∧
        (i.hasResult = true → i.table.numRetained ≠ 0 → (shared i θ s).Nodup ∨
          s.scalars.empty = false ∧ i.table.theta ≤ s.scalars.theta ∧
            i.table.numRetained < (shared i θ s).length))) := by
  have hset : (if s.scalars.empty then maxTheta else min i.table.theta s.scalars.theta) = θ := hθ
  have htable := setTheta_of_mem (t := { i.table with isEmpty := s.scalars.empty }) hrange
  have hfine : ∀ {P : Prop} {i' : IntersectionState E},
      P → (((.ok () : Except Error Unit) ≠ .ok () → SameReport i i') ↔ P) :=
    fun hP ↦ iff_of_true (fun hne ↦ absurd rfl hne) hP
  by_cases hdone : i.hasResult = true ∧ i.table.numRetained = 0
  · refine ⟨{ i with table := { i.table with isEmpty := s.scalars.empty, theta := θ } }, .ok (), ?_,
      ⟨hrange, fun hne ↦ absurd hdone.2 hne, h.numRetained_eq, fun _ ↦ hdone.1⟩, hdone.1,
      hfine fun _ ↦ ⟨fun hno ↦ ?_, fun _ hne ↦ absurd hdone.2 hne⟩⟩
    · simp only [narrow, hset, htable, ok_bind, if_pos hdone, pure_eq_ok]
    · exact absurd (hdone.1.symm.trans hno) (by decide)
  by_cases hzero : s.scalars.numRetained = 0
  · have hnil : s.entries = [] := List.length_eq_zero_iff.mp (hs.numRetained_eq.symm.trans hzero)
    simp only [narrow, hset, htable, ok_bind, if_neg hdone, if_pos hzero, newDefaultTable_eq,
      pure_eq_ok]
    exact ⟨_, _, rfl, ⟨hrange, fun hne ↦ absurd rfl hne, rfl, fun _ ↦ rfl⟩, rfl,
      hfine fun hne ↦ absurd hnil hne⟩
  have hne : s.entries ≠ [] := fun hnil ↦ hzero (by rw [hs.numRetained_eq, hnil]; rfl)
  obtain ⟨j, hj⟩ : ∃ j : IntersectionState E,
    j = { i with table := { i.table with isEmpty := s.scalars.empty, theta := θ } } := ⟨_, rfl⟩
  have hjrange : InRange j.table := by
    rw [hj]
    exact hrange
  have hjtheta : j.table.theta = θ := by rw [hj]
  simp only [narrow, hset, htable, ok_bind, if_neg hdone, if_neg hzero]
  rw [← hj]
  cases hresult : i.hasResult with
  | false =>
      -- A first sketch that is refused leaves a result behind.
      obtain ⟨i', r, hok, hsound, hres, hiff⟩ := copyFirst_outcome hs hjrange
      refine ⟨i', r, ?_, hsound, hres, ?_⟩
      · rw [if_pos (by rfl), hok]
      · rw [hjtheta] at hiff
        constructor
        · intro hsame _
          refine ⟨fun _ ↦ hiff.mp (not_not.mp fun hr ↦ ?_), fun h ↦ by cases h⟩
          have heq := (hsame hr).hasResult_eq
          rw [hres, hresult] at heq
          cases heq
        · intro hcond hr
          exact absurd (hiff.mpr ((hcond hne).1 rfl)) hr
  | true =>
      have hnum : i.table.numRetained ≠ 0 := fun hn ↦ hdone ⟨hresult, hn⟩
      obtain ⟨θ₀, hinv⟩ := h.placed hnum
      have hjinv : Inv { j.table with theta := θ₀ } := by
        rw [hj]
        exact hinv.setUsed s.scalars.empty
      have hjshared : shared j θ s = shared i θ s := by
        rw [hj]
        rfl
      obtain ⟨i', r, hok, hsound, hres, hgood, hbad⟩ :=
        matchNext_outcome hs hjinv hjrange (by rw [hj]; exact hresult)
      rw [hjtheta, hjshared] at hgood hbad
      refine ⟨i', r, ?_, hsound, hres, ?_⟩
      · rw [if_neg (by decide), hok]
      constructor
      · refine fun hsame _ ↦ ⟨(fun h ↦ by cases h), fun _ _ ↦ ?_⟩
        by_cases hr : r = .ok ()
        · exact Or.inl (hgood hr)
        · obtain ⟨-, hentries, htheta, hemp⟩ := hsame hr
          rcases hbad hr with ⟨hsame', hlt⟩ | ⟨hlt, -⟩
          · rw [hsame', hj] at htheta hemp
            rw [hempty] at hemp
            refine Or.inr ⟨hemp, ?_, by rw [hj] at hlt; exact hlt⟩
            rw [← hθ, nextTheta, if_neg (ne_true_of_eq_false hemp)] at htheta
            exact min_eq_left_iff.mp htheta
          · rw [hentries, hj] at hlt
            exact absurd hlt (lt_irrefl _)
      · intro hcond hr
        have hcond' := (hcond hne).2 rfl hnum
        rcases hbad hr with ⟨hsame', hlt⟩ | ⟨-, hfew, hdup⟩
        · rcases hcond' with hnd | ⟨hemp, hle, -⟩
          · have hle := length_shared_le hinv hnd
            rw [hj] at hlt
            exact absurd hlt (not_lt.mpr hle)
          · rw [hsame', hj]
            refine ⟨rfl, rfl, ?_, ?_⟩
            · dsimp only
              rw [← hθ, nextTheta, if_neg (ne_true_of_eq_false hemp), min_eq_left hle]
            · exact hemp.trans hempty.symm
        · rw [hj] at hfew
          rcases hcond' with hnd | ⟨-, -, hlt⟩
          · exact absurd hnd hdup
          · exact absurd hlt (not_lt.mpr hfew)

/-- What a call does: nothing, or it panics on the seed or the theta of the sketch, or it goes on. -/
theorem Sound.update_cases (h : i.Sound) (s : EntrySketch E) :
    (∃ p, i.update s = .error p ∧ i.table.isEmpty = false ∧ s.scalars.empty = false ∧
      ¬ (computeSeedHash i.table.seed = .ok s.scalars.seedHash ∧ 1 ≤ s.scalars.theta)) ∨
    (i.update s = .ok (i, .ok ()) ∧ i.table.isEmpty = true) ∨
    (∃ e, i.update s = .ok (i, .error e) ∧ s.scalars.empty = false ∧
      computeSeedHash i.table.seed ≠ .ok s.scalars.seedHash) ∨
    (i.update s = narrow { i with table := { i.table with isEmpty := s.scalars.empty } } s ∧
      i.table.isEmpty = false ∧ (1 ≤ nextTheta i s ∧ nextTheta i s ≤ maxTheta) ∧
      (s.scalars.empty = false → computeSeedHash i.table.seed = .ok s.scalars.seedHash ∧
        1 ≤ s.scalars.theta)) := by
  cases hempty : i.table.isEmpty with
  | true => exact Or.inr (Or.inl ⟨by simp [update, hempty], rfl⟩)
  | false =>
      have hsame : { i with table := { i.table with isEmpty := false } } = i := by
        rw [← hempty]
      cases hsempty : s.scalars.empty with
      | true =>
          refine Or.inr (Or.inr (Or.inr ⟨?_, rfl, ?_, fun h ↦ by cases h⟩))
          · rw [update, if_neg (ne_true_of_eq_false hempty), if_pos hsempty]
          · rw [nextTheta, if_pos hsempty]
            decide
      | false =>
          cases hseed : computeSeedHash i.table.seed with
          | error p =>
              refine Or.inl ⟨p, ?_, rfl, rfl, fun hc ↦ by cases hc.1⟩
              simp [update, hempty, hsempty, SketchHashTable.seedHash, hseed]
          | ok sh =>
              by_cases hmatch : s.scalars.seedHash = sh
              · have hupdate : i.update s = narrow i s := by
                  simp [update, hempty, hsempty, SketchHashTable.seedHash, hseed, hmatch,
                    checkSeedHash_self]
                have htheta : nextTheta i s = min i.table.theta s.scalars.theta :=
                  if_neg (ne_true_of_eq_false hsempty)
                by_cases hpos : 1 ≤ s.scalars.theta
                · refine Or.inr (Or.inr (Or.inr ⟨?_, rfl, ?_, fun _ ↦ ⟨by rw [hmatch], hpos⟩⟩))
                  · rw [hupdate, hsame]
                  · rw [htheta]
                    exact ⟨le_min h.inRange.1 hpos, (min_le_left _ _).trans h.inRange.2⟩
                · refine Or.inl ⟨.assertion "theta must be in [1, 9223372036854775807]", ?_, rfl, rfl,
                    fun hc ↦ hpos hc.2⟩
                  rw [hupdate, narrow, if_neg (ne_true_of_eq_false hempty), SketchHashTable.setTheta,
                    assert_neg fun hr ↦ hpos (hr.1.trans (min_le_right _ _))]
                  rfl
              · cases hcheck : checkSeedHash sh s.scalars.seedHash "intersection update"
                  .invalidArgument with
                | ok x => exact absurd (checkSeedHash_eq_ok.mp hcheck) hmatch
                | error e =>
                    have hupdate : i.update s = .ok (i, .error e) := by
                      simp [update, hempty, hsempty, SketchHashTable.seedHash, hseed, hcheck]
                    refine Or.inr (Or.inr (Or.inl ⟨e, hupdate, rfl, fun hc ↦ ?_⟩))
                    exact hmatch (Except.ok.inj hc).symm

/-- A call is atomic exactly if it is harmless. -/
theorem Sound.atomic_iff (h : i.Sound) (hs : Counted s) : Atomic i s ↔ Harmless i s := by
  rcases h.update_cases s with ⟨p, hok, hemp, hsemp, hno⟩ | ⟨hok, hemp⟩ | ⟨e, hok, hsemp, hno⟩ |
    ⟨hok, hemp, hrange, hseed⟩
  · refine iff_of_true (fun i' e hu ↦ ?_) fun _ hc ↦ absurd (hc hsemp) hno
    rw [hok] at hu
    cases hu
  · refine iff_of_true (fun i' e hu ↦ ?_) fun hc ↦ absurd (hemp.symm.trans hc) (by decide)
    rw [hok] at hu
    cases hu
  · refine iff_of_true (fun i' e hu ↦ ?_) fun _ hc ↦ absurd (hc hsemp).1 hno
    rw [hok] at hu
    cases hu
    exact SameReport.refl i
  · obtain ⟨i', r, hn, -, -, hiff⟩ := narrow_outcome h hs hemp rfl hrange
    have hatomic : Atomic i s ↔ (r ≠ .ok () → SameReport i i') := by
      rw [Atomic, hok, hn]
      constructor
      · intro hall hr
        cases r with
        | ok x => exact absurd rfl hr
        | error e => exact hall i' e rfl
      · rintro hall _ _ ⟨⟩
        exact hall nofun
    rw [hatomic, hiff]
    exact ⟨fun hc _ _ ↦ hc, fun hc ↦ hc hemp hseed⟩

/-- A call keeps what holds of every state, and a call that is accepted makes a result. -/
theorem Sound.update (h : i.Sound) (hs : Counted s) {i' : IntersectionState E}
    {r : Except Error Unit} (hok : i.update s = .ok (i', r)) :
    i'.Sound ∧ (i.hasResult = true → i'.hasResult = true) ∧
      (r = .ok () → i'.hasResult = true) := by
  rcases h.update_cases s with ⟨p, hu, -⟩ | ⟨hu, hemp⟩ | ⟨e, hu, -⟩ | ⟨hu, hemp, hrange, -⟩
  · rw [hok] at hu
    cases hu
  · rw [hok] at hu
    cases hu
    exact ⟨h, id, fun _ ↦ h.used hemp⟩
  · rw [hok] at hu
    cases hu
    exact ⟨h, id, nofun⟩
  · obtain ⟨i'', r', hn, hsound, hres, -⟩ := narrow_outcome h hs hemp rfl hrange
    rw [hok, hn] at hu
    cases hu
    exact ⟨hsound, fun _ ↦ hres, fun _ ↦ hres⟩

end Calls

/-- A new operator. -/
theorem sound_new {seed : UInt64} {policy : MergePolicy E} {i : IntersectionState E}
    (hnew : new seed policy = .ok i) : i.Sound ∧ i.hasResult = false := by
  cases hnew
  have hrange : 1 ≤ maxTheta ∧ maxTheta ≤ maxTheta := by decide
  exact ⟨⟨hrange, fun hne ↦ absurd rfl hne, rfl, nofun⟩, rfl⟩

/-- The states that calls lead to, with the results of the calls.  Every call meets a condition on
the state before it and its sketch. -/
inductive History (seed : UInt64) (policy : MergePolicy E)
    (meets : IntersectionState E → EntrySketch E → Prop) :
    List (Except Error Unit) → IntersectionState E → Prop
  | new {i : IntersectionState E} (hnew : IntersectionState.new seed policy = .ok i) :
      History seed policy meets [] i
  | update {results : List (Except Error Unit)} {i i' : IntersectionState E} {s : EntrySketch E}
      {r : Except Error Unit} (h : History seed policy meets results i) (hs : Counted s)
      (hmeets : meets i s) (hok : i.update s = .ok (i', r)) :
      History seed policy meets (results ++ [r]) i'

theorem History.sound {seed : UInt64} {policy : MergePolicy E}
    {meets : IntersectionState E → EntrySketch E → Prop} {results : List (Except Error Unit)}
    {i : IntersectionState E} (h : History seed policy meets results i) : i.Sound := by
  induction h with
  | new hnew => exact (sound_new hnew).1
  | update _ hs _ hok ih => exact (ih.update hs hok).1

/-- A refused call leaves the state as it was exactly if the call is harmless.  If all calls are,
there is a result if and only if some call was accepted. -/
theorem refusals_spec (seed : UInt64) (policy : MergePolicy E) :
    (∀ results i s, History seed policy (fun _ _ ↦ True) results i → Counted s →
      (Atomic i s ↔ Harmless i s)) ∧
    ∀ results i, History seed policy Harmless results i →
      (i.hasResult = true ↔ .ok () ∈ results) := by
  refine ⟨fun results i s h hs ↦ h.sound.atomic_iff hs, fun results i h ↦ ?_⟩
  induction h with
  | new hnew => simp [(sound_new hnew).2]
  | @update results i i' s r h hs hmeets hok ih =>
      obtain ⟨-, hkeep, hres⟩ := h.sound.update hs hok
      rw [List.mem_append, List.mem_singleton]
      cases r with
      | ok x => exact iff_of_true (hres rfl) (Or.inr rfl)
      | error e =>
          have hsame := (h.sound.atomic_iff hs).mpr hmeets i' e hok
          rw [hsame.hasResult_eq, ih]
          exact ⟨Or.inl, fun hor ↦ hor.resolve_right nofun⟩

end IntersectionState

/-! ## Sketches that repeat a hash -/

/-- The view of a compact sketch, wherever it comes from. -/
theorem counted_compact {c : CompactThetaSketch} {s : EntrySketch ThetaEntry}
    (h : (ThetaSketchView.compact c).view = .ok s) : Counted s := by
  obtain ⟨es, hes, h⟩ := bind_eq_ok.mp h
  cases h
  refine ⟨fun e _ ↦ Nat.pos_of_ne_zero e.ne_zero, ?_⟩
  change c.entries.length = es.length
  rw [← ThetaEntry.map_hash_of_mapM_new hes, List.length_map]

/-- The entries of a Tuple sketch have hashes by their type. -/
theorem counted_compactTuple {S : Type} (c : CompactTupleSketch S) : Counted c.asView :=
  ⟨fun e _ ↦ e.hash_pos, rfl⟩

/-- The view of a mutable sketch. -/
theorem SketchHashTable.Inv.counted {t : SketchHashTable E} (h : Inv t) (seedHash : ℕ) :
    Counted (t.asView seedHash) := ⟨fun e he ↦ (h.below e he).1, h.numRetained_eq⟩

/-- An image that stores the hash 7 twice. -/
def repeatingImage : List UInt8 :=
  [2, 3, 3, 0, 0, 10, 204, 147, 2, 0, 0, 0, 0, 0, 0, 0,
    7, 0, 0, 0, 0, 0, 0, 0, 7, 0, 0, 0, 0, 0, 0, 0]

/-- A first sketch that is refused leaves a result of one entry behind. -/
theorem refused_repeating : ∃ (c : CompactThetaSketch) (s : EntrySketch ThetaEntry)
    (i i' : ThetaIntersection) (e : Error),
    CompactThetaSketch.deserializeWithSeed repeatingImage defaultUpdateSeed = .ok c ∧
      (ThetaSketchView.compact c).view = .ok s ∧
      ThetaIntersection.withSeed defaultUpdateSeed = .ok i ∧
      IntersectionState.update i s = .ok (i', .error e) ∧ i.hasResult = false ∧
      i'.hasResult = true ∧ i'.table.numRetained = 1 ∧ ¬ IntersectionState.Atomic i s := by
  have hread : CompactThetaSketch.deserializeWithSeed repeatingImage defaultUpdateSeed =
      .ok ⟨[7, 7], maxTheta, 37836, false, false⟩ := by decide +kernel
  have hrun : (do
      let s ← (ThetaSketchView.compact ⟨[7, 7], maxTheta, 37836, false, false⟩).view
      let i ← ThetaIntersection.withSeed defaultUpdateSeed
      let r ← IntersectionState.update i s
      return (i.hasResult, r.1.hasResult, r.1.table.numRetained, r.2)) =
        .ok (false, true, 1, .error (.invalidArgument
          "Insert entries from sketch fail, possibly corrupted input sketch")) := by decide +kernel
  obtain ⟨s, hs, hrun⟩ := bind_eq_ok.mp hrun
  obtain ⟨i, hi, hrun⟩ := bind_eq_ok.mp hrun
  obtain ⟨⟨i', r⟩, hok, hrun⟩ := bind_eq_ok.mp hrun
  simp only [pure_eq_ok, Except.ok.injEq, Prod.mk.injEq] at hrun
  obtain ⟨hbefore, hafter, hnum, hr⟩ := hrun
  rw [hr] at hok
  refine ⟨_, s, i, i', _, hread, hs, hi, hok, hbefore, hafter, hnum, fun hatomic ↦ ?_⟩
  have heq := (hatomic i' _ hok).hasResult_eq
  rw [hbefore, hafter] at heq
  cases heq

end DataSketches
