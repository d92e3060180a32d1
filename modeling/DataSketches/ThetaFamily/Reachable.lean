import DataSketches.ThetaFamily.Intersection
import DataSketches.ThetaFamily.Union

/-!
# Set operations after any calls

A set operation is handed sketches that this library built and sketches that it
only read from bytes.  All that is known of both is `Usable`: a decoded sketch
may repeat hashes, and a call that rejects it leaves the operation in a state of
its own.  What keeps the operations from panicking in all of these states is
little, and is shown here for every state they can reach.
-/

namespace DataSketches

open Runs SketchHashTable

variable {E : Type} [SketchEntry E]

/-- What holds of every sketch that can be handed to a set operation. -/
structure Usable (s : EntrySketch E) : Prop where
  range : ∀ e ∈ s.entries, 0 < SketchEntry.hash e ∧ SketchEntry.hash e < s.scalars.theta
  numRetained_eq : s.scalars.numRetained = s.entries.length

theorem EntrySketch.WellFormed.usable {s : EntrySketch E} (h : s.WellFormed) : Usable s :=
  ⟨h.range, h.numRetained_eq⟩

/-! ## Unions -/

namespace UnionState

/-- The unions that any calls lead to, accepted or not. -/
inductive Reachable : UnionState E → Prop
  | new {lgK : ℕ} {rf : ResizeFactor} {p : ℚ} {seed : UInt64} {policy : MergePolicy E}
      {u : UnionState E} (hlgK : minLgK ≤ lgK ∧ lgK ≤ maxLgK)
      (hnew : UnionState.new lgK rf p seed policy = .ok u) : Reachable u
  | update {u u' : UnionState E} {s : EntrySketch E} {r : Except Error Unit} (h : Reachable u)
      (hs : Usable s) (hok : u.update s = .ok (u', r)) : Reachable u'
  | reset {u : UnionState E} (h : Reachable u) : Reachable u.reset

/-- Feeding entries never fails, whatever they are. -/
theorem insertEntries_total (policy : MergePolicy E) (unionTheta : ℕ) (ordered : Bool) (es : List E)
    {t : SketchHashTable E} (h : Inv t) :
    ∃ t', insertEntries policy unionTheta ordered es t = .ok t' ∧ Inv t' ∧ SameConfig t t' := by
  induction es generalizing t with
  | nil => exact ⟨t, rfl, h, SameConfig.refl t⟩
  | cons e es ih =>
      by_cases hfed : SketchEntry.hash e < unionTheta ∧ SketchEntry.hash e < t.theta
      · obtain ⟨t₁, b, hok, hinv, hcfg, -⟩ := upsertEntry_spec h (SketchEntry.hash e)
          (policy.merge · e) (some e) (fun e' ↦ policy.hash_merge e' e)
          (fun e' he' ↦ by cases he'; rfl)
        obtain ⟨t', hok', hinv', hcfg'⟩ := ih hinv
        refine ⟨t', ?_, hinv', hcfg.trans hcfg'⟩
        rw [insertEntries, if_pos hfed, hok]
        exact hok'
      · cases ordered with
        | true =>
            refine ⟨t, ?_, h, SameConfig.refl t⟩
            rw [insertEntries, if_neg hfed, if_pos rfl]
        | false =>
            obtain ⟨t', hok', hinv', hcfg'⟩ := ih h
            refine ⟨t', ?_, hinv', hcfg'⟩
            rw [insertEntries, if_neg hfed, if_neg Bool.false_ne_true, hok']

/-- A call that gets past the hash of the seed returns and keeps the table intact. -/
theorem update_total {u : UnionState E} (h : Inv u.table) (s : EntrySketch E) {sh : ℕ}
    (hseed : computeSeedHash u.table.seed = .ok sh) :
    ∃ u' r, u.update s = .ok (u', r) ∧ Inv u'.table ∧ SameConfig u.table u'.table := by
  cases hempty : s.scalars.empty with
  | true => exact ⟨u, .ok (), by simp [update, hempty], h, SameConfig.refl _⟩
  | false =>
      cases hcheck : checkSeedHash sh s.scalars.seedHash "union update" .invalidArgument with
      | error e =>
          refine ⟨u, .error e, ?_, h, SameConfig.refl _⟩
          simp [update, hempty, SketchHashTable.seedHash, hseed, hcheck]
      | ok x =>
          obtain ⟨t', hok, hinv, hcfg⟩ := insertEntries_total u.policy
            (min u.unionTheta s.scalars.theta) s.scalars.ordered s.entries (h.setUsed false)
          refine ⟨⟨t', u.policy, min (min u.unionTheta s.scalars.theta) t'.theta⟩, .ok (), ?_, hinv,
            ⟨hcfg.lgNomSize_eq, hcfg.resizeFactor_eq, hcfg.samplingProbability_eq, hcfg.seed_eq,
              hcfg.lgCurSize_le⟩⟩
          simp [update, hempty, SketchHashTable.seedHash, hseed, hcheck, hok]

/-- A call that returns keeps the table intact. -/
theorem inv_of_update {u u' : UnionState E} (h : Inv u.table) {s : EntrySketch E}
    {r : Except Error Unit} (hok : u.update s = .ok (u', r)) :
    Inv u'.table ∧ SameConfig u.table u'.table := by
  cases hseed : computeSeedHash u.table.seed with
  | ok sh =>
      obtain ⟨u'', r', hok', hinv, hcfg⟩ := update_total h s hseed
      rw [hok] at hok'
      cases hok'
      exact ⟨hinv, hcfg⟩
  | error p =>
      -- Only an empty sketch gets past a seed without a hash.
      cases hempty : s.scalars.empty with
      | true =>
          simp only [update, hempty, if_true] at hok
          cases hok
          exact ⟨h, SameConfig.refl _⟩
      | false =>
          simp only [update, hempty, Bool.false_eq_true, if_false, SketchHashTable.seedHash,
            hseed, error_bind] at hok
          cases hok

theorem Reachable.inv {u : UnionState E} (h : Reachable u) :
    Inv u.table ∧ minLgK ≤ u.table.lgNomSize := by
  induction h with
  | new hlgK hnew =>
      obtain ⟨u', hok, -, hinv⟩ := new_runInv (E := E) hlgK.1 _ _ _ _
      rw [hnew] at hok
      cases hok
      exact ⟨hinv.toInv, hinv.lgNomSize_eq.ge.trans' hlgK.1⟩
  | update h hs hok ih =>
      obtain ⟨hinv, hcfg⟩ := inv_of_update ih.1 hok
      exact ⟨hinv, hcfg.lgNomSize_eq ▸ ih.2⟩
  | @reset u h ih =>
      obtain ⟨t, hok, hinv, -, -, hlg, -⟩ := new_spec (E := E) (ih.2.trans (Nat.le_succ _))
        u.table.resizeFactor u.table.samplingProbability u.table.seed
      rw [new_eq_reset ih.1.lgMaxSize_eq (ih.2.trans (Nat.le_succ _))] at hok
      cases hok
      exact ⟨hinv, hlg.ge.trans' ih.2⟩

/-- No call on a union that was reached panics, once its seed has a hash. -/
theorem Reachable.update_total {u : UnionState E} (h : Reachable u) (s : EntrySketch E) {sh : ℕ}
    (hseed : computeSeedHash u.table.seed = .ok sh) : ∃ u' r, u.update s = .ok (u', r) := by
  obtain ⟨u', r, hok, -⟩ := UnionState.update_total h.inv.1 s hseed
  exact ⟨u', r, hok⟩

end UnionState

/-! ## Intersections -/

namespace IntersectionState

/-- The intersections that any calls lead to, accepted or not. -/
inductive Reachable : IntersectionState E → Prop
  | new {seed : UInt64} {policy : MergePolicy E} {i : IntersectionState E}
      (hnew : IntersectionState.new seed policy = .ok i) : Reachable i
  | update {i i' : IntersectionState E} {s : EntrySketch E} {r : Except Error Unit}
      (h : Reachable i) (hs : Usable s) (hok : i.update s = .ok (i', r)) : Reachable i'

/-- The theta of an intersection that was not refused by its assertion. -/
def InRange (t : SketchHashTable E) : Prop := 1 ≤ t.theta ∧ t.theta ≤ maxTheta

/-- The entries can all be added to the table. -/
def Fresh (t : SketchHashTable E) (es : List E) : Prop :=
  (es.map SketchEntry.hash).Nodup ∧ ∀ e ∈ es,
    SketchEntry.hash e ∉ t.hashes ∧ 0 < SketchEntry.hash e ∧ SketchEntry.hash e < t.theta

/-- Filling a table that has room never panics, and moves no theta.  It is accepted if the entries
are new, and keeps fewer of them otherwise. -/
theorem insertAll_total (msg : String) {es : List E} {t : SketchHashTable E} (h : Inv t)
    (hfull : t.lgNomSize < t.lgCurSize) (hroom : t.numRetained + es.length ≤ t.capacityThreshold) :
    ∃ t' r, insertAll msg es t = .ok (t', r) ∧ Inv t' ∧ t'.theta = t.theta ∧
      (r = .ok () ↔ Fresh t es) ∧
      (r = .ok () → t'.numRetained = t.numRetained + es.length) ∧
      (r ≠ .ok () → t'.numRetained < t.numRetained + es.length) := by
  induction es generalizing t with
  | nil =>
      exact ⟨t, .ok (), rfl, h, rfl,
        iff_of_true rfl ⟨List.nodup_nil, fun e he ↦ absurd he List.not_mem_nil⟩, fun _ ↦ rfl,
        fun hne ↦ absurd rfl hne⟩
  | cons e es ih =>
      obtain ⟨t₁, b, hok, hinv, hcfg, -, hout⟩ := upsertEntry_spec h (SketchEntry.hash e)
        id (some e) (fun _ ↦ rfl) (fun e' he' ↦ by cases he'; rfl)
      rw [List.length_cons] at hroom
      -- There is no rebuild, so the entry is refused or added.
      have hrefused : b = false → t₁.theta = t.theta → t₁.numRetained = t.numRetained →
          ¬ Fresh t (e :: es) → ∃ t' r, insertAll msg (e :: es) t = .ok (t', r) ∧ Inv t' ∧
            t'.theta = t.theta ∧ (r = .ok () ↔ Fresh t (e :: es)) ∧
            (r = .ok () → t'.numRetained = t.numRetained + (es.length + 1)) ∧
            (r ≠ .ok () → t'.numRetained < t.numRetained + (es.length + 1)) := by
        rintro rfl htheta hnum hstale
        refine ⟨t₁, .error (.invalidArgument msg), ?_, hinv, htheta, iff_of_false (fun h ↦ by cases h)
          hstale, (fun h ↦ by cases h), fun _ ↦ by omega⟩
        rw [insertAll, hok]
        rfl
      cases hout with
      | screened hout hret htheta =>
          refine hrefused rfl htheta ?_ fun hfresh ↦ ?_
          · rw [← hinv.card_retained, ← h.card_retained, hret]
          · have hrange := (hfresh.2 e List.mem_cons_self).2
            omega
      | declined _ _ hnone => cases hnone
      | existing e' _ hmem hkey hret htheta =>
          refine hrefused rfl htheta ?_ fun hfresh ↦ ?_
          · have hcard := congrArg Multiset.card hret
            rw [Multiset.card_cons, Multiset.card_cons, hinv.card_retained, h.card_retained] at hcard
            exact Nat.succ_injective hcard
          · exact (hfresh.2 e List.mem_cons_self).1 (SketchHashTable.mem_hashes.mpr ⟨e', hmem, hkey⟩)
      | rebuilt _ _ _ _ _ _ hover => omega
      | inserted e' hrange hnotin hsome hret htheta =>
          cases hsome
          have hfull₁ : t₁.lgNomSize < t₁.lgCurSize := by
            rw [hcfg.lgNomSize_eq]
            exact hfull.trans_le hcfg.lgCurSize_le
          have hcap : t₁.capacityThreshold = t.capacityThreshold :=
            capacityThreshold_eq h hinv hcfg hfull
          have hnum : t₁.numRetained = t.numRetained + 1 := by
            rw [← hinv.card_retained, ← h.card_retained, hret, Multiset.card_cons]
          have hhashes : t₁.hashes = insert (SketchEntry.hash e) t.hashes := by
            rw [hashes_eq, hret, Multiset.map_cons, Multiset.toFinset_cons, ← hashes_eq]
          have hfresh : Fresh t₁ es ↔ Fresh t (e :: es) := by
            simp only [Fresh, hhashes, htheta, Finset.mem_insert, not_or, List.map_cons,
              List.nodup_cons, List.forall_mem_cons, List.mem_map]
            constructor
            · rintro ⟨hnd, hall⟩
              refine ⟨⟨?_, hnd⟩, ⟨hnotin, hrange⟩, fun e' he' ↦ ⟨(hall e' he').1.2, (hall e' he').2⟩⟩
              rintro ⟨e', he', heq⟩
              exact (hall e' he').1.1 heq
            · rintro ⟨⟨hout, hnd⟩, -, hall⟩
              exact ⟨hnd, fun e' he' ↦ ⟨⟨fun heq ↦ hout ⟨e', he', heq⟩, (hall e' he').1⟩,
                (hall e' he').2⟩⟩
          obtain ⟨t', r, hok', hinv', htheta', hiff, hall, hfewer⟩ :=
            ih hinv hfull₁ (by rw [hcap]; omega)
          refine ⟨t', r, ?_, hinv', htheta'.trans htheta, hiff.trans hfresh, fun hr ↦ ?_,
            fun hr ↦ ?_⟩
          · rw [insertAll, hok]
            exact hok'
          · rw [hall hr, List.length_cons]
            omega
          · have hlt := hfewer hr
            rw [List.length_cons]
            omega

/-- Filling a table made for the entries never panics. -/
theorem newTableFor_insertAll_total (msg : String) (table : SketchHashTable E) (es : List E) :
    ∃ t t' r, newTableFor table es.length = .ok t ∧ insertAll msg es t = .ok (t', r) ∧ Inv t' ∧
      t'.theta = table.theta ∧
      (r = .ok () ↔ (es.map SketchEntry.hash).Nodup ∧
        ∀ e ∈ es, 0 < SketchEntry.hash e ∧ SketchEntry.hash e < table.theta) ∧
      (r = .ok () → t'.numRetained = es.length) ∧ (r ≠ .ok () → t'.numRetained < es.length) := by
  obtain ⟨t, hnew, hinv, hentries, hfull, hcap, htheta, -, -⟩ :=
    newTableFor_spec table es.length
  have hzero : t.numRetained = 0 := by
    rw [hinv.numRetained_eq, hentries]
    rfl
  have hhashes : t.hashes = ∅ := by
    rw [SketchHashTable.hashes, hentries]
    rfl
  obtain ⟨t', r, hok, hinv', htheta', hiff, hall, hfewer⟩ := insertAll_total msg hinv hfull
    (show t.numRetained + es.length ≤ _ by rw [hzero, Nat.zero_add]; exact hcap)
  rw [hzero, Nat.zero_add] at hall hfewer
  refine ⟨t, t', r, hnew, hok, hinv', htheta'.trans htheta, hiff.trans ?_, hall, hfewer⟩
  rw [Fresh, htheta, hhashes]
  exact and_congr_right fun _ ↦ forall₂_congr fun e _ ↦
    and_iff_right (Finset.notMem_empty _)

theorem copyFirst_total (i : IntersectionState E) {s : EntrySketch E}
    (hnum : s.scalars.numRetained = s.entries.length) :
    ∃ i' r, i.copyFirst s = .ok (i', r) ∧ i'.table.theta = i.table.theta := by
  obtain ⟨t, t', r, hnew, hok, -, htheta, -⟩ := newTableFor_insertAll_total
    "Insert entries from sketch fail, possibly corrupted input sketch" i.table s.entries
  rw [← hnum] at hnew
  cases r with
  | error e =>
      refine ⟨{ i with hasResult := true, table := t' }, .error e, ?_, htheta⟩
      simp only [copyFirst, hnew, hok, ok_bind, pure_eq_ok]
  | ok x =>
      simp only [copyFirst, hnew, hok, ok_bind, pure_eq_ok]
      split_ifs
      · exact ⟨_, _, rfl, htheta⟩
      · exact ⟨_, _, rfl, htheta⟩

theorem matchNext_total (i : IntersectionState E) (s : EntrySketch E) :
    ∃ i' r, i.matchNext s = .ok (i', r) ∧ i'.table.theta = i.table.theta := by
  cases hmatch : matchEntries i.policy i.table (min i.table.numRetained s.scalars.numRetained)
    s.scalars.ordered s.entries [] 0 with
  | error e =>
      refine ⟨i, .error e, ?_, rfl⟩
      simp only [matchNext, hmatch, pure_eq_ok]
  | ok res =>
      obtain ⟨es, count⟩ := res
      simp only [matchNext, hmatch, newDefaultTable_eq, ok_bind, pure_eq_ok]
      split_ifs with hmore hfewer hnil hmax
      · exact ⟨_, _, rfl, rfl⟩
      · exact ⟨_, _, rfl, rfl⟩
      · exact ⟨_, _, rfl, rfl⟩
      · exact ⟨_, _, rfl, rfl⟩
      · obtain ⟨t, t', r, hnew, hok, -, htheta, -⟩ := newTableFor_insertAll_total
          "duplicate key, possibly corrupted input sketch" i.table es
        exact ⟨{ i with table := t' }, r, by rw [hnew, ok_bind, hok]; rfl, htheta⟩

/-- A call goes on past the assertion on its theta without another panic. -/
theorem narrow_total {i : IntersectionState E} {s : EntrySketch E}
    (hnum : s.scalars.numRetained = s.entries.length) {θ : ℕ}
    (hθ : (if i.table.isEmpty then maxTheta else min i.table.theta s.scalars.theta) = θ)
    (hrange : 1 ≤ θ ∧ θ ≤ maxTheta) :
    ∃ i' r, i.narrow s = .ok (i', r) ∧ InRange i'.table := by
  by_cases hdone : i.hasResult = true ∧ i.table.numRetained = 0
  · refine ⟨{ i with table := { i.table with theta := θ } }, .ok (), ?_, hrange⟩
    simp only [narrow, hθ, setTheta_of_mem hrange, ok_bind, if_pos hdone, pure_eq_ok]
  by_cases hzero : s.scalars.numRetained = 0
  · simp only [narrow, hθ, setTheta_of_mem hrange, ok_bind, if_neg hdone, if_pos hzero,
      newDefaultTable_eq, pure_eq_ok]
    exact ⟨_, _, rfl, hrange⟩
  simp only [narrow, hθ, setTheta_of_mem hrange, ok_bind, if_neg hdone, if_neg hzero]
  split_ifs
  · obtain ⟨i', r, hok, htheta⟩ :=
      copyFirst_total { i with table := { i.table with theta := θ } } hnum
    exact ⟨i', r, hok, by rw [InRange, htheta]; exact hrange⟩
  · obtain ⟨i', r, hok, htheta⟩ := matchNext_total { i with table := { i.table with theta := θ } } s
    exact ⟨i', r, hok, by rw [InRange, htheta]; exact hrange⟩

theorem narrow_empty_total (i : IntersectionState E) {s : EntrySketch E}
    (hnum : s.scalars.numRetained = s.entries.length) :
    ∃ i' r, narrow { i with table := { i.table with isEmpty := true } } s = .ok (i', r) ∧
      InRange i'.table :=
  @narrow_total _ _ { i with table := { i.table with isEmpty := true } } s hnum maxTheta rfl
    (by decide)

/-- A call returns if its sketch is not looked at, or has a theta. -/
theorem update_total {i : IntersectionState E} (h : InRange i.table) {s : EntrySketch E}
    (hnum : s.scalars.numRetained = s.entries.length) {sh : ℕ}
    (hseed : computeSeedHash i.table.seed = .ok sh)
    (htheta : i.table.isEmpty = true ∨ s.scalars.empty = true ∨ 1 ≤ s.scalars.theta) :
    ∃ i' r, i.update s = .ok (i', r) ∧ InRange i'.table := by
  cases hempty : i.table.isEmpty with
  | true => exact ⟨i, .ok (), by simp [update, hempty], h⟩
  | false =>
      cases hs : s.scalars.empty with
      | true =>
          obtain ⟨i', r, hok, hin⟩ := narrow_empty_total i hnum
          refine ⟨i', r, ?_, hin⟩
          rw [update, if_neg (ne_true_of_eq_false hempty), if_pos hs]
          exact hok
      | false =>
          have hpos : 1 ≤ s.scalars.theta := by
            rcases htheta with he | he | hpos
            · rw [hempty] at he
              cases he
            · rw [hs] at he
              cases he
            · exact hpos
          simp only [update, hempty, hs, Bool.false_eq_true, if_false, SketchHashTable.seedHash,
            hseed, ok_bind]
          cases hcheck : checkSeedHash sh s.scalars.seedHash "intersection update"
            .invalidArgument with
          | error e => exact ⟨i, .error e, rfl, h⟩
          | ok x =>
              exact narrow_total hnum (if_neg (ne_true_of_eq_false hempty))
                ⟨le_min h.1 hpos, (min_le_left _ _).trans h.2⟩

/-- A call that returns keeps the theta in range. -/
theorem inRange_of_update {i i' : IntersectionState E} (h : InRange i.table) {s : EntrySketch E}
    (hs : Usable s) {r : Except Error Unit} (hok : i.update s = .ok (i', r)) :
    InRange i'.table := by
  cases hempty : i.table.isEmpty with
  | true =>
      simp only [update, hempty, if_true] at hok
      cases hok
      exact h
  | false =>
      cases hsempty : s.scalars.empty with
      | true =>
          obtain ⟨i'', r', hok', hin⟩ := narrow_empty_total i hs.numRetained_eq
          rw [update, if_neg (ne_true_of_eq_false hempty), if_pos hsempty, hok'] at hok
          cases hok
          exact hin
      | false =>
          simp only [update, hempty, hsempty, Bool.false_eq_true, if_false,
            SketchHashTable.seedHash] at hok
          obtain ⟨sh, hsh, hok⟩ := bind_eq_ok.mp hok
          cases hcheck : checkSeedHash sh s.scalars.seedHash "intersection update"
            .invalidArgument with
          | error e =>
              rw [hcheck] at hok
              cases hok
              exact h
          | ok x =>
              rw [hcheck] at hok
              have hθ : (if i.table.isEmpty then maxTheta else min i.table.theta s.scalars.theta) =
                  min i.table.theta s.scalars.theta := if_neg (ne_true_of_eq_false hempty)
              by_cases hpos : 1 ≤ min i.table.theta s.scalars.theta
              · obtain ⟨i'', r', hok', hin⟩ := narrow_total hs.numRetained_eq hθ
                  ⟨hpos, (min_le_left _ _).trans h.2⟩
                rw [hok'] at hok
                cases hok
                exact hin
              · obtain ⟨t, ht, -⟩ := bind_eq_ok.mp hok
                rw [hθ, SketchHashTable.setTheta, assert_neg (fun hr ↦ hpos hr.1)] at ht
                cases ht

theorem Reachable.inRange {i : IntersectionState E} (h : Reachable i) : InRange i.table := by
  induction h with
  | new hnew =>
      cases hnew
      exact show 1 ≤ maxTheta ∧ maxTheta ≤ maxTheta by decide
  | update _ hs hok ih => exact inRange_of_update ih hs hok

/-- No call on an intersection that was reached panics, once its seed has a hash, with a sketch
that is empty or has a theta. -/
theorem Reachable.update_total {i : IntersectionState E} (h : Reachable i) {s : EntrySketch E}
    (hs : Usable s) {sh : ℕ} (hseed : computeSeedHash i.table.seed = .ok sh)
    (htheta : s.scalars.empty = true ∨ 1 ≤ s.scalars.theta) :
    ∃ i' r, i.update s = .ok (i', r) := by
  obtain ⟨i', r, hok, -⟩ :=
    IntersectionState.update_total h.inRange hs.numRetained_eq hseed (.inr htheta)
  exact ⟨i', r, hok⟩

end IntersectionState

end DataSketches
