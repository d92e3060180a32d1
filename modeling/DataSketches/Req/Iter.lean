import DataSketches.Req.Queries

/-!
# Iterating over a sketch

The iterator walks over the levels that have items and gives every item with the
weight of its level.
-/

namespace DataSketches

namespace Req

open Runs

/-- Iterator over (item, weight) pairs in a REQ sketch. -/
structure ReqSketchIterator (T : Type) where
  compactors : List (Compactor T)
  currentLevel : ℕ
  /-- The items of the level that are left. -/
  currentLevelIter : Option (List T)
  currentWeight : ℕ

namespace ReqSketchIterator

variable {T : Type}

def advanceToNextLevel (it : ReqSketchIterator T) : Checked (ReqSketchIterator T) :=
  if h : it.currentLevel < it.compactors.length then
    let c := it.compactors[it.currentLevel]
    if c.items.isEmpty then
      advanceToNextLevel { it with currentLevel := it.currentLevel + 1 }
    else do
      let weight ← c.weight
      return { it with currentLevelIter := some c.items, currentWeight := weight }
  else return { it with currentLevelIter := none }
termination_by it.compactors.length - it.currentLevel

def new (compactors : List (Compactor T)) : Checked (ReqSketchIterator T) :=
  advanceToNextLevel ⟨compactors, 0, none, 0⟩

/-- The loop of `next`, which passes at most once to a level that has items. -/
def nextLoop : ℕ → ReqSketchIterator T → Checked (Option (T × ℕ) × ReqSketchIterator T)
  | 0, it => return (none, it)
  | fuel + 1, it =>
      match it.currentLevelIter with
      | some (x :: xs) => return (some (x, it.currentWeight), { it with currentLevelIter := some xs })
      | _ => do
          let it ← advanceToNextLevel { it with currentLevel := it.currentLevel + 1 }
          match it.currentLevelIter with
          | none => return (none, it)
          | some _ => nextLoop fuel it

def next (it : ReqSketchIterator T) : Checked (Option (T × ℕ) × ReqSketchIterator T) := nextLoop 2 it

/-- A `for` loop over the iterator, which takes at most as many pairs as it may. -/
def collect : ℕ → ReqSketchIterator T → Checked (List (T × ℕ))
  | 0, _ => return []
  | fuel + 1, it => do
      let step ← it.next
      match step.1 with
      | none => return []
      | some q => do
          let rest ← collect fuel step.2
          return q :: rest

/-! ## What the iterator gives -/

/-- The pairs that the iterator has not given yet. -/
def pending (it : ReqSketchIterator T) : List (T × ℕ) :=
  (it.currentLevelIter.getD []).map (·, it.currentWeight) ++
    pairs (it.compactors.drop (it.currentLevel + 1))

variable {it : ReqSketchIterator T}

theorem pairs_drop {cs : List (Compactor T)} {level : ℕ} (h : level < cs.length) :
    pairs (cs.drop level) =
      cs[level].items.map (·, 2 ^ cs[level].lgWeight) ++ pairs (cs.drop (level + 1)) := by
  rw [List.drop_eq_getElem_cons h, pairs_cons]

/-- The next level that has items is found, if there is one. -/
theorem advanceToNextLevel_spec (it : ReqSketchIterator T)
    (hweight : ∀ c ∈ it.compactors, c.weight = .ok (2 ^ c.lgWeight)) :
    ∃ it', it.advanceToNextLevel = .ok it' ∧ it'.compactors = it.compactors ∧
      it'.pending = pairs (it.compactors.drop it.currentLevel) ∧
        (∀ xs, it'.currentLevelIter = some xs → xs ≠ []) ∧
          (it'.currentLevelIter = none → it'.pending = []) := by
  induction it using advanceToNextLevel.induct with
  | case1 it hlt c hempty ih =>
      obtain ⟨it', hok, hcompactors, hpending, hne, hnone⟩ := ih hweight
      refine ⟨it', ?_, hcompactors, ?_, hne, hnone⟩
      · rw [advanceToNextLevel, dif_pos hlt, if_pos hempty, hok]
      · rw [hpending, pairs_drop hlt, List.isEmpty_iff.mp hempty]
        rfl
  | case2 it hlt c hempty =>
      refine ⟨{ it with currentLevelIter := some c.items, currentWeight := 2 ^ c.lgWeight }, ?_, rfl,
        (pairs_drop hlt).symm, ?_, nofun⟩
      · rw [advanceToNextLevel, dif_pos hlt, if_neg hempty, hweight _ (List.getElem_mem hlt)]
        rfl
      · intro xs hxs
        rw [← Option.some.inj hxs]
        exact fun hnil ↦ hempty (List.isEmpty_iff.mpr hnil)
  | case3 it hge =>
      have hdrop : ∀ i, it.currentLevel ≤ i → pairs (it.compactors.drop i) = [] := by
        intro i hi
        rw [List.drop_eq_nil_of_le ((not_lt.mp hge).trans hi)]
        rfl
      have hpending : pending { it with currentLevelIter := none } = [] :=
        hdrop _ (Nat.le_succ _)
      refine ⟨{ it with currentLevelIter := none }, ?_, rfl, hpending.trans (hdrop _ le_rfl).symm,
        nofun, fun _ ↦ hpending⟩
      rw [advanceToNextLevel, dif_neg hge]
      rfl

/-- The first pending pair is given, until there is none. -/
theorem next_spec (hweight : ∀ c ∈ it.compactors, c.weight = .ok (2 ^ c.lgWeight)) :
    ∃ it', it.next = .ok (it.pending.head?, it') ∧ it'.compactors = it.compactors ∧
      it'.pending = it.pending.tail := by
  have hgive : ∀ fuel (it : ReqSketchIterator T) x xs, it.currentLevelIter = some (x :: xs) →
      ∃ it', it.nextLoop (fuel + 1) = .ok (it.pending.head?, it') ∧
        it'.compactors = it.compactors ∧ it'.pending = it.pending.tail := by
    intro fuel it x xs hxs
    refine ⟨{ it with currentLevelIter := some xs }, ?_, rfl, ?_⟩
    · rw [nextLoop, hxs, pending, hxs]
      rfl
    · rw [pending, pending, hxs]
      rfl
  -- without items left in the level, the loop passes to another one
  have hpass : (∀ x xs, it.currentLevelIter ≠ some (x :: xs)) →
      ∃ it', it.next = .ok (it.pending.head?, it') ∧ it'.compactors = it.compactors ∧
        it'.pending = it.pending.tail := by
    intro hleft
    obtain ⟨it₁, hok₁, hcompactors₁, hpending₁, hne₁, hnone₁⟩ :=
      advanceToNextLevel_spec { it with currentLevel := it.currentLevel + 1 } hweight
    have hpending : it₁.pending = it.pending := by
      rw [hpending₁, pending]
      cases hiter : it.currentLevelIter with
      | none => rfl
      | some xs =>
          cases xs with
          | nil => rfl
          | cons x xs => exact absurd hiter (hleft x xs)
    have hstep : it.next = match it₁.currentLevelIter with
        | none => .ok (none, it₁)
        | some _ => it₁.nextLoop 1 := by
      rw [next, nextLoop]
      split
      · rename_i x xs hxs
        exact absurd hxs (hleft x xs)
      · rw [hok₁]
        rfl
    cases hiter : it₁.currentLevelIter with
    | none =>
        refine ⟨it₁, ?_, hcompactors₁, ?_⟩
        · rw [hstep, hiter, ← hpending, hnone₁ hiter]
          rfl
        · rw [← hpending, hnone₁ hiter]
          rfl
    | some xs =>
        cases xs with
        | nil => exact absurd rfl (hne₁ [] hiter)
        | cons x xs =>
            obtain ⟨it', hok, hcompactors, htail⟩ := hgive 0 it₁ x xs hiter
            refine ⟨it', ?_, hcompactors.trans hcompactors₁, ?_⟩
            · rw [hstep, hiter, ← hpending]
              exact hok
            · rw [htail, hpending]
  cases hiter : it.currentLevelIter with
  | none => exact hpass fun x xs h ↦ by rw [hiter] at h; cases h
  | some xs =>
      cases xs with
      | nil => exact hpass fun x xs h ↦ by rw [hiter] at h; cases h
      | cons x xs => exact hgive 1 it x xs hiter

/-- All pairs are given, each once and in order, and then the iterator ends. -/
theorem collect_spec {fuel : ℕ} (hweight : ∀ c ∈ it.compactors, c.weight = .ok (2 ^ c.lgWeight))
    (hfuel : it.pending.length < fuel) : it.collect fuel = .ok it.pending := by
  induction fuel generalizing it with
  | zero => exact absurd hfuel (Nat.not_lt_zero _)
  | succ fuel ih =>
      obtain ⟨it', hok, hcompactors, htail⟩ := next_spec hweight
      rw [collect, hok, ok_bind]
      dsimp only
      cases hpending : it.pending with
      | nil => rfl
      | cons q rest =>
          rw [hpending, List.tail_cons] at htail
          rw [hpending, List.length_cons] at hfuel
          rw [List.head?_cons]
          dsimp only
          rw [ih (hcompactors ▸ hweight) (by rw [htail]; omega), ok_bind, htail]
          rfl

end ReqSketchIterator

def ReqSketch.iter {T : Type} (s : ReqSketch T) : Checked (ReqSketchIterator T) :=
  ReqSketchIterator.new s.compactors

end Req

end DataSketches
