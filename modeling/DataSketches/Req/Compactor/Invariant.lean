import DataSketches.Req.Compactor
import DataSketches.Req.Sections

/-!
# What compactors keep

A compaction of a full compactor removes an even number of items, at least two of
them, and promotes half of those: the number of items weighted by level stays the
same.  The number of sections and their size do not depend on the items.

## Main definitions

* `Compactor.Inv`: the invariant of a compactor of a level.
* `Compactor.Compacted`: what a compaction leaves and what it promotes.
-/

namespace DataSketches

namespace Req

open Comparator ReqValue

theorem everyOther_sublist {T : Type} (xs : List T) : (Compactor.everyOther xs).Sublist xs := by
  induction xs using Compactor.everyOther.induct with
  | case1 => exact List.Sublist.slnil
  | case2 x => exact List.Sublist.refl _
  | case3 x y xs ih => exact (ih.cons y).cons_cons x

theorem length_everyOther {T : Type} (xs : List T) :
    (Compactor.everyOther xs).length = (xs.length + 1) / 2 := by
  induction xs using Compactor.everyOther.induct with
  | case1 => simp [Compactor.everyOther]
  | case2 x => simp [Compactor.everyOther]
  | case3 x y xs ih =>
      rw [Compactor.everyOther, List.length_cons, List.length_cons, List.length_cons, ih]
      omega

section Range

variable {T : Type} (xs : List T) {low high start : ℕ}

/-- A list is made of a range, what comes before it and what comes after it. -/
theorem take_range_drop (hle : low ≤ high) :
    xs.take low ++ ((xs.take high).drop low ++ xs.drop high) = xs := by
  have htake : xs.take low = (xs.take high).take low := by
    rw [List.take_take, Nat.min_eq_left hle]
  rw [htake, ← List.append_assoc, List.take_append_drop, List.take_append_drop]

/-- What is promoted from a range, with the items outside of the range. -/
theorem promoted_sublist (hle : low ≤ high) (hstart : low ≤ start) :
    (xs.take low ++ (Compactor.everyOther ((xs.take high).drop start) ++ xs.drop high)).Sublist xs := by
  have hdrop : ((xs.take high).drop start).Sublist ((xs.take high).drop low) := by
    obtain ⟨d, rfl⟩ := Nat.exists_eq_add_of_le hstart
    rw [← List.drop_drop]
    exact List.drop_sublist _ _
  conv_rhs => rw [← take_range_drop xs hle]
  exact (List.Sublist.refl _).append (((everyOther_sublist _).trans hdrop).append (List.Sublist.refl _))

/-- Half of an even range is promoted, whichever of its first two items is the first one. -/
theorem length_promoted (hle : low ≤ high) (hlen : high ≤ xs.length) (heven : (high - low) % 2 = 0)
    (hstart : start = low ∨ start = low + 1) :
    (xs.take low ++ xs.drop high).length +
      2 * (Compactor.everyOther ((xs.take high).drop start)).length = xs.length := by
  rw [length_everyOther, List.length_append, List.length_take, List.length_drop, List.length_drop,
    List.length_take]
  omega

end Range

namespace Compactor

variable {T : Type} {c c' : Compactor T} {level secs : ℕ}

/-! ## Sections -/

/-- Everything but the sections is the same. -/
structure SameItems (c c' : Compactor T) : Prop where
  items_eq : c'.items = c.items
  isSorted_eq : c'.isSorted = c.isSorted
  lgWeight_eq : c'.lgWeight = c.lgWeight
  rankAccuracy_eq : c'.rankAccuracy = c.rankAccuracy

theorem SameItems.refl (c : Compactor T) : SameItems c c := ⟨rfl, rfl, rfl, rfl⟩

theorem SameItems.trans {c'' : Compactor T} (h : SameItems c c') (h' : SameItems c' c'') :
    SameItems c c'' :=
  ⟨h'.items_eq.trans h.items_eq, h'.isSorted_eq.trans h.isSorted_eq,
    h'.lgWeight_eq.trans h.lgWeight_eq, h'.rankAccuracy_eq.trans h.rankAccuracy_eq⟩

/-- The sections and the state are the same. -/
structure SameSections (c c' : Compactor T) : Prop where
  state_eq : c'.state = c.state
  sectionSizeRaw_eq : c'.sectionSizeRaw = c.sectionSizeRaw
  sectionSize_eq : c'.sectionSize = c.sectionSize
  numSections_eq : c'.numSections = c.numSections

theorem SameSections.refl (c : Compactor T) : SameSections c c := ⟨rfl, rfl, rfl, rfl⟩

theorem SameSections.trans {c'' : Compactor T} (h : SameSections c c') (h' : SameSections c' c'') :
    SameSections c c'' :=
  ⟨h'.state_eq.trans h.state_eq, h'.sectionSizeRaw_eq.trans h.sectionSizeRaw_eq,
    h'.sectionSize_eq.trans h.sectionSize_eq, h'.numSections_eq.trans h.numSections_eq⟩

theorem SameSections.nominalCapacity_eq (h : SameSections c c') :
    c'.nominalCapacity = c.nominalCapacity := by
  rw [nominalCapacity, nominalCapacity, h.sectionSize_eq, h.numSections_eq]

/-- The number of sections is doubled, once the state has reached a threshold. -/
structure Doubled (c c' : Compactor T) : Prop where
  state_eq : c'.state = c.state
  sectionSizeRaw_eq : c'.sectionSizeRaw = c.sectionSizeRaw / sqrt2
  sectionSize_eq : c'.sectionSize = nearestEvenSectionSize (c.sectionSizeRaw / sqrt2)
  numSections_eq : c'.numSections = c.numSections * 2
  minK_le : minK ≤ c'.sectionSize
  numSections_le : c.numSections ≤ 64
  threshold_le : 2 ^ (c.numSections - 1) ≤ c.state

/-- What a doubling of the sections does. -/
theorem ensureEnoughSections_spec (h : c.ensureEnoughSections = some c') :
    SameItems c c' ∧ Doubled c c' := by
  rw [ensureEnoughSections] at h
  dsimp only at h
  split_ifs at h with hshift hmul hgrow
  cases h
  rw [Nat.one_shiftLeft] at hgrow
  exact ⟨⟨rfl, rfl, rfl, rfl⟩, rfl, rfl, rfl, rfl, hgrow.2, by omega, hgrow.1⟩

/-! ### The schedule -/

/-- The sections are those of the schedule after some doublings, for each of which the state had
reached its threshold. -/
structure Layout (k doublings : ℕ) (c : Compactor T) : Prop where
  doublings_le : doublings ≤ 5
  sectionSizeRaw_eq : c.sectionSizeRaw = rawSize k doublings
  sectionSize_eq : c.sectionSize = Req.sectionSize k doublings
  numSections_eq : c.numSections = initialSectionsPerCompactor * 2 ^ doublings
  reached : ∀ i < doublings, 2 ^ (initialSectionsPerCompactor * 2 ^ i - 1) ≤ c.state

/-- The sections are those of the schedule. -/
def HasLayout (k : ℕ) (c : Compactor T) : Prop := ∃ doublings, Layout k doublings c

theorem hasLayout_new (level k : ℕ) (rankAccuracy : RankAccuracy) :
    HasLayout k (new level k rankAccuracy : Compactor T) :=
  ⟨0, Nat.zero_le 5, rfl, rfl, rfl, fun _ hi ↦ absurd hi (Nat.not_lt_zero _)⟩

theorem HasLayout.of_sameSections {k : ℕ} (h : HasLayout k c) (hsame : SameSections c c') :
    HasLayout k c' := by
  obtain ⟨doublings, hle, hraw, hsize, hnum, hreached⟩ := h
  exact ⟨doublings, hle, hsame.sectionSizeRaw_eq.trans hraw, hsame.sectionSize_eq.trans hsize,
    hsame.numSections_eq.trans hnum, fun i hi ↦ hsame.state_eq.symm ▸ hreached i hi⟩

/-- A state that grows keeps its thresholds. -/
theorem HasLayout.of_state_le {k state : ℕ} (h : HasLayout k c) (hle : c.state ≤ state)
    (items : List T) (coin : Bool) : HasLayout k { c with state := state, items := items, coin := coin } := by
  obtain ⟨doublings, hfew, hraw, hsize, hnum, hreached⟩ := h
  exact ⟨doublings, hfew, hraw, hsize, hnum, fun i hi ↦ (hreached i hi).trans hle⟩

/-- A doubling is the next step of the schedule. -/
theorem Layout.double {k doublings : ℕ} (h : Layout k doublings c) (hdouble : Doubled c c') :
    Layout k (doublings + 1) c' := by
  have hfew := hdouble.numSections_le
  have hnum := hdouble.numSections_eq
  have hthreshold := hdouble.threshold_le
  rw [h.numSections_eq] at hfew hnum hthreshold
  have hle : doublings ≤ 4 := by
    by_contra hlarge
    obtain rfl : doublings = 5 := by have := h.doublings_le; omega
    exact absurd hfew (by decide)
  refine ⟨by omega, ?_, ?_, ?_, fun i hi ↦ ?_⟩
  · rw [hdouble.sectionSizeRaw_eq, h.sectionSizeRaw_eq]
    rfl
  · rw [hdouble.sectionSize_eq, h.sectionSizeRaw_eq]
    rfl
  · rw [hnum, Nat.mul_assoc, ← pow_succ]
  · rw [hdouble.state_eq]
    rcases Nat.lt_succ_iff_lt_or_eq.mp hi with hlt | rfl
    · exact h.reached i hlt
    · exact hthreshold

/-- A doubling does not lower the capacity. -/
theorem Layout.capacity_le {k doublings : ℕ} (hk : ValidK k) (h : Layout k doublings c)
    (hdouble : Doubled c c') : c.nominalCapacity ≤ c'.nominalCapacity := by
  have h' := h.double hdouble
  have hsize := hdouble.minK_le
  rw [h'.sectionSize_eq] at hsize
  have hhalf := sectionSize_le_two_mul hk (by have := h.doublings_le; omega) hsize
  rw [nominalCapacity, nominalCapacity, h.sectionSize_eq, h'.sectionSize_eq, hdouble.numSections_eq]
  calc 2 * Req.sectionSize k doublings * c.numSections
      ≤ 2 * (2 * Req.sectionSize k (doublings + 1)) * c.numSections :=
        Nat.mul_le_mul_right _ (Nat.mul_le_mul_left 2 hhalf)
    _ = 2 * Req.sectionSize k (doublings + 1) * (c.numSections * 2) := by ring

/-- A property of the sections that a doubling keeps. -/
structure SectionsKept (P : Compactor T → Prop) : Prop where
  double : ∀ {c c'}, c.ensureEnoughSections = some c' → P c → P c'

theorem ensureAllSections_spec (fuel : ℕ) (c : Compactor T) :
    SameItems c (ensureAllSections fuel c) ∧ (ensureAllSections fuel c).state = c.state := by
  induction fuel generalizing c with
  | zero => exact ⟨SameItems.refl c, rfl⟩
  | succ fuel ih =>
      rw [ensureAllSections]
      cases hgrow : c.ensureEnoughSections with
      | none => exact ⟨SameItems.refl c, rfl⟩
      | some c' =>
          obtain ⟨hsame, hdouble⟩ := ensureEnoughSections_spec hgrow
          exact ⟨hsame.trans (ih c').1, (ih c').2.trans hdouble.state_eq⟩

theorem SectionsKept.ensureAllSections {P : Compactor T → Prop} (h : SectionsKept P) (fuel : ℕ)
    (hc : P c) : P (ensureAllSections fuel c) := by
  induction fuel generalizing c with
  | zero => exact hc
  | succ fuel ih =>
      rw [Compactor.ensureAllSections]
      cases hgrow : c.ensureEnoughSections with
      | none => exact hc
      | some c' => exact ih (h.double hgrow hc)

theorem SectionsKept.getD {P : Compactor T → Prop} (h : SectionsKept P) (hc : P c) :
    P (c.ensureEnoughSections.getD c) := by
  cases hgrow : c.ensureEnoughSections with
  | none => exact hc
  | some c' => exact h.double hgrow hc

theorem sectionsKept_hasLayout (k : ℕ) : SectionsKept (T := T) (HasLayout k) := by
  constructor
  rintro c c' hgrow ⟨doublings, h⟩
  exact ⟨doublings + 1, h.double (ensureEnoughSections_spec hgrow).2⟩

/-- What the end of a compaction does to the sections. -/
theorem sections_getD (c : Compactor T) :
    SameSections c (c.ensureEnoughSections.getD c) ∨ Doubled c (c.ensureEnoughSections.getD c) := by
  cases hgrow : c.ensureEnoughSections with
  | none => exact .inl (SameSections.refl c)
  | some c' => exact .inr (ensureEnoughSections_spec hgrow).2

theorem state_getD (c : Compactor T) : (c.ensureEnoughSections.getD c).state = c.state := by
  rcases sections_getD c with hsame | hdouble
  · exact hsame.state_eq
  · exact hdouble.state_eq

theorem HasLayout.capacity_le_getD {k : ℕ} (hk : ValidK k) (h : HasLayout k c) :
    c.nominalCapacity ≤ (c.ensureEnoughSections.getD c).nominalCapacity := by
  obtain ⟨doublings, h⟩ := h
  rcases sections_getD c with hsame | hdouble
  · exact hsame.nominalCapacity_eq.ge
  · exact h.capacity_le hk hdouble

theorem sameItems_getD (c : Compactor T) : SameItems c (c.ensureEnoughSections.getD c) := by
  cases hgrow : c.ensureEnoughSections with
  | none => exact SameItems.refl c
  | some c' => exact (ensureEnoughSections_spec hgrow).1

/-! ## The range of a compaction -/

/-- The range is within the items, and has an even number of them. -/
theorem computeCompactionRange_le (c : Compactor T) (secs : ℕ) :
    (c.computeCompactionRange secs).1 ≤ (c.computeCompactionRange secs).2 ∧
      (c.computeCompactionRange secs).2 ≤ c.items.length ∧
        ((c.computeCompactionRange secs).2 - (c.computeCompactionRange secs).1) % 2 = 0 := by
  simp only [computeCompactionRange]
  cases c.rankAccuracy with
  | highRank =>
      dsimp only
      split_ifs <;> dsimp only <;> omega
  | lowRank =>
      dsimp only
      split_ifs <;> dsimp only <;> omega

/-- A full compactor has at least two items to compact, and is not full without them. -/
theorem range_of_full (hsize : 2 ≤ c.sectionSize) (hpos : 0 < secs) (hle : secs ≤ c.numSections)
    (hfull : c.nominalCapacity ≤ c.items.length) :
    2 ≤ (c.computeCompactionRange secs).2 - (c.computeCompactionRange secs).1 ∧
      c.items.length < c.nominalCapacity +
        ((c.computeCompactionRange secs).2 - (c.computeCompactionRange secs).1) := by
  obtain ⟨d, hd⟩ := Nat.exists_eq_add_of_le hle
  have hhalf : c.nominalCapacity / 2 = secs * c.sectionSize + d * c.sectionSize := by
    rw [nominalCapacity, Nat.mul_assoc, Nat.mul_div_cancel_left _ Nat.two_pos, hd, Nat.mul_comm,
      Nat.add_mul]
  have hnominal : c.nominalCapacity = 2 * (secs * c.sectionSize + d * c.sectionSize) := by
    rw [nominalCapacity, hd, Nat.mul_assoc, Nat.mul_comm c.sectionSize, Nat.add_mul]
  have hsecs : c.sectionSize ≤ secs * c.sectionSize := Nat.le_mul_of_pos_left _ hpos
  simp only [computeCompactionRange, hhalf, show c.numSections - secs = d by omega]
  generalize secs * c.sectionSize = a at *
  generalize d * c.sectionSize = b at *
  cases c.rankAccuracy with
  | highRank =>
      dsimp only
      split_ifs <;> dsimp only <;> omega
  | lowRank =>
      dsimp only
      split_ifs <;> dsimp only <;> omega

/-! ## The invariant -/

section Order

variable [ReqValue T] {S : UnstableSort} {rankAccuracy : RankAccuracy}

/-- The invariant of the compactor of a level. -/
structure Inv (level : ℕ) (rankAccuracy : RankAccuracy) (c : Compactor T) : Prop where
  lgWeight_eq : c.lgWeight = level
  rankAccuracy_eq : c.rankAccuracy = rankAccuracy
  sorted : c.isSorted = true → Sorted totalCmp c.items
  flagged : 0 < level ∨ c.items = [] → c.isSorted = true
  minK_le : minK ≤ c.sectionSize
  numSections_pos : 0 < c.numSections

theorem Inv.of_sameItems (h : Inv level rankAccuracy c) (hsame : SameItems c c')
    (hsize : minK ≤ c'.sectionSize) (hpos : 0 < c'.numSections) : Inv level rankAccuracy c' where
  lgWeight_eq := hsame.lgWeight_eq.trans h.lgWeight_eq
  rankAccuracy_eq := hsame.rankAccuracy_eq.trans h.rankAccuracy_eq
  sorted := by
    rw [hsame.isSorted_eq, hsame.items_eq]
    exact h.sorted
  flagged hflag := hsame.isSorted_eq.trans (h.flagged (by rwa [hsame.items_eq] at hflag))
  minK_le := hsize
  numSections_pos := hpos

theorem sectionsKept_inv : SectionsKept (T := T) (Inv level rankAccuracy) := by
  constructor
  intro c c' hgrow h
  obtain ⟨hsame, hdoubled⟩ := ensureEnoughSections_spec hgrow
  have hpos := h.numSections_pos
  have hnum := hdoubled.numSections_eq
  exact h.of_sameItems hsame hdoubled.minK_le (by omega)

theorem inv_new {k : ℕ} (hk : ValidK k) : Inv level rankAccuracy (new level k rankAccuracy (T := T)) where
  lgWeight_eq := rfl
  rankAccuracy_eq := rfl
  sorted _ := List.Pairwise.nil
  flagged _ := rfl
  minK_le := by
    rw [new, nearestEvenSectionSize_ofNat hk]
    exact hk.1
  numSections_pos := Nat.succ_pos 2

/-- Items are appended to level 0 only. -/
theorem Inv.append (h : Inv 0 rankAccuracy c) (item : T) : Inv 0 rankAccuracy (c.append item) where
  lgWeight_eq := h.lgWeight_eq
  rankAccuracy_eq := h.rankAccuracy_eq
  sorted := by
    rw [Compactor.append]
    dsimp only
    split_ifs with hlong
    · nofun
    · intro _
      rw [List.length_append, List.length_singleton] at hlong
      rw [List.length_eq_zero_iff.mp (show c.items.length = 0 by omega)]
      exact List.pairwise_singleton _ _
  flagged hflag := hflag.elim (fun hpos ↦ absurd hpos (lt_irrefl 0))
    fun hnil ↦ absurd hnil (List.append_ne_nil_of_right_ne_nil _ (List.cons_ne_nil _ _))
  minK_le := h.minK_le
  numSections_pos := h.numSections_pos

/-- Sorting permutes the items and changes nothing else. -/
theorem sort_spec (h : Inv level rankAccuracy c) :
    (c.sort S).items.Perm c.items ∧ Sorted totalCmp (c.sort S).items ∧ (c.sort S).isSorted = true ∧
      Inv level rankAccuracy (c.sort S) ∧ SameSections c (c.sort S) := by
  rw [sort]
  split_ifs with hsorted
  · exact ⟨List.Perm.refl _, h.sorted hsorted, hsorted, h, SameSections.refl c⟩
  · have hS := S.sorted totalCmp c.items
    exact ⟨S.perm _ _, hS, rfl,
      ⟨h.lgWeight_eq, h.rankAccuracy_eq, fun _ ↦ hS, fun _ ↦ rfl, h.minK_le, h.numSections_pos⟩,
      ⟨rfl, rfl, rfl, rfl⟩⟩

/-- Merging two sorted lists of items gives a sorted list of all. -/
theorem mergeSorted_spec (h : Inv level rankAccuracy c) (hc : Sorted totalCmp c.items)
    (hflag : c.isSorted = true) {items : List T} (hitems : Sorted totalCmp items) :
    (c.mergeSorted items).items.Perm (c.items ++ items) ∧ Inv level rankAccuracy (c.mergeSorted items) ∧
      SameSections c (c.mergeSorted items) ∧ (c.mergeSorted items).isSorted = true := by
  rw [mergeSorted]
  split_ifs with hempty hnone
  · rw [List.isEmpty_iff.mp hempty, List.append_nil]
    exact ⟨List.Perm.refl _, h, SameSections.refl c, hflag⟩
  · rw [List.isEmpty_iff.mp hnone, List.nil_append]
    exact ⟨List.Perm.refl _,
      ⟨h.lgWeight_eq, h.rankAccuracy_eq, fun _ ↦ hitems, fun _ ↦ rfl, h.minK_le,
        h.numSections_pos⟩, ⟨rfl, rfl, rfl, rfl⟩, rfl⟩
  · exact ⟨mergeBy_perm _ _, ⟨h.lgWeight_eq, h.rankAccuracy_eq, fun _ ↦ hc.mergeBy hitems,
      fun _ ↦ rfl, h.minK_le, h.numSections_pos⟩, ⟨rfl, rfl, rfl, rfl⟩, rfl⟩

/-- Promoted items are merged into a compactor that is sorted first. -/
theorem sort_mergeSorted_spec (h : Inv level rankAccuracy c) {items : List T}
    (hitems : Sorted totalCmp items) :
    ((c.sort S).mergeSorted items).items.Perm (c.items ++ items) ∧
      Inv level rankAccuracy ((c.sort S).mergeSorted items) ∧
        SameSections c ((c.sort S).mergeSorted items) := by
  obtain ⟨hperm, hsorted, hflag, hinv, hsame⟩ := sort_spec (S := S) h
  obtain ⟨hmerged, hinv', hsame', -⟩ := mergeSorted_spec hinv hsorted hflag hitems
  exact ⟨hmerged.trans (hperm.append_right _), hinv', hsame.trans hsame'⟩

/-- The result of merging another compactor of the level. -/
theorem merge_spec {other : Compactor T} (h : Inv level rankAccuracy c)
    (hother : Inv level rankAccuracy other) :
    ∃ c', c.merge S other = .ok c' ∧ c'.items.Perm (c.items ++ other.items) ∧
      Inv level rankAccuracy c' ∧ c'.state = c.state ||| other.state ∧
        ∀ k, HasLayout k c → HasLayout k c' := by
  obtain ⟨d, hd⟩ : ∃ d, d = { c with state := c.state ||| other.state } := ⟨_, rfl⟩
  have hinv : Inv level rankAccuracy d := by
    rw [hd]
    exact ⟨h.lgWeight_eq, h.rankAccuracy_eq, h.sorted, h.flagged, h.minK_le, h.numSections_pos⟩
  have hlayout : ∀ k, HasLayout k c → HasLayout k d := by
    intro k hk
    rw [hd]
    exact hk.of_state_le Nat.left_le_or c.items c.coin
  have hitems : d.items = c.items := by rw [hd]
  have hstate : d.state = c.state ||| other.state := by rw [hd]
  -- the merged compactor, before its sections grow
  have hmerged : ∃ e, c.merge S other = .ok (ensureAllSections 8 e) ∧
      e.items.Perm (c.items ++ other.items) ∧ Inv level rankAccuracy e ∧ SameSections d e := by
    rw [merge, assert_pos (h.lgWeight_eq.trans hother.lgWeight_eq.symm), Runs.ok_bind]
    dsimp only
    rw [← hd]
    split_ifs with hempty hsorted
    · refine ⟨d, rfl, ?_, hinv, SameSections.refl d⟩
      rw [List.isEmpty_iff.mp hempty, List.append_nil, hitems]
    · obtain ⟨hperm, hinv', hsame⟩ := sort_mergeSorted_spec (S := S) hinv (hother.sorted hsorted)
      exact ⟨_, rfl, hitems ▸ hperm, hinv', hsame⟩
    · obtain ⟨hperm, hinv', hsame⟩ :=
        sort_mergeSorted_spec (S := S) hinv (S.sorted totalCmp other.items)
      exact ⟨_, rfl, (hitems ▸ hperm).trans ((S.perm _ _).append_left _), hinv', hsame⟩
  obtain ⟨e, hok, hperm, hinv', hsame⟩ := hmerged
  have hall := ensureAllSections_spec 8 e
  refine ⟨_, hok, ?_, sectionsKept_inv.ensureAllSections 8 hinv', ?_, fun k hk ↦ ?_⟩
  · rw [hall.1.items_eq]
    exact hperm
  · rw [hall.2, hsame.state_eq, hstate]
  · exact (sectionsKept_hasLayout k).ensureAllSections 8 ((hlayout k hk).of_sameSections hsame)

/-! ## Compaction -/

/-- What a compaction leaves and what it promotes. -/
structure Compacted (level : ℕ) (rankAccuracy : RankAccuracy) (c c' : Compactor T)
    (promoted : List T) : Prop where
  inv : Inv level rankAccuracy c'
  sorted : Sorted totalCmp promoted
  subperm : (c'.items ++ promoted).Subperm c.items
  weight_eq : c'.items.length + 2 * promoted.length = c.items.length
  state_le : c'.state ≤ c.state + 1
  layout : ∀ k, ValidK k → HasLayout k c → c.state + 1 < 2 ^ 64 →
    HasLayout k c' ∧ c.nominalCapacity ≤ c'.nominalCapacity

/-- A compaction that finds nothing to compact. -/
theorem Compacted.none (h : Inv level rankAccuracy c') (hperm : c'.items.Perm c.items)
    (hsame : SameSections c c') : Compacted level rankAccuracy c c' [] := by
  refine ⟨h, List.Pairwise.nil, ?_, ?_, hsame.state_eq.trans_le (Nat.le_succ _), fun k _ hk _ ↦
    ⟨hk.of_sameSections hsame, hsame.nominalCapacity_eq.ge⟩⟩
  · rw [List.append_nil]
    exact hperm.subperm
  · rw [List.length_nil, Nat.mul_zero, Nat.add_zero, hperm.length_eq]

/-- A compaction of an even range of the sorted items. -/
theorem compacted_range {d : Compactor T} {low high start : ℕ} (hinv : Inv level rankAccuracy d)
    (hperm : d.items.Perm c.items) (hsorted : Sorted totalCmp d.items) (hflag : d.isSorted = true)
    (hsame : SameSections c d) (hle : low ≤ high) (hlen : high ≤ d.items.length) (heven : (high - low) % 2 = 0)
    (hstart : start = low ∨ start = low + 1) (coin : Bool) {e : Compactor T}
    (he : e = { d with
      coin := coin
      items := d.items.take low ++ d.items.drop high
      state := (d.state + 1) % 2 ^ 64 }) :
    Compacted level rankAccuracy c (e.ensureEnoughSections.getD e)
      (everyOther ((d.items.take high).drop start)) := by
  have hsub := promoted_sublist d.items hle (show low ≤ start by omega)
  have hitems : (e.ensureEnoughSections.getD e).items = d.items.take low ++ d.items.drop high := by
    rw [(sameItems_getD e).items_eq, he]
  have heinv : Inv level rankAccuracy e := by
    rw [he]
    refine ⟨hinv.lgWeight_eq, hinv.rankAccuracy_eq, fun _ ↦ ?_, fun _ ↦ hflag, hinv.minK_le,
      hinv.numSections_pos⟩
    have hkept := promoted_sublist d.items hle hle
    refine List.Pairwise.sublist (List.Sublist.trans ?_ hkept) hsorted
    exact (List.Sublist.refl _).append (List.sublist_append_right _ _)
  have hstate : e.state = (c.state + 1) % 2 ^ 64 := by rw [he, ← hsame.state_eq]
  refine ⟨sectionsKept_inv.getD heinv, ?_, ?_, ?_, ?_, fun k hk hlayout hroom ↦ ?_⟩
  · exact List.Pairwise.sublist ((everyOther_sublist _).trans
      ((List.drop_sublist _ _).trans (List.take_sublist _ _))) hsorted
  · rw [hitems, List.append_assoc]
    exact (List.Perm.append_left _ List.perm_append_comm).subperm.trans
      (hsub.subperm.trans hperm.subperm)
  · rw [hitems, length_promoted d.items hle hlen heven hstart, hperm.length_eq]
  · rw [state_getD, hstate]
    exact Nat.mod_le _ _
  · have hgrown : d.state ≤ (d.state + 1) % 2 ^ 64 := by
      rw [hsame.state_eq, Nat.mod_eq_of_lt hroom]
      exact Nat.le_succ _
    have helayout : HasLayout k e := by
      rw [he]
      exact (hlayout.of_sameSections hsame).of_state_le hgrown _ coin
    refine ⟨(sectionsKept_hasLayout k).getD helayout, ?_⟩
    have hcapacity : e.nominalCapacity = c.nominalCapacity := by
      rw [← hsame.nominalCapacity_eq, he]
      rfl
    exact hcapacity.symm.trans_le (helayout.capacity_le_getD hk)

theorem compactInto_spec (h : Inv level rankAccuracy c) (coin : Bool) :
    Compacted level rankAccuracy c (c.compactInto S coin).1 (c.compactInto S coin).2 := by
  obtain ⟨hperm, hsorted, hflag, hinv, hsame⟩ := sort_spec (S := S) h
  rw [compactInto]
  dsimp only
  obtain ⟨d, hd⟩ : ∃ d, d = c.sort S := ⟨_, rfl⟩
  obtain ⟨range, hrange⟩ : ∃ range, range =
    d.computeCompactionRange (min (trailingOnes d.state + 1) d.numSections) := ⟨_, rfl⟩
  obtain ⟨hle, hlen, heven⟩ :=
    computeCompactionRange_le d (min (trailingOnes d.state + 1) d.numSections)
  rw [← hd] at hperm hsorted hflag hinv hsame ⊢
  rw [← hrange] at hle hlen heven ⊢
  split
  · exact .none h (List.Perm.refl _) (SameSections.refl c)
  · split
    · exact .none hinv hperm hsame
    · refine compacted_range hinv hperm hsorted hflag hsame hle hlen heven ?_ _ rfl
      split_ifs <;> omega

/-- A full compactor promotes something, and has room afterwards. -/
theorem compactInto_of_full (h : Inv level rankAccuracy c)
    (hfull : c.nominalCapacity ≤ c.items.length) (coin : Bool) :
    0 < (c.compactInto S coin).2.length ∧
      (c.compactInto S coin).1.items.length < c.nominalCapacity := by
  obtain ⟨hperm, -, -, hinv, hsame⟩ := sort_spec (S := S) h
  have hnominal := hsame.nominalCapacity_eq
  have hpos : 0 < c.nominalCapacity := by
    have hsize := h.minK_le
    rw [minK] at hsize
    exact Nat.mul_pos (Nat.mul_pos Nat.two_pos (by omega)) h.numSections_pos
  rw [compactInto]
  dsimp only
  obtain ⟨d, hd⟩ : ∃ d, d = c.sort S := ⟨_, rfl⟩
  obtain ⟨secs, hsecs⟩ : ∃ secs, secs = min (trailingOnes d.state + 1) d.numSections := ⟨_, rfl⟩
  rw [← hd] at hperm hinv hnominal ⊢
  rw [← hsecs]
  have hnum := hinv.numSections_pos
  obtain ⟨hrange, hroom⟩ := range_of_full ((show 2 ≤ minK by decide).trans hinv.minK_le)
    (show 0 < secs by omega) (by omega) (by rwa [hnominal, hperm.length_eq])
  obtain ⟨hle, hlen, heven⟩ := computeCompactionRange_le d secs
  rw [if_neg (by rw [List.isEmpty_iff, ← List.length_eq_zero_iff]; omega), if_neg (by omega)]
  dsimp only
  constructor
  · rw [length_everyOther, List.length_drop, List.length_take]
    split_ifs <;> omega
  · rw [(sameItems_getD _).items_eq]
    dsimp only
    rw [List.length_append, List.length_take, List.length_drop]
    omega

end Order

end Compactor

end Req

end DataSketches
