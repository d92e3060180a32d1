import Mathlib

/-!
# The ends of a stably sorted list

Sorting by a key moves the elements with the least key to the front and those with
the greatest key to the back.  A stable sort leaves ties in their order, which
says which element comes first (`head?_insertionSort`) and which one last
(`getLast?_insertionSort`), also when lists were put together before.
-/

universe u v

namespace StableSort

variable {α : Type u} {β : Type v} [LinearOrder β] (key : α → β)

/-- The earliest element with the least key. -/
def firstMin : List α → Option α
  | [] => none
  | x :: xs =>
      match firstMin xs with
      | none => some x
      | some y => if key x ≤ key y then some x else some y

/-- The latest element with the greatest key. -/
def lastMax : List α → Option α
  | [] => none
  | x :: xs =>
      match lastMax xs with
      | none => some x
      | some y => if key x ≤ key y then some y else some x

variable {key} {xs ys : List α} {m : α}

theorem firstMin_eq_none_iff : firstMin key xs = none ↔ xs = [] := by
  cases xs with
  | nil => exact iff_of_true rfl rfl
  | cons x xs =>
      refine iff_of_false ?_ (List.cons_ne_nil _ _)
      rw [firstMin]
      cases firstMin key xs with
      | none => nofun
      | some y =>
          dsimp only
          split_ifs <;> nofun

theorem lastMax_eq_none_iff : lastMax key xs = none ↔ xs = [] := by
  cases xs with
  | nil => exact iff_of_true rfl rfl
  | cons x xs =>
      refine iff_of_false ?_ (List.cons_ne_nil _ _)
      rw [lastMax]
      cases lastMax key xs with
      | none => nofun
      | some y =>
          dsimp only
          split_ifs <;> nofun

/-- The first minimum has the least key. -/
theorem firstMin_spec (h : firstMin key xs = some m) : m ∈ xs ∧ ∀ x ∈ xs, key m ≤ key x := by
  induction xs generalizing m with
  | nil => cases h
  | cons x xs ih =>
      rw [firstMin] at h
      cases hxs : firstMin key xs with
      | none =>
          rw [hxs] at h
          cases h
          rw [firstMin_eq_none_iff.mp hxs]
          exact ⟨List.mem_singleton_self _, fun y hy ↦ (List.mem_singleton.mp hy ▸ le_rfl)⟩
      | some y =>
          obtain ⟨hmem, hle⟩ := ih hxs
          rw [hxs] at h
          dsimp only at h
          split_ifs at h with hxy
          · cases h
            exact ⟨List.mem_cons_self, List.forall_mem_cons.mpr
              ⟨le_rfl, fun z hz ↦ hxy.trans (hle z hz)⟩⟩
          · cases h
            exact ⟨List.mem_cons_of_mem _ hmem, List.forall_mem_cons.mpr
              ⟨(not_le.mp hxy).le, hle⟩⟩

/-- The last maximum has the greatest key. -/
theorem lastMax_spec (h : lastMax key xs = some m) : m ∈ xs ∧ ∀ x ∈ xs, key x ≤ key m := by
  induction xs generalizing m with
  | nil => cases h
  | cons x xs ih =>
      rw [lastMax] at h
      cases hxs : lastMax key xs with
      | none =>
          rw [hxs] at h
          cases h
          rw [lastMax_eq_none_iff.mp hxs]
          exact ⟨List.mem_singleton_self _, fun y hy ↦ (List.mem_singleton.mp hy ▸ le_rfl)⟩
      | some y =>
          obtain ⟨hmem, hle⟩ := ih hxs
          rw [hxs] at h
          dsimp only at h
          split_ifs at h with hxy
          · cases h
            exact ⟨List.mem_cons_of_mem _ hmem, List.forall_mem_cons.mpr ⟨hxy, hle⟩⟩
          · cases h
            exact ⟨List.mem_cons_self, List.forall_mem_cons.mpr
              ⟨le_rfl, fun z hz ↦ (hle z hz).trans (not_le.mp hxy).le⟩⟩

/-! ## Lists put together -/

/-- The first minimum of two lists is that of one of them. -/
theorem firstMin_append (h : firstMin key (xs ++ ys) = some m) :
    firstMin key xs = some m ∨ firstMin key ys = some m := by
  induction xs generalizing m with
  | nil => exact Or.inr h
  | cons x xs ih =>
      rw [List.cons_append, firstMin] at h
      cases hall : firstMin key (xs ++ ys) with
      | none =>
          rw [hall] at h
          cases h
          rw [(List.append_eq_nil_iff.mp (firstMin_eq_none_iff.mp hall)).1]
          exact Or.inl rfl
      | some y =>
          rw [hall] at h
          dsimp only at h
          have hleast : ∀ z ∈ xs, key y ≤ key z := fun z hz ↦
            (firstMin_spec hall).2 z (List.mem_append_left _ hz)
          split_ifs at h with hxy
          · cases h
            refine Or.inl ?_
            rw [firstMin]
            cases hxs : firstMin key xs with
            | none => rfl
            | some z => exact if_pos (hxy.trans (hleast z (firstMin_spec hxs).1))
          · cases h
            refine (ih hall).imp_left fun hxs ↦ ?_
            rw [firstMin, hxs]
            exact if_neg hxy

/-- The last maximum of two lists is that of one of them. -/
theorem lastMax_append (h : lastMax key (xs ++ ys) = some m) :
    lastMax key xs = some m ∨ lastMax key ys = some m := by
  induction xs generalizing m with
  | nil => exact Or.inr h
  | cons x xs ih =>
      rw [List.cons_append, lastMax] at h
      cases hall : lastMax key (xs ++ ys) with
      | none =>
          rw [hall] at h
          cases h
          rw [(List.append_eq_nil_iff.mp (lastMax_eq_none_iff.mp hall)).1]
          exact Or.inl rfl
      | some y =>
          rw [hall] at h
          dsimp only at h
          split_ifs at h with hxy
          · cases h
            refine (ih hall).imp_left fun hxs ↦ ?_
            rw [lastMax, hxs]
            exact if_pos hxy
          · cases h
            refine Or.inl ?_
            rw [lastMax]
            cases hxs : lastMax key xs with
            | none => rfl
            | some z =>
                have hz := (lastMax_spec hall).2 z (List.mem_append_left _ (lastMax_spec hxs).1)
                exact if_neg fun hxz ↦ hxy (hxz.trans hz)

/-! ## Sorting -/

variable (key) in
/-- A stable sort starts with the first minimum, -/
theorem head?_insertionSort (xs : List α) :
    (xs.insertionSort (key · ≤ key ·)).head? = firstMin key xs := by
  induction xs with
  | nil => rfl
  | cons x xs ih =>
      rw [List.insertionSort_cons, firstMin, ← ih]
      cases xs.insertionSort (key · ≤ key ·) with
      | nil => rfl
      | cons y ys =>
          rw [List.orderedInsert_cons, List.head?_cons]
          dsimp only
          split_ifs <;> rfl

variable (key) in
theorem getLast?_orderedInsert (x : α) (ys : List α) (h : ys.Pairwise (key · ≤ key ·)) :
    (ys.orderedInsert (key · ≤ key ·) x).getLast? =
      match ys.getLast? with
      | none => some x
      | some y => if key x ≤ key y then some y else some x := by
  induction ys with
  | nil => rfl
  | cons y ys ih =>
      obtain ⟨hle, hys⟩ := List.pairwise_cons.mp h
      rw [List.orderedInsert_cons]
      split_ifs with hxy
      · -- The element goes before the last one, which is above it.
        obtain ⟨z, hz⟩ : ∃ z, (y :: ys).getLast? = some z :=
          ⟨_, List.getLast?_eq_getLast_of_ne_nil (List.cons_ne_nil y ys)⟩
        have hmem : z ∈ y :: ys := List.mem_of_getLast? hz
        have hyz : key y ≤ key z := by
          rcases List.mem_cons.mp hmem with rfl | hmem
          · exact le_rfl
          · exact hle z hmem
        rw [List.getLast?_cons_cons, hz]
        exact (if_pos (hxy.trans hyz)).symm
      · cases ys with
        | nil =>
            rw [List.getLast?_singleton]
            exact (if_neg hxy).symm
        | cons z zs =>
            obtain ⟨w, ws, hw⟩ : ∃ w ws, (z :: zs).orderedInsert (key · ≤ key ·) x = w :: ws := by
              rw [List.orderedInsert_cons]
              split_ifs <;> exact ⟨_, _, rfl⟩
            have hih := ih hys
            rw [hw] at hih ⊢
            rw [List.getLast?_cons_cons, hih, List.getLast?_cons_cons]

variable (key) in
theorem pairwise_insertionSort (xs : List α) :
    (xs.insertionSort (key · ≤ key ·)).Pairwise (key · ≤ key ·) := by
  have htotal : Std.Total fun x y ↦ key x ≤ key y := ⟨fun x y ↦ le_total _ _⟩
  have htrans : IsTrans α fun x y ↦ key x ≤ key y := ⟨fun x y z ↦ le_trans⟩
  exact List.pairwise_insertionSort _ xs

variable (key) in
/-- and ends with the last maximum. -/
theorem getLast?_insertionSort (xs : List α) :
    (xs.insertionSort (key · ≤ key ·)).getLast? = lastMax key xs := by
  induction xs with
  | nil => rfl
  | cons x xs ih =>
      rw [List.insertionSort_cons, getLast?_orderedInsert key x _ (pairwise_insertionSort key xs), ih]
      rfl

/-- The first minimum of a sorted list is its head, -/
theorem firstMin_of_pairwise (h : xs.Pairwise (key · ≤ key ·)) : firstMin key xs = xs.head? := by
  rw [← head?_insertionSort, h.insertionSort_eq]

/-- and the last maximum its last element. -/
theorem lastMax_of_pairwise (h : xs.Pairwise (key · ≤ key ·)) : lastMax key xs = xs.getLast? := by
  rw [← getLast?_insertionSort, h.insertionSort_eq]

end StableSort
