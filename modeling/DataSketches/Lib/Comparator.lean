import Mathlib

/-!
# Lists sorted by a comparator

A comparator orders values totally but may identify different ones.  So a sort that
is not stable can give several lists, and sorted lists are merged and searched
without knowing which.
-/

open Std

namespace Comparator

variable {α β : Type} {cmp : α → α → Ordering} {xs ys : List α}

/-- Each element is at most each later one. -/
def Sorted (cmp : α → α → Ordering) (xs : List α) : Prop := xs.Pairwise fun a b ↦ (cmp a b).isLE

instance : Decidable (Sorted cmp xs) := inferInstanceAs (Decidable (List.Pairwise _ _))

/-- A sort that may put equal elements in any order. -/
structure UnstableSort where
  sortBy {α : Type} (cmp : α → α → Ordering) : List α → List α
  perm {α : Type} (cmp : α → α → Ordering) (xs : List α) : (sortBy cmp xs).Perm xs
  sorted {α : Type} (cmp : α → α → Ordering) [TransCmp cmp] (xs : List α) :
    Sorted cmp (sortBy cmp xs)

theorem isLE_total [OrientedCmp cmp] (a b : α) : (cmp a b).isLE ∨ (cmp b a).isLE := by
  rw [@OrientedCmp.eq_swap _ cmp _ b a]
  cases cmp a b with
  | lt => exact Or.inl rfl
  | eq => exact Or.inl rfl
  | gt => exact Or.inr rfl

/-- Equal elements are at most the same elements. -/
theorem isLE_congr_right [TransCmp cmp] {a b c : α} (h : cmp b c = .eq) :
    (cmp a b).isLE = (cmp a c).isLE := by
  rw [TransCmp.congr_right h]

/-- Insertion sort is one of these sorts. -/
def insertionSort : UnstableSort where
  sortBy cmp xs := xs.insertionSort fun a b ↦ (cmp a b).isLE = true
  perm cmp xs := List.perm_insertionSort _ xs
  sorted cmp _ xs := by
    have : Std.Total fun a b ↦ (cmp a b).isLE = true := ⟨isLE_total⟩
    have : IsTrans _ fun a b ↦ (cmp a b).isLE = true := ⟨fun _ _ _ ↦ TransCmp.isLE_trans⟩
    exact List.pairwise_insertionSort _ xs

/-! ## Merging -/

/-- An element, then what `merged` makes of the rest, among the elements of a second list. -/
def mergeCons (cmp : α → α → Ordering) (x : α) (merged : List α → List α) : List α → List α
  | [] => x :: merged []
  | y :: ys => if (cmp x y).isLE then x :: merged (y :: ys) else y :: mergeCons cmp x merged ys

/-- The two-pointer merge, which takes from the first list if it can. -/
def mergeBy (cmp : α → α → Ordering) : List α → List α → List α
  | [] => fun ys ↦ ys
  | x :: xs => mergeCons cmp x (mergeBy cmp xs)

theorem mergeBy_eq_merge (xs ys : List α) :
    mergeBy cmp xs ys = List.merge xs ys fun a b ↦ (cmp a b).isLE := by
  induction xs generalizing ys with
  | nil => rw [List.nil_merge, mergeBy]
  | cons x xs ih =>
      rw [mergeBy]
      induction ys with
      | nil => rw [mergeCons, ih, List.merge_right, List.merge_right]
      | cons y ys ihy => rw [mergeCons, ih, ihy, List.cons_merge_cons]

theorem mergeBy_perm (xs ys : List α) : (mergeBy cmp xs ys).Perm (xs ++ ys) := by
  rw [mergeBy_eq_merge]
  exact List.merge_perm_append _

theorem Sorted.mergeBy [TransCmp cmp] (hx : Sorted cmp xs) (hy : Sorted cmp ys) :
    Sorted cmp (mergeBy cmp xs ys) := by
  rw [mergeBy_eq_merge]
  refine List.pairwise_merge (fun _ _ _ ↦ TransCmp.isLE_trans) (fun a b ↦ ?_) xs ys hx hy
  rw [Bool.or_eq_true]
  exact isLE_total a b

/-! ## Searching -/

/-- The number of elements before the first one that fails the predicate. -/
def partitionPoint (p : α → Bool) (xs : List α) : ℕ := (xs.takeWhile p).length

/-- The predicate holds of all elements up to some. -/
def DownClosed (cmp : α → α → Ordering) (p : α → Bool) : Prop :=
  ∀ a b, (cmp a b).isLE → p b = true → p a = true

/-- In a sorted list, a search for the end of the elements that meet the predicate counts them. -/
theorem partitionPoint_eq_countP {p : α → Bool} (h : Sorted cmp xs) (hp : DownClosed cmp p) :
    partitionPoint p xs = xs.countP p := by
  induction xs with
  | nil => rfl
  | cons x xs ih =>
      obtain ⟨hle, hxs⟩ := List.pairwise_cons.mp h
      cases hx : p x with
      | true =>
          rw [partitionPoint, List.takeWhile_cons_of_pos hx, List.length_cons,
            List.countP_cons_of_pos hx, ← ih hxs, partitionPoint]
      | false =>
          rw [partitionPoint, List.takeWhile_cons_of_neg (Bool.eq_false_iff.mp hx),
            List.countP_cons_of_neg (Bool.eq_false_iff.mp hx), List.length_nil, eq_comm,
            List.countP_eq_zero]
          intro y hy hpy
          exact absurd (hp x y (hle y hy) hpy) (Bool.eq_false_iff.mp hx)

theorem downClosed_isLE [TransCmp cmp] (a : α) : DownClosed cmp fun x ↦ (cmp x a).isLE :=
  fun _ _ hxy hy ↦ TransCmp.isLE_trans hxy hy

theorem downClosed_isLT [TransCmp cmp] (a : α) : DownClosed cmp fun x ↦ (cmp x a).isLT := by
  intro x y hxy hy
  rw [Ordering.isLT_iff_eq_lt] at hy ⊢
  exact TransCmp.lt_of_isLE_of_lt hxy hy

end Comparator
