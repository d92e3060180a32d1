import Mathlib.Algebra.BigOperators.Group.List.Basic
import Mathlib.Algebra.Order.Group.Defs
import Mathlib.Data.List.Basic
import Mathlib.Data.List.Induction
import Mathlib.Tactic.Abel
import Mathlib.Tactic.Push

/-!
# Differences and partial sums

The differences of a list of values from one to the next are not negative exactly
if the list ascends, and their partial sums are the list again.
-/

namespace DataSketches

namespace Differences

variable {α : Type*} [AddCommGroup α]

/-- What each value adds to the one before it. -/
def differences (prev : α) : List α → List α
  | [] => []
  | x :: xs => (x - prev) :: differences x xs

/-- The sums of the first values, one after the other. -/
def partialSums (sum : α) : List α → List α
  | [] => []
  | x :: xs => (sum + x) :: partialSums (sum + x) xs

@[simp] theorem length_differences (prev : α) (xs : List α) :
    (differences prev xs).length = xs.length := by
  induction xs generalizing prev with
  | nil => rfl
  | cons x xs ih => rw [differences, List.length_cons, List.length_cons, ih]

theorem differences_append (prev : α) (xs : List α) (y : α) :
    differences prev (xs ++ [y]) = differences prev xs ++ [y - (prev :: xs).getLast
      (List.cons_ne_nil _ _)] := by
  induction xs generalizing prev with
  | nil => rfl
  | cons x xs ih =>
      rw [List.cons_append, differences, ih, differences, List.cons_append,
        List.getLast_cons (List.cons_ne_nil x xs)]

/-- Partial sums of differences are the values. -/
theorem partialSums_differences (prev : α) (xs : List α) :
    partialSums prev (differences prev xs) = xs := by
  induction xs generalizing prev with
  | nil => rfl
  | cons x xs ih => rw [differences, partialSums, add_sub_cancel, ih]

/-- A partial sum is one of a prefix. -/
theorem getElem?_partialSums (sum : α) (xs : List α) (j : ℕ) (hj : j < xs.length) :
    (partialSums sum xs)[j]? = some (sum + (xs.take (j + 1)).sum) := by
  induction xs generalizing sum j with
  | nil => exact absurd hj (Nat.not_lt_zero j)
  | cons x xs ih =>
      rw [partialSums, List.take_succ_cons, List.sum_cons]
      cases j with
      | zero => rw [List.getElem?_cons_zero, List.take_zero, List.sum_nil, add_zero]
      | succ j =>
          rw [List.getElem?_cons_succ, ih _ j (Nat.lt_of_succ_lt_succ hj), add_assoc]

/-- All differences add up to the last value. -/
theorem sum_differences (prev : α) (xs : List α) :
    (differences prev xs).sum = (prev :: xs).getLast (List.cons_ne_nil _ _) - prev := by
  induction xs generalizing prev with
  | nil => rw [differences, List.sum_nil, List.getLast_singleton, sub_self]
  | cons x xs ih =>
      rw [differences, List.sum_cons, ih, List.getLast_cons (List.cons_ne_nil x xs)]
      abel

section Order

variable [PartialOrder α] [IsOrderedAddMonoid α]

/-- The differences of values that ascend are not negative. -/
theorem differences_nonneg {prev : α} {xs : List α} (h : (prev :: xs).IsChain (· ≤ ·)) :
    ∀ d ∈ differences prev xs, 0 ≤ d := by
  induction xs generalizing prev with
  | nil => exact fun d hd ↦ absurd hd List.not_mem_nil
  | cons x xs ih =>
      obtain ⟨hle, hrest⟩ := List.isChain_cons_cons.mp h
      intro d hd
      rcases List.mem_cons.mp hd with rfl | hd
      · exact sub_nonneg.mpr hle
      · exact ih hrest d hd

end Order

/-! ## In place -/

/-- The loop that subtracts from each value the one before it, from the place `n` down to the
second one. -/
def subtractBelow : (n : ℕ) → List α → List α
  | 0, xs => xs
  | n + 1, xs => subtractBelow n (xs.set (n + 1) (xs.getD (n + 1) 0 - xs.getD n 0))

/-- Downwards, no value is changed before the one above it was. -/
theorem subtractBelow_cons (x : α) (xs ys : List α) :
    subtractBelow xs.length (x :: xs ++ ys) = x :: differences x xs ++ ys := by
  induction xs using List.reverseRecOn generalizing ys with
  | nil => rfl
  | append_singleton xs y ih =>
      have hshape : x :: (xs ++ [y]) ++ ys = (x :: xs) ++ y :: ys := by simp
      have hlast : ((x :: xs) ++ y :: ys).getD xs.length 0 =
          (x :: xs).getLast (List.cons_ne_nil _ _) := by
        rw [List.getLast_eq_getElem, List.getD_eq_getElem?_getD, List.getElem?_append_left (by simp)]
        simp
      have hnext : ((x :: xs) ++ y :: ys).getD (xs.length + 1) 0 = y := by simp
      have hset : ∀ z, ((x :: xs) ++ y :: ys).set (xs.length + 1) z = (x :: xs) ++ z :: ys := by simp
      rw [List.length_append, List.length_singleton, subtractBelow, hshape, hlast, hnext, hset, ih,
        differences_append]
      simp

theorem zipWith_sub_eq (prev : α) (xs : List α) :
    List.zipWith (· - ·) xs (prev :: xs) = differences prev xs := by
  induction xs generalizing prev with
  | nil => rfl
  | cons x xs ih => rw [List.zipWith_cons_cons, ih, differences]

/-- In place, a list of values becomes the first one and the differences. -/
theorem subtractBelow_eq (xs : List α) :
    subtractBelow (xs.length - 1) xs = xs.take 1 ++ List.zipWith (· - ·) (xs.drop 1) xs := by
  cases xs with
  | nil => rfl
  | cons x xs =>
      have h := subtractBelow_cons x xs []
      rw [List.append_nil, List.append_nil] at h
      rw [List.length_cons, Nat.add_sub_cancel, h, List.drop_one, List.tail_cons, zipWith_sub_eq]
      rfl

end Differences

end DataSketches
