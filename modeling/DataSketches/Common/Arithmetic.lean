import DataSketches.Common.Panic

/-!
# Products and sums

Multiplication on a fixed-width type, and the sum of an iterator.
-/

namespace DataSketches

/-- Multiplication on an unsigned type of the given width. -/
def checkedMul (bits a b : ℕ) : Checked ℕ :=
  if a * b < 2 ^ bits then .ok (a * b) else .error .overflow

@[simp] theorem checkedMul_of_lt {bits a b : ℕ} (h : a * b < 2 ^ bits) :
    checkedMul bits a b = .ok (a * b) := if_pos h

/-- The sum of an iterator, on an unsigned type of the given width. -/
def checkedSum (bits : ℕ) (xs : List ℕ) : Checked ℕ := xs.foldlM (checkedAdd bits) 0

theorem checkedSum_of_lt {bits : ℕ} {xs : List ℕ} (h : xs.sum < 2 ^ bits) :
    checkedSum bits xs = .ok xs.sum := by
  have hfold : ∀ (xs : List ℕ) (a : ℕ), a + xs.sum < 2 ^ bits →
      xs.foldlM (checkedAdd bits) a = .ok (a + xs.sum) := by
    intro xs
    induction xs with
    | nil => exact fun a _ ↦ rfl
    | cons x xs ih =>
        intro a ha
        rw [List.sum_cons, ← Nat.add_assoc] at ha ⊢
        rw [List.foldlM_cons, checkedAdd_of_lt (Nat.lt_of_le_of_lt (Nat.le_add_right _ _) ha)]
        exact ih (a + x) ha
  rw [checkedSum, hfold xs 0 (by rwa [Nat.zero_add]), Nat.zero_add]

end DataSketches
