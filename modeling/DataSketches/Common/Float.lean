import DataSketches.Common.Panic

/-!
# Floating-point numbers

A floating-point format is given by the finite numbers it has and by how it rounds
the exact result of an operation.  The rational numbers are the format that never
rounds.
-/

namespace DataSketches

/-- An `f64` whose finite numbers are those of `M`. -/
inductive F64 (M : Type) where
  | finite (x : M)
  | infinity
  | negInfinity
  | nan
deriving DecidableEq, Repr

/-- The finite numbers of a floating-point format. -/
class FloatFormat (M : Type) where
  /-- The number that is stood for. -/
  val : M → ℚ
  /-- What stands for the exact result of an operation. -/
  round : ℚ → F64 M

/-- Exact arithmetic. -/
instance : FloatFormat ℚ := ⟨id, .finite⟩

@[simp] theorem val_rat (x : ℚ) : FloatFormat.val x = x := rfl

@[simp] theorem round_rat (x : ℚ) : (FloatFormat.round x : F64 ℚ) = .finite x := rfl

namespace F64

open FloatFormat

variable {M : Type}

def isFinite : F64 M → Bool
  | finite _ => true
  | _ => false

def isInfinite : F64 M → Bool
  | infinity => true
  | negInfinity => true
  | _ => false

def isNan : F64 M → Bool
  | nan => true
  | _ => false

variable [FloatFormat M]

/-- `a < b` -/
def lt : F64 M → F64 M → Bool
  | finite x, finite y => val x < val y
  | negInfinity, finite _ => true
  | negInfinity, infinity => true
  | finite _, infinity => true
  | _, _ => false

/-- Returns the minimum of the two numbers, ignoring NaN. -/
def min (a b : F64 M) : F64 M :=
  if a.isNan then b
  else if b.isNan then a
  else if b.lt a then b
  else a

/-- Returns the maximum of the two numbers, ignoring NaN. -/
def max (a b : F64 M) : F64 M :=
  if a.isNan then b
  else if b.isNan then a
  else if a.lt b then b
  else a

@[simp] theorem min_infinity (x : M) : min infinity (finite x) = finite x := rfl

@[simp] theorem max_negInfinity (x : M) : max negInfinity (finite x) = finite x := rfl

theorem min_finite (x y : M) :
    min (finite x) (finite y) = finite (if val y < val x then y else x) := by
  by_cases h : val y < val x <;> simp [min, lt, isNan, h]

theorem max_finite (x y : M) :
    max (finite x) (finite y) = finite (if val x < val y then y else x) := by
  by_cases h : val x < val y <;> simp [max, lt, isNan, h]

end F64

end DataSketches
