import DataSketches.Common.Codec

/-!
# Values, accuracy and section sizes of REQ sketches

A value is ordered by a comparator that may identify different values, such as the
two zeros of a floating-point type.  Section sizes are `f32` numbers that are
divided by the square root of two and rounded to an even number.
-/

namespace DataSketches

/-- The trait of the types that can be stored in a sketch. -/
class ReqValue (T : Type) where
  /-- Total ordering used for sketch operations. -/
  totalCmp : T → T → Ordering
  trans : Std.TransCmp totalCmp
  /-- The floating-point NaN sentinel. -/
  isNan : T → Bool
  serializeSize : T → ℕ
  serializeValue : T → List UInt8
  deserializeValue : SketchSlice T

attribute [instance] ReqValue.trans

namespace Req

def initialSectionsPerCompactor : ℕ := 3

def defaultK : ℕ := 12

def minK : ℕ := 4

def maxK : ℕ := 1024

/-- Which tail of the rank domain the sketch optimizes for. -/
inductive RankAccuracy where
  /-- Optimize for accuracy at high ranks. -/
  | highRank
  /-- Optimize for accuracy at low ranks. -/
  | lowRank
deriving DecidableEq, Repr

/-- Whether queries include the weight of the search item. -/
inductive SearchCriteria where
  | inclusive
  | exclusive
deriving DecidableEq, Repr

/-! ## Section sizes -/

/-- `value.round() as u32`: half-way cases away from zero, then saturating. -/
def roundU32 (value : Float32) : ℕ :=
  match value.toModel.unpack with
  | .infinity .positive => 2 ^ 32 - 1
  | .finite .positive mantissa exponent _ =>
      min (2 ^ 32 - 1) <|
        match exponent with
        | .ofNat e => mantissa * 2 ^ e
        | .negSucc e => (mantissa + 2 ^ e) / 2 ^ (e + 1)
  | _ => 0

def nearestEvenSectionSize (value : Float32) : ℕ := (roundU32 (value / 2) <<< 1) % 2 ^ 32

/-- `std::f32::consts::SQRT_2` -/
def sqrt2 : Float32 := .ofBits 0x3FB504F3

/-- A value of `k` that `try_new` accepts. -/
def ValidK (k : ℕ) : Prop := minK ≤ k ∧ k ≤ maxK ∧ k % 2 = 0

instance (k : ℕ) : Decidable (ValidK k) := inferInstanceAs (Decidable (_ ∧ _))

example : [0.0, 1.0, 2.0, 3.0, 4.0, 4.6, 5.6, 13.0].map nearestEvenSectionSize =
    [0, 2, 2, 4, 4, 4, 6, 14] := by
  decide +kernel

end Req

end DataSketches
