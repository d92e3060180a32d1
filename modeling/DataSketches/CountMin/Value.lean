import DataSketches.Common.Codec

/-!
# Counters of the CountMin sketch

A counter is an integer of one of eight fixed-width types.  A value carries its
range, arithmetic that leaves the range is a panic, and every value is stored in
eight bytes.
-/

namespace DataSketches

open Runs LittleEndian

/-- The value types supported by the sketch. -/
inductive CountMinType where
  | i8
  | i16
  | i32
  | i64
  | u8
  | u16
  | u32
  | u64
deriving DecidableEq, Repr

namespace CountMinType

def isSigned : CountMinType → Bool
  | i8 | i16 | i32 | i64 => true
  | u8 | u16 | u32 | u64 => false

def bits : CountMinType → ℕ
  | i8 | u8 => 8
  | i16 | u16 => 16
  | i32 | u32 => 32
  | i64 | u64 => 64

def min (t : CountMinType) : ℤ := if t.isSigned then -(2 ^ (t.bits - 1)) else 0

def max (t : CountMinType) : ℤ := if t.isSigned then 2 ^ (t.bits - 1) - 1 else 2 ^ t.bits - 1

def name : CountMinType → String
  | i8 => "i8"
  | i16 => "i16"
  | i32 => "i32"
  | i64 => "i64"
  | u8 => "u8"
  | u16 => "u16"
  | u32 => "u32"
  | u64 => "u64"

end CountMinType

/-- A number in the range of its type. -/
@[ext]
structure CountMinValue (t : CountMinType) where
  val : ℤ
  range : t.min ≤ val ∧ val ≤ t.max
deriving DecidableEq

namespace CountMinValue

variable {t : CountMinType}

theorem zero_range (t : CountMinType) : t.min ≤ 0 ∧ 0 ≤ t.max := by cases t <;> decide

theorem one_range (t : CountMinType) : t.min ≤ 1 ∧ 1 ≤ t.max := by cases t <;> decide

def zero : CountMinValue t := ⟨0, zero_range t⟩

def one : CountMinValue t := ⟨1, one_range t⟩

def maxValue : CountMinValue t := ⟨t.max, (zero_range t).1.trans (zero_range t).2, le_rfl⟩

/-- The result of an operation, which panics if it is out of range. -/
def checked (x : ℤ) : Checked (CountMinValue t) :=
  if h : t.min ≤ x ∧ x ≤ t.max then .ok ⟨x, h⟩ else .error .overflow

def add (a b : CountMinValue t) : Checked (CountMinValue t) := checked (a.val + b.val)

def abs (a : CountMinValue t) : Checked (CountMinValue t) :=
  if t.isSigned then
    if 0 ≤ a.val then .ok a else checked (-a.val)
  else .ok a

theorem half_range (hu : t.isSigned = false) (a : CountMinValue t) :
    t.min ≤ a.val / 2 ∧ a.val / 2 ≤ t.max := by
  have hrange := a.range
  have hmin : t.min = 0 := if_neg (ne_true_of_eq_false hu)
  omega

/-- `self >> 1`, for the unsigned types. -/
def halve (hu : t.isSigned = false) (a : CountMinValue t) : CountMinValue t :=
  ⟨a.val / 2, half_range hu a⟩

/-- The value as an `i64` or `u64`, in little-endian order. -/
def toBytes (a : CountMinValue t) : List UInt8 := leBytes 8 (a.val % 2 ^ 64).toNat

/-- The `i64` or `u64` of eight bytes, which must be in the range of the type. -/
def tryFromBytes (t : CountMinType) (bytes : List UInt8) : Except Error (CountMinValue t) :=
  let n := leNat bytes
  let value : ℤ := if t.isSigned then if n < 2 ^ 63 then n else n - 2 ^ 64 else n
  if h : t.min ≤ value ∧ value ≤ t.max then .ok ⟨value, h⟩
  else .error (.deserial s!"value {value} out of range for {t.name}")

/-! ## Results in range -/

variable {a b c : CountMinValue t}

@[simp] theorem val_zero : (zero : CountMinValue t).val = 0 := rfl

theorem checked_eq_ok {x : ℤ} : checked x = .ok c ↔ c.val = x := by
  unfold checked
  constructor
  · split_ifs with h
    · intro hc
      cases hc
      rfl
    · intro hc
      cases hc
  · rintro rfl
    exact dif_pos c.range

theorem add_eq_ok : a.add b = .ok c ↔ c.val = a.val + b.val := checked_eq_ok

theorem nonneg_of_unsigned (hu : t.isSigned = false) (a : CountMinValue t) : 0 ≤ a.val := by
  have hmin : t.min = 0 := if_neg (ne_true_of_eq_false hu)
  exact hmin ▸ a.range.1

/-- The absolute value, where it is in range. -/
theorem abs_eq_ok : a.abs = .ok c ↔ c.val = |a.val| := by
  unfold abs
  split_ifs with hs hpos
  · rw [abs_of_nonneg hpos, Except.ok.injEq, CountMinValue.ext_iff, eq_comm]
  · rw [checked_eq_ok, abs_of_neg (not_le.mp hpos)]
  · rw [abs_of_nonneg (nonneg_of_unsigned (eq_false_of_ne_true hs) a), Except.ok.injEq,
      CountMinValue.ext_iff, eq_comm]

/-- What is not larger than the maximum in absolute value is in range, unless it is negative and
the type unsigned. -/
theorem range_of_abs {x : ℤ} (hsign : t.isSigned = false → 0 ≤ x) (h : |x| ≤ t.max) :
    t.min ≤ x ∧ x ≤ t.max := by
  have hx := abs_le.mp h
  refine ⟨?_, hx.2⟩
  cases hs : t.isSigned with
  | false =>
      have hmin : t.min = 0 := if_neg (ne_true_of_eq_false hs)
      exact hmin ▸ hsign hs
  | true =>
      have hmin : t.min = -(2 ^ (t.bits - 1)) := if_pos hs
      have hmax : t.max = 2 ^ (t.bits - 1) - 1 := if_pos hs
      rw [hmax] at hx
      rw [hmin]
      linarith [hx.1]

/-- A sum that is small enough does not overflow. -/
theorem add_total {m : ℤ} (ha : |a.val| ≤ m) (hb : m + |b.val| ≤ t.max) :
    ∃ c, a.add b = .ok c := by
  have hsum : |a.val + b.val| ≤ t.max := (abs_add_le a.val b.val).trans (by linarith)
  refine ⟨⟨a.val + b.val, range_of_abs (fun hu ↦ ?_) hsum⟩, add_eq_ok.mpr rfl⟩
  exact add_nonneg (nonneg_of_unsigned hu a) (nonneg_of_unsigned hu b)

theorem abs_total (h : |a.val| ≤ t.max) : ∃ c, a.abs = .ok c :=
  ⟨⟨|a.val|, range_of_abs (fun _ ↦ abs_nonneg _) (by rwa [abs_abs])⟩, abs_eq_ok.mpr rfl⟩

/-- Every type is a subrange of `i64` or of `u64`. -/
theorem wide_range (t : CountMinType) :
    if t.isSigned then -2 ^ 63 ≤ t.min ∧ t.max < 2 ^ 63 else 0 ≤ t.min ∧ t.max < 2 ^ 64 := by
  cases t <;> decide

/-- A value is read back from its bytes. -/
theorem tryFromBytes_toBytes (a : CountMinValue t) : tryFromBytes t a.toBytes = .ok a := by
  have hlt : (a.val % 2 ^ 64).toNat < 256 ^ 8 := by omega
  have hrange := a.range
  have hwide := wide_range t
  have hval : (if t.isSigned then
      if leNat a.toBytes < 2 ^ 63 then (leNat a.toBytes : ℤ) else leNat a.toBytes - 2 ^ 64
      else (leNat a.toBytes : ℤ)) = a.val := by
    rw [toBytes, leNat_leBytes_of_lt hlt]
    split_ifs at hwide ⊢ with hs hlow
    · omega
    · omega
    · omega
  unfold tryFromBytes
  simp only [hval, dif_pos a.range]

end CountMinValue

end DataSketches
