import Mathlib

/-!
# Normal binary32 numbers

Positive normal numbers by their mantissa of 24 bits and their exponent, and the
quotient of two of them in these terms.  What is computed here is what the model of
`Float32` computes, without packing the result and unpacking it again.

## Main definitions

* `Normal`: the mantissas and exponents of positive normal numbers.
* `Represents`: a number has a mantissa and an exponent.
* `quotient`: the mantissa and the exponent of a quotient.
-/

open Float.Model (Format totalExponent)
open Float.Model.UnpackedFloat

namespace Binary32

/-- The mantissa and the exponent of a positive normal number. -/
structure Normal (m : ℕ) (e : ℤ) : Prop where
  le_mantissa : 2 ^ 23 ≤ m
  mantissa_lt : m < 2 ^ 24
  le_exponent : -149 ≤ e
  exponent_le : e ≤ 104

instance (m : ℕ) (e : ℤ) : Decidable (Normal m e) :=
  decidable_of_iff (2 ^ 23 ≤ m ∧ m < 2 ^ 24 ∧ -149 ≤ e ∧ e ≤ 104)
    ⟨fun ⟨h₁, h₂, h₃, h₄⟩ ↦ ⟨h₁, h₂, h₃, h₄⟩, fun ⟨h₁, h₂, h₃, h₄⟩ ↦ ⟨h₁, h₂, h₃, h₄⟩⟩

/-- The number is `m * 2 ^ e`. -/
def Represents (x : Float32) (m : ℕ) (e : ℤ) : Prop :=
  ∃ h, x = .ofModel (.pack (.finite .positive m e h))

instance (x : Float32) (m : ℕ) (e : ℤ) : Decidable (Represents x m e) :=
  if h : 0 < m then
    decidable_of_iff (x = .ofModel (.pack (.finite .positive m e h))) ⟨fun hx ↦ ⟨h, hx⟩, fun ⟨_, hx⟩ ↦ hx⟩
  else isFalse fun ⟨hpos, _⟩ ↦ h hpos

variable {m m₁ m₂ : ℕ} {e e₁ e₂ : ℤ} {x y : Float32}

theorem Normal.pos (h : Normal m e) : 0 < m := lt_of_lt_of_le (Nat.two_pow_pos 23) h.le_mantissa

theorem Normal.log2_eq (h : Normal m e) : m.log2 = 23 :=
  (Nat.log2_eq_iff h.pos.ne').mpr ⟨h.le_mantissa, h.mantissa_lt⟩

/-! ## Packing -/

theorem toNat_append_one (v : BitVec 23) : (1#1 ++ v).toNat = 2 ^ 23 + v.toNat := by
  rw [BitVec.toNat_append, ← Nat.shiftLeft_add_eq_or_of_lt v.isLt]
  rfl

theorem sign_ofBitVec_toBitVec : Sign.ofBitVec Sign.positive.toBitVec = .positive := rfl

@[simp] theorem unpackSign_packComponents (v : BitVec 8) (w : BitVec 23) :
    unpackSign (packComponents Format.binary32 .positive v w) = Sign.positive.toBitVec := by
  have htop : (0#1 ++ v ++ w : BitVec (1 + 8 + 23)).getLsbD 31 = false := by
    rw [BitVec.getLsbD_append, if_neg (by decide), BitVec.getLsbD_append, if_neg (by decide)]
    rfl
  refine BitVec.eq_of_getLsbD_eq fun i hi ↦ ?_
  obtain rfl : i = 0 := by omega
  simp [unpackSign, packComponents, Sign.toBitVec]
  exact htop

/-- A normal number is unpacked as it was packed. -/
theorem unpack_pack (h : Normal m e) :
    unpack Format.binary32 (pack Format.binary32 (.finite .positive m e h.pos)) =
      .finite .positive m e h.pos := by
  obtain ⟨hle, hlt, hmin, hmax⟩ := h
  obtain ⟨b, hb⟩ : ∃ b : ℕ, e + 127 + 23 = b := Int.eq_ofNat_of_zero_le (by omega)
  have hbiased : (e + (Format.binary32.exponentBias : ℤ) +
      Format.binary32.mantissaBitsWithoutImplicit).toNat = b := by
    rw [show (Format.binary32.exponentBias : ℤ) = 127 from rfl,
      show (Format.binary32.mantissaBitsWithoutImplicit : ℤ) = 23 from rfl, hb, Int.toNat_natCast]
  have hlog : m.log2 + 1 = Format.binary32.mantissaBits := by
    rw [Normal.log2_eq ⟨hle, hlt, hmin, hmax⟩]
    rfl
  have hpack : pack Format.binary32 (.finite .positive m e (by omega)) =
      packComponents Format.binary32 .positive (BitVec.ofNat 8 b) (BitVec.ofNat 23 m) := by
    rw [pack]
    dsimp only
    rw [hbiased, if_neg (show ¬ 2 ^ 8 ≤ b + 1 by omega), if_pos hlog]
  have hv : (BitVec.ofNat 8 b).toNat = b := by
    rw [BitVec.toNat_ofNat, Nat.mod_eq_of_lt (by omega)]
  have hones : BitVec.ofNat 8 b ≠ -1#_ := by
    intro h
    have hnat := congrArg BitVec.toNat h
    rw [hv] at hnat
    exact absurd hnat (by simp; omega)
  have hzero : BitVec.ofNat 8 b ≠ 0#_ := by
    intro h
    have hnat := congrArg BitVec.toNat h
    rw [hv] at hnat
    exact absurd hnat (by simp; omega)
  have hm : (1#1 ++ BitVec.ofNat 23 m).toNat = m := by
    rw [toNat_append_one, BitVec.toNat_ofNat]
    omega
  rw [hpack, unpack]
  simp only [unpackMantissa_packComponents, unpackExponent_packComponents,
    unpackSign_packComponents, hones, hzero, if_false, sign_ofBitVec_toBitVec, hm, hv]
  congr 1
  rw [show (Format.binary32.exponentBias : ℤ) = 127 from rfl]
  omega

/-- What a number that has a mantissa and an exponent is unpacked to. -/
theorem Represents.unpack_eq (hx : Represents x m e) (h : Normal m e) :
    x.toModel.unpack = .finite .positive m e h.pos := by
  obtain ⟨hpos, rfl⟩ := hx
  exact unpack_pack h

theorem Represents.isFinite (hx : Represents x m e) (h : Normal m e) : x.isFinite = true := by
  rw [Float32.isFinite, Float32.Model.isFinite, hx.unpack_eq h]
  rfl

/-- The bits of a number give it back. -/
theorem Represents.ofBits_toBits (hx : Represents x m e) (h : Normal m e) :
    Float32.ofBits x.toBits = x := by
  have hunpack : unpack Format.binary32 x.toBits.toBitVec = .finite .positive m e h.pos :=
    hx.unpack_eq h
  obtain ⟨hpos, hpack⟩ := hx
  rw [Float32.ofBits, Float32.Model.ofBits, hunpack]
  exact hpack.symm

/-! ## Rounding -/

theorem targetExponent_eq (he : -149 ≤ (m.log2 : ℤ) - 23 + e) :
    Format.binary32.targetExponent (totalExponent m e) = (m.log2 : ℤ) - 23 + e := by
  rw [Format.targetExponent, totalExponent, show (Format.binary32.mantissaBits : ℤ) = 24 from rfl,
    show Format.binary32.minExponent = -149 from rfl]
  omega

/-- A mantissa that was rounded up to 25 bits loses one again. -/
def carry (m : ℕ) (e : ℤ) : ℕ × ℤ := if m = 2 ^ 24 then (2 ^ 23, e + 1) else (m, e)

theorem roundedMantissa_bounds (em : ExtendedMantissa) :
    em.mantissa ≤ em.roundedMantissa ∧ em.roundedMantissa ≤ em.mantissa + 1 := by
  obtain ⟨m, r, s⟩ := em
  cases r <;> cases s <;>
    simp only [ExtendedMantissa.roundedMantissa, ExtendedMantissa.accuracy,
      Accuracy.roundToNearestEven] <;> omega

theorem mantissa_ofMantissaAndAccuracy (q : ℕ) (accuracy : Accuracy) :
    (ExtendedMantissa.ofMantissaAndAccuracy q accuracy).mantissa = q := by
  cases accuracy with
  | exact => rfl
  | inexact o => cases o <;> rfl

theorem shiftRight_zero (em : ExtendedMantissa) : em >>> (0 : ℕ) = em := rfl

theorem shiftRight_one (em : ExtendedMantissa) : em >>> (1 : ℕ) = em.shiftRightOne := rfl

/-- The second shift of a rounding undoes a carry. -/
theorem shiftToTargetExponent_carry (hle : 2 ^ 23 ≤ m) (hm : m ≤ 2 ^ 24) (he : -149 ≤ e) :
    (shiftToTargetExponent Format.binary32 m e .exact).1.mantissa = (carry m e).1 ∧
      (shiftToTargetExponent Format.binary32 m e .exact).2 = (carry m e).2 := by
  rcases hm.lt_or_eq with hlt | rfl
  · have hlog : m.log2 = 23 := (Nat.log2_eq_iff (by omega)).mpr ⟨hle, hlt⟩
    rw [shiftToTargetExponent, targetExponent_eq (by omega), hlog, carry,
      if_neg (by omega), shiftToExponent]
    dsimp only
    rw [show ((23 : ℕ) : ℤ) - 23 + e - e = 0 by omega, Int.toNat_zero, shiftRight_zero]
    exact ⟨rfl, Int.add_zero e⟩
  · rw [shiftToTargetExponent, targetExponent_eq (by rw [Nat.log2_two_pow]; omega),
      Nat.log2_two_pow, carry, if_pos rfl, shiftToExponent]
    dsimp only
    rw [show ((24 : ℕ) : ℤ) - 23 + e - e = 1 by omega]
    exact ⟨rfl, rfl⟩

/-- Rounding from 24 or 25 bits. -/
theorem roundWithAccuracy_eq {q s : ℕ} {accuracy : Accuracy} (hs : s ≤ 1) (hle : 2 ^ (23 + s) ≤ q)
    (hlt : q < 2 ^ (24 + s)) (he : -149 ≤ e) {em : ExtendedMantissa}
    (hem : em = ExtendedMantissa.ofMantissaAndAccuracy q accuracy >>> s) {e' : ℤ} (he' : e + s = e')
    (hbound : 2 ^ 23 ≤ em.roundedMantissa ∧ em.roundedMantissa ≤ 2 ^ 24) :
    ∃ h, roundWithAccuracy Format.binary32 .positive q e accuracy =
      .finite .positive (carry em.roundedMantissa e').1 (carry em.roundedMantissa e').2 h := by
  subst he'
  have hlog : q.log2 = 23 + s :=
    (Nat.log2_eq_iff (by have := Nat.two_pow_pos (23 + s); omega)).mpr ⟨hle, by
      rwa [show 23 + s + 1 = 24 + s by omega]⟩
  have hfirst : shiftToTargetExponent Format.binary32 q e accuracy = (em, e + s) := by
    rw [shiftToTargetExponent, targetExponent_eq (by omega), hlog, shiftToExponent,
      show ((23 + s : ℕ) : ℤ) - 23 + e - e = s by omega, Int.toNat_natCast, ← hem]
  obtain ⟨hmantissa, hexponent⟩ := shiftToTargetExponent_carry hbound.1 hbound.2
    (show -149 ≤ e + s by omega)
  have hpos : 0 < (carry em.roundedMantissa (e + s)).1 := by
    rw [carry]
    split_ifs
    · exact Nat.two_pow_pos 23
    · omega
  refine ⟨hpos, ?_⟩
  rw [roundWithAccuracy, hfirst]
  dsimp only
  simp only [hmantissa, hexponent]
  rw [dif_neg hpos.ne']

/-! ## Quotients -/

/-- The quotient of two mantissas, with at least 24 bits. -/
def quotient (m₁ : ℕ) (e₁ : ℤ) (m₂ : ℕ) (e₂ : ℤ) : ℕ × ℤ :=
  let q := (m₁ <<< 24) / m₂
  let em := ExtendedMantissa.ofMantissaAndAccuracy q (accuracyOfFraction ((m₁ <<< 24) % m₂) m₂)
  if q < 2 ^ 24 then carry em.roundedMantissa (e₁ - e₂ - 24)
  else carry em.shiftRightOne.roundedMantissa (e₁ - e₂ - 23)

theorem quotient_bounds (h₁ : Normal m₁ e₁) (h₂ : Normal m₂ e₂) :
    2 ^ 23 ≤ (m₁ <<< 24) / m₂ ∧ (m₁ <<< 24) / m₂ < 2 ^ 25 := by
  obtain ⟨hle₁, hlt₁, -, -⟩ := h₁
  obtain ⟨hle₂, hlt₂, -, -⟩ := h₂
  rw [Nat.shiftLeft_eq]
  constructor
  · rw [Nat.le_div_iff_mul_le (by omega)]
    omega
  · rw [Nat.div_lt_iff_lt_mul (by omega)]
    omega

theorem divCore_eq (h₁ : Normal m₁ e₁) (h₂ : Normal m₂ e₂) (he : -125 ≤ e₁ - e₂) :
    divCore Format.binary32 m₁ e₁ m₂ e₂ = ((m₁ <<< 24) / m₂, e₁ - e₂ - 24,
      accuracyOfFraction ((m₁ <<< 24) % m₂) m₂) := by
  have htarget : min (e₁ - e₂) (Format.binary32.targetExponent
      (totalExponent m₁ e₁ - totalExponent m₂ e₂)) = e₁ - e₂ - 24 := by
    rw [Format.targetExponent, totalExponent, totalExponent, h₁.log2_eq, h₂.log2_eq,
      show (Format.binary32.mantissaBits : ℤ) = 24 from rfl,
      show Format.binary32.minExponent = -149 from rfl]
    omega
  rw [divCore, htarget, show (e₁ - e₂ - (e₁ - e₂ - 24)).toNat = 24 by omega]

/-- The quotient of normal numbers. -/
theorem represents_div (hx : Represents x m₁ e₁) (hy : Represents y m₂ e₂) (h₁ : Normal m₁ e₁)
    (h₂ : Normal m₂ e₂) (he : -125 ≤ e₁ - e₂) :
    Represents (x / y) (quotient m₁ e₁ m₂ e₂).1 (quotient m₁ e₁ m₂ e₂).2 := by
  have hx := hx.unpack_eq h₁
  have hy := hy.unpack_eq h₂
  obtain ⟨hle, hlt⟩ := quotient_bounds h₁ h₂
  obtain ⟨q, hq⟩ : ∃ q, q = (m₁ <<< 24) / m₂ := ⟨_, rfl⟩
  obtain ⟨acc, hacc⟩ : ∃ acc, acc = accuracyOfFraction ((m₁ <<< 24) % m₂) m₂ := ⟨_, rfl⟩
  have hround : ∃ hpos, roundWithAccuracy Format.binary32 .positive q (e₁ - e₂ - 24) acc =
      .finite .positive (quotient m₁ e₁ m₂ e₂).1 (quotient m₁ e₁ m₂ e₂).2 hpos := by
    have hmantissa := mantissa_ofMantissaAndAccuracy q acc
    obtain ⟨em, hem⟩ : ∃ em, em = ExtendedMantissa.ofMantissaAndAccuracy q acc := ⟨_, rfl⟩
    rw [← hq] at hle hlt
    rw [← hem] at hmantissa
    rw [quotient, ← hq, ← hacc, ← hem]
    split_ifs with hshort
    · obtain ⟨hge, hle'⟩ := roundedMantissa_bounds em
      exact roundWithAccuracy_eq (s := 0) (by omega) hle hshort (by omega) hem (Int.add_zero _)
        (by omega)
    · obtain ⟨hge, hle'⟩ := roundedMantissa_bounds em.shiftRightOne
      rw [show em.shiftRightOne.mantissa = em.mantissa / 2 from rfl, hmantissa] at hge hle'
      exact roundWithAccuracy_eq (s := 1) le_rfl (by omega) hlt (by omega) (by rw [hem]; rfl)
        (by omega) (by omega)
  obtain ⟨hpos, hround⟩ := hround
  have hdiv : x / y = .ofModel (.pack (.finite .positive (quotient m₁ e₁ m₂ e₂).1
      (quotient m₁ e₁ m₂ e₂).2 hpos)) := by
    have hunpacked : x.toModel / y.toModel = .pack (div Format.binary32
        (.finite .positive m₁ e₁ h₁.pos) (.finite .positive m₂ e₂ h₂.pos)) := by
      rw [← hx, ← hy]
      rfl
    have hvalue : div Format.binary32 (.finite .positive m₁ e₁ h₁.pos) (.finite .positive m₂ e₂ h₂.pos) =
        roundWithAccuracy Format.binary32 .positive q (e₁ - e₂ - 24) acc := by
      rw [div, divCore_eq h₁ h₂ he, hq, hacc]
      rfl
    rw [← hround, ← hvalue, ← hunpacked]
    rfl
  exact ⟨hpos, hdiv⟩

end Binary32
