import DataSketches.Common.Panic
import DataSketches.Lib.Runs

/-!
# Error bounds from the binomial distribution

The bounds are computed in floating point.  What they come to is left to a
parameter, `BoundArithmetic`; kept are the decisions that can end in an error or a
panic: the range of theta, the branches on the sample count, and the index into
the tables.  Theta itself is a quotient of integers and exact.
-/

namespace DataSketches

open Runs

/-- Number of standard deviations for confidence bounds. -/
inductive NumStdDev where
  | one
  | two
  | three
deriving DecidableEq, Repr

/-- Returns the number of standard deviations as a `u8`. -/
def NumStdDev.asU8 : NumStdDev → ℕ
  | one => 1
  | two => 2
  | three => 3

/-- The floating-point numbers, as far as the bounds need them. -/
structure BoundArithmetic (F : Type) where
  zero : F
  /-- `n as f64` -/
  ofNat : ℕ → F
  min : F → F → F
  max : F → F → F
  /-- `num_samples as f64 / theta` -/
  estimate : ℕ → ℚ → F
  /-- The 363 entries of `LB_EQUIV_TABLE`. -/
  lbEquivTable : Fin 363 → F
  /-- The 363 entries of `UB_EQUIV_TABLE`. -/
  ubEquivTable : Fin 363 → F
  /-- `cont_classic_lb`, rounded down by `0.5`. -/
  contClassicLb : ℕ → ℚ → F → F
  /-- `cont_classic_ub`, rounded up by `0.5`. -/
  contClassicUb : ℕ → ℚ → F → F
  /-- The lower bound for one sample, in closed form. -/
  oneSampleLb : ℚ → NumStdDev → F
  /-- The upper bound without samples, in closed form. -/
  noSampleUb : ℚ → NumStdDev → F
  /-- The loop of `special_n_star`: the number of turns it takes, or that it is out of range. -/
  nStarTurns : ℕ → ℚ → NumStdDev → Option ℕ
  /-- The loop of `special_n_prime_f`: the number of turns it takes, or that it is out of range. -/
  nPrimeTurns : ℕ → ℚ → NumStdDev → Option ℕ

namespace BinomialBounds

variable {F : Type} (arith : BoundArithmetic F)

/-- An index into one of the tables. -/
def equivAt (table : Fin 363 → F) (index : ℕ) : Checked F :=
  if h : index < 363 then .ok (table ⟨index, h⟩) else .error .outOfBounds

/-- The row of the tables for a number of samples. -/
def equivIndex (numSamples : ℕ) (numStdDev : NumStdDev) : ℕ :=
  3 * numSamples + (numStdDev.asU8 - 1)

/-- Starts with `m = num_samples` and backs up one after the loop. -/
def specialNStar (numSamples : ℕ) (p : ℚ) (numStdDev : NumStdDev) : Checked (Except Error ℕ) :=
  match arith.nStarTurns numSamples p numStdDev with
  | none => .ok (.error (.invalidArgument "out of range"))
  | some turns => .ok <$> checkedSub (numSamples + turns) 1

/-- Starts with `m = num_samples + 1` and does not back up. -/
def specialNPrimeF (numSamples : ℕ) (p : ℚ) (numStdDev : NumStdDev) : Except Error ℕ :=
  match arith.nPrimeTurns numSamples p numStdDev with
  | none => .error (.invalidArgument "out of range")
  | some turns => .ok (numSamples + 1 + turns)

def computeApproxBinomialLowerBound (numSamples : ℕ) (theta : ℚ) (numStdDev : NumStdDev) :
    Checked F :=
  if theta = 1 then .ok (arith.ofNat numSamples)
  else if numSamples = 0 then .ok arith.zero
  else if numSamples = 1 then .ok (arith.oneSampleLb theta numStdDev)
  else if numSamples > 120 then
    .ok (arith.contClassicLb numSamples theta (arith.ofNat numStdDev.asU8))
  else if theta > 1 - 1 / 10 ^ 5 then .ok (arith.ofNat numSamples)
  else if theta < numSamples / 360 then do
    let equiv ← equivAt arith.lbEquivTable (equivIndex numSamples numStdDev)
    return arith.contClassicLb numSamples theta equiv
  else do
    match ← specialNStar arith numSamples theta numStdDev with
    | .ok m => return arith.ofNat m
    | .error _ => return arith.ofNat numSamples

def computeApproxBinomialUpperBound (numSamples : ℕ) (theta : ℚ) (numStdDev : NumStdDev) :
    Checked F :=
  if theta = 1 then .ok (arith.ofNat numSamples)
  else if numSamples = 0 then .ok (arith.noSampleUb theta numStdDev)
  else if numSamples > 120 then
    .ok (arith.contClassicUb numSamples theta (arith.ofNat numStdDev.asU8))
  else if theta > 1 - 1 / 10 ^ 5 then .ok (arith.ofNat (numSamples + 1))
  else if theta < numSamples / 360 then do
    let equiv ← equivAt arith.ubEquivTable (equivIndex numSamples numStdDev)
    return arith.contClassicUb numSamples theta equiv
  else
    match specialNPrimeF arith numSamples theta numStdDev with
    | .ok m => .ok (arith.ofNat m)
    | .error _ => .ok (arith.ofNat (numSamples + 1))

def checkTheta (theta : ℚ) : Except Error Unit :=
  if theta ≤ 0 ∨ theta > 1 then
    .error (.invalidArgument s!"theta must be in the range (0.0, 1.0], got {theta}")
  else .ok ()

/-- Returns the approximate lower bound value. -/
def lowerBound (numSamples : ℕ) (theta : ℚ) (numStdDev : NumStdDev) :
    Checked (Except Error F) :=
  match checkTheta theta with
  | .error e => .ok (.error e)
  | .ok () => do
      let lb ← computeApproxBinomialLowerBound arith numSamples theta numStdDev
      return .ok (arith.min (arith.estimate numSamples theta)
        (arith.max (arith.ofNat numSamples) lb))

/-- Returns the approximate upper bound value. -/
def upperBound (numSamples : ℕ) (theta : ℚ) (numStdDev : NumStdDev) (noDataSeen : Bool) :
    Checked (Except Error F) :=
  if noDataSeen then .ok (.ok arith.zero)
  else
    match checkTheta theta with
    | .error e => .ok (.error e)
    | .ok () => do
        let ub ← computeApproxBinomialUpperBound arith numSamples theta numStdDev
        return .ok (arith.max (arith.estimate numSamples theta) ub)

/-! ## The bounds are total -/

/-- The tables have a row for every number of samples that looks into them. -/
theorem equivAt_total (table : Fin 363 → F) {numSamples : ℕ} (h : numSamples ≤ 120)
    (numStdDev : NumStdDev) : ∃ x, equivAt table (equivIndex numSamples numStdDev) = .ok x := by
  have hstd : numStdDev.asU8 - 1 ≤ 2 := by cases numStdDev <;> decide
  have hindex : equivIndex numSamples numStdDev < 363 := by
    unfold equivIndex
    omega
  exact ⟨_, dif_pos hindex⟩

theorem specialNStar_total {numSamples : ℕ} (h : numSamples ≠ 0) (p : ℚ)
    (numStdDev : NumStdDev) : ∃ r, specialNStar arith numSamples p numStdDev = .ok r := by
  unfold specialNStar
  cases arith.nStarTurns numSamples p numStdDev with
  | none => exact ⟨_, rfl⟩
  | some turns =>
      have hsub : checkedSub (numSamples + turns) 1 = .ok (numSamples + turns - 1) :=
        checkedSub_of_le (by omega)
      exact ⟨.ok (numSamples + turns - 1), by simp only [hsub, ok_map]⟩

theorem computeApproxBinomialLowerBound_total (numSamples : ℕ) (theta : ℚ)
    (numStdDev : NumStdDev) :
    ∃ x, computeApproxBinomialLowerBound arith numSamples theta numStdDev = .ok x := by
  unfold computeApproxBinomialLowerBound
  split_ifs with hone hzero h₁ h₁₂₀ hnear hfar
  · exact ⟨_, rfl⟩
  · exact ⟨_, rfl⟩
  · exact ⟨_, rfl⟩
  · exact ⟨_, rfl⟩
  · exact ⟨_, rfl⟩
  · obtain ⟨x, hx⟩ := equivAt_total arith.lbEquivTable (not_lt.mp h₁₂₀) numStdDev
    rw [hx]
    exact ⟨_, rfl⟩
  · obtain ⟨r, hr⟩ := specialNStar_total arith hzero theta numStdDev
    rw [hr]
    cases r with
    | error e => exact ⟨_, rfl⟩
    | ok m => exact ⟨_, rfl⟩

theorem computeApproxBinomialUpperBound_total (numSamples : ℕ) (theta : ℚ)
    (numStdDev : NumStdDev) :
    ∃ x, computeApproxBinomialUpperBound arith numSamples theta numStdDev = .ok x := by
  unfold computeApproxBinomialUpperBound
  split_ifs with hone hzero h₁₂₀ hnear hfar
  · exact ⟨_, rfl⟩
  · exact ⟨_, rfl⟩
  · exact ⟨_, rfl⟩
  · exact ⟨_, rfl⟩
  · obtain ⟨x, hx⟩ := equivAt_total arith.ubEquivTable (not_lt.mp h₁₂₀) numStdDev
    rw [hx]
    exact ⟨_, rfl⟩
  · cases specialNPrimeF arith numSamples theta numStdDev with
    | error e => exact ⟨_, rfl⟩
    | ok m => exact ⟨_, rfl⟩

theorem checkTheta_ok {theta : ℚ} (h : 0 < theta ∧ theta ≤ 1) : checkTheta theta = .ok () := by
  refine if_neg ?_
  rintro (hle | hgt)
  · exact absurd h.1 (not_lt.mpr hle)
  · exact absurd h.2 (not_le.mpr hgt)

/-- A theta in range has a lower bound. -/
theorem lowerBound_total (numSamples : ℕ) {theta : ℚ} (h : 0 < theta ∧ theta ≤ 1)
    (numStdDev : NumStdDev) :
    ∃ x, lowerBound arith numSamples theta numStdDev = .ok (.ok x) := by
  obtain ⟨lb, hlb⟩ :=
    computeApproxBinomialLowerBound_total arith numSamples theta numStdDev
  rw [lowerBound, checkTheta_ok h, hlb]
  exact ⟨_, rfl⟩

/-- A theta in range has an upper bound. -/
theorem upperBound_total (numSamples : ℕ) {theta : ℚ} (h : 0 < theta ∧ theta ≤ 1)
    (numStdDev : NumStdDev) (noDataSeen : Bool) :
    ∃ x, upperBound arith numSamples theta numStdDev noDataSeen = .ok (.ok x) := by
  cases noDataSeen with
  | true => exact ⟨_, rfl⟩
  | false =>
      obtain ⟨ub, hub⟩ :=
        computeApproxBinomialUpperBound_total arith numSamples theta numStdDev
      rw [upperBound, if_neg Bool.false_ne_true, checkTheta_ok h, hub]
      exact ⟨_, rfl⟩

/-- A theta that is not positive has no lower bound. -/
theorem lowerBound_error (numSamples : ℕ) {theta : ℚ} (h : theta ≤ 0) (numStdDev : NumStdDev) :
    ∃ e, lowerBound arith numSamples theta numStdDev = .ok (.error e) := by
  rw [lowerBound, checkTheta, if_pos (.inl h)]
  exact ⟨_, rfl⟩

end BinomialBounds

/-! ## Bounds of a proportion -/

/-- The floating-point numbers, as far as the bounds of a proportion need them. -/
structure ProportionArithmetic (F : Type) where
  zero : F
  half : F
  one : F
  /-- `k as f64 / n as f64` -/
  ratio : ℕ → ℕ → F
  /-- A number divided by itself is one. -/
  ratio_self : ∀ n, 0 < n → ratio n n = one
  deltaOfNumStdevs : F → F
  exactUpperBoundOnPKEqZero : ℕ → F → F
  exactLowerBoundOnPKEqN : ℕ → F → F
  exactLowerBoundOnPKEq1 : ℕ → F → F
  exactUpperBoundOnPKEqMinusone : ℕ → F → F
  /-- `1.0 - abramowitz_stegun_formula_26p5p22((n - k) as f64 + 1.0, k as f64, -num_std_devs)` -/
  lowerTail : ℕ → ℕ → F → F
  /-- `1.0 - abramowitz_stegun_formula_26p5p22((n - k) as f64, k as f64 + 1.0, num_std_devs)` -/
  upperTail : ℕ → ℕ → F → F

namespace BinomialBounds

variable {F : Type} (arith : ProportionArithmetic F)

def checkProportionInputs (n k : ℕ) : Except Error Unit :=
  if k > n then .error (.invalidArgument s!"k cannot exceed n: k={k}, n={n}") else .ok ()

/-- Computes an approximate lower bound for an unknown binomial proportion. -/
def approximateLowerBoundOnP (n k : ℕ) (numStdDevs : F) : Except Error F := do
  checkProportionInputs n k
  if n = 0 ∨ k = 0 then return arith.zero
  else if k = 1 then
    return arith.exactLowerBoundOnPKEq1 n (arith.deltaOfNumStdevs numStdDevs)
  else if k = n then
    return arith.exactLowerBoundOnPKEqN n (arith.deltaOfNumStdevs numStdDevs)
  else return arith.lowerTail n k numStdDevs

/-- Computes an approximate upper bound for an unknown binomial proportion. -/
def approximateUpperBoundOnP (n k : ℕ) (numStdDevs : F) : Except Error F := do
  checkProportionInputs n k
  if n = 0 ∨ k = n then return arith.one
  else if k = n - 1 then
    return arith.exactUpperBoundOnPKEqMinusone n (arith.deltaOfNumStdevs numStdDevs)
  else if k = 0 then
    return arith.exactUpperBoundOnPKEqZero n (arith.deltaOfNumStdevs numStdDevs)
  else return arith.upperTail n k numStdDevs

/-- A proportion has a lower bound. -/
theorem approximateLowerBoundOnP_total {n k : ℕ} (h : k ≤ n) (numStdDevs : F) :
    ∃ x, approximateLowerBoundOnP arith n k numStdDevs = .ok x := by
  rw [approximateLowerBoundOnP, checkProportionInputs, if_neg (not_lt.mpr h), ok_bind]
  split_ifs
  all_goals exact ⟨_, rfl⟩

/-- A proportion has an upper bound. -/
theorem approximateUpperBoundOnP_total {n k : ℕ} (h : k ≤ n) (numStdDevs : F) :
    ∃ x, approximateUpperBoundOnP arith n k numStdDevs = .ok x := by
  rw [approximateUpperBoundOnP, checkProportionInputs, if_neg (not_lt.mpr h), ok_bind]
  split_ifs
  all_goals exact ⟨_, rfl⟩

end BinomialBounds

/-! ## Theta as a floating-point number -/

/-- `n as f64`: rounded to 53 bits, to even in the middle. -/
def f64OfNat (n : ℕ) : ℕ :=
  let shift := n.log2 - 52
  let q := n / 2 ^ shift
  let r := n % 2 ^ shift
  if 2 * r > 2 ^ shift ∨ (2 * r = 2 ^ shift ∧ q % 2 = 1) then (q + 1) * 2 ^ shift
  else q * 2 ^ shift

/-- Rounding does not leave the interval between two powers of two. -/
theorem f64OfNat_le {n e : ℕ} (h : n < 2 ^ e) (he : 53 ≤ e) : f64OfNat n ≤ 2 ^ e := by
  obtain ⟨shift, hshift⟩ : ∃ shift, n.log2 - 52 = shift := ⟨_, rfl⟩
  have hle : shift + 53 ≤ e := by
    rcases Nat.eq_zero_or_pos n with rfl | hpos
    · rw [Nat.log2_zero] at hshift
      omega
    · have hlog := (Nat.log2_lt hpos.ne').mpr h
      omega
  have hq : n / 2 ^ shift + 1 ≤ 2 ^ (e - shift) := by
    rw [Nat.succ_le_iff, Nat.div_lt_iff_lt_mul (Nat.two_pow_pos shift), ← pow_add]
    rwa [Nat.sub_add_cancel (by omega)]
  have hbound : (n / 2 ^ shift + 1) * 2 ^ shift ≤ 2 ^ e := by
    calc (n / 2 ^ shift + 1) * 2 ^ shift
        ≤ 2 ^ (e - shift) * 2 ^ shift := Nat.mul_le_mul_right _ hq
      _ = 2 ^ e := by rw [← pow_add, Nat.sub_add_cancel (by omega)]
  simp only [f64OfNat, hshift]
  split_ifs with hround
  · exact hbound
  · exact (Nat.mul_le_mul_right _ (Nat.le_succ _)).trans hbound

theorem f64OfNat_pos {n : ℕ} (h : 0 < n) : 0 < f64OfNat n := by
  obtain ⟨shift, hshift⟩ : ∃ shift, n.log2 - 52 = shift := ⟨_, rfl⟩
  have hpow : 2 ^ shift ≤ n :=
    (Nat.pow_le_pow_right two_pos (by omega)).trans (Nat.log2_self_le h.ne')
  have hq : 0 < n / 2 ^ shift := Nat.div_pos hpow (Nat.two_pow_pos shift)
  simp only [f64OfNat, hshift]
  split_ifs with hround
  · exact Nat.mul_pos (Nat.succ_pos _) (Nat.two_pow_pos shift)
  · exact Nat.mul_pos hq (Nat.two_pow_pos shift)

/-- A number in the range of theta is a fraction of the greatest theta. -/
theorem f64OfNat_div_range {n : ℕ} (h : 1 ≤ n ∧ n < 2 ^ 63) :
    0 < (f64OfNat n / f64OfNat (2 ^ 63 - 1) : ℚ) ∧ (f64OfNat n / f64OfNat (2 ^ 63 - 1) : ℚ) ≤ 1 := by
  have hmax : f64OfNat (2 ^ 63 - 1) = 2 ^ 63 := by decide +kernel
  have hle : f64OfNat n ≤ 2 ^ 63 := f64OfNat_le h.2 (by decide)
  have hpos := f64OfNat_pos h.1
  rw [hmax]
  constructor
  · positivity
  · rw [div_le_one (by positivity)]
    exact_mod_cast hle

end DataSketches
