import DataSketches.Lib.Binary32
import DataSketches.Req.Value

/-!
# The growth of sections

Each time the number of sections is doubled, their raw size is divided by the square
root of two.  There are at most six doublings, in which the size stays at most `k` and
keeps at least half of its value as long as it is not too small to be used.

## Main definitions

* `rawSize`: the raw size of sections after some doublings.
* `scheduleUnits`: its mantissa and exponent.
-/

namespace DataSketches

namespace Req

open Binary32

/-- `roundU32` of a positive number. -/
def roundUnits (mantissa : ℕ) (exponent : ℤ) : ℕ :=
  min (2 ^ 32 - 1) <|
    match exponent with
    | .ofNat e => mantissa * 2 ^ e
    | .negSucc e => (mantissa + 2 ^ e) / 2 ^ (e + 1)

theorem roundU32_eq {value : Float32} {m : ℕ} {e : ℤ} (h : Represents value m e)
    (hnormal : Normal m e) : roundU32 value = roundUnits m e := by
  rw [roundU32, h.unpack_eq hnormal]
  rfl

/-- The mantissa and the exponent of half of a number. -/
def halfUnits (units : ℕ × ℤ) : ℕ × ℤ := quotient units.1 units.2 (2 ^ 23) (-22)

/-- `nearestEvenSectionSize` of a positive number. -/
def evenUnits (units : ℕ × ℤ) : ℕ :=
  (roundUnits (halfUnits units).1 (halfUnits units).2 <<< 1) % 2 ^ 32

theorem represents_two : Represents 2 (2 ^ 23) (-22) := by decide +kernel

theorem represents_sqrt2 : Represents sqrt2 0xB504F3 (-23) :=
  by decide +kernel

/-- The number and its half are normal, and not too small. -/
def Usable (units : ℕ × ℤ) : Prop :=
  Normal units.1 units.2 ∧ -100 ≤ units.2 ∧ Normal (halfUnits units).1 (halfUnits units).2

instance (units : ℕ × ℤ) : Decidable (Usable units) := inferInstanceAs (Decidable (_ ∧ _))

theorem nearestEvenSectionSize_eq {value : Float32} {units : ℕ × ℤ}
    (h : Represents value units.1 units.2) (husable : Usable units) :
    nearestEvenSectionSize value = evenUnits units := by
  obtain ⟨hnormal, hexponent, hhalf⟩ := husable
  have hdiv := represents_div h represents_two hnormal (by decide) (by omega)
  rw [nearestEvenSectionSize, roundU32_eq hdiv hhalf]
  rfl

/-! ## The schedule -/

/-- The raw size of sections after some doublings. -/
def rawSize (k : ℕ) : ℕ → Float32
  | 0 => .ofNat k
  | doublings + 1 => rawSize k doublings / sqrt2

/-- The size of sections after some doublings. -/
def sectionSize (k doublings : ℕ) : ℕ := nearestEvenSectionSize (rawSize k doublings)

/-- The mantissa and the exponent of the raw size. -/
def scheduleUnits (k : ℕ) : ℕ → ℕ × ℤ
  | 0 => (k <<< (23 - k.log2), k.log2 - 23)
  | doublings + 1 =>
      quotient (scheduleUnits k doublings).1 (scheduleUnits k doublings).2 0xB504F3 (-23)

/-- What the check of a step of the schedule finds. -/
def stepFits (k : ℕ) (units next : ℕ × ℤ) : Bool :=
  decide (Usable units) && Nat.ble (evenUnits units) k &&
    (Nat.blt (evenUnits next) minK || Nat.ble (evenUnits units) (2 * evenUnits next))

/-- The check of the schedule from a raw size on. -/
def scheduleFits (k : ℕ) : ℕ → ℕ × ℤ → Bool
  | 0, units => stepFits k units units
  | doublings + 1, units =>
      let next := quotient units.1 units.2 0xB504F3 (-23)
      stepFits k units next && scheduleFits k doublings next

set_option maxRecDepth 10000 in
theorem scheduleFits_table :
    ((List.range 511).all fun i ↦ scheduleFits (2 * i + 4) 6 (scheduleUnits (2 * i + 4) 0)) = true := by
  decide +kernel

/-- The check of the first raw size. -/
def startFits (k : ℕ) : Bool :=
  decide (Represents (.ofNat k) (scheduleUnits k 0).1 (scheduleUnits k 0).2) &&
    Nat.beq (evenUnits (scheduleUnits k 0)) k

set_option maxRecDepth 10000 in
theorem startFits_table : ((List.range 511).all fun i ↦ startFits (2 * i + 4)) = true := by
  decide +kernel

/-- What the check has found for the raw size after some doublings. -/
structure Fits (k doublings : ℕ) : Prop where
  represents : Represents (rawSize k doublings) (scheduleUnits k doublings).1
    (scheduleUnits k doublings).2
  usable : Usable (scheduleUnits k doublings)
  evenUnits_le : evenUnits (scheduleUnits k doublings) ≤ k

theorem stepFits_spec {k : ℕ} {units next : ℕ × ℤ} (h : stepFits k units next = true) :
    Usable units ∧ evenUnits units ≤ k ∧
      (minK ≤ evenUnits next → evenUnits units ≤ 2 * evenUnits next) := by
  rw [stepFits, Bool.and_eq_true, Bool.and_eq_true, Bool.or_eq_true] at h
  obtain ⟨⟨husable, hle⟩, hhalf⟩ := h
  refine ⟨of_decide_eq_true husable, Nat.le_of_ble_eq_true hle, fun hmin ↦ ?_⟩
  rcases hhalf with hsmall | hhalf
  · exact absurd (Nat.blt_eq.mp hsmall) (not_lt.mpr hmin)
  · exact Nat.le_of_ble_eq_true hhalf

theorem scheduleFits_step {k doublings : ℕ} {units : ℕ × ℤ}
    (h : scheduleFits k doublings units = true) : ∃ next, stepFits k units next = true := by
  cases doublings with
  | zero => exact ⟨units, h⟩
  | succ doublings => exact ⟨_, (Bool.and_eq_true_iff.mp h).1⟩

variable {k doublings : ℕ}

theorem fits_zero (hk : ValidK k) :
    scheduleFits k 6 (scheduleUnits k 0) = true ∧
      Represents (rawSize k 0) (scheduleUnits k 0).1 (scheduleUnits k 0).2 ∧
        evenUnits (scheduleUnits k 0) = k := by
  obtain ⟨hmin, hmax, heven⟩ := hk
  rw [minK] at hmin
  rw [maxK] at hmax
  have hmem : (k - 4) / 2 ∈ List.range 511 := List.mem_range.mpr (by omega)
  have hfits := List.all_eq_true.mp scheduleFits_table _ hmem
  have hstart := List.all_eq_true.mp startFits_table _ hmem
  rw [show 2 * ((k - 4) / 2) + 4 = k by omega] at hfits hstart
  obtain ⟨hrepresents, hsize⟩ := Bool.and_eq_true_iff.mp hstart
  exact ⟨hfits, of_decide_eq_true hrepresents, Nat.eq_of_beq_eq_true hsize⟩

/-- The schedule fits after at most six doublings. -/
theorem scheduleFits_of_le (hk : ValidK k) (hle : doublings ≤ 6) :
    scheduleFits k (6 - doublings) (scheduleUnits k doublings) = true ∧
      Represents (rawSize k doublings) (scheduleUnits k doublings).1 (scheduleUnits k doublings).2 := by
  induction doublings with
  | zero =>
      obtain ⟨hfits, hrepresents, -⟩ := fits_zero hk
      exact ⟨hfits, hrepresents⟩
  | succ doublings ih =>
      obtain ⟨hfits, hrepresents⟩ := ih (by omega)
      rw [show 6 - doublings = 6 - (doublings + 1) + 1 by omega] at hfits
      obtain ⟨hstep, hnext⟩ := Bool.and_eq_true_iff.mp hfits
      refine ⟨hnext, ?_⟩
      obtain ⟨husable, -, -⟩ := stepFits_spec hstep
      have hexponent := husable.2.1
      exact represents_div hrepresents represents_sqrt2 husable.1 (by decide) (by omega)

theorem fits_of_le (hk : ValidK k) (hle : doublings ≤ 6) : Fits k doublings := by
  obtain ⟨hfits, hrepresents⟩ := scheduleFits_of_le hk hle
  obtain ⟨next, hstep⟩ := scheduleFits_step hfits
  obtain ⟨husable, hsize, -⟩ := stepFits_spec hstep
  exact ⟨hrepresents, husable, hsize⟩

theorem sectionSize_eq (hk : ValidK k) (hle : doublings ≤ 6) :
    sectionSize k doublings = evenUnits (scheduleUnits k doublings) :=
  nearestEvenSectionSize_eq (fits_of_le hk hle).represents (fits_of_le hk hle).usable

/-- The sections of a new compactor have the size `k`. -/
theorem nearestEvenSectionSize_ofNat (hk : ValidK k) : nearestEvenSectionSize (.ofNat k) = k := by
  obtain ⟨-, -, hsize⟩ := fits_zero hk
  exact (sectionSize_eq hk (Nat.zero_le 6)).trans hsize

/-- Sections are never larger than the first ones. -/
theorem sectionSize_le (hk : ValidK k) (hle : doublings ≤ 6) : sectionSize k doublings ≤ k :=
  (sectionSize_eq hk hle).trans_le (fits_of_le hk hle).evenUnits_le

/-- A doubling that makes sections of a size that can be used keeps half of their size. -/
theorem sectionSize_le_two_mul (hk : ValidK k) (hle : doublings < 6)
    (hmin : minK ≤ sectionSize k (doublings + 1)) :
    sectionSize k doublings ≤ 2 * sectionSize k (doublings + 1) := by
  rw [sectionSize_eq hk hle] at hmin ⊢
  rw [sectionSize_eq hk hle.le]
  obtain ⟨hfits, -⟩ := scheduleFits_of_le hk hle.le
  rw [show 6 - doublings = 6 - (doublings + 1) + 1 by omega] at hfits
  obtain ⟨-, -, hhalf⟩ := stepFits_spec (Bool.and_eq_true_iff.mp hfits).1
  exact hhalf hmin

end Req

end DataSketches
