import Mathlib

/-!
# Parts between which the odds grow

A whole is cut into parts from the left.  Where any two parts next to each other
multiply the odds of what is left of them against what is not, there cannot be many
parts.
-/

namespace Odds

/-- What is below a place, against what is above it. -/
def odds (whole s : ℚ) : ℚ := s / (whole - s)

/-- Any two parts next to each other, except for the last one, multiply the odds. -/
def PairsGrow (g whole : ℚ) : ℚ → List ℚ → Prop
  | s, a :: b :: c :: parts =>
      g * odds whole s ≤ odds whole (s + a + b) ∧ PairsGrow g whole (s + a) (b :: c :: parts)
  | _, _ => True

variable {g whole s : ℚ} {parts : List ℚ}

/-- The odds are below the whole as long as there is one more part. -/
theorem odds_le (h : s + 1 ≤ whole) (hs : 0 ≤ s) : odds whole s ≤ whole := by
  have hpos : 1 ≤ whole - s := by linarith
  exact (div_le_self hs hpos).trans (by linarith)

theorem inv_le_odds (hs : 1 ≤ s) (h : s < whole) : 1 / whole ≤ odds whole s := by
  have hpos : 0 < whole - s := sub_pos.mpr h
  rw [odds, div_le_div_iff₀ (by linarith) hpos]
  nlinarith

theorem length_le_sum (h : ∀ w ∈ parts, (1 : ℚ) ≤ w) : (parts.length : ℚ) ≤ parts.sum := by
  induction parts with
  | nil => exact le_rfl
  | cons w parts ih =>
      have hw := h w List.mem_cons_self
      have hparts := ih fun v hv ↦ h v (List.mem_cons_of_mem _ hv)
      rw [List.length_cons, List.sum_cons, Nat.cast_succ]
      linarith

/-- Pair by pair, the odds grow up to the whole. -/
theorem pow_mul_odds_le (hg : 0 ≤ g) {n : ℕ} (h : PairsGrow g whole s parts)
    (hlen : 2 * n + 1 ≤ parts.length) (hparts : ∀ w ∈ parts, (1 : ℚ) ≤ w) (hs : 0 ≤ s)
    (hsum : s + parts.sum = whole) : g ^ n * odds whole s ≤ whole := by
  induction n generalizing s parts with
  | zero =>
      have hone : (1 : ℚ) ≤ parts.length := by exact_mod_cast hlen
      rw [pow_zero, one_mul]
      exact odds_le (by linarith [length_le_sum hparts]) hs
  | succ n ih =>
      match parts, h, hlen, hparts, hsum with
      | a :: b :: c :: parts, h, hlen, hparts, hsum =>
          obtain ⟨hgrow, hrest⟩ := h
          have ha := hparts a List.mem_cons_self
          have hb := hparts b (List.mem_cons_of_mem _ List.mem_cons_self)
          -- The pairs of what follows the first pair.
          have hnext : PairsGrow g whole (s + a + b) (c :: parts) := by
            cases parts with
            | nil => exact trivial
            | cons d parts => exact hrest.2
          have hlater := ih hnext (by simp only [List.length_cons] at hlen ⊢; omega)
            (fun w hw ↦ hparts w (List.mem_cons_of_mem _ (List.mem_cons_of_mem _ hw)))
            (by linarith) (by rw [← hsum]; simp only [List.sum_cons]; ring)
          calc g ^ (n + 1) * odds whole s = g ^ n * (g * odds whole s) := by ring
            _ ≤ g ^ n * odds whole (s + a + b) :=
              mul_le_mul_of_nonneg_left hgrow (pow_nonneg hg n)
            _ ≤ whole := hlater

/-- Growth by a fraction adds up to a power of two. -/
theorem two_pow_le {δ : ℚ} (hδ : 0 ≤ δ) {N : ℕ} (hN : 1 ≤ N * δ) (m : ℕ) :
    2 ^ m ≤ (1 + δ) ^ (N * m) := by
  have hbase : (2 : ℚ) ≤ (1 + δ) ^ N := by
    have hbernoulli := one_add_mul_le_pow (show -2 ≤ δ by linarith) N
    linarith
  rw [pow_mul]
  exact pow_le_pow_left₀ (by norm_num) hbase m

/-- The number of parts is bounded by the logarithm of the whole. -/
theorem length_lt {δ : ℚ} (hδ : 0 ≤ δ) {N b : ℕ} (hN : 1 ≤ N * δ) (hb : whole < 2 ^ b)
    (h : PairsGrow (1 + δ) whole s parts) (hparts : ∀ w ∈ parts, (1 : ℚ) ≤ w) (hs : 1 ≤ s)
    (hsum : s + parts.sum = whole) : parts.length < 2 * (N * (2 * b)) + 1 := by
  by_contra hmany
  have hlen := not_lt.mp hmany
  have hle := pow_mul_odds_le (by linarith) h hlen hparts (by linarith) hsum
  have hone : (1 : ℚ) ≤ parts.length := by exact_mod_cast (Nat.le_add_left 1 _).trans hlen
  have hlt : s < whole := by linarith [length_le_sum hparts]
  have hwhole : 0 < whole := by linarith
  have hfrom := inv_le_odds hs hlt
  have hpow := two_pow_le hδ hN (2 * b)
  have hbig : 2 ^ (2 * b) * (1 / whole) ≤ whole :=
    (mul_le_mul hpow hfrom (by positivity) (by positivity)).trans hle
  rw [mul_one_div, div_le_iff₀ hwhole, two_mul, pow_add] at hbig
  exact absurd hbig (not_le.mpr (mul_lt_mul'' hb hb hwhole.le hwhole.le))

end Odds
