import DataSketches.Lib.Odds
import DataSketches.TDigest.Run

/-!
# The number of centroids

The scale function of the source keeps neighbours apart that weigh more than a
fraction of what is on either side of them.  So a digest never has many centroids,
however many values it receives.
-/

namespace DataSketches

open Runs FloatFormat StableSort Odds

/-- The scale function, given the natural logarithm. -/
def scaleFunction (ln : ℚ → ℚ) : ScaleFunction :=
  let z (compression n : ℚ) : ℚ := 4 * ln (n / compression) + 24
  ⟨fun q normalizer ↦ q * (1 - q) / normalizer, fun compression n ↦ compression / z compression n⟩

/-- Twice the compression parameter, against which weights are measured, by `z`. -/
def fineness (ln : ℚ → ℚ) (compression n : ℚ) : ℚ := (4 * ln (n / compression) + 24) / compression

/-! ## Centroids that were not merged -/

/-- If two weights are not merged, they multiply the odds. -/
theorem odds_of_not_admits {ln : ℚ → ℚ} {compression whole s w w' : ℚ}
    (hδ : 0 ≤ fineness ln compression whole) (hs : 0 ≤ s) (hw : 0 ≤ w) (hww' : w ≤ w')
    (hlt : s + w' < whole) (h : (scaleFunction ln).admits
      ((scaleFunction ln).normalizer compression whole) whole s w = false) :
    (1 + fineness ln compression whole) * odds whole s ≤ odds whole (s + w') := by
  obtain ⟨δ, hfine⟩ : ∃ δ, fineness ln compression whole = δ := ⟨_, rfl⟩
  have hwhole : 0 < whole := by linarith
  have hmax : ∀ q, (scaleFunction ln).max q ((scaleFunction ln).normalizer compression whole) =
      q * (1 - q) * δ := by
    intro q
    rw [← hfine]
    exact div_div_eq_mul_div _ _ _ |>.trans (mul_div_assoc _ _ _)
  rw [hfine] at hδ ⊢
  rw [ScaleFunction.admits, decide_eq_false_iff_not, not_le] at h
  simp only [hmax] at h
  have htop : 0 < whole - (s + w) := by linarith
  have htop' : 0 < whole - (s + w') := by linarith
  -- What is below the two weights and what is above them bounds the fraction at both ends.
  have hleast : s * (whole - (s + w)) / whole ^ 2 * δ ≤
      min (s / whole * (1 - s / whole) * δ)
        ((s + w) / whole * (1 - (s + w) / whole) * δ) := by
    have hfirst : s / whole * (1 - s / whole) = s * (whole - s) / whole ^ 2 := by field_simp
    have hsecond : (s + w) / whole * (1 - (s + w) / whole) =
        (s + w) * (whole - (s + w)) / whole ^ 2 := by field_simp
    rw [hfirst, hsecond]
    refine le_min ?_ ?_
    · gcongr
      linarith
    · gcongr
      linarith
  have hweight : δ * (s * (whole - (s + w))) ≤ whole * w := by
    have hlt' := (mul_le_mul_of_nonneg_left hleast hwhole.le).trans_lt h
    have hcancel : whole * (s * (whole - (s + w)) / whole ^ 2 * δ) =
        δ * (s * (whole - (s + w))) / whole := by field_simp
    rw [hcancel, div_lt_iff₀ hwhole] at hlt'
    linarith
  have hgrow : (1 + δ) * odds whole s ≤ odds whole (s + w) := by
    rw [odds, odds, ← mul_div_assoc, div_le_div_iff₀ (by linarith) htop]
    linarith
  refine hgrow.trans ?_
  rw [odds, odds]
  gcongr
  linarith

namespace Centroid

variable {M : Type} [FloatFormat M]

/-- The weights of centroids, as parts of a whole. -/
def weights (cs : List (Centroid M)) : List ℚ := cs.map fun c ↦ ((c.weight : ℕ) : ℚ)

theorem sum_weights (cs : List (Centroid M)) : (weights cs).sum = totalWeight cs := by
  induction cs with
  | nil => rfl
  | cons c cs ih =>
      rw [totalWeight_cons, Nat.cast_add, ← ih]
      exact List.sum_cons

theorem one_le_weights (cs : List (Centroid M)) : ∀ w ∈ weights cs, (1 : ℚ) ≤ w := by
  intro w hw
  obtain ⟨c, -, rfl⟩ := List.mem_map.mp hw
  exact_mod_cast c.weight.pos

end Centroid

open Centroid

variable {M : Type} [FloatFormat M] [LawfulFloat M] {ln : ℚ → ℚ} {compression whole : ℚ}

/-- Merging leaves neighbours that multiply the odds. -/
theorem mergeFrom_pairsGrow (hδ : 0 ≤ fineness ln compression whole) {s : ℚ} (hs : 0 ≤ s)
    {last : Centroid M} {rest merged : List (Centroid M)}
    (hlt : totalWeight (last :: rest) < 2 ^ 64) (hsum : s + totalWeight (last :: rest) = whole)
    (hok : mergeFrom (scaleFunction ln) ((scaleFunction ln).normalizer compression whole) whole
      false s last rest = .ok merged) :
    PairsGrow (1 + fineness ln compression whole) whole s (weights merged) ∧
      ∃ m ms, merged = m :: ms ∧ last.weight ≤ m.weight := by
  induction rest generalizing s last merged with
  | nil =>
      cases hok
      exact ⟨trivial, last, [], rfl, le_rfl⟩
  | cons c rest ih =>
      rw [totalWeight_cons, totalWeight_cons] at hlt hsum
      rw [mergeFrom] at hok
      split_ifs at hok with hadd
      · -- The centroid grows.
        obtain ⟨mean, -, hmean⟩ := add_spec (c := last) (d := c) (by omega)
        rw [hmean, ok_bind] at hok
        obtain ⟨hgrow, m, ms, rfl, hle⟩ := ih hs
          (by rw [totalWeight_cons, PNat.add_coe]; omega)
          (by rw [totalWeight_cons, PNat.add_coe, Nat.add_assoc]; exact hsum) hok
        exact ⟨hgrow, m, ms, rfl, (le_of_lt (PNat.lt_add_right _ _)).trans hle⟩
      · obtain ⟨merged', hok', hok⟩ := bind_eq_ok.mp hok
        cases hok
        have hs' : 0 ≤ s + ((last.weight : ℕ) : ℚ) := add_nonneg hs (Nat.cast_nonneg _)
        have hsum' : s + ((last.weight : ℕ) : ℚ) + (totalWeight (c :: rest) : ℚ) = whole := by
          rw [totalWeight_cons, ← hsum]
          push_cast
          ring
        obtain ⟨hgrow, m, ms, rfl, hle⟩ := ih hs' (by rw [totalWeight_cons]; omega) hsum' hok'
        refine ⟨?_, last, m :: ms, rfl, le_rfl⟩
        cases ms with
        | nil => exact trivial
        | cons m' ms =>
            -- The next centroid is not the last one, so it was not added for its weight.
            obtain ⟨_, hok'', htotal, -, -, hlen⟩ := mergeFrom_spec (scaleFunction ln)
              ((scaleFunction ln).normalizer compression whole) whole false
              (s + ((last.weight : ℕ) : ℚ)) (show totalWeight (c :: rest) < 2 ^ 64 by
                rw [totalWeight_cons]; omega)
            cases hok'.symm.trans hok''
            have hrest : rest ≠ [] := by
              rintro rfl
              simp only [List.length_cons, List.length_nil] at hlen
              omega
            have hnot : (scaleFunction ln).admits ((scaleFunction ln).normalizer compression whole)
                whole s (((last.weight : ℕ) : ℚ) + ((c.weight : ℕ) : ℚ)) = false :=
              Bool.eq_false_iff.mpr fun htrue ↦ hadd ⟨rfl, hrest, htrue⟩
            have hm' : (0 : ℚ) < ((m'.weight : ℕ) : ℚ) := by exact_mod_cast m'.weight.pos
            have hms : (0 : ℚ) ≤ (totalWeight ms : ℚ) := Nat.cast_nonneg _
            have hle' : ((c.weight : ℕ) : ℚ) ≤ ((m.weight : ℕ) : ℚ) := by exact_mod_cast hle
            rw [← htotal, totalWeight_cons, totalWeight_cons] at hsum'
            push_cast at hsum'
            have hpair : (1 + fineness ln compression whole) * odds whole s ≤
                odds whole (s + (((last.weight : ℕ) : ℚ) + ((m.weight : ℕ) : ℚ))) :=
              odds_of_not_admits hδ hs (by positivity) (by linarith) (by linarith) hnot
            rw [← add_assoc] at hpair
            exact ⟨hpair, hgrow⟩

/-! ## The bound -/

theorem fineness_nonneg (hln : ∀ x, 1 ≤ x → 0 ≤ ln x) (hcompression : 0 < compression)
    (h : compression ≤ whole) : 24 / compression ≤ fineness ln compression whole := by
  have hratio := hln (whole / compression) ((one_le_div hcompression).mpr h)
  rw [fineness]
  gcongr
  linarith

/-- Compressed centroids are fewer than `2 ^ 21`. -/
theorem length_lt_of_compresses {k : ℕ} {reverse : Bool} {cs compressed : List (Centroid M)}
    (hln : ∀ x, 1 ≤ x → 0 ≤ ln x) (hk : 10 ≤ k ∧ k < 2 ^ 16) (hlt : totalWeight cs < 2 ^ 64)
    (h : TDigestMut.Compresses (scaleFunction ln) k reverse cs compressed) :
    compressed.length < 2 ^ 21 := by
  by_cases hsmall : totalWeight cs < 2 * k
  · have hle := h.length_le.trans (length_le_totalWeight cs)
    omega
  · have hkpos : (0 : ℚ) < k := by exact_mod_cast (show 0 < k by omega)
    have hkle : (k : ℚ) ≤ 65535 := by exact_mod_cast (show k ≤ 65535 by omega)
    have hwhole : (2 * k : ℚ) ≤ totalWeight cs := by exact_mod_cast not_lt.mp hsmall
    have hfine := fineness_nonneg hln (show (0 : ℚ) < 2 * k by linarith) hwhole
    have hδ : 0 ≤ fineness ln (2 * k) (totalWeight cs) := le_trans (by positivity) hfine
    have hN : 1 ≤ ((5462 : ℕ) : ℚ) * fineness ln (2 * k) (totalWeight cs) := by
      have hleast : (24 : ℚ) / 131070 ≤ 24 / (2 * k) :=
        div_le_div_of_nonneg_left (by norm_num) (by linarith) (by linarith)
      push_cast
      linarith
    obtain ⟨first, rest, merged, horder, hmerged, rfl⟩ := h.merged
    have hperm := TDigestMut.perm_mergingOrder reverse cs
    rw [horder] at hperm
    have htotal := totalWeight_perm hperm
    have hlength : (if reverse = true then merged.reverse else merged).length = merged.length := by
      split_ifs
      · exact List.length_reverse
      · rfl
    rw [hlength]
    cases rest with
    | nil =>
        cases hmerged
        exact Nat.one_lt_two_pow (by decide)
    | cons c rest =>
        -- The first centroid stays alone, and the others are parts of what is above it.
        rw [totalWeight_cons] at htotal
        rw [mergeFrom, if_neg fun hadd ↦ absurd hadd.1 (by decide)] at hmerged
        obtain ⟨merged', hok, hmerged⟩ := bind_eq_ok.mp hmerged
        cases hmerged
        have hfirst : (1 : ℚ) ≤ 0 + ((first.weight : ℕ) : ℚ) := by
          rw [zero_add]
          exact_mod_cast first.weight.pos
        have hsum : 0 + ((first.weight : ℕ) : ℚ) + (totalWeight (c :: rest) : ℚ) =
            totalWeight cs := by
          rw [← htotal]
          push_cast
          ring
        obtain ⟨hgrow, -⟩ := mergeFrom_pairsGrow hδ (by linarith) (by omega) hsum hok
        obtain ⟨_, hok', hkept, -⟩ := mergeFrom_spec (scaleFunction ln)
          ((scaleFunction ln).normalizer (2 * k) (totalWeight cs)) (totalWeight cs) false
          (0 + ((first.weight : ℕ) : ℚ)) (show totalWeight (c :: rest) < 2 ^ 64 by omega)
        cases hok.symm.trans hok'
        have hbits : (totalWeight cs : ℚ) < 2 ^ 64 := by exact_mod_cast hlt
        have hparts := Odds.length_lt hδ hN hbits hgrow (one_le_weights merged') hfirst
          (by rw [sum_weights, hkept, hsum])
        rw [weights, List.length_map] at hparts
        rw [List.length_cons]
        omega

namespace TDigestMut

/-- So are those of any digest. -/
theorem kept_bounded (hln : ∀ x, 1 ≤ x → 0 ≤ ln x) : Kept (scaleFunction ln)
    fun _ (d : TDigestMut M) ↦ d.buffer.compressed.length < 2 ^ 21 := by
  have hfrom : ∀ {d d' : TDigestMut M} {cs : List (Centroid M)}, d.Shape →
      Centroid.totalWeight cs < 2 ^ 64 → CompressedFrom (scaleFunction ln) d cs d' →
        d'.buffer.compressed.length < 2 ^ 21 := by
    rintro d d' cs h hlt ⟨first, last, compressed, -, -, hc, rfl⟩
    rw [compressedTo, TDigestBuffer.compressed_centroids_zero]
    exact length_lt_of_compresses hln h.k_range hlt hc
  constructor
  case new =>
    intro d _ hnil
    rw [(List.append_eq_nil_iff.mp hnil).2]
    exact Nat.two_pow_pos 21
  case push =>
    intro vs d hd h _ value
    rw [pushed, TDigestBuffer.compressed_push hd.fits]
    exact h
  case compress =>
    intro vs d d' hd hlt _ hfrom'
    exact hfrom hd hlt hfrom'
  case merge =>
    intro vs ws d other d' hd _ hlt _ _ _ hfrom'
    exact hfrom hd (by rwa [totalWeight_mergedContents]) hfrom'
  case same =>
    intro vs d e _ h hsame _
    rw [hsame.compressed_eq]
    exact h

end TDigestMut

end DataSketches
