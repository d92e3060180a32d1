import DataSketches.ThetaFamily.EntrySketch

/-!
# The hash table of the Theta sketch

The table of the Theta update sketch retains bare hashes.  Whatever is done to
it since its creation or its last reset, it is a bottom-`k` sample of the hashes
fed to it (`Theta.SampleOf`), and trimming makes that sample canonical
(`Theta.Canonical`).
-/

namespace DataSketches

open Selection Runs

abbrev ThetaHashTable := SketchHashTable ThetaEntry

namespace ThetaHashTable

/-- Inserts a pre-hashed value into the table.  The callback builds its entry only for a
hash that passed the screening, so never for zero. -/
def tryInsertHash (t : ThetaHashTable) (hash : ℕ) : Checked (ThetaHashTable × Bool) :=
  t.upsertEntry hash id (ThetaEntry.new hash).toOption

end ThetaHashTable

namespace Theta

open SketchHashTable ThetaHashTable

/-! ## Runs of the update sketch -/

/-- What can be done to an update sketch. -/
inductive Op where
  /-- Feed a hash. -/
  | update (hash : ℕ)
  | trim
  | reset
deriving DecidableEq

def step (t : ThetaHashTable) : Op → Checked ThetaHashTable
  | .update hash => Prod.fst <$> t.tryInsertHash hash
  | .trim => t.trim
  | .reset => .ok t.reset

/-- The hashes fed since the creation or the last reset. -/
def fed (ops : List Op) : Finset ℕ :=
  ops.foldl (fun s op ↦ match op with
    | .update hash => insert hash s
    | .trim => s
    | .reset => ∅) ∅

/-- The hashes that can be retained: zero is not one. -/
def eligible (ops : List Op) : Finset ℕ := (fed ops).erase 0

/-- `t` retains the hashes in `s` below its theta, once each, and theta was lowered only to
a hash in `s` and only with `k` hashes retained. -/
structure SampleOf (k start : ℕ) (s : Finset ℕ) (t : ThetaHashTable) : Prop where
  mem_iff : ∀ x, (∃ e ∈ t.iterEntries, e.hash = x) ↔ x ∈ s ∧ x ≠ 0 ∧ x < t.theta
  nodup : (t.iterEntries.map ThetaEntry.hash).Nodup
  numRetained_eq : t.numRetained = t.iterEntries.length
  theta_le : t.theta ≤ start
  le_numRetained : t.theta < start → k ≤ t.numRetained
  theta_mem : t.theta < start → t.theta ∈ s

/-- The retained set and theta of a trimmed table, from the hashes fed to it. -/
structure Canonical (k start : ℕ) (s : Finset ℕ) (t : ThetaHashTable) : Prop where
  /-- At most `k` hashes below the starting theta are all retained. -/
  of_le : ((s.erase 0).filter (· < start)).card ≤ k →
    t.theta = start ∧ t.hashes = (s.erase 0).filter (· < start)
  /-- Of more than `k` hashes the `k` smallest are retained, and theta is the next one. -/
  of_gt : k < ((s.erase 0).filter (· < start)).card →
    IsRank ((s.erase 0).filter (· < start)) k t.theta ∧
      t.hashes = ((s.erase 0).filter (· < start)).filter (· < t.theta) ∧ t.hashes.card = k

/-- The invariant of a run. -/
structure RunInv (lgK : ℕ) (p : ℚ) (ops : List Op) (t : ThetaHashTable) : Prop extends Inv t where
  lgNomSize_eq : t.lgNomSize = lgK
  samplingProbability_eq : t.samplingProbability = p
  samples : Samples t (startingThetaFromSamplingProbability p) (eligible ops)
  fed_of_isEmpty : t.isEmpty = true → fed ops = ∅

variable {lgK : ℕ} {p : ℚ} {ops : List Op} {t : ThetaHashTable}

theorem fed_concat (ops : List Op) (op : Op) :
    fed (ops ++ [op]) = match op with
      | .update hash => insert hash (fed ops)
      | .trim => fed ops
      | .reset => ∅ := by
  rw [fed, List.foldl_append]
  rfl

/-- A new sketch has been fed nothing. -/
theorem runInv_of_new (ht : Inv t) (hentries : t.iterEntries = [])
    (htheta : t.theta = startingThetaFromSamplingProbability p) (hlg : t.lgNomSize = lgK)
    (hp : t.samplingProbability = p) (hfed : fed ops = ∅) : RunInv lgK p ops t := by
  refine ⟨ht, hlg, hp, ?_, fun _ ↦ hfed⟩
  have hhashes : t.hashes = ∅ := by rw [hashes, hentries]; rfl
  rw [Samples, eligible, hfed, hhashes, htheta]
  exact KMin.empty _ _

/-- Feeding a hash succeeds and adds it to the sampled set. -/
theorem tryInsertHash_spec (h : RunInv lgK p ops t) (hash : ℕ) :
    ∃ t' b, t.tryInsertHash hash = .ok (t', b) ∧ RunInv lgK p (ops ++ [.update hash]) t' := by
  have hnew : ∀ e, (ThetaEntry.new hash).toOption = some e → SketchEntry.hash e = hash := by
    intro e he
    by_cases hz : hash ≠ 0
    · rw [ThetaEntry.new_of_ne_zero hz] at he
      cases he
      rfl
    · rw [ThetaEntry.new, dif_neg hz] at he
      cases he
  obtain ⟨t', b, hok, hinv, hcfg, hempty, hout⟩ :=
    upsertEntry_spec h.toInv hash id _ (fun _ ↦ rfl) hnew
  refine ⟨t', b, hok, hinv, hcfg.lgNomSize_eq.trans h.lgNomSize_eq,
    hcfg.samplingProbability_eq.trans h.samplingProbability_eq, ?_, fun he ↦ ?_⟩
  · rw [eligible, fed_concat]
    by_cases hz : hash = 0
    · have hsame : t'.retained = t.retained ∧ t'.theta = t.theta := by
        cases hout with
        | screened _ hret htheta => exact ⟨hret, htheta⟩
        | existing _ h | declined h | inserted _ h | rebuilt _ h => exact absurd hz h.1.ne'
      subst hz
      rw [Finset.erase_insert_eq_erase, Samples, hcfg.lgNomSize_eq, hsame.2, hashes_eq, hsame.1,
        ← hashes_eq]
      exact h.samples
    · rw [ThetaEntry.new_of_ne_zero hz] at hout
      rw [Finset.erase_insert_of_ne hz]
      exact hout.samples hcfg (fun _ ↦ rfl) rfl hz h.samples
  · rw [hempty] at he
    cases he

/-- One step succeeds and keeps the invariant. -/
theorem step_spec (hmin : minLgK ≤ lgK) (h : RunInv lgK p ops t) (op : Op) :
    ∃ t', step t op = .ok t' ∧ RunInv lgK p (ops ++ [op]) t' := by
  cases op with
  | update hash =>
      obtain ⟨t', b, hok, hinv⟩ := tryInsertHash_spec h hash
      exact ⟨t', by rw [step, hok]; rfl, hinv⟩
  | trim =>
      obtain ⟨t', hok, hinv, hcfg, hempty, hs, -⟩ := trim_samples h.toInv h.samples
      refine ⟨t', hok, hinv, hcfg.lgNomSize_eq.trans h.lgNomSize_eq,
        hcfg.samplingProbability_eq.trans h.samplingProbability_eq, ?_, ?_⟩
      · rw [eligible, fed_concat]
        exact hs
      · rw [fed_concat, hempty]
        exact h.fed_of_isEmpty
  | reset =>
      have hlg : minLgK ≤ t.lgNomSize + 1 := by
        rw [h.lgNomSize_eq]
        exact hmin.trans (Nat.le_succ lgK)
      obtain ⟨t₀, hok, hinv, hentries, htheta, hlg₀, -, hp₀, -⟩ :=
        new_spec (E := ThetaEntry) hlg t.resizeFactor t.samplingProbability t.seed
      rw [new_eq_reset h.lgMaxSize_eq hlg] at hok
      cases hok
      exact ⟨t.reset, rfl, runInv_of_new hinv hentries
        (htheta.trans (congrArg _ h.samplingProbability_eq)) (hlg₀.trans h.lgNomSize_eq)
        (hp₀.trans h.samplingProbability_eq) (fed_concat ops .reset)⟩

/-- Every run succeeds and keeps the invariant. -/
theorem run_spec (hmin : minLgK ≤ lgK) (rf : ResizeFactor) (p : ℚ) (seed : UInt64)
    (ops : List Op) :
    ∃ t₀ t, SketchHashTable.new lgK rf p seed = .ok t₀ ∧ run step t₀ ops = .ok t ∧
      RunInv lgK p ops t := by
  obtain ⟨t₀, hok, hinv, hentries, htheta, hlg, -, hp, -⟩ :=
    new_spec (E := ThetaEntry) (hmin.trans (Nat.le_succ lgK)) rf p seed
  obtain ⟨t, hrun, ht⟩ := run_total (I := RunInv lgK p)
    (runInv_of_new hinv hentries htheta hlg hp rfl) (fun ops op t h ↦ step_spec hmin h op) ops
  exact ⟨t₀, t, hok, hrun, ht⟩

/-- A sketch flagged empty retains nothing. -/
theorem RunInv.entries_of_isEmpty (h : RunInv lgK p ops t) (hempty : t.isEmpty = true) :
    t.iterEntries = [] := by
  have hs := h.samples
  rw [eligible, h.fed_of_isEmpty hempty] at hs
  refine List.eq_nil_iff_forall_not_mem.mpr fun e he ↦ ?_
  have hmem := hs.mem_iff.mp (mem_hashes.mpr ⟨e, he, rfl⟩)
  exact absurd hmem.1 (Finset.notMem_empty _)

/-- The invariant says what a table is a sample of. -/
theorem RunInv.sampleOf (h : RunInv lgK p ops t) :
    SampleOf (2 ^ lgK) (startingThetaFromSamplingProbability p) (fed ops) t := by
  have hs := h.samples
  rw [Samples, h.lgNomSize_eq] at hs
  refine ⟨fun x ↦ ?_, h.nodup_hashes, h.numRetained_eq, hs.le_top, fun hlt ↦ ?_, fun hlt ↦ ?_⟩
  · have hmem := (mem_hashes (t := t) (x := x)).symm.trans hs.mem_iff
    rw [eligible, Finset.mem_erase] at hmem
    rw [← and_assoc, and_comm (a := x ∈ fed ops)]
    exact hmem
  · rw [← h.card_hashes]
    exact hs.card_of_lt hlt
  · exact Finset.mem_of_mem_erase (hs.mem_of_lt hlt)

/-- A trimmed table is determined by the hashes fed. -/
theorem RunInv.canonical (h : RunInv lgK p ops t) (hcard : t.hashes.card ≤ 2 ^ lgK) :
    Canonical (2 ^ lgK) (startingThetaFromSamplingProbability p) (fed ops) t := by
  have hs := h.samples
  rw [Samples, h.lgNomSize_eq] at hs
  obtain ⟨hle, hgt⟩ := hs.canonical hcard
  refine ⟨hle, fun hk ↦ ?_⟩
  have hrank := hgt hk
  have hlt : t.theta < startingThetaFromSamplingProbability p := (Finset.mem_filter.mp hrank.mem).2
  refine ⟨hrank, ?_, le_antisymm hcard (hs.card_of_lt hlt)⟩
  rw [hs.eq_filter, Finset.filter_filter]
  exact Finset.filter_congr fun x _ ↦ ⟨fun hx ↦ ⟨hx.trans hlt, hx⟩, And.right⟩

/-- Canonical tables of the same hashes agree. -/
theorem Canonical.unique {k start : ℕ} {s : Finset ℕ} {t t' : ThetaHashTable}
    (h : Canonical k start s t) (h' : Canonical k start s t') :
    t.theta = t'.theta ∧ t.hashes = t'.hashes := by
  rcases le_or_gt ((s.erase 0).filter (· < start)).card k with hle | hgt
  · obtain ⟨htheta, hhashes⟩ := h.of_le hle
    obtain ⟨htheta', hhashes'⟩ := h'.of_le hle
    exact ⟨htheta.trans htheta'.symm, hhashes.trans hhashes'.symm⟩
  · obtain ⟨hrank, hhashes, -⟩ := h.of_gt hgt
    obtain ⟨hrank', hhashes', -⟩ := h'.of_gt hgt
    have htheta := hrank.unique hrank'
    exact ⟨htheta, by rw [hhashes, hhashes', htheta]⟩

/-- After any run the sketch is a sample of the hashes fed since the last reset.  A final
trim makes the sample canonical, so that another run which was fed the same set of hashes,
in another order, with other duplicates, trims and resizes, ends with the same theta and
the same retained hashes. -/
theorem run_trim_canonical (lgK : ℕ) (hlgK : minLgK ≤ lgK ∧ lgK ≤ maxLgK) (rf : ResizeFactor)
    (p : ℚ) (seed : UInt64) (ops : List Op) :
    ∃ t₀ t t', SketchHashTable.new lgK rf p seed = .ok t₀ ∧ run step t₀ ops = .ok t ∧
      SampleOf (2 ^ lgK) (startingThetaFromSamplingProbability p) (fed ops) t ∧
      t.trim = .ok t' ∧
      SampleOf (2 ^ lgK) (startingThetaFromSamplingProbability p) (fed ops) t' ∧
      Canonical (2 ^ lgK) (startingThetaFromSamplingProbability p) (fed ops) t' ∧
      ∀ (rf' : ResizeFactor) (seed' : UInt64) (ops' : List Op), fed ops' = fed ops →
        ∃ u₀ u u', SketchHashTable.new lgK rf' p seed' = .ok u₀ ∧ run step u₀ ops' = .ok u ∧
          u.trim = .ok u' ∧ u'.theta = t'.theta ∧ u'.retained = t'.retained := by
  have htrim : ∀ (rf : ResizeFactor) (seed : UInt64) (ops : List Op),
      ∃ t₀ t t', SketchHashTable.new lgK rf p seed = .ok t₀ ∧ run step t₀ ops = .ok t ∧
        t.trim = .ok t' ∧ RunInv lgK p ops t ∧ RunInv lgK p (ops ++ [.trim]) t' ∧
        Canonical (2 ^ lgK) (startingThetaFromSamplingProbability p) (fed ops) t' := by
    intro rf seed ops
    obtain ⟨t₀, t, hnew, hrun, ht⟩ := run_spec hlgK.1 rf p seed ops
    obtain ⟨t', hok, ht'⟩ := step_spec hlgK.1 ht .trim
    obtain ⟨t'', hok', -, -, -, -, hcard⟩ := trim_samples ht.toInv ht.samples
    obtain rfl : t' = t'' := Except.ok.inj (hok.symm.trans hok')
    have hcan := ht'.canonical (by rw [← ht.lgNomSize_eq]; exact hcard)
    rw [fed_concat] at hcan
    exact ⟨t₀, t, t', hnew, hrun, hok, ht, ht', hcan⟩
  obtain ⟨t₀, t, t', hnew, hrun, hok, ht, ht', hcan⟩ := htrim rf seed ops
  have hsample := ht'.sampleOf
  rw [fed_concat] at hsample
  refine ⟨t₀, t, t', hnew, hrun, ht.sampleOf, hok, hsample, hcan, fun rf' seed' ops' hfed ↦ ?_⟩
  obtain ⟨u₀, u, u', hnewu, hrunu, hoku, -, hu', hcanu⟩ := htrim rf' seed' ops'
  rw [hfed] at hcanu
  obtain ⟨htheta, hhashes⟩ := hcanu.unique hcan
  refine ⟨u₀, u, u', hnewu, hrunu, hoku, htheta, ?_⟩
  have hperm : (u'.iterEntries.map SketchEntry.hash).Perm (t'.iterEntries.map SketchEntry.hash) :=
    (List.perm_ext_iff_of_nodup hu'.nodup_hashes ht'.nodup_hashes).mpr fun x ↦ by
      rw [← List.mem_toFinset, ← List.mem_toFinset]
      exact Finset.ext_iff.mp hhashes x
  exact Multiset.map_injective ThetaEntry.hash_injective (Multiset.coe_eq_coe.mpr hperm)

/-- The smallest nominal size, with a duplicate and a zero. -/
theorem run_trim_canonical_minLgK :
    ∃ t₀ t t' : ThetaHashTable, SketchHashTable.new 5 .x8 1 defaultUpdateSeed = .ok t₀ ∧
      run step t₀ [.update 7, .update 0, .trim, .update 3, .update 7] = .ok t ∧
      t.trim = .ok t' ∧ t'.theta = maxTheta ∧ t'.hashes = {3, 7} := by
  obtain ⟨t₀, t, t', hnew, hrun, -, htrim, -, hcan, -⟩ := run_trim_canonical 5 (by decide) .x8 1
    defaultUpdateSeed [.update 7, .update 0, .trim, .update 3, .update 7]
  have hstart : startingThetaFromSamplingProbability 1 = maxTheta := if_neg (lt_irrefl 1)
  rw [hstart] at hcan
  obtain ⟨htheta, hhashes⟩ := hcan.of_le (by decide)
  exact ⟨t₀, t, t', hnew, hrun, htrim, htheta, hhashes.trans (by decide)⟩

end Theta

end DataSketches
