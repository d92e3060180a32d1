import DataSketches.ThetaFamily.EntrySketch

/-!
# The hash table of the Tuple sketch

The table of the Tuple update sketch retains a summary beside each hash.  A
summary is created with the first value given for its hash and updated with all
later ones: since theta never rises, a hash that is retained was never screened
out, and it was never retained before it was inserted.
-/

namespace DataSketches

open Selection Runs

/-- Defines how summaries are created, and how values are folded into them. -/
structure SummaryUpdatePolicy (S U : Type) where
  create : S
  update : S → U → S

namespace TupleEntry

variable {S : Type}

/-- Creates an entry from a hash known to be non-zero. -/
def new (hash : ℕ) (summary : S) : Checked (TupleEntry S) :=
  if h : hash ≠ 0 then .ok ⟨hash, h, summary⟩ else .error (.expect "hash must be non-zero")

theorem new_of_ne_zero {hash : ℕ} (h : hash ≠ 0) (summary : S) :
    new hash summary = .ok ⟨hash, h, summary⟩ := dif_pos h

theorem hash_pos (e : TupleEntry S) : 0 < SketchEntry.hash e := Nat.pos_of_ne_zero e.ne_zero

end TupleEntry

abbrev TupleHashTable (S : Type) := SketchHashTable (TupleEntry S)

namespace TupleHashTable

variable {S : Type}

/-- Inserts or updates the summary slot for a pre-hashed key, with the two effects of the callback:
`onExisting` changes a retained summary, `onNew` is the summary of a new key, if any. -/
def tryInsertHash (t : TupleHashTable S) (hash : ℕ) (onExisting : S → S) (onNew : Option S) :
    Checked (TupleHashTable S × Bool) :=
  t.upsertEntry hash (fun e ↦ { e with summary := onExisting e.summary })
    (onNew.bind fun summary ↦ (TupleEntry.new hash summary).toOption)

end TupleHashTable

namespace Tuple

open SketchHashTable TupleHashTable

/-! ## Runs of the update sketch -/

/-- What can be done to an update sketch. -/
inductive Op (U : Type) where
  /-- Update with a key of the given hash, and a value. -/
  | update (hash : ℕ) (value : U)
  | trim
  | reset
deriving DecidableEq

variable {S U : Type} (policy : SummaryUpdatePolicy S U)

/-- Updates the sketch with a key and a value accepted by the policy. -/
def update (t : TupleHashTable S) (hash : ℕ) (value : U) : Checked (TupleHashTable S) :=
  Prod.fst <$> t.tryInsertHash hash (policy.update · value)
    (some (policy.update policy.create value))

def step (t : TupleHashTable S) : Op U → Checked (TupleHashTable S)
  | .update hash value => update policy t hash value
  | .trim => t.trim
  | .reset => .ok t.reset

/-- The hashes and values given since the creation or the last reset, in stream order. -/
def stream (ops : List (Op U)) : List (ℕ × U) :=
  ops.foldl (fun vs op ↦ match op with
    | .update hash value => vs ++ [(hash, value)]
    | .trim => vs
    | .reset => []) []

/-- The hashes given. -/
def fed (ops : List (Op U)) : Finset ℕ := ((stream ops).map Prod.fst).toFinset

/-- The values given for a hash, in stream order. -/
def valuesOf (ops : List (Op U)) (hash : ℕ) : List U :=
  ((stream ops).filter (·.1 = hash)).map Prod.snd

/-- The summary of a hash: all its values, folded into a new summary. -/
def summaryOf (ops : List (Op U)) (hash : ℕ) : S :=
  (valuesOf ops hash).foldl policy.update policy.create

/-- The invariant of a run. -/
structure RunInv (lgK : ℕ) (p : ℚ) (ops : List (Op U)) (t : TupleHashTable S) :
    Prop extends Inv t where
  lgNomSize_eq : t.lgNomSize = lgK
  samplingProbability_eq : t.samplingProbability = p
  samples : Samples t (startingThetaFromSamplingProbability p) ((fed ops).erase 0)
  stream_of_isEmpty : t.isEmpty = true → stream ops = []
  summaries : ∀ e ∈ t.retained, e.summary = summaryOf policy ops (SketchEntry.hash e)

variable {policy} {lgK : ℕ} {p : ℚ} {ops : List (Op U)} {t : TupleHashTable S}

theorem stream_concat (ops : List (Op U)) (op : Op U) :
    stream (ops ++ [op]) = match op with
      | .update hash value => stream ops ++ [(hash, value)]
      | .trim => stream ops
      | .reset => [] := by
  rw [stream, List.foldl_append]
  rfl

theorem fed_update (ops : List (Op U)) (hash : ℕ) (value : U) :
    fed (ops ++ [.update hash value]) = insert hash (fed ops) := by
  rw [fed, stream_concat, List.map_append, List.toFinset_append, Finset.union_comm]
  rfl

/-- An update folds its value into the summary of its hash, -/
theorem summaryOf_update_self (ops : List (Op U)) (hash : ℕ) (value : U) :
    summaryOf policy (ops ++ [.update hash value]) hash =
      policy.update (summaryOf policy ops hash) value := by
  have hvalues : valuesOf (ops ++ [.update hash value]) hash = valuesOf ops hash ++ [value] := by
    simp [valuesOf, stream_concat]
  rw [summaryOf, hvalues, List.foldl_append]
  rfl

/-- and leaves the summaries of the other hashes. -/
theorem summaryOf_update_of_ne (ops : List (Op U)) {hash x : ℕ} (value : U) (h : x ≠ hash) :
    summaryOf policy (ops ++ [.update hash value]) x = summaryOf policy ops x := by
  have hvalues : valuesOf (ops ++ [.update hash value]) x = valuesOf ops x := by
    simp [valuesOf, stream_concat, Ne.symm h]
  rw [summaryOf, hvalues, summaryOf]

/-- A hash that was never given has a new summary. -/
theorem summaryOf_of_notMem {x : ℕ} (h : x ∉ fed ops) : summaryOf policy ops x = policy.create := by
  have hnil : valuesOf ops x = [] := by
    rw [valuesOf, List.map_eq_nil_iff, List.filter_eq_nil_iff]
    rintro ⟨y, v⟩ hmem heq
    exact h (List.mem_toFinset.mpr (List.mem_map.mpr ⟨(y, v), hmem, of_decide_eq_true heq⟩))
  rw [summaryOf, hnil]
  rfl

/-- A new sketch has been given nothing. -/
theorem runInv_of_new (ht : Inv t) (hentries : t.iterEntries = [])
    (htheta : t.theta = startingThetaFromSamplingProbability p) (hlg : t.lgNomSize = lgK)
    (hp : t.samplingProbability = p) (hstream : stream ops = []) : RunInv policy lgK p ops t := by
  refine ⟨ht, hlg, hp, ?_, fun _ ↦ hstream, fun e he ↦ ?_⟩
  · have hhashes : t.hashes = ∅ := by rw [hashes, hentries]; rfl
    rw [Samples, fed, hstream, hhashes, htheta]
    exact KMin.empty _ _
  · rw [retained, hentries] at he
    exact absurd he (Multiset.notMem_zero e)

/-- The retained hashes are those given, below theta. -/
theorem RunInv.mem_hashes_iff (h : RunInv policy lgK p ops t) {x : ℕ} :
    x ∈ t.hashes ↔ x ∈ fed ops ∧ x ≠ 0 ∧ x < t.theta := by
  rw [h.samples.mem_iff, Finset.mem_erase, and_comm (a := x ≠ 0), and_assoc]

/-- A summary that an update changes in place, or inserts, has seen all values of its hash. -/
theorem RunInv.summaries_of_outcome (h : RunInv policy lgK p ops t) {t' : TupleHashTable S}
    {hash : ℕ} {value : U} {b : Bool} (hout : UpsertOutcome t hash
      (fun e ↦ { e with summary := policy.update e.summary value })
      ((some (policy.update policy.create value)).bind fun s ↦ (TupleEntry.new hash s).toOption) t' b) :
    ∀ e ∈ t'.retained,
      e.summary = summaryOf policy (ops ++ [.update hash value]) (SketchEntry.hash e) := by
  -- An entry of another hash was not touched.
  have hother : ∀ e ∈ t.retained, SketchEntry.hash e ≠ hash →
      e.summary = summaryOf policy (ops ++ [.update hash value]) (SketchEntry.hash e) := by
    intro e he hne
    rw [summaryOf_update_of_ne _ _ hne]
    exact h.summaries e he
  have hnew : ∀ e, ((some (policy.update policy.create value)).bind fun s ↦
      (TupleEntry.new hash s).toOption) = some e → 0 < hash ∧ hash < t.theta → hash ∉ t.hashes →
        e.summary = summaryOf policy (ops ++ [.update hash value]) (SketchEntry.hash e) := by
    intro e he hrange hnotin
    rw [Option.bind_some, TupleEntry.new_of_ne_zero hrange.1.ne'] at he
    cases he
    have hunfed : hash ∉ fed ops := fun hfed ↦
      hnotin (h.mem_hashes_iff.mpr ⟨hfed, hrange.1.ne', hrange.2⟩)
    change _ = summaryOf policy (ops ++ [.update hash value]) hash
    rw [summaryOf_update_self, summaryOf_of_notMem hunfed]
  have hapart : ∀ e ∈ t.retained, hash ∉ t.hashes → SketchEntry.hash e ≠ hash :=
    fun e he hnotin heq ↦ hnotin (mem_hashes.mpr ⟨e, he, heq⟩)
  intro e he
  cases hout with
  | screened hs hret _ =>
      rw [hret] at he
      have hbelow := h.below e he
      exact hother e he (by omega)
  | declined hrange _ hnone _ _ =>
      rw [Option.bind_some, TupleEntry.new_of_ne_zero hrange.1.ne'] at hnone
      cases hnone
  | existing e₀ hrange hmem hkey hret _ =>
      -- The entry is the changed one, or one of the others.
      obtain ⟨rest, hrest⟩ := Multiset.exists_cons_of_mem hmem
      have hret' : t'.retained = { e₀ with summary := policy.update e₀.summary value } ::ₘ rest := by
        rw [hrest, Multiset.cons_swap] at hret
        exact (Multiset.cons_inj_right _).mp hret
      rw [hret'] at he
      rcases Multiset.mem_cons.mp he with rfl | he
      · have hsum := h.summaries e₀ hmem
        change policy.update e₀.summary value = summaryOf policy _ (SketchEntry.hash e₀)
        rw [hkey] at hsum ⊢
        rw [summaryOf_update_self, hsum]
      · refine hother e (hrest ▸ Multiset.mem_cons_of_mem he) fun heq ↦ ?_
        have hnd : (t.retained.map SketchEntry.hash).Nodup := h.nodup_hashes
        rw [hrest, Multiset.map_cons, Multiset.nodup_cons] at hnd
        exact hnd.1 (by rw [hkey, ← heq]; exact Multiset.mem_map_of_mem _ he)
  | inserted e₁ hrange hnotin hsome hret _ =>
      rw [hret] at he
      rcases Multiset.mem_cons.mp he with rfl | he
      · exact hnew e hsome hrange hnotin
      · exact hother e he (hapart e he hnotin)
  | rebuilt e₁ hrange hnotin hsome hret _ _ _ =>
      rw [hret] at he
      rcases Multiset.mem_cons.mp (Multiset.mem_of_mem_filter he) with rfl | he
      · exact hnew e hsome hrange hnotin
      · exact hother e he (hapart e he hnotin)

/-- An update succeeds, samples its hash and folds its value into its summary. -/
theorem update_spec (h : RunInv policy lgK p ops t) (hash : ℕ) (value : U) :
    ∃ t', update policy t hash value = .ok t' ∧
      RunInv policy lgK p (ops ++ [.update hash value]) t' := by
  have hnew : ∀ e, ((some (policy.update policy.create value)).bind fun s ↦
      (TupleEntry.new hash s).toOption) = some e → SketchEntry.hash e = hash := by
    intro e he
    rw [Option.bind_some] at he
    by_cases hz : hash ≠ 0
    · rw [TupleEntry.new_of_ne_zero hz] at he
      cases he
      rfl
    · rw [TupleEntry.new, dif_neg hz] at he
      cases he
  obtain ⟨t', b, hok, hinv, hcfg, hempty, hout⟩ := upsertEntry_spec h.toInv hash
    (fun e ↦ { e with summary := policy.update e.summary value })
    ((some (policy.update policy.create value)).bind fun s ↦ (TupleEntry.new hash s).toOption)
    (fun _ ↦ rfl) hnew
  refine ⟨t', ?_, hinv, hcfg.lgNomSize_eq.trans h.lgNomSize_eq,
    hcfg.samplingProbability_eq.trans h.samplingProbability_eq, ?_, fun he ↦ ?_,
    h.summaries_of_outcome hout⟩
  · rw [update, tryInsertHash, hok]
    rfl
  · rw [fed_update]
    by_cases hz : hash = 0
    · have hsame : t'.retained = t.retained ∧ t'.theta = t.theta := by
        cases hout with
        | screened _ hret htheta => exact ⟨hret, htheta⟩
        | existing _ h | declined h | inserted _ h | rebuilt _ h => exact absurd hz h.1.ne'
      subst hz
      rw [Finset.erase_insert_eq_erase, Samples, hcfg.lgNomSize_eq, hsame.2, hashes_eq, hsame.1,
        ← hashes_eq]
      exact h.samples
    · rw [Option.bind_some, TupleEntry.new_of_ne_zero hz] at hout
      rw [Finset.erase_insert_of_ne hz]
      exact hout.samples hcfg (fun _ ↦ rfl) rfl hz h.samples
  · rw [hempty] at he
    cases he

/-- One step succeeds and keeps the invariant. -/
theorem step_spec (hmin : minLgK ≤ lgK) (h : RunInv policy lgK p ops t) (op : Op U) :
    ∃ t', step policy t op = .ok t' ∧ RunInv policy lgK p (ops ++ [op]) t' := by
  cases op with
  | update hash value => exact update_spec h hash value
  | trim =>
      have hstream : stream (ops ++ [.trim]) = stream ops := stream_concat ops .trim
      obtain ⟨t₁, hok₁, -, -, -, hsub, hcase⟩ := trim_spec h.toInv
      obtain ⟨t', hok, hinv, hcfg, hempty, hs, -⟩ := trim_samples h.toInv h.samples
      obtain rfl : t₁ = t' := Except.ok.inj (hok₁.symm.trans hok)
      refine ⟨t₁, hok, hinv, hcfg.lgNomSize_eq.trans h.lgNomSize_eq,
        hcfg.samplingProbability_eq.trans h.samplingProbability_eq, ?_, ?_, fun e he ↦ ?_⟩
      · rw [fed, hstream]
        exact hs
      · rw [hstream, hempty]
        exact h.stream_of_isEmpty
      · have hmem : e ∈ t.retained := by
          rcases hcase with ⟨-, rfl⟩ | ⟨-, -, hret⟩
          · exact he
          · rw [hret] at he
            exact Multiset.mem_of_mem_filter he
        rw [summaryOf, valuesOf, hstream]
        exact h.summaries e hmem
  | reset =>
      have hlg : minLgK ≤ t.lgNomSize + 1 := by
        rw [h.lgNomSize_eq]
        exact hmin.trans (Nat.le_succ lgK)
      obtain ⟨t₀, hok, hinv, hentries, htheta, hlg₀, -, hp₀, -⟩ :=
        new_spec (E := TupleEntry S) hlg t.resizeFactor t.samplingProbability t.seed
      rw [new_eq_reset h.lgMaxSize_eq hlg] at hok
      cases hok
      exact ⟨t.reset, rfl, runInv_of_new hinv hentries
        (htheta.trans (congrArg _ h.samplingProbability_eq)) (hlg₀.trans h.lgNomSize_eq)
        (hp₀.trans h.samplingProbability_eq) (stream_concat ops .reset)⟩

/-- Every run succeeds and keeps the invariant. -/
theorem run_spec (policy : SummaryUpdatePolicy S U) (hmin : minLgK ≤ lgK) (rf : ResizeFactor) (p : ℚ)
    (seed : UInt64) (ops : List (Op U)) :
    ∃ t₀ t, SketchHashTable.new lgK rf p seed = .ok t₀ ∧ run (step policy) t₀ ops = .ok t ∧
      RunInv policy lgK p ops t := by
  obtain ⟨t₀, hok, hinv, hentries, htheta, hlg, -, hp, -⟩ :=
    new_spec (E := TupleEntry S) (hmin.trans (Nat.le_succ lgK)) rf p seed
  obtain ⟨t, hrun, ht⟩ := run_total (I := RunInv policy lgK p)
    (runInv_of_new hinv hentries htheta hlg hp rfl) (fun ops op t h ↦ step_spec hmin h op) ops
  exact ⟨t₀, t, hok, hrun, ht⟩

/-- A sketch flagged empty retains nothing. -/
theorem RunInv.entries_of_isEmpty (h : RunInv policy lgK p ops t) (hempty : t.isEmpty = true) :
    t.iterEntries = [] := by
  refine List.eq_nil_iff_forall_not_mem.mpr fun e he ↦ ?_
  have hfed := (h.mem_hashes_iff.mp (mem_hashes.mpr ⟨e, he, rfl⟩)).1
  rw [fed, h.stream_of_isEmpty hempty] at hfed
  exact absurd hfed (Finset.notMem_empty _)

end Tuple

end DataSketches
