import DataSketches.ThetaFamily.Tuple.Sketch

/-!
# What summaries hold

An entry of a union is merged from the entries of the inputs that contain its
hash, in the order of the calls.  While a sketch is incorporated this is said of
the hashes below the theta that screens it: an entry that is not below is never
merged again, but is not part of any result either.
-/

namespace DataSketches

open Runs SketchHashTable

variable {E : Type} [SketchEntry E]

namespace UnionState

/-- The entries with the given hash, one for each input that contains it, in the order of the
inputs. -/
def occurrences (inputs : List (EntrySketch E)) (x : ℕ) : List E :=
  inputs.filterMap fun s ↦ s.entries.find? (SketchEntry.hash · = x)

/-- The entry is the left fold of the merge policy over the entries found. -/
def Folded (policy : MergePolicy E) (found : List E) (e : E) : Prop :=
  ∃ e₁ es, found = e₁ :: es ∧ e = es.foldl policy.merge e₁

variable {policy : MergePolicy E}

theorem folded_singleton (e : E) : Folded policy [e] e := ⟨e, [], rfl, rfl⟩

theorem Folded.concat {found : List E} {e : E} (h : Folded policy found e) (a : E) :
    Folded policy (found ++ [a]) (policy.merge e a) := by
  obtain ⟨e₁, es, rfl, rfl⟩ := h
  exact ⟨e₁, es ++ [a], rfl, by rw [List.foldl_append]; rfl⟩

theorem occurrences_concat (inputs : List (EntrySketch E)) (s : EntrySketch E) (x : ℕ) :
    occurrences (inputs ++ [s]) x =
      occurrences inputs x ++ (s.entries.find? (SketchEntry.hash · = x)).toList := by
  rw [occurrences, List.filterMap_append, ← occurrences]
  cases hfind : s.entries.find? (SketchEntry.hash · = x) <;> simp [List.filterMap_cons, hfind]

/-- A hash that no input contains does not occur. -/
theorem occurrences_eq_nil {inputs : List (EntrySketch E)} {x : ℕ} (h : x ∉ allHashes inputs) :
    occurrences inputs x = [] := by
  refine List.filterMap_eq_nil_iff.mpr fun s hs ↦ List.find?_eq_none.mpr fun e he heq ↦ ?_
  exact h (mem_allHashes.mpr ⟨s, hs, EntrySketch.mem_hashes.mpr ⟨e, he, of_decide_eq_true heq⟩⟩)

/-! ## Finding by hash -/

theorem find?_append_singleton_of_ne {done : List E} {a : E} {x : ℕ} (h : SketchEntry.hash a ≠ x) :
    (done ++ [a]).find? (SketchEntry.hash · = x) = done.find? (SketchEntry.hash · = x) := by
  rw [List.find?_append, List.find?_cons_of_neg (by simpa using h), List.find?_nil, Option.or_none]

theorem find?_append_singleton_self {done : List E} {a : E}
    (h : SketchEntry.hash a ∉ done.map SketchEntry.hash) :
    (done ++ [a]).find? (SketchEntry.hash · = SketchEntry.hash a) = some a := by
  have hnone : done.find? (SketchEntry.hash · = SketchEntry.hash a) = none :=
    List.find?_eq_none.mpr fun e he heq ↦ h (List.mem_map.mpr ⟨e, he, of_decide_eq_true heq⟩)
  rw [List.find?_append, hnone, Option.none_or, List.find?_cons_of_pos (by simp)]

theorem find?_append_of_forall_ne {done es : List E} {x : ℕ}
    (h : ∀ e ∈ es, SketchEntry.hash e ≠ x) :
    (done ++ es).find? (SketchEntry.hash · = x) = done.find? (SketchEntry.hash · = x) := by
  have hnone : es.find? (SketchEntry.hash · = x) = none :=
    List.find?_eq_none.mpr fun e he heq ↦ h e he (of_decide_eq_true heq)
  rw [List.find?_append, hnone, Option.or_none]

/-! ## Incorporating a sketch -/

/-- After an insertion or update the hashes are those before and the new one, below theta. -/
theorem mem_hashes_of_outcome {t t' : SketchHashTable E} (h : Inv t) (hcfg : SameConfig t t')
    {e : E} {b : Bool} {f : E → E} (hf : ∀ e, SketchEntry.hash (f e) = SketchEntry.hash e)
    (hpos : SketchEntry.hash e ≠ 0) (hout : UpsertOutcome t (SketchEntry.hash e) f (some e) t' b)
    {x : ℕ} : x ∈ t'.hashes ↔ (x = SketchEntry.hash e ∨ x ∈ t.hashes) ∧ x < t'.theta := by
  have hself : Samples t t.theta t.hashes := by
    refine ⟨le_rfl, ?_, fun hlt ↦ absurd hlt (lt_irrefl _), fun hlt ↦ absurd hlt (lt_irrefl _)⟩
    exact (Finset.filter_true_of_mem fun x hx ↦ (h.mem_hashes_below hx).2).symm
  have hmem := (hout.samples hcfg hf rfl hpos hself).mem_iff (x := x)
  rwa [Finset.mem_insert] at hmem

/-- The entries below `ut` are merged from what was found of their hashes, before and in `done`. -/
def Merged (policy : MergePolicy E) (ut : ℕ) (before : ℕ → List E) (done : List E)
    (t : SketchHashTable E) : Prop :=
  ∀ e ∈ t.retained, SketchEntry.hash e < ut →
    Folded policy (before (SketchEntry.hash e) ++
      (done.find? (SketchEntry.hash · = SketchEntry.hash e)).toList) e

/-- A hash below `ut` and theta that is not retained was not found. -/
def Complete (ut : ℕ) (before : ℕ → List E) (done : List E) (t : SketchHashTable E) : Prop :=
  ∀ x, x < ut → x < t.theta → x ∉ t.hashes → before x = [] ∧ x ∉ done.map SketchEntry.hash

variable {ut : ℕ} {before : ℕ → List E}

/-- One entry that is fed to the table. -/
theorem Merged.step {t t' : SketchHashTable E} {a : E} {done : List E} {b : Bool} (h : Inv t)
    (hcfg : SameConfig t t') (hlt : SketchEntry.hash a < ut ∧ SketchEntry.hash a < t.theta)
    (hpos : SketchEntry.hash a ≠ 0) (hnotin : SketchEntry.hash a ∉ done.map SketchEntry.hash)
    (hout : UpsertOutcome t (SketchEntry.hash a) (policy.merge · a) (some a) t' b)
    (hm : Merged policy ut before done t) (hc : Complete ut before done t) :
    Merged policy ut before (done ++ [a]) t' ∧ Complete ut before (done ++ [a]) t' := by
  constructor
  · -- An entry of another hash was not touched.
    have hother : ∀ e ∈ t.retained, SketchEntry.hash e ≠ SketchEntry.hash a →
        SketchEntry.hash e < ut → Folded policy (before (SketchEntry.hash e) ++
          ((done ++ [a]).find? (SketchEntry.hash · = SketchEntry.hash e)).toList) e := by
      intro e he hne hut
      rw [find?_append_singleton_of_ne hne.symm]
      exact hm e he hut
    have hnew : SketchEntry.hash a ∉ t.hashes → Folded policy (before (SketchEntry.hash a) ++
        ((done ++ [a]).find? (SketchEntry.hash · = SketchEntry.hash a)).toList) a := by
      intro hnew
      rw [(hc _ hlt.1 hlt.2 hnew).1, find?_append_singleton_self hnotin]
      exact folded_singleton a
    have hapart : ∀ e ∈ t.retained, SketchEntry.hash a ∉ t.hashes →
        SketchEntry.hash e ≠ SketchEntry.hash a :=
      fun e he hnew heq ↦ hnew (SketchHashTable.mem_hashes.mpr ⟨e, he, heq⟩)
    intro e he hut
    cases hout with
    | screened hs _ _ => omega
    | declined _ _ hnone _ _ => cases hnone
    | existing e₀ _ hmem hkey hret _ =>
        obtain ⟨rest, hrest⟩ := Multiset.exists_cons_of_mem hmem
        have hret' : t'.retained = policy.merge e₀ a ::ₘ rest := by
          rw [hrest, Multiset.cons_swap] at hret
          exact (Multiset.cons_inj_right _).mp hret
        rw [hret'] at he
        rcases Multiset.mem_cons.mp he with rfl | he
        · have hbefore := hm e₀ hmem (hkey ▸ hlt.1)
          have hnone : done.find? (SketchEntry.hash · = SketchEntry.hash a) = none :=
            List.find?_eq_none.mpr fun e he heq ↦
              hnotin (List.mem_map.mpr ⟨e, he, of_decide_eq_true heq⟩)
          rw [hkey, hnone, Option.toList_none, List.append_nil] at hbefore
          rw [policy.hash_merge, hkey, find?_append_singleton_self hnotin]
          exact hbefore.concat a
        · refine hother e (hrest ▸ Multiset.mem_cons_of_mem he) (fun heq ↦ ?_) hut
          have hnd : (t.retained.map SketchEntry.hash).Nodup := h.nodup_hashes
          rw [hrest, Multiset.map_cons, Multiset.nodup_cons] at hnd
          exact hnd.1 (by rw [hkey, ← heq]; exact Multiset.mem_map_of_mem _ he)
    | inserted e₁ _ hfresh hsome hret _ =>
        cases hsome
        rw [hret] at he
        rcases Multiset.mem_cons.mp he with rfl | he
        · exact hnew hfresh
        · exact hother e he (hapart e he hfresh) hut
    | rebuilt e₁ _ hfresh hsome hret _ _ _ =>
        cases hsome
        rw [hret] at he
        rcases Multiset.mem_cons.mp (Multiset.mem_of_mem_filter he) with rfl | he
        · exact hnew hfresh
        · exact hother e he (hapart e he hfresh) hut
  · intro x hxut hxt hx
    rw [mem_hashes_of_outcome h hcfg (fun e ↦ policy.hash_merge e a) hpos hout,
      and_iff_left hxt, not_or] at hx
    obtain ⟨hbefore, hdone⟩ := hc x hxut (hxt.trans_le (hout.theta_le h.toStored)) hx.2
    refine ⟨hbefore, ?_⟩
    rw [List.map_append, List.mem_append, not_or]
    exact ⟨hdone, fun hmem ↦ hx.1 (List.mem_singleton.mp hmem)⟩

/-- Feeding the entries of a sketch merges each into the entry with its hash. -/
theorem insertEntries_merged (policy : MergePolicy E) (ordered : Bool) {es done : List E}
    {t t' : SketchHashTable E} (h : Inv t) (hnd : ((done ++ es).map SketchEntry.hash).Nodup)
    (hord : ordered = true → es.Pairwise (SketchEntry.hash · < SketchEntry.hash ·))
    (hpos : ∀ e ∈ es, SketchEntry.hash e ≠ 0) (hm : Merged policy ut before done t)
    (hc : Complete ut before done t) (hok : insertEntries policy ut ordered es t = .ok t') :
    Merged policy ut before (done ++ es) t' := by
  induction es generalizing t done with
  | nil =>
      cases hok
      rwa [List.append_nil]
  | cons a es ih =>
      have hsplit : done ++ a :: es = done ++ [a] ++ es := by
        rw [List.append_assoc, List.singleton_append]
      have hpos' : ∀ e ∈ es, SketchEntry.hash e ≠ 0 :=
        fun e he ↦ hpos e (List.mem_cons_of_mem _ he)
      have hnd' : ((done ++ [a] ++ es).map SketchEntry.hash).Nodup := hsplit ▸ hnd
      by_cases hfed : SketchEntry.hash a < ut ∧ SketchEntry.hash a < t.theta
      · obtain ⟨t₁, b, hok₁, hinv, hcfg, -, hout⟩ := upsertEntry_spec h (SketchEntry.hash a)
          (policy.merge · a) (some a) (fun e' ↦ policy.hash_merge e' a)
          (fun e' he' ↦ by cases he'; rfl)
        rw [insertEntries, if_pos hfed, hok₁] at hok
        have hnotin : SketchEntry.hash a ∉ done.map SketchEntry.hash := by
          rw [List.map_append, List.map_append, List.nodup_append, List.nodup_append] at hnd'
          exact fun hmem ↦ hnd'.1.2.2 _ hmem _ (List.mem_singleton.mpr rfl) rfl
        obtain ⟨hm₁, hc₁⟩ := hm.step h hcfg hfed (hpos a List.mem_cons_self) hnotin hout hc
        rw [hsplit]
        exact ih hinv hnd' (fun ho ↦ (List.pairwise_cons.mp (hord ho)).2) hpos' hm₁ hc₁ hok
      · -- An entry that is passed over is not below `ut`, or the table screens it.
        have hskip : ∀ e ∈ t.retained, SketchEntry.hash e < ut →
            SketchEntry.hash e < SketchEntry.hash a := by
          intro e he hut
          have hbelow := (h.below e he).2
          omega
        cases ordered with
        | true =>
            rw [insertEntries, if_neg hfed, if_pos rfl] at hok
            cases hok
            intro e he hut
            rw [find?_append_of_forall_ne]
            · exact hm e he hut
            · intro e' he'
              have hlt := hskip e he hut
              rcases List.mem_cons.mp he' with rfl | he'
              · exact hlt.ne'
              · exact (hlt.trans ((List.pairwise_cons.mp (hord rfl)).1 e' he')).ne'
        | false =>
            rw [insertEntries, if_neg hfed, if_neg Bool.false_ne_true] at hok
            have hm₁ : Merged policy ut before (done ++ [a]) t := by
              intro e he hut
              rw [find?_append_singleton_of_ne (hskip e he hut).ne']
              exact hm e he hut
            have hc₁ : Complete ut before (done ++ [a]) t := by
              intro x hxut hxt hx
              obtain ⟨hbefore, hdone⟩ := hc x hxut hxt hx
              refine ⟨hbefore, ?_⟩
              rw [List.map_append, List.mem_append, not_or]
              refine ⟨hdone, fun hmem ↦ ?_⟩
              have heq : x = SketchEntry.hash a := List.mem_singleton.mp hmem
              omega
            rw [hsplit]
            exact ih h hnd' (fun ho ↦ absurd ho Bool.false_ne_true) hpos' hm₁ hc₁ hok

/-! ## Runs -/

variable {lgK start : ℕ} {inputs : List (EntrySketch E)} {u u' : UnionState E} {s : EntrySketch E}

/-- The entries of a union below its theta are merged from the inputs. -/
def Holds (policy : MergePolicy E) (inputs : List (EntrySketch E)) (u : UnionState E) : Prop :=
  u.policy = policy ∧ ∀ e ∈ u.table.retained, SketchEntry.hash e < u.unionTheta →
    Folded policy (occurrences inputs (SketchEntry.hash e)) e

/-- A hash of the inputs below both thetas is retained. -/
theorem RunInv.mem_hashes (h : RunInv lgK start inputs u) {x : ℕ} (hx : x ∈ allHashes inputs)
    (hut : x < u.unionTheta) (ht : x < u.table.theta) : x ∈ u.table.hashes := by
  obtain ⟨fed, -, hall, hsamp⟩ := h.tracks
  rw [h.unionTheta_eq] at hut
  exact hsamp.mem_iff.mpr ⟨hall x hx (lt_min_iff.mp hut).1, ht⟩

/-- Incorporating a well-formed sketch merges its entries. -/
theorem Holds.update (h : RunInv lgK start inputs u) (hu : Holds policy inputs u)
    (hs : s.WellFormed) (hok : u.update s = .ok (u', .ok ())) :
    Holds policy (inputs ++ [s]) u' := by
  obtain ⟨rfl, hu⟩ := hu
  cases hempty : s.scalars.empty with
  | true =>
      simp only [UnionState.update, hempty, if_true] at hok
      cases hok
      refine ⟨rfl, fun e he hut ↦ ?_⟩
      rw [occurrences_concat, hs.entries_of_empty hempty, List.find?_nil, Option.toList_none,
        List.append_nil]
      exact hu e he hut
  | false =>
      simp only [UnionState.update, hempty, Bool.false_eq_true, if_false,
        SketchHashTable.seedHash] at hok
      obtain ⟨sh, -, hok⟩ := bind_eq_ok.mp hok
      cases hcheck : checkSeedHash sh s.scalars.seedHash "union update" .invalidArgument with
      | error e =>
          rw [hcheck] at hok
          cases hok
      | ok x =>
          rw [hcheck] at hok
          obtain ⟨t', hins, hok⟩ := bind_eq_ok.mp hok
          cases hok
          have hmerged : Merged u.policy (min u.unionTheta s.scalars.theta) (occurrences inputs)
              ([] ++ s.entries) t' := by
            refine insertEntries_merged u.policy s.scalars.ordered (h.toInv.setUsed false)
              hs.nodup hs.ordered (fun e he ↦ (hs.range e he).1.ne') ?_ ?_ hins
            · intro e he hut
              rw [List.find?_nil, Option.toList_none, List.append_nil]
              exact hu e he (hut.trans_le (min_le_left _ _))
            · intro x hxut hxt hx
              refine ⟨occurrences_eq_nil fun hmem ↦ hx ?_, List.not_mem_nil⟩
              exact h.mem_hashes hmem (hxut.trans_le (min_le_left _ _)) hxt
          refine ⟨rfl, fun e he hut ↦ ?_⟩
          rw [occurrences_concat]
          exact hmerged e he (hut.trans_le (min_le_left _ _))

/-- Every run of accepted sketches merges their entries. -/
theorem holds_of_accepted {u₀ : UnionState E} (h₀ : RunInv lgK start [] u₀)
    (hu₀ : Holds policy [] u₀) (hwf : ∀ s ∈ inputs, s.WellFormed)
    (hrun : run (fun u s ↦ accepted (u.update s)) u₀ inputs = .ok u) : Holds policy inputs u := by
  induction inputs using List.reverseRecOn generalizing u with
  | nil =>
      cases hrun
      exact hu₀
  | append_singleton inputs s ih =>
      rw [run_concat] at hrun
      obtain ⟨u₁, hrun₁, hstep⟩ := bind_eq_ok.mp hrun
      have hwf₁ : ∀ s ∈ inputs, s.WellFormed := fun s hs ↦ hwf s (List.mem_append_left _ hs)
      exact Holds.update (run_invariant_of_accepted h₀ hwf₁ hrun₁).1 (ih hwf₁ hrun₁)
        (hwf s (by simp)) (accepted_eq_ok.mp hstep)

theorem mem_of_selectNominal {n : ℕ} {es es' : List E} {θ θ' : ℕ}
    (hok : selectNominal n es θ = .ok (es', θ')) {e : E} (he : e ∈ es') : e ∈ es := by
  unfold selectNominal at hok
  split_ifs at hok
  · obtain ⟨⟨taken, kth⟩, hsel, hok⟩ := bind_eq_ok.mp hok
    cases hok
    simp only [selectNthByHash] at hsel
    split at hsel
    · cases hsel
    · cases hsel
      exact (List.mergeSort_perm es _).mem_iff.mp ((List.take_sublist _ _).subset he)
  · cases hok
    exact he

/-- The entries of a result are those of the union, below its theta. -/
theorem mem_of_toCompactParts (h : Inv u.table) {ordered : Bool} {parts : CompactSketchParts E}
    (hok : u.toCompactParts ordered = .ok parts) {e : E} (he : e ∈ parts.entries) :
    e ∈ u.table.retained ∧ SketchEntry.hash e < u.unionTheta := by
  unfold toCompactParts at hok
  obtain ⟨sh, -, hok⟩ := bind_eq_ok.mp hok
  split_ifs at hok with hempty hge
  · cases hok
    exact absurd he List.not_mem_nil
  · obtain ⟨⟨es, θ⟩, hsel, hok⟩ := bind_eq_ok.mp hok
    cases hok
    have hmem : e ∈ es := by
      dsimp only at he
      split_ifs at he
      · exact (sortByHash_perm es).mem_iff.mp he
      · exact he
    have hin := mem_of_selectNominal hsel hmem
    exact ⟨hin, (h.below e hin).2.trans_le hge⟩
  · obtain ⟨⟨es, θ⟩, hsel, hok⟩ := bind_eq_ok.mp hok
    cases hok
    have hmem : e ∈ es := by
      dsimp only at he
      split_ifs at he
      · exact (sortByHash_perm es).mem_iff.mp he
      · exact he
    obtain ⟨hin, hlt⟩ := List.mem_filter.mp (mem_of_selectNominal hsel hmem)
    exact ⟨hin, (of_decide_eq_true hlt).trans_le (min_le_left _ _)⟩

end UnionState

/-! ## Tuple sketches -/

namespace Tuple

open UnionState

variable {S : Type}

/-- The summaries of a hash in the inputs that contain it, in the order of the inputs. -/
def summariesIn (inputs : List (EntrySketch (TupleEntry S))) (hash : ℕ) : List S :=
  (occurrences inputs hash).map TupleEntry.summary

theorem summary_foldl (combine : S → S → S) (e : TupleEntry S) (es : List (TupleEntry S)) :
    (es.foldl (summaryPolicy combine).merge e).summary =
      (es.map TupleEntry.summary).foldl combine e.summary := by
  induction es generalizing e with
  | nil => rfl
  | cons a es ih => exact ih _

/-- In every update sketch a retained key has the fold of all values given for it, over a new
summary, and no key below theta is missing.  In every union of well-formed sketches a hash of the
result has the left fold of its summaries in the inputs, starting from the first. -/
theorem summaries_spec {S U : Type} (policy : SummaryUpdatePolicy S U) (combine : S → S → S)
    {lgK : ℕ} (hlgK : minLgK ≤ lgK ∧ lgK ≤ maxLgK) (rf : ResizeFactor) (p : ℚ) (seed : UInt64) :
    (∀ ops : List (Op U), ∃ t₀ t, SketchHashTable.new lgK rf p seed = .ok t₀ ∧
      run (step policy) t₀ ops = .ok t ∧ (t.iterEntries.map TupleEntry.hash).Nodup ∧
      (∀ x, (∃ e ∈ t.iterEntries, e.hash = x) ↔ x ∈ fed ops ∧ x ≠ 0 ∧ x < t.theta) ∧
      ∀ e ∈ t.iterEntries, e.summary = (valuesOf ops e.hash).foldl policy.update policy.create) ∧
    ∀ (inputs : List (EntrySketch (TupleEntry S))) (u₀ u : TupleUnion S),
      TupleUnion.new lgK rf p seed combine = .ok u₀ → (∀ s ∈ inputs, s.WellFormed) →
      run (fun u s ↦ accepted (UnionState.update u s)) u₀ inputs = .ok u →
      ∀ ordered c, u.toSketch ordered = .ok c → ∀ e ∈ c.entries,
        ∃ s₁ ss, summariesIn inputs e.hash = s₁ :: ss ∧ e.summary = ss.foldl combine s₁ := by
  constructor
  · intro ops
    obtain ⟨t₀, t, hnew, hrun, h⟩ := run_spec policy hlgK.1 rf p seed ops
    exact ⟨t₀, t, hnew, hrun, h.nodup_hashes,
      fun x ↦ (mem_hashes (t := t) (x := x)).symm.trans h.mem_hashes_iff, h.summaries⟩
  · intro inputs u₀ u hnew hwf hrun ordered c hc e he
    obtain ⟨u₁, hnew₁, -, h₀⟩ := new_runInv hlgK.1 rf p seed (summaryPolicy combine)
    obtain rfl : u₀ = u₁ := Except.ok.inj (hnew.symm.trans hnew₁)
    have hpolicy : u₀.policy = summaryPolicy combine := by
      obtain ⟨t, -, hu⟩ := bind_eq_ok.mp hnew
      cases hu
      rfl
    have hu₀ : Holds (summaryPolicy combine) [] u₀ := by
      refine ⟨hpolicy, fun e he hut ↦ ?_⟩
      obtain ⟨fed, hsub, -, hsamp⟩ := h₀.tracks
      have hmem := hsub (hsamp.mem_iff.mp (mem_hashes.mpr ⟨e, he, rfl⟩)).1
      exact absurd hmem (Finset.notMem_empty _)
    have hinv := (run_invariant_of_accepted h₀ hwf hrun).1
    obtain ⟨parts, hparts, rfl⟩ := of_map_fromParts hc
    obtain ⟨hret, hlt⟩ := mem_of_toCompactParts hinv.toInv hparts he
    obtain ⟨e₁, es, hfound, hfold⟩ := (holds_of_accepted h₀ hu₀ hwf hrun).2 e hret hlt
    have hhash : SketchEntry.hash e = e.hash := rfl
    rw [hhash] at hfound
    refine ⟨e₁.summary, es.map TupleEntry.summary, ?_, ?_⟩
    · rw [summariesIn, hfound, List.map_cons]
    · rw [hfold, summary_foldl]

/-- A sketch of one key with the given summary. -/
def single (summary : ℕ) : EntrySketch (TupleEntry ℕ) :=
  ⟨⟨37836, maxTheta, false, true, 1⟩, [⟨7, by decide, summary⟩]⟩

/-- Sums of three values, and of two summaries. -/
theorem summaries_spec_sum :
    (∃ t₀ t : TupleHashTable ℕ, SketchHashTable.new 5 .x8 1 defaultUpdateSeed = .ok t₀ ∧
      run (step ⟨0, (· + ·)⟩) t₀ [.update 7 3, .update 9 1, .update 7 4] = .ok t ∧
      ∀ e ∈ t.iterEntries, e.hash = 7 → e.summary = 7) ∧
    ∃ (u₀ u : TupleUnion ℕ) (c : CompactTupleSketch ℕ),
      TupleUnion.new 5 .x8 1 defaultUpdateSeed (· + ·) = .ok u₀ ∧
      run (fun u s ↦ accepted (UnionState.update u s)) u₀ [single 3, single 4] = .ok u ∧
      u.toSketch true = .ok c ∧ c.numRetained = 1 ∧ ∀ e ∈ c.entries, e.hash = 7 → e.summary = 7 := by
  obtain ⟨hsketch, hunion⟩ := summaries_spec (⟨0, (· + ·)⟩ : SummaryUpdatePolicy ℕ ℕ) (· + ·)
    (show minLgK ≤ 5 ∧ 5 ≤ maxLgK by decide) .x8 1 defaultUpdateSeed
  constructor
  · obtain ⟨t₀, t, hnew, hrun, -, -, hsum⟩ := hsketch [.update 7 3, .update 9 1, .update 7 4]
    refine ⟨t₀, t, hnew, hrun, fun e he hhash ↦ ?_⟩
    rw [hsum e he, hhash]
    rfl
  · have hrun : ((TupleUnion.new 5 .x8 1 defaultUpdateSeed (· + ·)).mapError Fault.panic >>= fun u₀ ↦
        run (fun u s ↦ accepted (UnionState.update u s)) u₀ [single 3, single 4] >>= fun u ↦
          ((TupleUnion.toSketch u true).mapError Fault.panic).map CompactTupleSketch.numRetained) = .ok 1 := by
      decide +kernel
    obtain ⟨u₀, hnew, hrun⟩ := bind_eq_ok.mp hrun
    obtain ⟨u, hrun, hc⟩ := bind_eq_ok.mp hrun
    obtain ⟨c, hc, hnum⟩ := map_eq_ok.mp hc
    have hpanic : ∀ {α : Type} {x : Checked α} {a : α}, x.mapError Fault.panic = .ok a → x = .ok a := by
      intro α x a h
      cases x with
      | error p => cases h
      | ok b => exact congrArg _ (Except.ok.inj h)
    have hwf : ∀ s ∈ [single 3, single 4], s.WellFormed := by decide
    refine ⟨u₀, u, c, hpanic hnew, hrun, hpanic hc, hnum, fun e he hhash ↦ ?_⟩
    obtain ⟨s₁, ss, hfound, hsum⟩ :=
      hunion _ u₀ u (hpanic hnew) hwf hrun true c (hpanic hc) e he
    rw [hhash] at hfound
    cases hfound
    rw [hsum]
    rfl

end Tuple

end DataSketches
