import DataSketches.ThetaFamily.EntrySketch

/-!
# The union of the Theta family

`UnionState` is the state machine shared by the Theta and Tuple unions.  Two
thresholds move in it: the table lowers its own theta when it is rebuilt, and
`unionTheta` follows the thetas of the inputs.  `Tracks` relates both to the set
of all hashes seen so far, without saying which of them the table was given: only
those below the least theta of the inputs matter, and of these none is missed.
-/

namespace DataSketches

open Selection Runs SketchHashTable

variable {E : Type} [SketchEntry E]

/-- Generic state machine shared by Theta and Tuple unions. -/
structure UnionState (E : Type) [SketchEntry E] where
  table : SketchHashTable E
  policy : MergePolicy E
  unionTheta : ℕ

namespace UnionState

def new (lgK : ℕ) (resizeFactor : ResizeFactor) (p : ℚ) (seed : UInt64) (policy : MergePolicy E) :
    Checked (UnionState E) := do
  let table ← SketchHashTable.new lgK resizeFactor p seed
  return { unionTheta := table.theta, table := table, policy := policy }

/-- The loop of `update` over the entries of a sketch. -/
def insertEntries (policy : MergePolicy E) (unionTheta : ℕ) (ordered : Bool) :
    List E → SketchHashTable E → Checked (SketchHashTable E)
  | [], table => .ok table
  | entry :: rest, table =>
      let hash := SketchEntry.hash entry
      if hash < unionTheta ∧ hash < table.theta then do
        let (table, _) ← table.upsertEntry hash (policy.merge · entry) (some entry)
        insertEntries policy unionTheta ordered rest table
      else if ordered then .ok table
      else insertEntries policy unionTheta ordered rest table

/-- Incorporate a sketch into the union. -/
def update (u : UnionState E) (sketch : EntrySketch E) :
    Checked (UnionState E × Except Error Unit) := do
  let ⟨seedHash, theta, empty, ordered, _⟩ := sketch.scalars
  if empty then
    return (u, .ok ())
  match checkSeedHash (← u.table.seedHash) seedHash "union update" .invalidArgument with
  | .error e => return (u, .error e)
  | .ok () =>
      let unionTheta := min u.unionTheta theta
      let table ← insertEntries u.policy unionTheta ordered sketch.entries
        { u.table with isEmpty := false }
      return ({ u with table := table, unionTheta := min unionTheta table.theta }, .ok ())

/-- The block of `toCompactParts` that keeps the nominal number of entries, with the next
hash as theta. -/
def selectNominal (nominalNum : ℕ) (entries : List E) (theta : ℕ) : Checked (List E × ℕ) :=
  if entries.length > nominalNum then do
    let (entries, kth) ← selectNthByHash nominalNum entries
    return (entries, SketchEntry.hash kth)
  else return (entries, theta)

/-- Return the current compact-union state as compact-sketch parts. -/
def toCompactParts (u : UnionState E) (ordered : Bool) : Checked (CompactSketchParts E) := do
  let seedHash ← u.table.seedHash
  if u.table.isEmpty then
    return { entries := [], theta := u.unionTheta, seedHash := seedHash, ordered := true,
             empty := true }
  let theta := min u.unionTheta u.table.theta
  let entries :=
    if u.unionTheta ≥ u.table.theta then u.table.iterEntries
    else u.table.iterEntries.filter (SketchEntry.hash · < theta)
  let (entries, theta) ← selectNominal (1 <<< u.table.lgNomSize) entries theta
  let ordered := ordered || decide (entries.length = 1 ∧ theta = maxTheta)
  let entries := if ordered then sortByHash entries else entries
  return { entries := entries, theta := theta, seedHash := seedHash, ordered := ordered,
           empty := false }

/-- Reset the union to its initial state. -/
def reset (u : UnionState E) : UnionState E :=
  let table := u.table.reset
  { u with table := table, unionTheta := table.theta }

/-! ## What a union is to compute -/

/-- The least of the starting theta and the thetas of the non-empty inputs. -/
def minTheta (start : ℕ) (inputs : List (EntrySketch E)) : ℕ :=
  inputs.foldl (fun θ s ↦ if s.scalars.empty then θ else min θ s.scalars.theta) start

/-- The distinct hashes of the inputs. -/
def allHashes (inputs : List (EntrySketch E)) : Finset ℕ :=
  inputs.foldl (fun r s ↦ r ∪ s.hashes) ∅

omit [SketchEntry E] in
theorem minTheta_concat (start : ℕ) (inputs : List (EntrySketch E)) (s : EntrySketch E) :
    minTheta start (inputs ++ [s]) =
      if s.scalars.empty then minTheta start inputs
      else min (minTheta start inputs) s.scalars.theta := by
  rw [minTheta, List.foldl_append]
  rfl

theorem allHashes_concat (inputs : List (EntrySketch E)) (s : EntrySketch E) :
    allHashes (inputs ++ [s]) = allHashes inputs ∪ s.hashes := by
  rw [allHashes, List.foldl_append]
  rfl

omit [SketchEntry E] in
theorem minTheta_le (start : ℕ) (inputs : List (EntrySketch E)) :
    minTheta start inputs ≤ start := by
  induction inputs using List.reverseRecOn with
  | nil => exact le_refl start
  | append_singleton inputs s ih =>
      rw [minTheta_concat]
      split_ifs
      · exact ih
      · exact (min_le_left _ _).trans ih

theorem mem_allHashes {inputs : List (EntrySketch E)} {x : ℕ} :
    x ∈ allHashes inputs ↔ ∃ s ∈ inputs, x ∈ s.hashes := by
  induction inputs using List.reverseRecOn with
  | nil => simp [allHashes]
  | append_singleton inputs s ih => simp [allHashes_concat, ih, or_and_right, exists_or]

omit [SketchEntry E] in
theorem lt_minTheta {start x : ℕ} {inputs : List (EntrySketch E)} :
    x < minTheta start inputs ↔
      x < start ∧ ∀ s ∈ inputs, s.scalars.empty = false → x < s.scalars.theta := by
  induction inputs using List.reverseRecOn with
  | nil => simp [minTheta]
  | append_singleton inputs s ih =>
      rw [minTheta_concat]
      cases hempty : s.scalars.empty <;> simp [ih, or_imp, forall_and, hempty, and_assoc]

/-- The compact parts of a union with the thresholds `T` over the hashes `R` below it. -/
structure ResultOf (k T : ℕ) (R : Finset ℕ) (parts : CompactSketchParts E) : Prop where
  nodup : (parts.entries.map SketchEntry.hash).Nodup
  /-- At most `k` hashes are all in the result, whose theta is `T`. -/
  of_le : R.card ≤ k →
    (parts.entries.map SketchEntry.hash).toFinset = R ∧ parts.theta = T
  /-- Of more than `k` hashes, the `k` smallest are, and theta is the next one. -/
  of_gt : k < R.card → IsRank R k parts.theta ∧ parts.entries.length = k ∧
    (parts.entries.map SketchEntry.hash).toFinset = R.filter (· < parts.theta)

/-! ## The invariant -/

/-- The table of a union samples the hashes `S` seen so far, as far as they are below `T`. -/
def Tracks (start T : ℕ) (S : Finset ℕ) (t : SketchHashTable E) : Prop :=
  ∃ s ⊆ S, (∀ x ∈ S, x < T → x ∈ s) ∧ Samples t start s

/-- The invariant of a run. -/
structure RunInv (lgK start : ℕ) (inputs : List (EntrySketch E)) (u : UnionState E) :
    Prop extends Inv u.table where
  lgNomSize_eq : u.table.lgNomSize = lgK
  unionTheta_eq : u.unionTheta = min (minTheta start inputs) u.table.theta
  tracks : Tracks start (minTheta start inputs) (allHashes inputs) u.table
  isEmpty_iff : u.table.isEmpty = true ↔ ∀ s ∈ inputs, s.scalars.empty = true

variable {start T ut : ℕ}

/-- Hashes that `T` or the theta of the table screens need not be given to the table. -/
theorem Tracks.union {t : SketchHashTable E} {S S' : Finset ℕ} (h : Tracks start T S t)
    (hS' : ∀ x ∈ S', T ≤ x ∨ t.theta ≤ x) : Tracks start T (S ∪ S') t := by
  obtain ⟨s, hsub, hall, hs⟩ := h
  refine ⟨s ∪ S'.filter (t.theta ≤ ·),
    Finset.union_subset_union hsub (Finset.filter_subset _ _), fun x hx hxT ↦ ?_,
    hs.union_of_le fun x hx ↦ (Finset.mem_filter.mp hx).2⟩
  rcases Finset.mem_union.mp hx with hx | hx
  · exact Finset.mem_union_left _ (hall x hx hxT)
  · refine Finset.mem_union_right _ (Finset.mem_filter.mpr ⟨hx, ?_⟩)
    exact (hS' x hx).resolve_left (not_le.mpr hxT)

/-- Feeding the entries of a sketch succeeds and loses none of the hashes below `T`: a hash
is only passed over, or a break only taken, at a hash that `T` or the theta of the table
screens. -/
theorem insertEntries_spec (policy : MergePolicy E) (ordered : Bool) {es : List E} {t : SketchHashTable E} {S : Finset ℕ} (h : Inv t)
    (hempty : t.isEmpty = false) (hord : ordered = true →
      es.Pairwise (SketchEntry.hash · < SketchEntry.hash ·))
    (hpos : ∀ e ∈ es, SketchEntry.hash e ≠ 0) (hut : min T t.theta ≤ ut)
    (htr : Tracks start T S t) :
    ∃ t', insertEntries policy ut ordered es t = .ok t' ∧ Inv t' ∧ SameConfig t t' ∧
      t'.isEmpty = false ∧ t'.theta ≤ t.theta ∧
      Tracks start T (S ∪ (es.map SketchEntry.hash).toFinset) t' := by
  induction es generalizing t S with
  | nil => exact ⟨t, rfl, h, SameConfig.refl t, hempty, le_refl _, by simpa using htr⟩
  | cons e es ih =>
      obtain ⟨s, hsub, hall, hs⟩ := htr
      have hrest : S ∪ ((e :: es).map SketchEntry.hash).toFinset =
          insert (SketchEntry.hash e) S ∪ (es.map SketchEntry.hash).toFinset := by
        ext x
        simp only [List.map_cons, List.toFinset_cons, Finset.mem_union, Finset.mem_insert]
        tauto
      have hpos' : ∀ e ∈ es, SketchEntry.hash e ≠ 0 :=
        fun e he ↦ hpos e (List.mem_cons_of_mem _ he)
      by_cases hfed : SketchEntry.hash e < ut ∧ SketchEntry.hash e < t.theta
      · obtain ⟨t₁, b, hok, hinv, hcfg, hempty₁, hout⟩ := upsertEntry_spec h (SketchEntry.hash e)
          (policy.merge · e) (some e) (fun e' ↦ policy.hash_merge e' e)
          (fun e' he' ↦ by cases he'; rfl)
        have hle := hout.theta_le h.toStored
        have hs₁ := hout.samples hcfg (fun e' ↦ policy.hash_merge e' e) rfl
          (hpos e List.mem_cons_self) hs
        obtain ⟨t', hok', hinv', hcfg', hempty', hle', htr'⟩ := ih hinv hempty₁
          (fun ho ↦ (List.pairwise_cons.mp (hord ho)).2) hpos'
          ((min_le_min_left T hle).trans hut)
          ⟨insert (SketchEntry.hash e) s, Finset.insert_subset_insert _ hsub,
            fun x hx hxT ↦ Finset.insert_subset_insert _ (Finset.Subset.refl s)
              ((Finset.mem_insert.mp hx).elim (fun heq ↦ heq ▸ Finset.mem_insert_self _ _)
                fun hx ↦ Finset.mem_insert_of_mem (hall x hx hxT)), hs₁⟩
        refine ⟨t', ?_, hinv', hcfg.trans hcfg', hempty', hle'.trans hle, hrest ▸ htr'⟩
        rw [insertEntries, if_pos hfed, hok]
        exact hok'
      · -- A hash that is passed over is not below `T`, or the table screens it.
        have hskip : ∀ x, SketchEntry.hash e ≤ x → T ≤ x ∨ t.theta ≤ x := by
          intro x hx
          rcases not_and_or.mp hfed with hge | hge
          · exact min_le_iff.mp (hut.trans ((not_lt.mp hge).trans hx))
          · exact .inr ((not_lt.mp hge).trans hx)
        by_cases ho : ordered = true
        · refine ⟨t, by rw [insertEntries, if_neg hfed, if_pos ho], h, SameConfig.refl t, hempty,
            le_refl _, ?_⟩
          have hge : ∀ x ∈ ((e :: es).map SketchEntry.hash).toFinset, T ≤ x ∨ t.theta ≤ x := by
            intro x hx
            obtain ⟨e', he', rfl⟩ := List.mem_map.mp (List.mem_toFinset.mp hx)
            rcases List.mem_cons.mp he' with rfl | he'
            · exact hskip _ (le_refl _)
            · exact hskip _ ((List.pairwise_cons.mp (hord ho)).1 e' he').le
          exact Tracks.union ⟨s, hsub, hall, hs⟩ hge
        · have hskip' : ∀ x ∈ ({SketchEntry.hash e} : Finset ℕ), T ≤ x ∨ t.theta ≤ x :=
            fun x hx ↦ hskip x (Finset.mem_singleton.mp hx).ge
          obtain ⟨t', hok', hinv', hcfg', hempty', hle', htr'⟩ := ih h hempty
            (fun ho' ↦ absurd ho' ho) hpos' hut (Tracks.union ⟨s, hsub, hall, hs⟩ hskip')
          refine ⟨t', by rw [insertEntries, if_neg hfed, if_neg ho, hok'], hinv', hcfg', hempty',
            hle', ?_⟩
          rw [hrest, Finset.insert_eq, Finset.union_comm {_}]
          exact htr'

variable {lgK : ℕ} {inputs : List (EntrySketch E)} {u u' : UnionState E} {sketch : EntrySketch E}

/-- Only accepted sketches are incorporated. -/
theorem ofSeed_of_update (h : u.update sketch = .ok (u', .ok ())) :
    sketch.OfSeed u.table.seed := by
  cases hempty : sketch.scalars.empty with
  | true => exact .inl hempty
  | false =>
      right
      simp only [update, hempty, Bool.false_eq_true, if_false, SketchHashTable.seedHash] at h
      obtain ⟨sh, hsh, h⟩ := bind_eq_ok.mp h
      cases hcheck : checkSeedHash sh sketch.scalars.seedHash "union update" .invalidArgument with
      | error e =>
          rw [hcheck] at h
          cases h
      | ok _ => rw [hsh, checkSeedHash_eq_ok.mp hcheck]

/-- Incorporating a well-formed sketch keeps the invariant. -/
theorem update_spec {start : ℕ} (h : RunInv lgK start inputs u) (hs : sketch.WellFormed)
    (hacc : sketch.OfSeed u.table.seed) :
    ∃ u', u.update sketch = .ok (u', .ok ()) ∧ RunInv lgK start (inputs ++ [sketch]) u' ∧
      u'.table.seed = u.table.seed := by
  cases hempty : sketch.scalars.empty with
  | true =>
      refine ⟨u, by simp [update, hempty], ⟨h.toInv, h.lgNomSize_eq, ?_, ?_, ?_⟩, rfl⟩
      · rw [minTheta_concat, if_pos hempty]
        exact h.unionTheta_eq
      · rw [minTheta_concat, if_pos hempty, allHashes_concat, hs.hashes_of_empty hempty,
          Finset.union_empty]
        exact h.tracks
      · rw [h.isEmpty_iff]
        simp [hempty, or_imp, forall_and]
  | false =>
      have hsh : computeSeedHash u.table.seed = .ok sketch.scalars.seedHash :=
        hacc.resolve_left (by rw [hempty]; nofun)
      have hut := h.unionTheta_eq
      have hmin : minTheta start (inputs ++ [sketch]) =
          min (minTheta start inputs) sketch.scalars.theta := by
        rw [minTheta_concat, if_neg (by rw [hempty]; nofun)]
      have htr : Tracks start (minTheta start (inputs ++ [sketch])) (allHashes inputs) u.table := by
        obtain ⟨s, hsub, hall, hsamp⟩ := h.tracks
        refine ⟨s, hsub, fun x hx hlt ↦ hall x hx (hlt.trans_le ?_), hsamp⟩
        rw [hmin]
        exact min_le_left _ _
      obtain ⟨t', hok, hinv, hcfg, hempty', hle, htr'⟩ := insertEntries_spec u.policy
        sketch.scalars.ordered (h.toInv.setUsed false) rfl
        hs.ordered (fun e he ↦ (hs.range e he).1.ne')
        (show min (minTheta start (inputs ++ [sketch])) u.table.theta ≤
            min u.unionTheta sketch.scalars.theta by
          rw [hmin, hut]
          exact le_min (min_le_min_right _ (min_le_left _ _))
            ((min_le_left _ _).trans (min_le_right _ _))) htr
      refine ⟨{ u with table := t', unionTheta := min (min u.unionTheta sketch.scalars.theta) t'.theta },
        ?_, ⟨hinv, hcfg.lgNomSize_eq.trans h.lgNomSize_eq, ?_, ?_, ?_⟩, hcfg.seed_eq⟩
      · simp only [update, hempty, Bool.false_eq_true, if_false, SketchHashTable.seedHash, hsh,
          ok_bind, checkSeedHash_self, hok, pure_eq_ok]
      · change min (min u.unionTheta sketch.scalars.theta) t'.theta = min _ t'.theta
        rw [hmin, hut, min_right_comm (minTheta start inputs), min_assoc, min_eq_right hle]
      · rw [allHashes_concat]
        exact htr'
      · constructor
        · intro he
          rw [hempty'] at he
          cases he
        · intro hall
          have := hall sketch (by simp)
          rw [hempty] at this
          cases this

/-- A new union has seen nothing. -/
theorem new_runInv (hlgK : minLgK ≤ lgK) (rf : ResizeFactor) (p : ℚ) (seed : UInt64)
    (policy : MergePolicy E) :
    ∃ u, UnionState.new lgK rf p seed policy = .ok u ∧ u.table.seed = seed ∧
      RunInv lgK (startingThetaFromSamplingProbability p) [] u := by
  obtain ⟨t, hok, hinv, hentries, htheta, hlg, -, -, hseed, hempty⟩ :=
    new_spec (E := E) (hlgK.trans (Nat.le_succ lgK)) rf p seed
  have hhashes : t.hashes = ∅ := by rw [SketchHashTable.hashes, hentries]; rfl
  refine ⟨⟨t, policy, t.theta⟩, by rw [UnionState.new, hok]; rfl, hseed, hinv, hlg, ?_, ?_,
    by simp [hempty]⟩
  · change t.theta = min (startingThetaFromSamplingProbability p) t.theta
    rw [htheta, min_self]
  · refine ⟨∅, Finset.Subset.refl _, fun x hx ↦ absurd hx (Finset.notMem_empty x), ?_⟩
    rw [Samples, hhashes, htheta]
    exact KMin.empty _ _

/-- A union that is reset has seen nothing. -/
theorem reset_runInv {start : ℕ} (h : RunInv lgK start inputs u) (hlgK : minLgK ≤ lgK) :
    RunInv lgK (startingThetaFromSamplingProbability u.table.samplingProbability) [] u.reset := by
  have hlg : minLgK ≤ u.table.lgNomSize := hlgK.trans h.lgNomSize_eq.ge
  obtain ⟨u', hok, -, hinv⟩ := new_runInv hlg u.table.resizeFactor u.table.samplingProbability
    u.table.seed u.policy
  rw [UnionState.new, new_eq_reset h.lgMaxSize_eq (hlg.trans (Nat.le_succ _))] at hok
  cases hok
  rw [h.lgNomSize_eq] at hinv
  exact hinv

/-- Every run of accepted sketches keeps the invariant. -/
theorem run_invariant_of_accepted {start : ℕ} {u₀ : UnionState E} (h₀ : RunInv lgK start [] u₀)
    (hwf : ∀ s ∈ inputs, s.WellFormed)
    (hrun : run (fun u s ↦ accepted (u.update s)) u₀ inputs = .ok u) :
    RunInv lgK start inputs u ∧ u.table.seed = u₀.table.seed := by
  refine run_invariant (I := fun inputs u ↦ (∀ s ∈ inputs, s.WellFormed) →
    RunInv lgK start inputs u ∧ u.table.seed = u₀.table.seed) (fun _ ↦ ⟨h₀, rfl⟩) ?_ hrun hwf
  intro inputs sketch u u' ih hstep hwf
  obtain ⟨hinv, hseed⟩ := ih fun s hs ↦ hwf s (List.mem_append_left _ hs)
  have hok := accepted_eq_ok.mp hstep
  obtain ⟨u'', hok', hinv', hseed'⟩ :=
    update_spec hinv (hwf sketch (by simp)) (ofSeed_of_update hok)
  rw [hok] at hok'
  cases hok'
  exact ⟨hinv', hseed'.trans hseed⟩

/-- Well-formed sketches of the seed of the union are all accepted. -/
theorem run_accepts {start : ℕ} {u₀ : UnionState E} (h₀ : RunInv lgK start [] u₀)
    (hwf : ∀ s ∈ inputs, s.WellFormed) (hacc : ∀ s ∈ inputs, s.OfSeed u₀.table.seed) :
    ∃ u, run (fun u s ↦ accepted (u.update s)) u₀ inputs = .ok u := by
  induction inputs using List.reverseRecOn with
  | nil => exact ⟨u₀, rfl⟩
  | append_singleton inputs sketch ih =>
      obtain ⟨u, hu⟩ := ih (fun s hs ↦ hwf s (List.mem_append_left _ hs))
        fun s hs ↦ hacc s (List.mem_append_left _ hs)
      obtain ⟨hinv, hseed⟩ :=
        run_invariant_of_accepted h₀ (fun s hs ↦ hwf s (List.mem_append_left _ hs)) hu
      obtain ⟨u', hok, -⟩ := update_spec hinv (hwf sketch (by simp))
        (hseed ▸ hacc sketch (by simp))
      exact ⟨u', by rw [run_concat, hu]; exact accepted_eq_ok.mpr hok⟩

/-! ## The result -/

/-- A sample of at most `k` hashes is a result. -/
theorem resultOf_of_kMin {k T : ℕ} {R : Finset ℕ} {parts : CompactSketchParts E}
    (hnd : (parts.entries.map SketchEntry.hash).Nodup)
    (h : KMin k T R parts.theta (parts.entries.map SketchEntry.hash).toFinset)
    (hR : ∀ x ∈ R, x < T) (hlen : parts.entries.length ≤ k) : ResultOf k T R parts := by
  have hcard : (parts.entries.map SketchEntry.hash).toFinset.card = parts.entries.length := by
    rw [List.toFinset_card_of_nodup hnd, List.length_map]
  obtain ⟨hle, hgt⟩ := h.canonical (hcard.trans_le hlen)
  rw [Finset.filter_true_of_mem hR] at hle hgt
  refine ⟨hnd, fun hk ↦ (hle hk).symm, fun hk ↦ ?_⟩
  have hrank := hgt hk
  exact ⟨hrank, le_antisymm hlen (hcard ▸ h.card_of_lt (hR _ hrank.mem)), h.eq_filter⟩

/-- The last selection of a result: at most `k` of the entries below the least theta. -/
theorem selectNominal_spec {k T θ : ℕ} {R : Finset ℕ} {es : List E}
    (hnd : (es.map SketchEntry.hash).Nodup)
    (h : KMin k T R θ (es.map SketchEntry.hash).toFinset) :
    ∃ es' θ', selectNominal k es θ = .ok (es', θ') ∧ (es'.map SketchEntry.hash).Nodup ∧
      es'.length ≤ k ∧ KMin k T R θ' (es'.map SketchEntry.hash).toFinset := by
  by_cases hlen : es.length > k
  · obtain ⟨es', kth, hsel, hlen', hperm, hrank⟩ := selectNthByHash_spec hnd hlen
    refine ⟨es', SketchEntry.hash kth, by rw [selectNominal, if_pos hlen, hsel]; rfl, ?_, hlen'.le, ?_⟩
    · exact (hperm.map SketchEntry.hash).nodup_iff.mpr (hnd.sublist (List.filter_sublist.map _))
    · have hfilter : (es'.map SketchEntry.hash).toFinset =
          (es.map SketchEntry.hash).toFinset.filter (· < SketchEntry.hash kth) := by
        ext x
        simp only [List.mem_toFinset, List.mem_map, hperm.mem_iff, List.mem_filter,
          decide_eq_true_eq, Finset.mem_filter]
        constructor
        · rintro ⟨e, ⟨he, hlt⟩, rfl⟩
          exact ⟨⟨e, he, rfl⟩, hlt⟩
        · rintro ⟨⟨e, he, rfl⟩, hlt⟩
          exact ⟨e, ⟨he, hlt⟩, rfl⟩
      rw [hfilter]
      exact h.cut hrank
  · exact ⟨es, θ, if_neg hlen, hnd, not_lt.mp hlen, h⟩

/-- A union that has seen no keys is in its starting state. -/
theorem RunInv.of_isEmpty {start : ℕ} (h : RunInv lgK start inputs u)
    (hwf : ∀ s ∈ inputs, s.WellFormed) (hempty : u.table.isEmpty = true) :
    allHashes inputs = ∅ ∧ u.unionTheta = minTheta start inputs := by
  have hall : allHashes inputs = ∅ := by
    rw [Finset.eq_empty_iff_forall_notMem]
    intro x hx
    obtain ⟨s, hs, hxs⟩ := mem_allHashes.mp hx
    obtain ⟨e, he, -⟩ := EntrySketch.mem_hashes.mp hxs
    rw [(hwf s hs).entries_of_empty (h.isEmpty_iff.mp hempty s hs)] at he
    cases he
  refine ⟨hall, ?_⟩
  obtain ⟨s, hsub, -, hsamp⟩ := h.tracks
  have htop : start ≤ u.table.theta := by
    by_contra hlt
    have hmem := hsub (hsamp.mem_of_lt (not_le.mp hlt))
    rw [hall] at hmem
    exact absurd hmem (Finset.notMem_empty _)
  rw [h.unionTheta_eq, min_eq_left ((minTheta_le _ _).trans htop)]

/-- The compact parts of a union, which it fails to produce only if its seed has no hash. -/
theorem toCompactParts_spec {start : ℕ} (h : RunInv lgK start inputs u)
    (hwf : ∀ s ∈ inputs, s.WellFormed) (ordered : Bool) :
    ∃ parts : CompactSketchParts E,
      u.toCompactParts ordered =
        (fun seedHash ↦ { parts with seedHash := seedHash }) <$> computeSeedHash u.table.seed ∧
      ResultOf (2 ^ lgK) (minTheta start inputs)
        ((allHashes inputs).filter (· < minTheta start inputs)) parts ∧
      (parts.ordered = true → parts.entries.Pairwise (SketchEntry.hash · < SketchEntry.hash ·)) ∧
      (parts.empty = true ↔ ∀ s ∈ inputs, s.scalars.empty = true) := by
  cases hempty : u.table.isEmpty with
  | true =>
      obtain ⟨hall, htheta⟩ := h.of_isEmpty hwf hempty
      refine ⟨⟨[], u.unionTheta, 0, true, true⟩, ?_, ?_, fun _ ↦ List.Pairwise.nil, ?_⟩
      · simp only [toCompactParts, hempty, if_true, SketchHashTable.seedHash]
        cases computeSeedHash u.table.seed <;> rfl
      · rw [hall]
        exact ⟨List.nodup_nil, fun _ ↦ ⟨rfl, htheta⟩, fun hk ↦ absurd hk (Nat.not_lt_zero _)⟩
      · simpa [hempty] using h.isEmpty_iff
  | false =>
      obtain ⟨T, hT⟩ : ∃ T, T = minTheta start inputs := ⟨_, rfl⟩
      obtain ⟨s, hsub, hall, hsamp⟩ := h.tracks
      have hR : (allHashes inputs).filter (· < T) = s.filter (· < T) := by
        ext x
        simp only [Finset.mem_filter]
        exact ⟨fun ⟨hx, hlt⟩ ↦ ⟨hall x hx (hT ▸ hlt), hlt⟩, fun ⟨hx, hlt⟩ ↦ ⟨hsub hx, hlt⟩⟩
      have htheta : min u.unionTheta u.table.theta = min T u.table.theta := by
        rw [h.unionTheta_eq, ← hT, min_assoc, min_self]
      obtain ⟨es, hes⟩ : ∃ es, es = u.table.iterEntries.filter
        (SketchEntry.hash · < min T u.table.theta) := ⟨_, rfl⟩
      -- Below its own theta the table needs no filter.
      have hfilter : (if u.unionTheta ≥ u.table.theta then u.table.iterEntries
          else u.table.iterEntries.filter (SketchEntry.hash · < min T u.table.theta)) = es := by
        split_ifs with hge
        · rw [hes, List.filter_eq_self.mpr]
          intro e he
          rw [decide_eq_true_eq, ← htheta, min_eq_right hge]
          exact (h.below e he).2
        · exact hes.symm
      have hnd : (es.map SketchEntry.hash).Nodup :=
        hes ▸ h.nodup_hashes.sublist (List.filter_sublist.map _)
      have hkmin : KMin (2 ^ lgK) T (s.filter (· < T)) (min T u.table.theta)
          (es.map SketchEntry.hash).toFinset := by
        have hrestrict := hsamp.restrict (hT ▸ minTheta_le start inputs : T ≤ start)
        rw [h.lgNomSize_eq] at hrestrict
        have hhashes : (es.map SketchEntry.hash).toFinset =
            u.table.hashes.filter (· < min T u.table.theta) := by
          ext x
          simp only [hes, SketchHashTable.hashes, List.mem_toFinset, List.mem_map,
            List.mem_filter, decide_eq_true_eq, Finset.mem_filter]
          constructor
          · rintro ⟨e, ⟨he, hlt⟩, rfl⟩
            exact ⟨⟨e, he, rfl⟩, hlt⟩
          · rintro ⟨⟨e, he, rfl⟩, hlt⟩
            exact ⟨e, ⟨he, hlt⟩, rfl⟩
        rwa [hhashes]
      obtain ⟨es', θ, hsel, hnd', hlen, hkmin'⟩ := selectNominal_spec hnd hkmin
      obtain ⟨ord, hord⟩ : ∃ ord, ord = (ordered || decide (es'.length = 1 ∧ θ = maxTheta)) :=
        ⟨_, rfl⟩
      obtain ⟨out, hout⟩ : ∃ out, out = if ord then sortByHash es' else es' := ⟨_, rfl⟩
      have hperm : out.Perm es' := by
        rw [hout]
        split_ifs
        · exact List.mergeSort_perm _ _
        · exact List.Perm.refl _
      have hset : (out.map SketchEntry.hash).toFinset = (es'.map SketchEntry.hash).toFinset :=
        List.toFinset_eq_of_perm _ _ (hperm.map _)
      refine ⟨⟨out, θ, 0, ord, false⟩, ?_, ?_, fun ho ↦ ?_, ?_⟩
      · simp only [toCompactParts, hempty, Bool.false_eq_true, if_false, SketchHashTable.seedHash,
          htheta, hfilter, Nat.one_shiftLeft, h.lgNomSize_eq, hsel, ok_bind, pure_eq_ok, ← hord,
          ← hout]
        cases computeSeedHash u.table.seed <;> rfl
      · rw [← hT, hR]
        refine resultOf_of_kMin ((hperm.map _).nodup_iff.mpr hnd') (hset ▸ hkmin')
          (fun x hx ↦ (Finset.mem_filter.mp hx).2) (hperm.length_eq.trans_le hlen)
      · change out.Pairwise _
        rw [hout, if_pos ho]
        exact pairwise_mergeSort_key hnd'
      · simpa [hempty] using h.isEmpty_iff

/-- The result of a union of well-formed sketches is a well-formed sketch of nominal size. -/
theorem wellFormed_toCompactParts {start : ℕ} (h : RunInv lgK start inputs u)
    (hwf : ∀ s ∈ inputs, s.WellFormed) {ordered : Bool} {parts : CompactSketchParts E}
    (hok : u.toCompactParts ordered = .ok parts) :
    parts.asView.WellFormed ∧ parts.theta ≤ start ∧ parts.entries.length ≤ 2 ^ lgK ∧
      computeSeedHash u.table.seed = .ok parts.seedHash := by
  obtain ⟨parts', hok', hres, hord, hempty⟩ := toCompactParts_spec h hwf ordered
  rw [hok] at hok'
  obtain ⟨sh, hsh, heq⟩ : ∃ sh, computeSeedHash u.table.seed = .ok sh ∧
      parts = { parts' with seedHash := sh } := by
    cases hsh : computeSeedHash u.table.seed with
    | error p =>
        rw [hsh] at hok'
        cases hok'
    | ok sh =>
        rw [hsh] at hok'
        cases hok'
        exact ⟨sh, rfl, rfl⟩
  subst heq
  obtain ⟨T, hT⟩ : ∃ T, T = minTheta start inputs := ⟨_, rfl⟩
  have hTle : T ≤ start := hT ▸ minTheta_le start inputs
  rw [← hT] at hres
  have hpos : ∀ x ∈ (allHashes inputs).filter (· < T), 0 < x := by
    intro x hx
    obtain ⟨s, hs, hxs⟩ := mem_allHashes.mp (Finset.mem_filter.mp hx).1
    exact ((hwf s hs).hashes_lt hxs).1
  have hcard : parts'.entries.length = (parts'.entries.map SketchEntry.hash).toFinset.card := by
    rw [List.toFinset_card_of_nodup hres.nodup, List.length_map]
  -- Both cases of the result put its hashes into `R` and below its theta.
  have hmem : ∀ e ∈ parts'.entries, SketchEntry.hash e ∈ (allHashes inputs).filter (· < T) ∧
      SketchEntry.hash e < parts'.theta := by
    intro e he
    have he' : SketchEntry.hash e ∈ (parts'.entries.map SketchEntry.hash).toFinset :=
      List.mem_toFinset.mpr (List.mem_map_of_mem he)
    rcases le_or_gt ((allHashes inputs).filter (· < T)).card (2 ^ lgK) with hle | hgt
    · obtain ⟨hset, htheta⟩ := hres.of_le hle
      rw [hset] at he'
      exact ⟨he', htheta ▸ (Finset.mem_filter.mp he').2⟩
    · rw [(hres.of_gt hgt).2.2] at he'
      exact Finset.mem_filter.mp he'
  refine ⟨⟨hres.nodup, fun e he ↦ ⟨hpos _ (hmem e he).1, (hmem e he).2⟩, hord, rfl, fun he ↦ ?_⟩,
    ?_, ?_, hsh⟩
  · have hall := hempty.mp he
    refine List.eq_nil_iff_forall_not_mem.mpr fun e hmem' ↦ ?_
    obtain ⟨s, hs, hxs⟩ := mem_allHashes.mp (Finset.mem_filter.mp (hmem e hmem').1).1
    rw [(hwf s hs).hashes_of_empty (hall s hs)] at hxs
    exact absurd hxs (Finset.notMem_empty _)
  · change parts'.theta ≤ start
    rcases le_or_gt ((allHashes inputs).filter (· < T)).card (2 ^ lgK) with hle | hgt
    · exact (hres.of_le hle).2.trans_le hTle
    · exact (Finset.mem_filter.mp (hres.of_gt hgt).1.mem).2.le.trans hTle
  · change parts'.entries.length ≤ _
    rcases le_or_gt ((allHashes inputs).filter (· < T)).card (2 ^ lgK) with hle | hgt
    · rw [hcard, (hres.of_le hle).1]
      exact hle
    · exact (hres.of_gt hgt).2.1.le

/-- What a union reads of its inputs: the theta and the hashes of each input with keys,
without their order, their form or their number. -/
def contents (inputs : List (EntrySketch E)) : Finset (ℕ × Finset ℕ) :=
  ((inputs.filter (fun s ↦ !s.scalars.empty)).map fun s ↦ (s.scalars.theta, s.hashes)).toFinset

theorem mem_contents {θ : ℕ} {r : Finset ℕ} :
    (θ, r) ∈ contents inputs ↔
      ∃ s ∈ inputs, s.scalars.empty = false ∧ s.scalars.theta = θ ∧ s.hashes = r := by
  simp [contents, and_assoc]

/-- The contents determine the least theta. -/
theorem minTheta_eq_of_contents {inputs' : List (EntrySketch E)}
    (h : contents inputs' = contents inputs) (start : ℕ) :
    minTheta start inputs' = minTheta start inputs := by
  have hlt : ∀ (l : List (EntrySketch E)) (x : ℕ), x < minTheta start l ↔
      x < start ∧ ∀ θ r, (θ, r) ∈ contents l → x < θ := by
    intro l x
    rw [lt_minTheta]
    refine and_congr_right fun _ ↦ ⟨fun hall θ r hmem ↦ ?_, fun hall s hs he ↦ ?_⟩
    · obtain ⟨s, hs, he, rfl, -⟩ := mem_contents.mp hmem
      exact hall s hs he
    · exact hall _ s.hashes (mem_contents.mpr ⟨s, hs, he, rfl, rfl⟩)
  refine eq_of_forall_lt_iff fun x ↦ ?_
  rw [hlt, hlt, h]

/-- The contents determine the hashes. -/
theorem allHashes_eq_of_contents {inputs' : List (EntrySketch E)}
    (h : contents inputs' = contents inputs) (hwf : ∀ s ∈ inputs, s.WellFormed)
    (hwf' : ∀ s ∈ inputs', s.WellFormed) : allHashes inputs' = allHashes inputs := by
  have hmem : ∀ l : List (EntrySketch E), (∀ s ∈ l, s.WellFormed) → ∀ x,
      x ∈ allHashes l ↔ ∃ θ r, (θ, r) ∈ contents l ∧ x ∈ r := by
    intro l hl x
    rw [mem_allHashes]
    constructor
    · rintro ⟨s, hs, hx⟩
      refine ⟨_, s.hashes, mem_contents.mpr ⟨s, hs, ?_, rfl, rfl⟩, hx⟩
      cases hempty : s.scalars.empty with
      | false => rfl
      | true =>
          obtain ⟨e, he, -⟩ := EntrySketch.mem_hashes.mp hx
          rw [(hl s hs).entries_of_empty hempty] at he
          cases he
    · rintro ⟨θ, r, hr, hx⟩
      obtain ⟨s, hs, -, -, rfl⟩ := mem_contents.mp hr
      exact ⟨s, hs, hx⟩
  ext x
  rw [hmem inputs' hwf', hmem inputs hwf, h]

/-- The result for given thresholds and hashes is unique. -/
theorem ResultOf.unique {k T : ℕ} {R : Finset ℕ} {parts parts' : CompactSketchParts E}
    (h : ResultOf k T R parts) (h' : ResultOf k T R parts') :
    parts'.theta = parts.theta ∧ (parts'.entries.map SketchEntry.hash).toFinset =
      (parts.entries.map SketchEntry.hash).toFinset := by
  rcases le_or_gt R.card k with hle | hgt
  · obtain ⟨hset, htheta⟩ := h.of_le hle
    obtain ⟨hset', htheta'⟩ := h'.of_le hle
    exact ⟨htheta'.trans htheta.symm, hset'.trans hset.symm⟩
  · obtain ⟨hrank, -, hset⟩ := h.of_gt hgt
    obtain ⟨hrank', -, hset'⟩ := h'.of_gt hgt
    have htheta := hrank'.unique hrank
    exact ⟨htheta, by rw [hset', hset, htheta]⟩

/-- The result of a union after any sequence of accepted sketches: with `T` the least theta
and `R` the hashes below it, all of `R` with theta `T`, or the `k` smallest hashes of `R`
with the next one as theta.  Another union of the same size and starting theta ends with the
same theta and hashes whenever its inputs have the same contents. -/
theorem union_result (lgK : ℕ) (hlgK : minLgK ≤ lgK ∧ lgK ≤ maxLgK) (rf : ResizeFactor) (p : ℚ)
    (seed : UInt64) (policy : MergePolicy E) (inputs : List (EntrySketch E))
    (hwf : ∀ s ∈ inputs, s.WellFormed) :
    ∃ u₀, UnionState.new lgK rf p seed policy = .ok u₀ ∧
      ∀ u, run (fun u s ↦ accepted (u.update s)) u₀ inputs = .ok u → ∀ ordered,
        ∃ parts : CompactSketchParts E,
          u.toCompactParts ordered =
            (fun seedHash ↦ { parts with seedHash := seedHash }) <$> computeSeedHash seed ∧
          ResultOf (2 ^ lgK) (minTheta (startingThetaFromSamplingProbability p) inputs)
            ((allHashes inputs).filter
              (· < minTheta (startingThetaFromSamplingProbability p) inputs)) parts ∧
          ∀ (rf' : ResizeFactor) (seed' : UInt64) (policy' : MergePolicy E)
            (inputs' : List (EntrySketch E)) (u₀' u' : UnionState E) (ordered' : Bool)
            (parts' : CompactSketchParts E), (∀ s ∈ inputs', s.WellFormed) →
            contents inputs' = contents inputs →
            UnionState.new lgK rf' p seed' policy' = .ok u₀' →
            run (fun u s ↦ accepted (u.update s)) u₀' inputs' = .ok u' →
            u'.toCompactParts ordered' = .ok parts' →
            parts'.theta = parts.theta ∧ (parts'.entries.map SketchEntry.hash).toFinset =
              (parts.entries.map SketchEntry.hash).toFinset := by
  obtain ⟨u₀, hnew, hseed, h₀⟩ := new_runInv hlgK.1 rf p seed policy
  refine ⟨u₀, hnew, fun u hrun ordered ↦ ?_⟩
  obtain ⟨hinv, hseed'⟩ := run_invariant_of_accepted h₀ hwf hrun
  obtain ⟨parts, hparts, hresult, -⟩ := toCompactParts_spec hinv hwf ordered
  refine ⟨parts, by rw [hparts, hseed', hseed], hresult, ?_⟩
  intro rf' seed' policy' inputs' u₀' u' ordered' parts' hwf' hcontents hnew' hrun' hparts'
  obtain ⟨u₁, hok, -, h₁⟩ := new_runInv hlgK.1 rf' p seed' policy'
  obtain rfl : u₁ = u₀' := Except.ok.inj (hok.symm.trans hnew')
  obtain ⟨parts₁, hparts₁, hresult₁, -⟩ :=
    toCompactParts_spec (run_invariant_of_accepted h₁ hwf' hrun').1 hwf' ordered'
  rw [minTheta_eq_of_contents hcontents, allHashes_eq_of_contents hcontents hwf hwf'] at hresult₁
  obtain ⟨sh, hsh⟩ : ∃ sh, parts' = { parts₁ with seedHash := sh } := by
    rw [hparts₁] at hparts'
    cases hs : computeSeedHash u'.table.seed with
    | error e =>
        rw [hs] at hparts'
        cases hparts'
    | ok sh =>
        rw [hs] at hparts'
        cases hparts'
        exact ⟨sh, rfl⟩
  subst hsh
  exact hresult.unique ⟨hresult₁.nodup, hresult₁.of_le, hresult₁.of_gt⟩

/-- Two sketches, and the same in the other order with one of them repeated. -/
theorem union_result_two :
    ∃ (inputs inputs' : List (EntrySketch ThetaEntry)) (u₀ u₀' u u' : UnionState ThetaEntry)
      (parts parts' : CompactSketchParts ThetaEntry), inputs'.length = 3 ∧
      UnionState.new 5 .x8 1 defaultUpdateSeed noopPolicy = .ok u₀ ∧
      UnionState.new 5 .x1 1 defaultUpdateSeed noopPolicy = .ok u₀' ∧
      run (fun u s ↦ accepted (u.update s)) u₀ inputs = .ok u ∧
      run (fun u s ↦ accepted (u.update s)) u₀' inputs' = .ok u' ∧
      u.toCompactParts true = .ok parts ∧ u'.toCompactParts false = .ok parts' ∧
      parts.theta = 8 ∧ parts'.theta = parts.theta := by
  let a : EntrySketch ThetaEntry :=
    ⟨⟨37836, 100, false, true, 2⟩, [⟨3, by decide⟩, ⟨9, by decide⟩]⟩
  let b : EntrySketch ThetaEntry := ⟨⟨37836, 8, false, false, 1⟩, [⟨5, by decide⟩]⟩
  have hseed : computeSeedHash defaultUpdateSeed = .ok 37836 := by decide +kernel
  have hmin : minLgK ≤ 5 := by decide
  have hwf : ∀ s ∈ [a, b], s.WellFormed := by decide
  have hwf' : ∀ s ∈ [b, a, b], s.WellFormed := by decide
  obtain ⟨u₀, hnew, hres⟩ := union_result 5 (by decide) .x8 1 defaultUpdateSeed noopPolicy [a, b] hwf
  obtain ⟨u₁, hnew₁, hseed₁, h₁⟩ := new_runInv hmin .x8 1 defaultUpdateSeed noopPolicy
  obtain rfl : u₁ = u₀ := Except.ok.inj (hnew₁.symm.trans hnew)
  obtain ⟨u, hrun⟩ := run_accepts h₁ hwf (by rw [hseed₁]; simp [EntrySketch.OfSeed, hseed, a, b])
  obtain ⟨parts, hparts, hresult, hother⟩ := hres u hrun true
  obtain ⟨u₀', hnew', hseed', h'⟩ := new_runInv hmin .x1 1 defaultUpdateSeed noopPolicy
  obtain ⟨u', hrun'⟩ := run_accepts h' hwf' (by rw [hseed']; simp [EntrySketch.OfSeed, hseed, a, b])
  have hinv' := run_invariant_of_accepted h' hwf' hrun'
  obtain ⟨parts', hparts', -⟩ := toCompactParts_spec hinv'.1 hwf' false
  rw [hinv'.2, hseed', hseed] at hparts'
  rw [hseed] at hparts
  refine ⟨_, _, u₁, u₀', u, u', _, _, rfl, hnew, hnew', hrun, hrun', hparts, hparts', ?_,
    (hother .x1 _ noopPolicy _ u₀' u' false _ hwf' (by decide) hnew' hrun' hparts').1⟩
  have hstart : startingThetaFromSamplingProbability 1 = maxTheta := if_neg (lt_irrefl 1)
  rw [hstart] at hresult
  exact (hresult.of_le (by decide)).2.trans (by decide)

end UnionState

end DataSketches
