import DataSketches.ThetaFamily.EntrySketch

/-!
# The intersection of the Theta family

`IntersectionState` is the state machine shared by the Theta and Tuple
intersections.  It starts from everything; the first sketch is copied, and each
later one reduces the state to what it shares with the sketch.  The table is
built anew by every call, with just the size the retained entries need.
-/

namespace DataSketches

open Selection Runs SketchHashTable

variable {E : Type} [SketchEntry E]

/-- Generic state machine shared by Theta and Tuple intersections. -/
structure IntersectionState (E : Type) [SketchEntry E] where
  table : SketchHashTable E
  policy : MergePolicy E
  hasResult : Bool

namespace IntersectionState

/-- Creates a new intersection operator for the given seed and entry-merge policy. -/
def new (seed : UInt64) (policy : MergePolicy E) : Checked (IntersectionState E) := do
  let table ← fromRawParts 0 0 .x1 1 maxTheta seed false
  return { hasResult := false, table := table, policy := policy }

/-- A table without slots, with the theta and the emptiness of another. -/
def newDefaultTable (table : SketchHashTable E) : Checked (SketchHashTable E) :=
  fromRawParts 0 0 .x1 1 table.theta table.seed table.isEmpty

/-- A table that can hold `count` entries without a rebuild. -/
def newTableFor (table : SketchHashTable E) (count : ℕ) : Checked (SketchHashTable E) := do
  let lgSize := lgSizeFromCountForRebuild count hashTableRebuildThreshold
  assert (lgSize ≥ 1) "assertion failed: lg_size >= 1"
  fromRawParts lgSize (lgSize - 1) .x1 1 table.theta table.seed table.isEmpty

/-- The loops that fill a new table.  An entry that is not new is an error. -/
def insertAll (msg : String) :
    List E → SketchHashTable E → Checked (SketchHashTable E × Except Error Unit)
  | [], table => .ok (table, .ok ())
  | entry :: rest, table => do
      let (table, created) ← table.upsertEntry (SketchEntry.hash entry) id (some entry)
      if created then insertAll msg rest table
      else return (table, .error (.invalidArgument msg))

/-- The loop that matches the entries of a sketch with those of the table.  It counts the
entries it has seen. -/
def matchEntries (policy : MergePolicy E) (table : SketchHashTable E) (maxMatches : ℕ)
    (ordered : Bool) : List E → List E → ℕ → Except Error (List E × ℕ)
  | [], matched, count => .ok (matched, count)
  | entry :: rest, matched, count =>
      let hash := SketchEntry.hash entry
      if hash < table.theta then
        match table.entry hash with
        | some existing =>
            if matched.length = maxMatches then
              .error (.invalidArgument
                "max matches exceeded, possibly corrupted input sketch")
            else
              matchEntries policy table maxMatches ordered rest
                (matched ++ [policy.merge existing entry]) (count + 1)
        | none => matchEntries policy table maxMatches ordered rest matched (count + 1)
      else if ordered then .ok (matched, count)
      else matchEntries policy table maxMatches ordered rest matched (count + 1)

/-- The part of `update` that copies the first sketch. -/
def copyFirst (i : IntersectionState E) (sketch : EntrySketch E) :
    Checked (IntersectionState E × Except Error Unit) := do
  let numRetained := sketch.scalars.numRetained
  let table ← newTableFor i.table numRetained
  let (table, result) ← insertAll
    "Insert entries from sketch fail, possibly corrupted input sketch" sketch.entries table
  let i := { i with hasResult := true, table := table }
  match result with
  | .error e => return (i, .error e)
  | .ok () =>
      if i.table.numRetained ≠ numRetained then
        return (i, .error (.invalidArgument "num entries mismatch, possibly corrupted input sketch"))
      else return (i, .ok ())

/-- The part of `update` that matches a later sketch. -/
def matchNext (i : IntersectionState E) (sketch : EntrySketch E) :
    Checked (IntersectionState E × Except Error Unit) := do
  let ⟨_, _, _, ordered, numRetained⟩ := sketch.scalars
  let maxMatches := min i.table.numRetained numRetained
  match matchEntries i.policy i.table maxMatches ordered sketch.entries [] 0 with
  | .error e => return (i, .error e)
  | .ok (matchedEntries, count) =>
      if count > numRetained then
        return (i, .error (.invalidArgument
          "more keys than expected, possibly corrupted input sketch"))
      else if !ordered ∧ count < numRetained then
        return (i, .error (.invalidArgument
          "fewer keys than expected, possibly corrupted input sketch"))
      else if matchedEntries.isEmpty then
        let table ← newDefaultTable i.table
        return ({ i with table :=
          if table.theta = maxTheta then { table with isEmpty := true } else table }, .ok ())
      else
        let table ← newTableFor i.table matchedEntries.length
        let (table, result) ← insertAll "duplicate key, possibly corrupted input sketch"
          matchedEntries table
        return ({ i with table := table }, result)

/-- The part of `update` after the checks of emptiness and seed. -/
def narrow (i : IntersectionState E) (sketch : EntrySketch E) :
    Checked (IntersectionState E × Except Error Unit) := do
  let table ← i.table.setTheta
    (if i.table.isEmpty then maxTheta else min i.table.theta sketch.scalars.theta)
  let i := { i with table := table }
  if i.hasResult ∧ i.table.numRetained = 0 then
    return (i, .ok ())
  if sketch.scalars.numRetained = 0 then
    let table ← newDefaultTable i.table
    return ({ i with hasResult := true, table := table }, .ok ())
  if !i.hasResult then i.copyFirst sketch else i.matchNext sketch

/-- Updates the intersection with a given sketch. -/
def update (i : IntersectionState E) (sketch : EntrySketch E) :
    Checked (IntersectionState E × Except Error Unit) := do
  if i.table.isEmpty then
    return (i, .ok ())
  if sketch.scalars.empty then
    narrow { i with table := { i.table with isEmpty := true } } sketch
  else
    match checkSeedHash (← i.table.seedHash) sketch.scalars.seedHash "intersection update"
      .invalidArgument with
    | .error e => return (i, .error e)
    | .ok () => narrow i sketch

/-- Returns the current intersection state as compact-sketch parts. -/
def toCompactParts (i : IntersectionState E) (ordered : Bool) : Checked (CompactSketchParts E) := do
  let entries := i.table.iterEntries
  let entries := if ordered then sortByHash entries else entries
  return { entries := entries, theta := i.table.theta, seedHash := ← i.table.seedHash,
           ordered := ordered, empty := i.table.isEmpty }

/-! ## The new tables -/

/-- The size chosen for `count` entries holds them below the rebuild threshold. -/
theorem lgSizeFromCountForRebuild_spec (count : ℕ) :
    ∃ lgSize, lgSizeFromCountForRebuild count hashTableRebuildThreshold = lgSize ∧ 1 ≤ lgSize ∧
      count ≤ 15 * 2 ^ lgSize / 16 := by
  have hlog : count < 2 ^ (Nat.log2 count + 1) := Nat.lt_log2_self
  have hfloor : ⌊((1 <<< (Nat.log2 count + 1) : ℕ) : ℚ) * hashTableRebuildThreshold⌋₊ =
      15 * 2 ^ (Nat.log2 count + 1) / 16 := by
    rw [Nat.one_shiftLeft, hashTableRebuildThreshold, mul_comm, div_mul_eq_mul_div]
    exact_mod_cast Nat.floor_div_eq_div (K := ℚ) (15 * 2 ^ (Nat.log2 count + 1)) 16
  have hif : (if count = 0 then 0 else Nat.log2 count) = Nat.log2 count := by
    split_ifs with h
    · rw [h]
      rfl
    · rfl
  refine ⟨_, rfl, ?_, ?_⟩
  · rw [lgSizeFromCountForRebuild]
    split_ifs <;> omega
  · simp only [lgSizeFromCountForRebuild, hif, hfloor]
    split_ifs with hgt
    · rw [show Nat.log2 count + 2 = Nat.log2 count + 1 + 1 from rfl, pow_succ]
      omega
    · exact not_lt.mp hgt

/-- A new table for `count` entries is empty and can hold them. -/
theorem newTableFor_spec (table : SketchHashTable E) (count : ℕ) :
    ∃ t : SketchHashTable E, newTableFor table count = .ok t ∧ Inv t ∧ t.iterEntries = [] ∧
      t.lgNomSize < t.lgCurSize ∧ count ≤ t.capacityThreshold ∧ t.theta = table.theta ∧
      t.seed = table.seed ∧ t.isEmpty = table.isEmpty := by
  obtain ⟨lg, hlg, hpos, hcount⟩ := lgSizeFromCountForRebuild_spec count
  have hsucc : lg - 1 + 1 = lg := Nat.sub_add_cancel hpos
  let t : SketchHashTable E :=
    { lgCurSize := lg, lgNomSize := lg - 1, lgMaxSize := lg - 1 + 1, resizeFactor := .x1,
      samplingProbability := 1, seed := table.seed, isEmpty := table.isEmpty,
      theta := table.theta, entries := List.replicate (2 ^ lg) none, numRetained := 0 }
  have hgt : t.lgNomSize < t.lgCurSize := Nat.sub_lt hpos one_pos
  refine ⟨t, ?_, inv_of_no_entries rfl rfl hpos rfl hsucc.ge
    (fun hle ↦ absurd hle (not_le.mpr hgt)), by simp [iterEntries, t], hgt, ?_, rfl, rfl, rfl⟩
  · simp only [newTableFor, hlg, assert_pos hpos, fromRawParts, assert_pos hsucc.ge, ok_bind,
      pure_eq_ok, Nat.one_shiftLeft]
    rw [if_pos (show lg > 0 from hpos)]
  · rw [capacityThreshold_of_gt hgt]
    change count ≤ 15 * (List.replicate (2 ^ lg) (none : Option E)).length / 16
    rw [List.length_replicate]
    exact hcount

/-- Filling a full-size table with new entries succeeds while they stay below the threshold. -/
theorem insertAll_spec (msg : String) {es : List E} {t : SketchHashTable E} (h : Inv t)
    (hfull : t.lgNomSize < t.lgCurSize) (hnd : (es.map SketchEntry.hash).Nodup)
    (hnew : ∀ e ∈ es, SketchEntry.hash e ∉ t.hashes)
    (hrange : ∀ e ∈ es, 0 < SketchEntry.hash e ∧ SketchEntry.hash e < t.theta)
    (hroom : t.numRetained + es.length ≤ t.capacityThreshold) :
    ∃ t', insertAll msg es t = .ok (t', .ok ()) ∧ Inv t' ∧ SameConfig t t' ∧
      t'.retained = es + t.retained ∧ t'.theta = t.theta ∧
      (t.isEmpty = false → t'.isEmpty = false) := by
  induction es generalizing t with
  | nil => exact ⟨t, rfl, h, SameConfig.refl t, (zero_add _).symm, rfl, id⟩
  | cons e es ih =>
      obtain ⟨t₁, b, hok, hinv, hcfg, hempty₁, hout⟩ := upsertEntry_spec h (SketchEntry.hash e)
        id (some e) (fun _ ↦ rfl) (fun e' he' ↦ by cases he'; rfl)
      rw [List.length_cons] at hroom
      have hrange₀ := hrange e List.mem_cons_self
      have hnew₀ := hnew e List.mem_cons_self
      -- The table has room, so the entry is added without a rebuild.
      obtain ⟨rfl, hret, htheta⟩ : b = true ∧ t₁.retained = e ::ₘ t.retained ∧
          t₁.theta = t.theta := by
        cases hout with
        | screened hs => exact absurd hs (by omega)
        | existing e' _ hmem hkey =>
            exact absurd (SketchHashTable.mem_hashes.mpr ⟨e', hmem, hkey⟩) hnew₀
        | declined _ _ hnone => cases hnone
        | inserted e' _ _ hsome hret htheta =>
            cases hsome
            exact ⟨rfl, hret, htheta⟩
        | rebuilt _ _ _ _ _ _ hover => exact absurd hover (by omega)
      have hnum : t₁.numRetained = t.numRetained + 1 := by
        rw [hinv.numRetained_eq, h.numRetained_eq]
        exact (Multiset.coe_eq_coe.mp hret).length_eq
      have hfull₁ : t₁.lgNomSize < t₁.lgCurSize := by
        rw [hcfg.lgNomSize_eq]
        exact hfull.trans_le hcfg.lgCurSize_le
      have hcap := capacityThreshold_eq h hinv hcfg hfull
      have hhashes : t₁.hashes = insert (SketchEntry.hash e) t.hashes := by
        rw [hashes_eq, hret, Multiset.map_cons, Multiset.toFinset_cons, ← hashes_eq]
      obtain ⟨hnotin, hnd'⟩ := List.nodup_cons.mp hnd
      obtain ⟨t', hok', hinv', hcfg', hret', htheta', hempty'⟩ := ih hinv hfull₁ hnd'
        (fun e' he' hmem ↦ by
          rw [hhashes, Finset.mem_insert] at hmem
          rcases hmem with heq | hmem
          · exact hnotin (heq ▸ List.mem_map_of_mem he')
          · exact hnew e' (List.mem_cons_of_mem _ he') hmem)
        (fun e' he' ↦ htheta.symm ▸ hrange e' (List.mem_cons_of_mem _ he'))
        (by rw [hnum, hcap]; omega)
      refine ⟨t', ?_, hinv', hcfg.trans hcfg', ?_, htheta'.trans htheta, fun _ ↦ hempty' hempty₁⟩
      · rw [insertAll, hok]
        exact hok'
      · rw [hret', hret, ← Multiset.cons_coe, Multiset.cons_add, Multiset.add_cons]

/-- A list of new entries becomes the content of a table made for it. -/
theorem newTableFor_insertAll (msg : String) (table : SketchHashTable E) (es : List E)
    (hempty : table.isEmpty = false) (hnd : (es.map SketchEntry.hash).Nodup)
    (hrange : ∀ e ∈ es, 0 < SketchEntry.hash e ∧ SketchEntry.hash e < table.theta) :
    ∃ t t', newTableFor table es.length = .ok t ∧ insertAll msg es t = .ok (t', .ok ()) ∧
      Inv t' ∧ t'.retained = es ∧ t'.theta = table.theta ∧ t'.seed = table.seed ∧
      t'.isEmpty = false := by
  obtain ⟨t, hnew, hinv, hentries, hfull, hcap, htheta, hseed, hemp⟩ :=
    newTableFor_spec table es.length
  have hhashes : t.hashes = ∅ := by rw [SketchHashTable.hashes, hentries]; rfl
  obtain ⟨t', hok, hinv', hcfg, hret, htheta', hempty'⟩ := insertAll_spec msg hinv hfull hnd
    (fun e _ ↦ by rw [hhashes]; exact Finset.notMem_empty _)
    (fun e he ↦ htheta.symm ▸ hrange e he)
    (by rw [hinv.numRetained_eq, hentries, List.length_nil, Nat.zero_add]; exact hcap)
  refine ⟨t, t', hnew, hok, hinv', ?_, htheta'.trans htheta, hcfg.seed_eq.trans hseed,
    hempty' (hemp.trans hempty)⟩
  rw [hret, SketchHashTable.retained, hentries]
  exact add_zero _

/-! ## Matching -/

/-- What the state retains for an entry of a later sketch. -/
def matched (policy : MergePolicy E) (t : SketchHashTable E) (entry : E) : Option E :=
  if SketchEntry.hash entry < t.theta then
    (t.entry (SketchEntry.hash entry)).map (policy.merge · entry)
  else none

/-- The matching loop keeps the matched entries, and counts all entries of a sketch without
an order. -/
theorem matchEntries_spec (policy : MergePolicy E) (t : SketchHashTable E) {maxMatches : ℕ}
    {ordered : Bool} {es acc : List E} {c : ℕ}
    (hord : ordered = true → es.Pairwise (SketchEntry.hash · < SketchEntry.hash ·))
    (hmax : acc.length + (es.filterMap (matched policy t)).length ≤ maxMatches) :
    ∃ count, matchEntries policy t maxMatches ordered es acc c =
        .ok (acc ++ es.filterMap (matched policy t), count) ∧ count ≤ c + es.length ∧
      (ordered = false → count = c + es.length) := by
  induction es generalizing acc c with
  | nil => exact ⟨c, by simp [matchEntries], le_refl _, fun _ ↦ rfl⟩
  | cons e es ih =>
      have hord' := fun ho ↦ (List.pairwise_cons.mp (hord ho)).2
      have hlen : (e :: es).length = es.length + 1 := rfl
      by_cases hlt : SketchEntry.hash e < t.theta
      · cases hentry : t.entry (SketchEntry.hash e) with
        | none =>
            have hnone : matched policy t e = none := by simp [matched, hentry]
            rw [List.filterMap_cons_none hnone] at hmax ⊢
            obtain ⟨count, hok, hle, heq⟩ := ih (c := c + 1) hord' hmax
            refine ⟨count, ?_, by omega, fun ho ↦ by have := heq ho; omega⟩
            rw [matchEntries, if_pos hlt, hentry]
            exact hok
        | some existing =>
            have hsome : matched policy t e = some (policy.merge existing e) := by
              simp [matched, hlt, hentry]
            rw [List.filterMap_cons_some hsome] at hmax ⊢
            rw [List.length_cons] at hmax
            obtain ⟨count, hok, hle, heq⟩ := @ih (acc ++ [policy.merge existing e])
              (c + 1) hord' (by rw [List.length_append, List.length_singleton]; omega)
            refine ⟨count, ?_, by omega, fun ho ↦ by have := heq ho; omega⟩
            rw [matchEntries, if_pos hlt, hentry]
            simp only [if_neg (show ¬ acc.length = maxMatches by omega), hok, List.append_assoc,
              List.singleton_append]
      · have hnone : matched policy t e = none := by simp [matched, hlt]
        rw [List.filterMap_cons_none hnone] at hmax ⊢
        by_cases ho : ordered = true
        · -- All later hashes are larger still.
          have hrest : es.filterMap (matched policy t) = [] := by
            rw [List.filterMap_eq_nil_iff]
            intro e' he'
            have hlt' := (List.pairwise_cons.mp (hord ho)).1 e' he'
            rw [matched, if_neg]
            omega
          refine ⟨c, ?_, by omega, fun hf ↦ ?_⟩
          · rw [matchEntries, if_neg hlt, if_pos ho, hrest, List.append_nil]
          · rw [hf] at ho
            cases ho
        · obtain ⟨count, hok, hle, heq⟩ := ih (c := c + 1) hord' hmax
          refine ⟨count, ?_, by omega, fun ho ↦ by have := heq ho; omega⟩
          rw [matchEntries, if_neg hlt, if_neg ho, hok]

/-! ## What an intersection is to compute -/

/-- An entry is the left fold of the merge policy over the entries with its hash, one in each
input. -/
def FoldOf (policy : MergePolicy E) (inputs : List (EntrySketch E)) (e : E) : Prop :=
  ∃ e₁ es, inputs.map (fun s ↦ s.entries.find? (SketchEntry.hash · = SketchEntry.hash e)) =
      (e₁ :: es).map some ∧ e = es.foldl policy.merge e₁

/-- Some input is empty, or the first inputs are all exact, none of them in estimation mode,
and share no hash. -/
def EmptyReason (inputs : List (EntrySketch E)) : Prop :=
  (∃ s ∈ inputs, s.scalars.empty = true) ∨
    ∃ first, first <+: inputs ∧ first ≠ [] ∧ (∀ s ∈ first, maxTheta ≤ s.scalars.theta) ∧
      ∀ x, ∃ s ∈ first, x ∉ s.hashes

/-- The state of an intersection after the given inputs. -/
structure ResultOf (policy : MergePolicy E) (inputs : List (EntrySketch E))
    (i : IntersectionState E) : Prop where
  /-- The hashes of all inputs below all thetas are retained, once each. -/
  mem_iff : ∀ x, x ∈ i.table.hashes ↔
    (∀ s ∈ inputs, x ∈ s.hashes) ∧ ∀ s ∈ inputs, x < s.scalars.theta
  nodup : (i.table.iterEntries.map SketchEntry.hash).Nodup
  numRetained_eq : i.table.numRetained = i.table.iterEntries.length
  /-- Theta is the least theta of the inputs. -/
  theta_isLeast : i.table.isEmpty = false →
    IsLeast {θ | ∃ s ∈ inputs, s.scalars.theta = θ} i.table.theta
  of_isEmpty : i.table.isEmpty = true → i.table.theta = maxTheta ∧ i.table.iterEntries = []
  emptyReason : i.table.isEmpty = true → EmptyReason inputs
  /-- Each retained entry is merged from the inputs in the order of the calls. -/
  foldOf : ∀ e ∈ i.table.retained, FoldOf policy inputs e

/-- The invariant of a run. -/
structure RunInv (seed : UInt64) (policy : MergePolicy E) (inputs : List (EntrySketch E))
    (i : IntersectionState E) : Prop where
  seed_eq : i.table.seed = seed
  policy_eq : i.policy = policy
  hasResult_iff : i.hasResult = true ↔ inputs ≠ []
  numRetained_eq : i.table.numRetained = i.table.iterEntries.length
  inv : i.table.numRetained ≠ 0 → Inv i.table
  theta_range : 1 ≤ i.table.theta ∧ i.table.theta ≤ maxTheta
  theta_of_nil : inputs = [] → i.table.theta = maxTheta
  theta_isLeast : inputs ≠ [] → i.table.isEmpty = false →
    IsLeast {θ | ∃ s ∈ inputs, s.scalars.theta = θ} i.table.theta
  of_isEmpty : i.table.isEmpty = true →
    i.table.theta = maxTheta ∧ i.table.numRetained = 0 ∧ EmptyReason inputs
  mem_iff : inputs ≠ [] → ∀ x, x ∈ i.table.hashes ↔ ∀ s ∈ inputs, x ∈ s.hashes
  foldOf : ∀ e ∈ i.table.retained, FoldOf policy inputs e

variable {policy : MergePolicy E} {t : SketchHashTable E} {seed : UInt64} {inputs : List (EntrySketch E)} {i : IntersectionState E}
  {sketch : EntrySketch E}

theorem EmptyReason.concat (h : EmptyReason inputs) (s : EntrySketch E) :
    EmptyReason (inputs ++ [s]) := by
  rcases h with ⟨s', hs', he⟩ | ⟨first, hpre, hrest⟩
  · exact .inl ⟨s', List.mem_append_left _ hs', he⟩
  · exact .inr ⟨first, hpre.trans (List.prefix_append _ _), hrest⟩

theorem EmptyReason.ne_nil (h : EmptyReason inputs) : inputs ≠ [] := by
  rintro rfl
  rcases h with ⟨s, hs, -⟩ | ⟨first, hpre, hne, -⟩
  · cases hs
  · exact hne (List.prefix_nil.mp hpre)

/-- If there is a reason for an empty result, no hash is common to all inputs. -/
theorem EmptyReason.not_common (h : EmptyReason inputs) (hwf : ∀ s ∈ inputs, s.WellFormed)
    (x : ℕ) : ¬ ∀ s ∈ inputs, x ∈ s.hashes := by
  intro hall
  rcases h with ⟨s, hs, he⟩ | ⟨first, hpre, -, -, hnone⟩
  · have hx := hall s hs
    rw [(hwf s hs).hashes_of_empty he] at hx
    exact Finset.notMem_empty x hx
  · obtain ⟨s, hs, hx⟩ := hnone x
    exact hx (hall s (hpre.subset hs))

/-- Merging the entry of one more input. -/
theorem FoldOf.concat {existing entry : E} (h : FoldOf policy inputs existing)
    (hfind : sketch.entries.find? (SketchEntry.hash · = SketchEntry.hash existing) = some entry) :
    FoldOf policy (inputs ++ [sketch]) (policy.merge existing entry) := by
  obtain ⟨e₁, es, hmap, rfl⟩ := h
  refine ⟨e₁, es ++ [entry], ?_, by rw [List.foldl_append]; rfl⟩
  rw [policy.hash_merge, List.map_append, hmap, List.map_singleton, hfind, ← List.cons_append,
    List.map_append]
  rfl

/-- In a sketch with distinct hashes each entry is found by its hash. -/
theorem find?_hash {es : List E} (hnd : (es.map SketchEntry.hash).Nodup) {e : E} (he : e ∈ es) :
    es.find? (SketchEntry.hash · = SketchEntry.hash e) = some e := by
  induction es with
  | nil => cases he
  | cons e' es ih =>
      obtain ⟨hnotin, hnd'⟩ := List.nodup_cons.mp hnd
      rcases List.mem_cons.mp he with rfl | he
      · simp
      · have hne : SketchEntry.hash e' ≠ SketchEntry.hash e :=
          fun heq ↦ hnotin (heq ▸ List.mem_map_of_mem he)
        rw [List.find?_cons_of_neg (by simpa using hne)]
        exact ih hnd' he

/-! ## One call -/

section Match

variable {θ : ℕ} (h : Inv t)
include h

/-- An entry is matched by the retained entry with its hash. -/
theorem matched_eq_some_iff {entry e' : E} :
    matched policy { t with theta := θ } entry = some e' ↔
      SketchEntry.hash entry < θ ∧ ∃ existing ∈ t.retained,
        SketchEntry.hash existing = SketchEntry.hash entry ∧ policy.merge existing entry = e' := by
  have hentry : ∀ x, SketchHashTable.entry { t with theta := θ } x = t.entry x := fun _ ↦ rfl
  simp only [matched, hentry]
  constructor
  · intro hm
    split_ifs at hm with hlt
    obtain ⟨existing, hex, rfl⟩ := Option.map_eq_some_iff.mp hm
    obtain ⟨hmem, hkey⟩ := h.entry_eq_some_iff.mp hex
    exact ⟨hlt, existing, hmem, hkey, rfl⟩
  · rintro ⟨hlt, existing, hmem, hkey, rfl⟩
    rw [if_pos hlt, h.entry_eq_some_iff.mpr ⟨hmem, hkey⟩]
    rfl

theorem hash_matched {entry e' : E} (hm : matched policy { t with theta := θ } entry = some e') :
    SketchEntry.hash e' = SketchEntry.hash entry := by
  obtain ⟨-, existing, -, hkey, rfl⟩ := (matched_eq_some_iff h).mp hm
  rw [policy.hash_merge, hkey]

/-- The matched entries have the hashes of a part of the sketch. -/
theorem matched_sublist (es : List E) :
    ((es.filterMap (matched policy { t with theta := θ })).map SketchEntry.hash).Sublist
      (es.map SketchEntry.hash) := by
  induction es with
  | nil => exact List.Sublist.refl _
  | cons e es ih =>
      cases hm : matched policy { t with theta := θ } e with
      | none =>
          rw [List.filterMap_cons_none hm]
          exact ih.cons _
      | some e' =>
          rw [List.filterMap_cons_some hm, List.map_cons, List.map_cons, hash_matched h hm]
          exact ih.cons_cons _

/-- The matched hashes are those shared by the table and the sketch, below theta. -/
theorem mem_matched {es : List E} {x : ℕ} :
    x ∈ (es.filterMap (matched policy { t with theta := θ })).map SketchEntry.hash ↔
      x < θ ∧ x ∈ t.hashes ∧ x ∈ es.map SketchEntry.hash := by
  simp only [List.mem_map, List.mem_filterMap, SketchHashTable.mem_hashes]
  constructor
  · rintro ⟨e', ⟨entry, hmem, hm⟩, rfl⟩
    obtain ⟨hlt, existing, hex, hkey, rfl⟩ := (matched_eq_some_iff h).mp hm
    rw [policy.hash_merge]
    exact ⟨hkey ▸ hlt, ⟨existing, hex, rfl⟩, entry, hmem, hkey.symm⟩
  · rintro ⟨hlt, ⟨existing, hex, hkey⟩, entry, hmem, rfl⟩
    exact ⟨policy.merge existing entry,
      ⟨entry, hmem, (matched_eq_some_iff h).mpr ⟨hlt, existing, hex, hkey, rfl⟩⟩,
      (policy.hash_merge _ _).trans hkey⟩

/-- There are at most as many matches as entries on either side. -/
theorem length_matched_le (policy : MergePolicy E) (θ : ℕ) {es : List E} (hnd : (es.map SketchEntry.hash).Nodup) :
    (es.filterMap (matched policy { t with theta := θ })).length ≤
      min t.numRetained es.length := by
  refine le_min (le_trans ?_ h.card_hashes.le) (List.length_filterMap_le _ _)
  rw [← List.length_map (f := SketchEntry.hash),
    ← List.toFinset_card_of_nodup (hnd.sublist (matched_sublist h es))]
  exact Finset.card_le_card fun x hx ↦ ((mem_matched h).mp (List.mem_toFinset.mp hx)).2.1

end Match

omit [SketchEntry E] in
theorem newDefaultTable_eq (table : SketchHashTable E) :
    newDefaultTable table = .ok {
      lgCurSize := 0, lgNomSize := 0, lgMaxSize := 1, resizeFactor := .x1,
      samplingProbability := 1, seed := table.seed, isEmpty := table.isEmpty,
      theta := table.theta, entries := [], numRetained := 0 } := rfl

/-- A sketch meets the range that a theta can be set to, unless the state or the sketch is
empty. -/
def Meets (i : IntersectionState E) (s : EntrySketch E) : Prop :=
  i.table.isEmpty = true ∨ s.scalars.empty = true ∨
    (1 ≤ s.scalars.theta ∧ s.scalars.theta ≤ maxTheta)

/-- The least theta of the inputs and one more sketch. -/
theorem RunInv.isLeast_concat (h : RunInv seed policy inputs i) (hempty : i.table.isEmpty = false)
    (hle : sketch.scalars.theta ≤ maxTheta) :
    IsLeast {θ | ∃ s ∈ inputs ++ [sketch], s.scalars.theta = θ}
      (min i.table.theta sketch.scalars.theta) := by
  by_cases hnil : inputs = []
  · subst hnil
    rw [h.theta_of_nil rfl, min_eq_right hle]
    exact ⟨⟨sketch, by simp, rfl⟩, by rintro _ ⟨s, hs, rfl⟩; simp at hs; rw [hs]⟩
  · obtain ⟨⟨s₀, hs₀, hθ₀⟩, hleast⟩ := h.theta_isLeast hnil hempty
    constructor
    · rcases min_choice i.table.theta sketch.scalars.theta with hmin | hmin
      · exact ⟨s₀, List.mem_append_left _ hs₀, hθ₀.trans hmin.symm⟩
      · exact ⟨sketch, by simp, hmin.symm⟩
    · rintro _ ⟨s, hs, rfl⟩
      rcases List.mem_append.mp hs with hs | hs
      · exact (min_le_left _ _).trans (hleast ⟨s, hs, rfl⟩)
      · rw [List.mem_singleton.mp hs]
        exact min_le_right _ _

/-- A state that retains nothing, after a sketch that shares no hash with the inputs. -/
theorem runInv_of_no_entries {i' : IntersectionState E} (h : RunInv seed policy inputs i)
    (hseed : i'.table.seed = i.table.seed)
    (hpolicy : i'.policy = i.policy) (hresult : i'.hasResult = true)
    (hnum : i'.table.numRetained = 0) (hentries : i'.table.iterEntries = [])
    (hempty : i.table.isEmpty = false)
    (htheta : i'.table.theta = min i.table.theta sketch.scalars.theta)
    (hrange : 1 ≤ sketch.scalars.theta ∧ sketch.scalars.theta ≤ maxTheta)
    (hreason : i'.table.isEmpty = true → i'.table.theta = maxTheta ∧
      EmptyReason (inputs ++ [sketch]))
    (hnone : ∀ x, ¬ ∀ s ∈ inputs ++ [sketch], x ∈ s.hashes) :
    RunInv seed policy (inputs ++ [sketch]) i' where
  seed_eq := hseed.trans h.seed_eq
  policy_eq := hpolicy.trans h.policy_eq
  hasResult_iff := by simp [hresult]
  numRetained_eq := by rw [hnum, hentries]; rfl
  inv := fun hne ↦ absurd hnum hne
  theta_range := by
    rw [htheta]
    exact ⟨le_min h.theta_range.1 hrange.1, (min_le_left _ _).trans h.theta_range.2⟩
  theta_of_nil := fun hnil ↦ absurd hnil (by simp)
  theta_isLeast := fun _ _ ↦ htheta ▸ h.isLeast_concat hempty hrange.2
  of_isEmpty := fun he ↦ ⟨(hreason he).1, hnum, (hreason he).2⟩
  mem_iff := fun _ x ↦ by
    rw [SketchHashTable.hashes, hentries]
    exact ⟨fun hx ↦ absurd hx (Finset.notMem_empty x), fun hall ↦ absurd hall (hnone x)⟩
  foldOf := fun e he ↦ by
    rw [SketchHashTable.retained, hentries] at he
    exact absurd he (Multiset.notMem_zero e)

/-- A state flagged empty, after one more sketch. -/
theorem runInv_of_isEmpty {i' : IntersectionState E} (h : RunInv seed policy inputs i)
    (hwf : ∀ s ∈ inputs ++ [sketch], s.WellFormed) (hseed : i'.table.seed = i.table.seed)
    (hpolicy : i'.policy = i.policy) (hresult : i'.hasResult = true)
    (hnum : i'.table.numRetained = 0) (hentries : i'.table.iterEntries = [])
    (hempty : i'.table.isEmpty = true) (htheta : i'.table.theta = maxTheta)
    (hreason : EmptyReason (inputs ++ [sketch])) :
    RunInv seed policy (inputs ++ [sketch]) i' where
  seed_eq := hseed.trans h.seed_eq
  policy_eq := hpolicy.trans h.policy_eq
  hasResult_iff := by simp [hresult]
  numRetained_eq := by rw [hnum, hentries]; rfl
  inv := fun hne ↦ absurd hnum hne
  theta_range := by rw [htheta]; decide
  theta_of_nil := fun hnil ↦ absurd hnil (by simp)
  theta_isLeast := fun _ he ↦ by rw [hempty] at he; cases he
  of_isEmpty := fun _ ↦ ⟨htheta, hnum, hreason⟩
  mem_iff := fun _ x ↦ by
    rw [SketchHashTable.hashes, hentries]
    exact ⟨fun hx ↦ absurd hx (Finset.notMem_empty x),
      fun hall ↦ absurd hall (hreason.not_common hwf x)⟩
  foldOf := fun e he ↦ by
    rw [SketchHashTable.retained, hentries] at he
    exact absurd he (Multiset.notMem_zero e)

/-- A state that retains the entries `es`, each merged from all inputs. -/
theorem runInv_of_entries {i' : IntersectionState E} {es : List E}
    (h : RunInv seed policy inputs i) (hseed : i'.table.seed = i.table.seed)
    (hpolicy : i'.policy = i.policy) (hresult : i'.hasResult = true) (hinv : Inv i'.table)
    (hret : i'.table.retained = es) (hempty : i.table.isEmpty = false)
    (hempty' : i'.table.isEmpty = false)
    (htheta : i'.table.theta = min i.table.theta sketch.scalars.theta)
    (hrange : 1 ≤ sketch.scalars.theta ∧ sketch.scalars.theta ≤ maxTheta)
    (hmem : ∀ x, x ∈ es.map SketchEntry.hash ↔ ∀ s ∈ inputs ++ [sketch], x ∈ s.hashes)
    (hfold : ∀ e ∈ es, FoldOf policy (inputs ++ [sketch]) e) :
    RunInv seed policy (inputs ++ [sketch]) i' where
  seed_eq := hseed.trans h.seed_eq
  policy_eq := hpolicy.trans h.policy_eq
  hasResult_iff := by simp [hresult]
  numRetained_eq := hinv.numRetained_eq
  inv := fun _ ↦ hinv
  theta_range := by
    rw [htheta]
    exact ⟨le_min h.theta_range.1 hrange.1, (min_le_left _ _).trans h.theta_range.2⟩
  theta_of_nil := fun hnil ↦ absurd hnil (by simp)
  theta_isLeast := fun _ _ ↦ htheta ▸ h.isLeast_concat hempty hrange.2
  of_isEmpty := fun he ↦ by rw [hempty'] at he; cases he
  mem_iff := fun _ x ↦ by
    rw [← hmem, hashes_eq, hret, Multiset.map_coe, List.toFinset_coe, List.mem_toFinset]
  foldOf := fun e he ↦ by
    rw [hret] at he
    exact hfold e he

/-- The hashes common to the inputs of a state that retains nothing. -/
theorem RunInv.not_common (h : RunInv seed policy inputs i) (hne : inputs ≠ [])
    (hnum : i.table.numRetained = 0) (x : ℕ) : ¬ ∀ s ∈ inputs, x ∈ s.hashes := by
  rw [← h.mem_iff hne, SketchHashTable.hashes,
    List.length_eq_zero_iff.mp (h.numRetained_eq.symm.trans hnum)]
  exact Finset.notMem_empty x

omit [SketchEntry E] in
theorem setTheta_of_mem {t : SketchHashTable E} {θ : ℕ} (h : 1 ≤ θ ∧ θ ≤ maxTheta) :
    t.setTheta θ = .ok { t with theta := θ } := by
  rw [setTheta, assert_pos h]
  rfl

/-- Copying the first sketch. -/
theorem copyFirst_spec (h : RunInv seed policy [] i) (hs : sketch.WellFormed)
    (hne : sketch.scalars.numRetained ≠ 0) (hempty : i.table.isEmpty = false)
    (hrange : 1 ≤ sketch.scalars.theta ∧ sketch.scalars.theta ≤ maxTheta) :
    ∃ i', copyFirst { i with table := { i.table with
        theta := min i.table.theta sketch.scalars.theta } } sketch = .ok (i', .ok ()) ∧
      RunInv seed policy [sketch] i' := by
  have hmax : i.table.theta = maxTheta := h.theta_of_nil rfl
  have hmin : min i.table.theta sketch.scalars.theta = sketch.scalars.theta := by
    rw [hmax, min_eq_right hrange.2]
  obtain ⟨t, t', hnew, hok, hinv, hret, htheta, hseed, hempty'⟩ := newTableFor_insertAll
    "Insert entries from sketch fail, possibly corrupted input sketch"
    { i.table with theta := min i.table.theta sketch.scalars.theta } sketch.entries
    hempty hs.nodup
    (by rw [hmin]; exact hs.range)
  have hcount : t'.numRetained = sketch.scalars.numRetained := by
    rw [hinv.numRetained_eq, hs.numRetained_eq]
    exact (Multiset.coe_eq_coe.mp hret).length_eq
  refine ⟨{ i with hasResult := true, table := t' }, ?_, ?_⟩
  · simp only [copyFirst, hs.numRetained_eq, hnew, hok, ok_bind, pure_eq_ok]
    rw [if_neg (by rw [hcount, hs.numRetained_eq]; exact not_not.mpr rfl)]
  · refine runInv_of_entries h hseed rfl rfl hinv hret hempty hempty' htheta
      hrange (fun x ↦ ?_) fun e he ↦ ?_
    · simp [EntrySketch.hashes]
    · refine ⟨e, [], ?_, rfl⟩
      rw [List.nil_append, List.map_singleton, find?_hash hs.nodup he]
      rfl

/-- Matching a later sketch. -/
theorem matchNext_spec (h : RunInv seed policy inputs i) (hne : inputs ≠ [])
    (hwf : ∀ s ∈ inputs ++ [sketch], s.WellFormed)
    (hnum : i.table.numRetained ≠ 0) (hempty : i.table.isEmpty = false)
    (hrange : 1 ≤ sketch.scalars.theta ∧ sketch.scalars.theta ≤ maxTheta) :
    ∃ i', matchNext { i with table := { i.table with
        theta := min i.table.theta sketch.scalars.theta } } sketch = .ok (i', .ok ()) ∧
      RunInv seed policy (inputs ++ [sketch]) i' := by
  have hinv := h.inv hnum
  have hs := hwf sketch (by simp)
  have hresult : i.hasResult = true := h.hasResult_iff.mpr hne
  obtain ⟨θ, hθ⟩ : ∃ θ, θ = min i.table.theta sketch.scalars.theta := ⟨_, rfl⟩
  obtain ⟨es, hes⟩ : ∃ es, es = sketch.entries.filterMap
    (matched i.policy { i.table with theta := θ }) := ⟨_, rfl⟩
  rw [← hθ]
  have hlen := length_matched_le hinv i.policy θ hs.nodup
  rw [← hs.numRetained_eq] at hlen
  obtain ⟨count, hok, hle, heq⟩ := @matchEntries_spec _ _ i.policy
    { i.table with theta := θ } (min i.table.numRetained sketch.scalars.numRetained) _ _ [] 0
    hs.ordered (by rw [List.length_nil, Nat.zero_add]; exact hlen)
  rw [List.nil_append, ← hes] at hok
  rw [Nat.zero_add, ← hs.numRetained_eq] at hle heq
  -- The matched hashes are those common to all inputs.
  have hmem : ∀ x, x ∈ es.map SketchEntry.hash ↔ ∀ s ∈ inputs ++ [sketch], x ∈ s.hashes := by
    intro x
    rw [hes, mem_matched hinv, h.mem_iff hne]
    simp only [List.mem_append, List.mem_singleton, or_imp, forall_and, forall_eq]
    rw [EntrySketch.hashes, List.mem_toFinset, and_iff_right_of_imp]
    rintro ⟨hall, hx⟩
    rw [hθ, lt_min_iff]
    exact ⟨(hinv.mem_hashes_below ((h.mem_iff hne x).mpr hall)).2,
      (hs.hashes_lt (List.mem_toFinset.mpr hx)).2⟩
  cases hnil : es.isEmpty with
  | true =>
      have hes₀ : es = [] := List.isEmpty_iff.mp hnil
      have hnone : ∀ x, ¬ ∀ s ∈ inputs ++ [sketch], x ∈ s.hashes := by
        intro x
        rw [← hmem, hes₀]
        exact List.not_mem_nil
      let t₀ : SketchHashTable E := {
        lgCurSize := 0, lgNomSize := 0, lgMaxSize := 1, resizeFactor := .x1,
        samplingProbability := 1, seed := i.table.seed, isEmpty := i.table.isEmpty,
        theta := θ, entries := [], numRetained := 0 }
      refine ⟨{ i with table := if t₀.theta = maxTheta then { t₀ with isEmpty := true } else t₀ },
        ?_, ?_⟩
      · simp only [matchNext, hok, if_neg (not_lt.mpr hle), hnil, if_true, newDefaultTable_eq,
          ok_bind, pure_eq_ok]
        rw [if_neg fun hc ↦ hc.2.ne (heq (by simpa using hc.1))]
      · by_cases htop : θ = maxTheta
        · rw [if_pos (show t₀.theta = maxTheta from htop)]
          have hleast := (h.isLeast_concat hempty hrange.2).2
          rw [← hθ, htop] at hleast
          refine runInv_of_isEmpty h hwf rfl rfl hresult rfl rfl rfl htop
            (.inr ⟨inputs ++ [sketch], List.prefix_refl _, by simp,
              fun s hs ↦ hleast ⟨s, hs, rfl⟩, fun x ↦ ?_⟩)
          simpa using hnone x
        · rw [if_neg (show ¬ t₀.theta = maxTheta from htop)]
          refine runInv_of_no_entries h rfl rfl hresult rfl rfl hempty hθ hrange
            (fun he ↦ ?_) hnone
          exact absurd (hempty.symm.trans he) (by decide)
  | false =>
      obtain ⟨t, t', hnew, hok', hinv', hret, htheta, hseed, hempty'⟩ := newTableFor_insertAll
        "duplicate key, possibly corrupted input sketch" { i.table with theta := θ } es hempty
        (hs.nodup.sublist (hes ▸ matched_sublist hinv sketch.entries)) (fun e he ↦ by
          obtain ⟨hlt, hx, -⟩ := (mem_matched hinv).mp
            (hes ▸ List.mem_map_of_mem he)
          exact ⟨(hinv.mem_hashes_below hx).1, hlt⟩)
      refine ⟨{ i with table := t' }, ?_, ?_⟩
      · simp only [matchNext, hok, if_neg (not_lt.mpr hle), hnil, Bool.false_eq_true, if_false,
          hnew, hok', ok_bind, pure_eq_ok]
        rw [if_neg fun hc ↦ hc.2.ne (heq (by simpa using hc.1))]
      · refine runInv_of_entries h hseed rfl hresult hinv' hret hempty hempty' (htheta.trans hθ)
          hrange hmem fun e he ↦ ?_
        obtain ⟨entry, hentry, hm⟩ := List.mem_filterMap.mp (hes ▸ he)
        obtain ⟨-, existing, hex, hkey, rfl⟩ := (matched_eq_some_iff hinv).mp hm
        rw [h.policy_eq]
        exact (h.foldOf existing hex).concat (hkey ▸ find?_hash hs.nodup hentry)

/-- The hashes common to the inputs, one of which retains nothing. -/
theorem not_common_of_numRetained (hs : sketch.WellFormed)
    (hnum : sketch.scalars.numRetained = 0) (x : ℕ) :
    ¬ ∀ s ∈ inputs ++ [sketch], x ∈ s.hashes := by
  intro hall
  have hnil := List.length_eq_zero_iff.mp (hs.numRetained_eq.symm.trans hnum)
  have hx := hall sketch (by simp)
  rw [EntrySketch.hashes, hnil] at hx
  exact Finset.notMem_empty x hx

/-- Narrowing a state by a sketch with keys. -/
theorem narrow_spec (h : RunInv seed policy inputs i) (hwf : ∀ s ∈ inputs ++ [sketch], s.WellFormed)
    (hempty : i.table.isEmpty = false)
    (hrange : 1 ≤ sketch.scalars.theta ∧ sketch.scalars.theta ≤ maxTheta) :
    ∃ i', i.narrow sketch = .ok (i', .ok ()) ∧ RunInv seed policy (inputs ++ [sketch]) i' := by
  have hs := hwf sketch (by simp)
  have hset : i.table.setTheta (if i.table.isEmpty then maxTheta
      else min i.table.theta sketch.scalars.theta) =
      .ok { i.table with theta := min i.table.theta sketch.scalars.theta } := by
    rw [hempty, if_neg (by simp)]
    exact setTheta_of_mem ⟨le_min h.theta_range.1 hrange.1,
      (min_le_left _ _).trans h.theta_range.2⟩
  have hnarrow : i.narrow sketch =
      (if i.hasResult ∧ i.table.numRetained = 0 then
        .ok ({ i with table := { i.table with
          theta := min i.table.theta sketch.scalars.theta } }, .ok ())
      else if sketch.scalars.numRetained = 0 then do
        let table ← newDefaultTable { i.table with
          theta := min i.table.theta sketch.scalars.theta }
        return ({ i with hasResult := true, table := table }, .ok ())
      else if !i.hasResult then
        copyFirst { i with table := { i.table with
          theta := min i.table.theta sketch.scalars.theta } } sketch
      else
        matchNext { i with table := { i.table with
          theta := min i.table.theta sketch.scalars.theta } } sketch) := by
    rw [narrow, hset]
    rfl
  rw [hnarrow]
  by_cases hdone : i.hasResult = true ∧ i.table.numRetained = 0
  · rw [if_pos hdone]
    have hne := h.hasResult_iff.mp hdone.1
    have hnil : i.table.iterEntries = [] :=
      List.length_eq_zero_iff.mp (h.numRetained_eq.symm.trans hdone.2)
    refine ⟨_, rfl, runInv_of_no_entries h rfl rfl hdone.1 hdone.2 hnil hempty rfl hrange
      (fun he ↦ absurd (hempty.symm.trans he) (by decide)) fun x hall ↦ ?_⟩
    exact h.not_common hne hdone.2 x fun s hs ↦ hall s (List.mem_append_left _ hs)
  · rw [if_neg hdone]
    by_cases hnum : sketch.scalars.numRetained = 0
    · rw [if_pos hnum, newDefaultTable_eq]
      exact ⟨_, rfl, runInv_of_no_entries h rfl rfl rfl rfl rfl hempty rfl hrange
        (fun he ↦ absurd (hempty.symm.trans he) (by decide)) (not_common_of_numRetained hs hnum)⟩
    · rw [if_neg hnum]
      by_cases hresult : i.hasResult = true
      · rw [if_neg (by simp [hresult])]
        exact matchNext_spec h (h.hasResult_iff.mp hresult) hwf
          (fun hzero ↦ hdone ⟨hresult, hzero⟩) hempty hrange
      · rw [if_pos (by simpa using hresult)]
        have hnil : inputs = [] := by
          by_contra hne
          exact hresult (h.hasResult_iff.mpr hne)
        subst hnil
        exact copyFirst_spec h hs hnum hempty hrange

/-- Narrowing a state by a sketch without keys. -/
theorem narrow_empty (h : RunInv seed policy inputs i) (hwf : ∀ s ∈ inputs ++ [sketch], s.WellFormed)
    (hs : sketch.scalars.empty = true) :
    ∃ i', narrow { i with table := { i.table with isEmpty := true } } sketch = .ok (i', .ok ()) ∧
      RunInv seed policy (inputs ++ [sketch]) i' := by
  have hreason : EmptyReason (inputs ++ [sketch]) := .inl ⟨sketch, by simp, hs⟩
  have hnum : sketch.scalars.numRetained = 0 := by
    have hwf' := hwf sketch (by simp)
    rw [hwf'.numRetained_eq, hwf'.entries_of_empty hs]
    rfl
  have hset : setTheta { i.table with isEmpty := true } maxTheta =
      .ok { i.table with isEmpty := true, theta := maxTheta } := setTheta_of_mem (by decide)
  have hnarrow : narrow { i with table := { i.table with isEmpty := true } } sketch =
      (if i.hasResult ∧ i.table.numRetained = 0 then
        .ok ({ i with table := { i.table with isEmpty := true, theta := maxTheta } }, .ok ())
      else do
        let table ← newDefaultTable { i.table with isEmpty := true, theta := maxTheta }
        return ({ i with hasResult := true, table := table }, .ok ())) := by
    simp only [narrow, if_true, hset, hnum]
    rfl
  rw [hnarrow]
  by_cases hdone : i.hasResult = true ∧ i.table.numRetained = 0
  · rw [if_pos hdone]
    exact ⟨_, rfl, runInv_of_isEmpty h hwf rfl rfl hdone.1 hdone.2
      (List.length_eq_zero_iff.mp (h.numRetained_eq.symm.trans hdone.2)) rfl rfl hreason⟩
  · rw [if_neg hdone, newDefaultTable_eq]
    exact ⟨_, rfl, runInv_of_isEmpty h hwf rfl rfl rfl rfl rfl rfl rfl hreason⟩

/-- A call with a well-formed sketch of the seed of the operator succeeds and keeps the
invariant, if it meets the range of thetas. -/
theorem update_spec (h : RunInv seed policy inputs i) (hwf : ∀ s ∈ inputs ++ [sketch], s.WellFormed)
    (hseed : i.table.isEmpty = false → sketch.OfSeed seed) (hmeets : Meets i sketch) :
    ∃ i', i.update sketch = .ok (i', .ok ()) ∧ RunInv seed policy (inputs ++ [sketch]) i' := by
  cases hempty : i.table.isEmpty with
  | true =>
      obtain ⟨htheta, hnum, hreason⟩ := h.of_isEmpty hempty
      refine ⟨i, by rw [update, if_pos hempty]; rfl, runInv_of_isEmpty h hwf rfl rfl
        (h.hasResult_iff.mpr hreason.ne_nil) hnum ?_ hempty htheta (hreason.concat sketch)⟩
      exact List.length_eq_zero_iff.mp (h.numRetained_eq.symm.trans hnum)
  | false =>
      cases hs : sketch.scalars.empty with
      | true =>
          obtain ⟨i', hok, hinv⟩ := narrow_empty h hwf hs
          refine ⟨i', ?_, hinv⟩
          rw [update, if_neg (by simp [hempty]), if_pos hs]
          exact hok
      | false =>
          have hrange : 1 ≤ sketch.scalars.theta ∧ sketch.scalars.theta ≤ maxTheta := by
            rcases hmeets with he | he | hr
            · rw [hempty] at he
              cases he
            · rw [hs] at he
              cases he
            · exact hr
          have hsh : computeSeedHash i.table.seed = .ok sketch.scalars.seedHash := by
            rw [h.seed_eq]
            exact (hseed hempty).resolve_left (by rw [hs]; nofun)
          obtain ⟨i', hok, hinv⟩ := narrow_spec h hwf hempty hrange
          refine ⟨i', ?_, hinv⟩
          simp only [update, hempty, hs, Bool.false_eq_true, if_false, SketchHashTable.seedHash, hsh,
            ok_bind, checkSeedHash_self, hok, pure_eq_ok]

/-- A sketch that is looked at and accepted is of the seed of the operator, and has a theta. -/
theorem of_update_accepted {i' : IntersectionState E} (hok : i.update sketch = .ok (i', .ok ()))
    (hempty : i.table.isEmpty = false) (hs : sketch.scalars.empty = false) :
    sketch.OfSeed i.table.seed ∧ 1 ≤ sketch.scalars.theta := by
  simp only [update, hempty, hs, Bool.false_eq_true, if_false, SketchHashTable.seedHash] at hok
  obtain ⟨sh, hsh, hok⟩ := bind_eq_ok.mp hok
  cases hcheck : checkSeedHash sh sketch.scalars.seedHash "intersection update" .invalidArgument with
  | error e =>
      rw [hcheck] at hok
      cases hok
  | ok _ =>
      rw [hcheck] at hok
      obtain ⟨t, ht, -⟩ := bind_eq_ok.mp hok
      refine ⟨.inr (by rw [hsh, checkSeedHash_eq_ok.mp hcheck]), ?_⟩
      by_contra hzero
      rw [if_neg (by rw [hempty]; nofun), SketchHashTable.setTheta, assert_neg (by omega)] at ht
      cases ht

/-- An accepted sketch keeps the invariant, if its theta does not exceed the maximum. -/
theorem RunInv.of_accepted {i' : IntersectionState E} (h : RunInv seed policy inputs i)
    (hwf : ∀ s ∈ inputs ++ [sketch], s.WellFormed) (htheta : sketch.scalars.theta ≤ maxTheta)
    (hok : i.update sketch = .ok (i', .ok ())) : RunInv seed policy (inputs ++ [sketch]) i' := by
  have hconds : (i.table.isEmpty = false → sketch.OfSeed seed) ∧ Meets i sketch := by
    cases hempty : i.table.isEmpty with
    | true => exact ⟨nofun, .inl hempty⟩
    | false =>
        cases hs : sketch.scalars.empty with
        | true => exact ⟨fun _ ↦ .inl hs, .inr (.inl hs)⟩
        | false =>
            obtain ⟨hseed, hpos⟩ := of_update_accepted hok hempty hs
            exact ⟨fun _ ↦ h.seed_eq ▸ hseed, .inr (.inr ⟨hpos, htheta⟩)⟩
  obtain ⟨i'', hok', hinv'⟩ := update_spec h hwf hconds.1 hconds.2
  rw [hok] at hok'
  cases hok'
  exact hinv'

/-! ## Runs -/

/-- A new operator has seen nothing. -/
theorem new_runInv (seed : UInt64) (policy : MergePolicy E) :
    ∃ i, IntersectionState.new seed policy = .ok i ∧ RunInv seed policy [] i ∧
      i.table.isEmpty = false := by
  refine ⟨_, rfl, ⟨rfl, rfl, by simp, rfl, fun hne ↦ absurd rfl hne,
    show 1 ≤ maxTheta ∧ maxTheta ≤ maxTheta by decide, fun _ ↦ rfl,
    fun hne ↦ absurd rfl hne, fun he ↦ ?_, fun hne ↦ absurd rfl hne, fun e he ↦ ?_⟩, rfl⟩
  · cases he
  · exact absurd he (Multiset.notMem_zero e)

/-- What the invariant says about the state after some input. -/
theorem RunInv.resultOf (h : RunInv seed policy inputs i) (hne : inputs ≠ [])
    (hwf : ∀ s ∈ inputs, s.WellFormed) : ResultOf policy inputs i where
  mem_iff := fun x ↦ by
    rw [h.mem_iff hne, and_iff_left_of_imp]
    exact fun hall s hs ↦ ((hwf s hs).hashes_lt (hall s hs)).2
  nodup := by
    by_cases hnum : i.table.numRetained = 0
    · rw [List.length_eq_zero_iff.mp (h.numRetained_eq.symm.trans hnum)]
      exact List.nodup_nil
    · exact (h.inv hnum).nodup_hashes
  numRetained_eq := h.numRetained_eq
  theta_isLeast := h.theta_isLeast hne
  of_isEmpty := fun he ↦ ⟨(h.of_isEmpty he).1,
    List.length_eq_zero_iff.mp (h.numRetained_eq.symm.trans (h.of_isEmpty he).2.1)⟩
  emptyReason := fun he ↦ (h.of_isEmpty he).2.2
  foldOf := h.foldOf

/-- The result of an intersection of well-formed sketches is a well-formed sketch, no larger
than any of them.  An empty result reports the maximum theta. -/
theorem wellFormed_toCompactParts (h : RunInv seed policy inputs i) (hne : inputs ≠ [])
    (hwf : ∀ s ∈ inputs, s.WellFormed) {ordered : Bool} {parts : CompactSketchParts E}
    (hok : i.toCompactParts ordered = .ok parts) :
    parts.asView.WellFormed ∧ parts.theta ≤ maxTheta ∧
      (∀ s ∈ inputs, parts.entries.length ≤ s.entries.length) ∧
      (parts.empty = true → parts.theta = maxTheta) ∧ computeSeedHash seed = .ok parts.seedHash := by
  have hres := h.resultOf hne hwf
  obtain ⟨sh, hsh, hok⟩ := bind_eq_ok.mp hok
  cases hok
  obtain ⟨out, hout⟩ : ∃ out, out =
      if ordered then sortByHash i.table.iterEntries else i.table.iterEntries := ⟨_, rfl⟩
  have hperm : out.Perm i.table.iterEntries := by
    rw [hout]
    split_ifs
    · exact sortByHash_perm _
    · exact List.Perm.refl _
  rw [← hout]
  refine ⟨⟨(hperm.map _).nodup_iff.mpr hres.nodup, fun e he ↦ ?_, fun ho ↦ ?_, rfl, fun he ↦ ?_⟩,
    h.theta_range.2, fun s hs ↦ ?_, fun he ↦ (hres.of_isEmpty he).1, ?_⟩
  · have hmem : SketchEntry.hash e ∈ i.table.hashes :=
      SketchHashTable.mem_hashes.mpr ⟨e, hperm.mem_iff.mp he, rfl⟩
    obtain ⟨hall, hlt⟩ := (hres.mem_iff _).mp hmem
    obtain ⟨s, hs⟩ := List.exists_mem_of_ne_nil inputs hne
    refine ⟨((hwf s hs).hashes_lt (hall s hs)).1, ?_⟩
    cases hempty : i.table.isEmpty with
    | true =>
        rw [SketchHashTable.hashes, (hres.of_isEmpty hempty).2] at hmem
        exact absurd hmem (Finset.notMem_empty _)
    | false =>
        obtain ⟨⟨s', hs', htheta⟩, -⟩ := hres.theta_isLeast hempty
        exact htheta ▸ hlt s' hs'
  · change out.Pairwise _
    change ordered = true at ho
    rw [hout, if_pos ho]
    exact pairwise_sortByHash hres.nodup
  · change out = []
    rw [(hres.of_isEmpty he).2] at hperm
    exact hperm.eq_nil
  · change out.length ≤ _
    have hlen : out.length = i.table.hashes.card := by
      rw [SketchHashTable.hashes, List.toFinset_card_of_nodup hres.nodup, List.length_map,
        hperm.length_eq]
    rw [hlen, ← (hwf s hs).numRetained_eq, ← (hwf s hs).card_hashes]
    exact Finset.card_le_card fun x hx ↦ ((hres.mem_iff x).mp hx).1 s hs
  · rw [← h.seed_eq]
    exact hsh

/-- In a run each of whose steps meets the range of thetas, every call succeeds, and the state
reached is the intersection of the inputs.  A sketch that is not empty but has a theta of zero,
as sampling with a tiny probability gives, does not meet it. -/
theorem intersection_result (seed : UInt64) (policy : MergePolicy E) (inputs : List (EntrySketch E))
    (hne : inputs ≠ []) (hwf : ∀ s ∈ inputs, s.WellFormed) (hseed : ∀ s ∈ inputs, s.OfSeed seed)
    (hmeets : ∀ first s i₀ i, first ++ [s] <+: inputs →
      IntersectionState.new seed policy = .ok i₀ →
      run (fun i s ↦ accepted (i.update s)) i₀ first = .ok i → Meets i s) :
    ∃ i₀ i, IntersectionState.new seed policy = .ok i₀ ∧
      run (fun i s ↦ accepted (i.update s)) i₀ inputs = .ok i ∧ ResultOf policy inputs i := by
  obtain ⟨i₀, hnew, h₀, -⟩ := new_runInv seed policy
  have hrun : ∀ first, first <+: inputs → ∃ i,
      run (fun i s ↦ accepted (i.update s)) i₀ first = .ok i ∧ RunInv seed policy first i := by
    intro first
    induction first using List.reverseRecOn with
    | nil => exact fun _ ↦ ⟨i₀, rfl, h₀⟩
    | append_singleton first s ih =>
        intro hpre
        obtain ⟨i, hi, hinv⟩ := ih ((List.prefix_append first [s]).trans hpre)
        obtain ⟨i', hok, hinv'⟩ := update_spec hinv (fun s hs ↦ hwf s (hpre.subset hs))
          (fun _ ↦ hseed s (hpre.subset (by simp))) (hmeets first s i₀ i hpre hnew hi)
        exact ⟨i', by rw [run_concat, hi]; exact accepted_eq_ok.mpr hok, hinv'⟩
  obtain ⟨i, hi, hinv⟩ := hrun inputs (List.prefix_refl inputs)
  exact ⟨i₀, i, hnew, hi, hinv.resultOf hne hwf⟩

/-- Three sketches, the first two sharing two hashes and the last empty. -/
theorem intersection_result_three :
    ∃ (a b c : EntrySketch ThetaEntry) (i₀ i : IntersectionState ThetaEntry),
      IntersectionState.new defaultUpdateSeed noopPolicy = .ok i₀ ∧
      run (fun i s ↦ accepted (i.update s)) i₀ [a, b, c] = .ok i ∧
      ResultOf noopPolicy [a, b, c] i := by
  let a : EntrySketch ThetaEntry :=
    ⟨⟨37836, 100, false, true, 3⟩, [⟨3, by decide⟩, ⟨9, by decide⟩, ⟨11, by decide⟩]⟩
  let b : EntrySketch ThetaEntry :=
    ⟨⟨37836, 50, false, false, 2⟩, [⟨11, by decide⟩, ⟨3, by decide⟩]⟩
  let c : EntrySketch ThetaEntry := ⟨⟨0, maxTheta, true, true, 0⟩, []⟩
  have hseed : computeSeedHash defaultUpdateSeed = .ok 37836 := by decide +kernel
  have hall : ∀ s ∈ [a, b, c], s.WellFormed ∧ (s.scalars.empty = true ∨
      (1 ≤ s.scalars.theta ∧ s.scalars.theta ≤ maxTheta)) := by decide
  obtain ⟨i₀, i, hnew, hrun, hres⟩ := intersection_result defaultUpdateSeed noopPolicy [a, b, c]
    (by decide) (fun s hs ↦ (hall s hs).1) (by simp [EntrySketch.OfSeed, hseed, a, b, c])
    fun first s i₀ i hpre _ _ ↦ .inr (hall s (hpre.subset (by simp))).2
  exact ⟨a, b, c, i₀, i, hnew, hrun, hres⟩

/-- A sketch sampled with probability `2 ^ -100` has a theta of zero, and after its first value it
is no longer empty. -/
theorem exists_theta_zero :
    ∃ t₀ t : SketchHashTable ThetaEntry,
      SketchHashTable.new 12 .x8 (1 / 2 ^ 100) defaultUpdateSeed = .ok t₀ ∧
      t₀.upsertEntry 5 id (some ⟨5, by decide⟩) = .ok (t, false) ∧
      (t.asView 37836).WellFormed ∧ (t.asView 37836).scalars = ⟨37836, 0, false, false, 0⟩ := by
  obtain ⟨t₀, hnew, hinv, hentries, htheta, -⟩ :=
    new_spec (E := ThetaEntry) (show minLgK ≤ 12 + 1 by decide) .x8 (1 / 2 ^ 100) defaultUpdateSeed
  have hzero : t₀.theta = 0 := by
    rw [htheta, startingThetaFromSamplingProbability, if_pos (by norm_num), Nat.floor_eq_zero]
    norm_num
  have hnum : t₀.numRetained = 0 := by
    rw [hinv.numRetained_eq, hentries]
    rfl
  refine ⟨t₀, { t₀ with isEmpty := false }, hnew, by simp [SketchHashTable.upsertEntry, hzero],
    (hinv.setUsed false).wellFormed_asView nofun _, ?_⟩
  change SketchScalars.mk 37836 t₀.theta false false t₀.numRetained = _
  rw [hzero, hnum]

/-- A sketch sampled with probability `2 ^ -100` has a theta of zero.  After its first value it
is no longer empty, and the intersection panics on it. -/
theorem intersection_panics :
    ∃ (t₀ t : SketchHashTable ThetaEntry) (i₀ : IntersectionState ThetaEntry),
      SketchHashTable.new 12 .x8 (1 / 2 ^ 100) defaultUpdateSeed = .ok t₀ ∧
      t₀.upsertEntry 5 id (some ⟨5, by decide⟩) = .ok (t, false) ∧
      (t.asView 37836).WellFormed ∧ (t.asView 37836).OfSeed defaultUpdateSeed ∧
      IntersectionState.new defaultUpdateSeed noopPolicy = .ok i₀ ∧
      i₀.update (t.asView 37836) =
        .error (.assertion "theta must be in [1, 9223372036854775807]") := by
  have hseed : computeSeedHash defaultUpdateSeed = .ok 37836 := by decide +kernel
  obtain ⟨t₀, t, hnew, hupsert, hwf, hscalars⟩ := exists_theta_zero
  refine ⟨t₀, t, _, hnew, hupsert, hwf, .inr ?_, rfl, ?_⟩
  · rw [hscalars, hseed]
  · simp only [update, narrow, hscalars, SketchHashTable.seedHash, hseed, ok_bind, checkSeedHash_self,
      Bool.false_eq_true, if_false, setTheta, Nat.min_zero]
    rfl

end IntersectionState

end DataSketches
