import DataSketches.ThetaFamily.EntrySketch

/-!
# The difference of the Theta family

`ANotB.compute` is the set difference shared by Theta and Tuple sketches.  It
keeps entries of the first sketch unchanged and looks only at the hashes of the
second.  Two sorted sketches are merged, all others go through a set of keys;
`remaining_spec` says that both select the same entries.
-/

namespace DataSketches

open SketchHashTable

variable {A B : Type} [SketchEntry A] [SketchEntry B]

namespace ANotB

/-- A copy of the sketch, sorted if asked for. -/
def partsFromSketch (sketch : EntrySketch A) (ordered : Bool) : CompactSketchParts A :=
  let ⟨seedHash, theta, empty, inputOrdered, _⟩ := sketch.scalars
  { entries := if ordered && !inputOrdered && sketch.entries.length > 1
      then sortByHash sketch.entries else sketch.entries
    theta := theta, seedHash := seedHash, ordered := ordered || inputOrdered, empty := empty }

/-- The merge of two sorted sketches. -/
def mergeScan (theta : ℕ) : List A → List ℕ → List A
  | [], _ => []
  | entry :: rest, bHashes =>
      let hash := SketchEntry.hash entry
      if hash ≥ theta then []
      else
        let bHashes := bHashes.dropWhile (· < hash)
        if bHashes.head? ≠ some hash then entry :: mergeScan theta rest bHashes
        else mergeScan theta rest bHashes

/-- The loop that collects the keys of `B`. -/
def collectKeys (theta : ℕ) (bOrdered : Bool) : List ℕ → Finset ℕ
  | [] => ∅
  | hash :: rest =>
      if hash < theta then insert hash (collectKeys theta bOrdered rest)
      else if bOrdered then ∅
      else collectKeys theta bOrdered rest

/-- The loop that drops the entries of `A` with a key of `B`. -/
def withoutKeys (theta : ℕ) (aOrdered : Bool) (bKeys : Finset ℕ) : List A → List A
  | [] => []
  | entry :: rest =>
      let hash := SketchEntry.hash entry
      if hash < theta then
        if hash ∉ bKeys then entry :: withoutKeys theta aOrdered bKeys rest
        else withoutKeys theta aOrdered bKeys rest
      else if aOrdered then []
      else withoutKeys theta aOrdered bKeys rest

/-- The entries of `A` that remain, in their order. -/
def remaining (theta : ℕ) (a : EntrySketch A) (b : EntrySketch B) : List A :=
  let bHashes := b.entries.map SketchEntry.hash
  if b.scalars.numRetained = 0 then a.entries.filter (SketchEntry.hash · < theta)
  else if a.scalars.ordered && b.scalars.ordered then mergeScan theta a.entries bHashes
  else withoutKeys theta a.scalars.ordered (collectKeys theta b.scalars.ordered bHashes) a.entries

/-- Computes `a and not b` for Theta-family sketch views. -/
def compute (seedHash : ℕ) (a : EntrySketch A) (b : EntrySketch B) (ordered : Bool) :
    Except Error (CompactSketchParts A) := do
  let ⟨aSeedHash, aTheta, aEmpty, aOrdered, _⟩ := a.scalars
  if aEmpty then
    return partsFromSketch a ordered
  checkSeedHash seedHash aSeedHash "A" .invalidArgument
  let ⟨bSeedHash, bTheta, bEmpty, _, _⟩ := b.scalars
  if bEmpty then
    return partsFromSketch a ordered
  checkSeedHash seedHash bSeedHash "B" .invalidArgument
  let theta := min aTheta bTheta
  let entries := remaining theta a b
  return {
    entries := if ordered && !aOrdered && entries.length > 1 then sortByHash entries else entries
    theta := theta, seedHash := seedHash, ordered := ordered || aOrdered,
    empty := entries.isEmpty && theta = maxTheta }

/-! ## The entries that remain -/

variable {theta : ℕ} {es : List A}

/-- Past the first hash that is too large there is nothing to keep. -/
theorem filter_eq_nil_of_ordered {p : A → Prop} [DecidablePred p] {e : A}
    (hasc : (e :: es).Pairwise (SketchEntry.hash · < SketchEntry.hash ·))
    (hge : theta ≤ SketchEntry.hash e) :
    (e :: es).filter (fun e ↦ SketchEntry.hash e < theta ∧ p e) = [] := by
  rw [List.filter_eq_nil_iff]
  intro e' he'
  have hle : SketchEntry.hash e ≤ SketchEntry.hash e' := by
    rcases List.mem_cons.mp he' with rfl | he'
    · exact le_refl _
    · exact ((List.pairwise_cons.mp hasc).1 e' he').le
  rw [decide_eq_true_eq]
  omega

/-- Hashes of `B` that are passed over are below all later hashes of `A`. -/
theorem mergeScan_eq (hasc : es.Pairwise (SketchEntry.hash · < SketchEntry.hash ·)) {bs : List ℕ}
    (hbs : bs.Pairwise (· < ·)) :
    mergeScan theta es bs =
      es.filter (fun e ↦ SketchEntry.hash e < theta ∧ SketchEntry.hash e ∉ bs) := by
  induction es generalizing bs with
  | nil => rfl
  | cons e es ih =>
      obtain ⟨hhead, htail⟩ := List.pairwise_cons.mp hasc
      by_cases hge : SketchEntry.hash e ≥ theta
      · rw [filter_eq_nil_of_ordered hasc hge]
        simp only [mergeScan, if_pos hge]
      have hdrop : (bs.dropWhile (· < SketchEntry.hash e)).Pairwise (· < ·) :=
        hbs.sublist (List.dropWhile_sublist _)
      have hsplit : ∀ x, SketchEntry.hash e ≤ x →
          (x ∈ bs.dropWhile (· < SketchEntry.hash e) ↔ x ∈ bs) := by
        intro x hx
        refine ⟨fun h ↦ (List.dropWhile_sublist _).subset h, fun h ↦ ?_⟩
        rw [← List.takeWhile_append_dropWhile (p := (· < SketchEntry.hash e)) (l := bs),
          List.mem_append] at h
        refine h.resolve_left fun htake ↦ ?_
        have := List.mem_takeWhile_imp htake
        rw [decide_eq_true_eq] at this
        omega
      have hhd : (bs.dropWhile (· < SketchEntry.hash e)).head? = some (SketchEntry.hash e) ↔
          SketchEntry.hash e ∈ bs := by
        rw [← hsplit _ (le_refl _)]
        constructor
        · exact List.mem_of_mem_head?
        · intro hmem
          cases hcase : bs.dropWhile (· < SketchEntry.hash e) with
          | nil =>
              rw [hcase] at hmem
              cases hmem
          | cons b rest =>
              rw [hcase] at hmem hdrop
              have hb : ¬ b < SketchEntry.hash e := by
                have := List.head_dropWhile_not (· < SketchEntry.hash e)
                  (l := bs) (by rw [hcase]; exact List.cons_ne_nil _ _)
                simpa [hcase] using this
              rcases List.mem_cons.mp hmem with heq | hmem
              · rw [heq]
                rfl
              · exact absurd ((List.pairwise_cons.mp hdrop).1 _ hmem) hb
      have hrest : mergeScan theta es (bs.dropWhile (· < SketchEntry.hash e)) =
          es.filter (fun e ↦ SketchEntry.hash e < theta ∧ SketchEntry.hash e ∉ bs) := by
        rw [ih htail hdrop]
        refine List.filter_congr fun e' he' ↦ ?_
        rw [decide_eq_decide, hsplit _ (hhead e' he').le]
      simp only [mergeScan, if_neg hge, hrest, ne_eq, hhd, ite_not]
      by_cases hmem : SketchEntry.hash e ∈ bs
      · rw [if_pos hmem, List.filter_cons_of_neg]
        rw [decide_eq_true_eq]
        exact fun h ↦ h.2 hmem
      · rw [if_neg hmem, List.filter_cons_of_pos]
        rw [decide_eq_true_eq]
        exact ⟨not_le.mp hge, hmem⟩

/-- The keys collected are the hashes below theta. -/
theorem mem_collectKeys {bOrdered : Bool} {bs : List ℕ}
    (hord : bOrdered = true → bs.Pairwise (· < ·)) {x : ℕ} :
    x ∈ collectKeys theta bOrdered bs ↔ x ∈ bs ∧ x < theta := by
  induction bs with
  | nil => simp [collectKeys]
  | cons b bs ih =>
      have ih := ih fun ho ↦ (List.pairwise_cons.mp (hord ho)).2
      by_cases hlt : b < theta
      · rw [collectKeys, if_pos hlt, Finset.mem_insert, ih, List.mem_cons]
        constructor
        · rintro (rfl | ⟨hx, hxt⟩)
          · exact ⟨.inl rfl, hlt⟩
          · exact ⟨.inr hx, hxt⟩
        · rintro ⟨rfl | hx, hxt⟩
          · exact .inl rfl
          · exact .inr ⟨hx, hxt⟩
      · rw [collectKeys, if_neg hlt]
        split_ifs with ho
        · refine ⟨fun h ↦ absurd h (Finset.notMem_empty x), fun ⟨hx, hxt⟩ ↦ ?_⟩
          rcases List.mem_cons.mp hx with rfl | hx
          · exact absurd hxt hlt
          · have := (List.pairwise_cons.mp (hord ho)).1 x hx
            omega
        · rw [ih, List.mem_cons]
          refine ⟨fun ⟨hx, hxt⟩ ↦ ⟨.inr hx, hxt⟩, ?_⟩
          rintro ⟨rfl | hx, hxt⟩
          · exact absurd hxt hlt
          · exact ⟨hx, hxt⟩

theorem withoutKeys_eq {aOrdered : Bool} (bKeys : Finset ℕ)
    (hord : aOrdered = true → es.Pairwise (SketchEntry.hash · < SketchEntry.hash ·)) :
    withoutKeys theta aOrdered bKeys es =
      es.filter (fun e ↦ SketchEntry.hash e < theta ∧ SketchEntry.hash e ∉ bKeys) := by
  induction es with
  | nil => rfl
  | cons e es ih =>
      have ih := ih fun ho ↦ (List.pairwise_cons.mp (hord ho)).2
      by_cases hlt : SketchEntry.hash e < theta
      · by_cases hmem : SketchEntry.hash e ∉ bKeys
        · simp only [withoutKeys, if_pos hlt, if_pos hmem, ih]
          rw [List.filter_cons_of_pos (by simp [hlt, hmem])]
        · simp only [withoutKeys, if_pos hlt, if_neg hmem, ih]
          rw [List.filter_cons_of_neg (by simp [not_not.mp hmem])]
      · simp only [withoutKeys, if_neg hlt]
        split_ifs with ho
        · rw [filter_eq_nil_of_ordered (hord ho) (not_lt.mp hlt)]
        · rw [ih, List.filter_cons_of_neg (by simp [hlt])]

variable {a : EntrySketch A} {b : EntrySketch B}

/-- Whichever way they are found, the entries below theta without a hash in `B` remain. -/
theorem remaining_spec (ha : a.WellFormed) (hb : b.WellFormed) :
    remaining theta a b =
      a.entries.filter fun e ↦ SketchEntry.hash e < theta ∧ SketchEntry.hash e ∉ b.hashes := by
  have hmem : ∀ x, x ∈ b.hashes ↔ x ∈ b.entries.map SketchEntry.hash := by
    intro x
    rw [EntrySketch.mem_hashes, List.mem_map]
  have hbord : b.scalars.ordered = true → (b.entries.map SketchEntry.hash).Pairwise (· < ·) :=
    fun ho ↦ List.pairwise_map.mpr (hb.ordered ho)
  unfold remaining
  split_ifs with hzero hord
  · have hnil : b.entries = [] := List.length_eq_zero_iff.mp (hb.numRetained_eq.symm.trans hzero)
    refine List.filter_congr fun e _ ↦ ?_
    simp [hmem, hnil]
  · rw [Bool.and_eq_true] at hord
    rw [mergeScan_eq (ha.ordered hord.1) (hbord hord.2)]
    refine List.filter_congr fun e _ ↦ ?_
    rw [decide_eq_decide, hmem]
  · rw [withoutKeys_eq _ ha.ordered]
    refine List.filter_congr fun e _ ↦ ?_
    rw [decide_eq_decide, mem_collectKeys hbord, hmem]
    refine and_congr_right fun hlt ↦ not_congr (and_iff_left hlt)

/-! ## The result -/

/-- Sorting a selection of the entries of a well-formed sketch, if asked for. -/
theorem wellFormed_of_sublist (ha : a.WellFormed) {es : List A} (hsub : es.Sublist a.entries)
    {θ seedHash : ℕ} (hrange : ∀ e ∈ es, SketchEntry.hash e < θ) (ordered : Bool) {empty : Bool}
    (hempty : empty = true → es = []) :
    (CompactSketchParts.mk
      (if ordered && !a.scalars.ordered && es.length > 1 then sortByHash es else es)
      θ seedHash (ordered || a.scalars.ordered) empty).asView.WellFormed := by
  obtain ⟨out, hout⟩ : ∃ out, out =
      if ordered && !a.scalars.ordered && es.length > 1 then sortByHash es else es := ⟨_, rfl⟩
  have hperm : out.Perm es := by
    rw [hout]
    split_ifs
    · exact sortByHash_perm es
    · exact List.Perm.refl es
  have hnd : (es.map SketchEntry.hash).Nodup := ha.nodup.sublist (hsub.map _)
  rw [← hout]
  refine ⟨(hperm.map _).nodup_iff.mpr hnd, fun e he ↦ ?_, fun ho ↦ ?_, rfl, fun he ↦ ?_⟩
  · have he' := hperm.mem_iff.mp he
    exact ⟨(ha.range e (hsub.subset he')).1, hrange e he'⟩
  · change out.Pairwise _
    rw [hout]
    split_ifs with hsort
    · exact pairwise_sortByHash hnd
    · cases haord : a.scalars.ordered with
      | true => exact (ha.ordered haord).sublist hsub
      | false =>
          change (ordered || a.scalars.ordered) = true at ho
          rw [haord, Bool.or_false] at ho
          simp only [ho, haord, Bool.not_false, Bool.and_true, Bool.true_and, decide_eq_true_eq,
            not_lt] at hsort
          exact pairwise_of_length_le_one hsort
  · change out = []
    rw [hempty he] at hperm
    exact hperm.eq_nil

theorem wellFormed_partsFromSketch (ha : a.WellFormed) (ordered : Bool) :
    (partsFromSketch a ordered).asView.WellFormed :=
  wellFormed_of_sublist ha (List.Sublist.refl _) (fun e he ↦ (ha.range e he).2) ordered
    ha.entries_of_empty

/-- A result is a copy of `A`, or what remains of it below the lesser theta. -/
theorem compute_eq_ok {seedHash : ℕ} {ordered : Bool} {parts : CompactSketchParts A}
    (h : compute seedHash a b ordered = .ok parts) :
    ((a.scalars.empty = true ∨ b.scalars.empty = true) ∧ parts = partsFromSketch a ordered) ∨
      (a.scalars.empty = false ∧ b.scalars.empty = false ∧
        parts = let θ := min a.scalars.theta b.scalars.theta
          let es := remaining θ a b
          ⟨if ordered && !a.scalars.ordered && es.length > 1 then sortByHash es else es, θ,
            seedHash, ordered || a.scalars.ordered, es.isEmpty && θ = maxTheta⟩) := by
  cases haempty : a.scalars.empty with
  | true =>
      simp only [compute, haempty, if_true] at h
      cases h
      exact .inl ⟨.inl rfl, rfl⟩
  | false =>
      simp only [compute, haempty, Bool.false_eq_true, if_false] at h
      obtain ⟨-, -, h⟩ := Runs.bind_eq_ok.mp h
      cases hbempty : b.scalars.empty with
      | true =>
          rw [if_pos hbempty] at h
          cases h
          exact .inl ⟨.inr rfl, rfl⟩
      | false =>
          rw [if_neg (by rw [hbempty]; nofun)] at h
          obtain ⟨-, -, h⟩ := Runs.bind_eq_ok.mp h
          cases h
          exact .inr ⟨rfl, rfl, rfl⟩

/-- The result of two well-formed sketches is one. -/
theorem wellFormed_compute (ha : a.WellFormed) (hb : b.WellFormed) {seedHash : ℕ} {ordered : Bool}
    {parts : CompactSketchParts A} (h : compute seedHash a b ordered = .ok parts) :
    parts.asView.WellFormed := by
  rcases compute_eq_ok h with ⟨-, rfl⟩ | ⟨-, -, rfl⟩
  · exact wellFormed_partsFromSketch ha ordered
  · simp only [remaining_spec ha hb]
    refine wellFormed_of_sublist ha List.filter_sublist (fun e he ↦ ?_) ordered fun he ↦ ?_
    · exact (of_decide_eq_true (List.mem_filter.mp he).2).1
    · rw [Bool.and_eq_true, List.isEmpty_iff] at he
      exact he.1

omit [SketchEntry B] in
theorem perm_partsFromSketch (ordered : Bool) :
    (partsFromSketch a ordered).entries.Perm a.entries := by
  unfold partsFromSketch
  dsimp only
  split_ifs
  · exact sortByHash_perm _
  · exact List.Perm.refl _

/-- The result is no larger than `A`, and its seed hash is that of `A` or of the operator. -/
theorem compute_le {seedHash : ℕ} {ordered : Bool} {parts : CompactSketchParts A}
    (ha : a.WellFormed) (hb : b.WellFormed) (h : compute seedHash a b ordered = .ok parts) :
    parts.theta ≤ a.scalars.theta ∧ parts.entries.length ≤ a.entries.length ∧
      (parts.seedHash = a.scalars.seedHash ∨ parts.seedHash = seedHash) := by
  rcases compute_eq_ok h with ⟨-, rfl⟩ | ⟨-, -, rfl⟩
  · exact ⟨le_refl _, (perm_partsFromSketch ordered).length_eq.le, .inl rfl⟩
  · simp only [remaining_spec ha hb]
    refine ⟨min_le_left _ _, ?_, .inr trivial⟩
    split_ifs
    · rw [(sortByHash_perm _).length_eq]
      exact List.length_filter_le _ _
    · exact List.length_filter_le _ _

/-! ## What the difference is -/

/-- The parts are the difference of the sketches: a copy of `A` where one is empty, and else the
entries of `A` below the lesser theta whose hashes `B` does not have. -/
structure IsDifference (a : EntrySketch A) (b : EntrySketch B) (parts : CompactSketchParts A) :
    Prop where
  copied : a.scalars.empty = true ∨ b.scalars.empty = true →
    parts.entries.Perm a.entries ∧ parts.theta = a.scalars.theta ∧
      parts.empty = a.scalars.empty ∧ parts.seedHash = a.scalars.seedHash
  subtracted : a.scalars.empty = false → b.scalars.empty = false →
    parts.theta = min a.scalars.theta b.scalars.theta ∧
      parts.entries.Perm (a.entries.filter fun e ↦
        SketchEntry.hash e < parts.theta ∧ SketchEntry.hash e ∉ b.hashes)
  ascending : parts.ordered = true →
    parts.entries.Pairwise (SketchEntry.hash · < SketchEntry.hash ·)
  empty_iff : a.scalars.empty = false →
    (parts.empty = true ↔
      parts.entries = [] ∧ parts.theta = maxTheta ∧ b.scalars.empty = false)

/-- Each way to find the entries that remain selects those below theta without a hash in `B`,
where it is taken; the set of keys does so always. -/
structure PathsAgree (theta : ℕ) (a : EntrySketch A) (b : EntrySketch B) : Prop where
  noKeys : b.scalars.numRetained = 0 →
    a.entries.filter (SketchEntry.hash · < theta) =
      a.entries.filter fun e ↦ SketchEntry.hash e < theta ∧ SketchEntry.hash e ∉ b.hashes
  merged : a.scalars.ordered = true → b.scalars.ordered = true →
    mergeScan theta a.entries (b.entries.map SketchEntry.hash) =
      a.entries.filter fun e ↦ SketchEntry.hash e < theta ∧ SketchEntry.hash e ∉ b.hashes
  keyed : withoutKeys theta a.scalars.ordered
      (collectKeys theta b.scalars.ordered (b.entries.map SketchEntry.hash)) a.entries =
    a.entries.filter fun e ↦ SketchEntry.hash e < theta ∧ SketchEntry.hash e ∉ b.hashes

/-- Sketches of the seed of the operator pass its checks. -/
theorem compute_total {seed : UInt64} {seedHash : ℕ} (hseed : computeSeedHash seed = .ok seedHash)
    (hsa : a.OfSeed seed) (hsb : b.OfSeed seed) (ordered : Bool) :
    ∃ parts, compute seedHash a b ordered = .ok parts := by
  cases haempty : a.scalars.empty with
  | true =>
      simp only [compute, haempty, if_true]
      exact ⟨_, rfl⟩
  | false =>
      have hsame : a.scalars.seedHash = seedHash :=
        Except.ok.inj ((hsa.resolve_left (ne_true_of_eq_false haempty)).symm.trans hseed)
      simp only [compute, haempty, Bool.false_eq_true, if_false, hsame, checkSeedHash_self, Runs.ok_bind]
      cases hbempty : b.scalars.empty with
      | true =>
          simp only [if_true]
          exact ⟨_, rfl⟩
      | false =>
          have hsame : b.scalars.seedHash = seedHash :=
            Except.ok.inj ((hsb.resolve_left (ne_true_of_eq_false hbempty)).symm.trans hseed)
          simp only [Bool.false_eq_true, if_false, hsame, checkSeedHash_self, Runs.ok_bind]
          exact ⟨_, rfl⟩

theorem isDifference_of_eq_ok (ha : a.WellFormed) (hb : b.WellFormed) {seedHash : ℕ}
    {ordered : Bool} {parts : CompactSketchParts A}
    (h : compute seedHash a b ordered = .ok parts) : IsDifference a b parts := by
  have hwf := wellFormed_compute ha hb h
  rcases compute_eq_ok h with ⟨hempty, rfl⟩ | ⟨haempty, hbempty, rfl⟩
  · refine ⟨fun _ ↦ ⟨perm_partsFromSketch ordered, rfl, rfl, rfl⟩, fun ha' hb' ↦ ?_, hwf.ordered,
      fun ha' ↦ ?_⟩
    · rw [ha', hb'] at hempty
      exact absurd hempty (by decide)
    · have hb' : b.scalars.empty = true := hempty.resolve_left (ne_true_of_eq_false ha')
      rw [hb']
      exact iff_of_false (ne_true_of_eq_false ha') fun hno ↦ Bool.noConfusion hno.2.2
  · obtain ⟨es, hes⟩ : ∃ es, es = remaining (min a.scalars.theta b.scalars.theta) a b := ⟨_, rfl⟩
    dsimp only at hwf ⊢
    rw [← hes] at hwf ⊢
    have hperm : (if ordered && !a.scalars.ordered && es.length > 1 then sortByHash es else es).Perm
        es := by
      split_ifs
      · exact sortByHash_perm _
      · exact List.Perm.refl _
    refine ⟨fun hcopy ↦ ?_, fun _ _ ↦ ⟨rfl, ?_⟩, hwf.ordered, fun _ ↦ ?_⟩
    · rw [haempty, hbempty] at hcopy
      exact absurd hcopy (by decide)
    · exact hperm.trans (by rw [hes, remaining_spec ha hb])
    · rw [Bool.and_eq_true, List.isEmpty_iff, decide_eq_true_eq, and_iff_left hbempty]
      refine and_congr_left fun _ ↦ ⟨?_, ?_⟩
      · rintro rfl
        exact hperm.eq_nil
      · intro hnil
        exact List.length_eq_zero_iff.mp (hperm.length_eq.symm.trans (congrArg List.length hnil))

theorem pathsAgree (ha : a.WellFormed) (hb : b.WellFormed) (theta : ℕ) :
    PathsAgree theta a b where
  noKeys := by
    intro hzero
    have hkeys : remaining theta a b = _ := remaining_spec ha hb
    rwa [remaining, if_pos hzero] at hkeys
  merged := by
    intro haord hbord
    rw [mergeScan_eq (ha.ordered haord) (List.pairwise_map.mpr (hb.ordered hbord))]
    refine List.filter_congr fun e _ ↦ ?_
    rw [decide_eq_decide, EntrySketch.hashes, List.mem_toFinset]
  keyed := by
    rw [withoutKeys_eq _ ha.ordered]
    refine List.filter_congr fun e _ ↦ ?_
    rw [decide_eq_decide, EntrySketch.hashes, List.mem_toFinset,
      mem_collectKeys fun ho ↦ List.pairwise_map.mpr (hb.ordered ho)]
    exact and_congr_right fun hlt ↦ not_congr (and_iff_left hlt)

/-- Two well-formed sketches of the seed of the operator have a difference, whichever way it is
found. -/
theorem compute_isDifference (ha : a.WellFormed) (hb : b.WellFormed) {seed : UInt64} {seedHash : ℕ}
    (hseed : computeSeedHash seed = .ok seedHash) (hsa : a.OfSeed seed) (hsb : b.OfSeed seed)
    (ordered : Bool) :
    (∃ parts, compute seedHash a b ordered = .ok parts ∧ IsDifference a b parts) ∧
      ∀ theta, PathsAgree theta a b := by
  obtain ⟨parts, hparts⟩ := compute_total hseed hsa hsb ordered
  exact ⟨⟨parts, hparts, isDifference_of_eq_ok ha hb hparts⟩, pathsAgree ha hb⟩

theorem compute_isDifference_three :
    ∃ (a : EntrySketch (TupleEntry ℕ)) (b : EntrySketch ThetaEntry)
      (parts : CompactSketchParts (TupleEntry ℕ)),
      a.entries.length = 3 ∧ compute 37836 a b true = .ok parts ∧ IsDifference a b parts := by
  let a : EntrySketch (TupleEntry ℕ) := ⟨⟨37836, 100, false, false, 3⟩,
    [⟨11, by decide, 2⟩, ⟨3, by decide, 7⟩, ⟨9, by decide, 1⟩]⟩
  let b : EntrySketch ThetaEntry :=
    ⟨⟨37836, 50, false, true, 2⟩, [⟨3, by decide⟩, ⟨12, by decide⟩]⟩
  have hseed : computeSeedHash defaultUpdateSeed = .ok 37836 := by decide +kernel
  have ha : a.WellFormed := by decide
  have hb : b.WellFormed := by decide
  obtain ⟨⟨parts, hparts, hdiff⟩, -⟩ :=
    compute_isDifference ha hb hseed (.inr hseed) (.inr hseed) true
  exact ⟨a, b, parts, rfl, hparts, hdiff⟩

end ANotB

end DataSketches
