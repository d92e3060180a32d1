import DataSketches.CountMin.Serialization

/-!
# Runs of CountMin sketches

A script says how a sketch is made.  The total dominates every counter in every
run, through merges, halvings and decays, so a sketch with a total of zero has no
counter to lose.  The converse fails: weights can cancel, and small counters are
halved to zero before their total is.
-/

namespace DataSketches

namespace CountMinSketch

open Runs

/-- How a sketch is made. -/
inductive Script (T : Type) {t : CountMinType} (sc : Scaling t) where
  | build (numHashes : UInt8) (numBuckets : UInt32) (seed : UInt64)
  | update (s : Script T sc) (item : T) (weight : CountMinValue t)
  | merge (s s' : Script T sc)
  | halve (hu : t.isSigned = false) (s : Script T sc)
  | decay (hu : t.isSigned = false) (factor : sc.Factor) (s : Script T sc)
  /-- Serialize, then deserialize. -/
  | reload (s : Script T sc)

/-- A call that may panic. -/
def checked {α : Type} (x : Checked α) : Except Fault α := x.mapError .panic

theorem checked_eq_ok {α : Type} {x : Checked α} {a : α} : checked x = .ok a ↔ x = .ok a := by
  cases x <;> simp [checked, Except.mapError]

namespace Script

variable {T : Type} {t : CountMinType} {sc : Scaling t}

/-- Makes the sketch.  A counter or a total that overflows is a panic. -/
def eval [Hash T] : Script T sc → Except Fault (CountMinSketch t)
  | build numHashes numBuckets seed => checked (withSeed numHashes numBuckets seed)
  | update s item weight => do checked ((← s.eval).updateWithWeight item weight)
  | merge s s' => do checked ((← s.eval).merge (← s'.eval))
  | halve hu s => do return (← s.eval).halve hu
  | decay _ factor s => do checked ((← s.eval).decay sc factor)
  | reload s => do
      let f ← s.eval
      deserializeWithSeed t (← checked f.serialize) f.seed

/-- The sketch was neither halved nor decayed, as no sketch of a signed type is. -/
def Linear : Script T sc → Prop
  | build _ _ _ => True
  | update s _ _ | reload s => s.Linear
  | merge s s' => s.Linear ∧ s'.Linear
  | halve _ _ | decay _ _ _ => False

/-- No weight is negative. -/
def NonNeg : Script T sc → Prop
  | build _ _ _ => True
  | update s _ weight => 0 ≤ weight.val ∧ s.NonNeg
  | merge s s' => s.NonNeg ∧ s'.NonNeg
  | halve _ s | decay _ _ s | reload s => s.NonNeg

/-- All items and weights, those of the first operand of a merge first. -/
def stream : Script T sc → List (T × CountMinValue t)
  | build _ _ _ => []
  | update s item weight => s.stream ++ [(item, weight)]
  | merge s s' => s.stream ++ s'.stream
  | halve _ s | decay _ _ s | reload s => s.stream

/-- The count of one item, put through the same operations alone. -/
def alone [DecidableEq T] (x : T) : Script T sc → Checked (CountMinValue t)
  | build _ _ _ => return .zero
  | update s item weight => do
      let count ← s.alone x
      if item = x then count.add weight else return count
  | merge s s' => do (← s.alone x).add (← s'.alone x)
  | halve hu s => do return (← s.alone x).halve hu
  | decay _ factor s => do return sc.scale factor (← s.alone x)
  | reload s => s.alone x

end Script

variable {T : Type} [Hash T] {t : CountMinType} {sc : Scaling t} {f g h : CountMinSketch t}

/-- The sum of the weights of the items that an index counts. -/
def weightAt (f : CountMinSketch t) (stream : List (T × CountMinValue t)) (i : ℕ) : ℤ :=
  (stream.map fun p ↦ if f.hits p.1 i = true then p.2.val else 0).sum

/-- The sum of the absolute weights. -/
def absWeight (stream : List (T × CountMinValue t)) : ℤ := (stream.map fun p ↦ |p.2.val|).sum

theorem weightAt_append (f : CountMinSketch t) (xs ys : List (T × CountMinValue t)) (i : ℕ) :
    f.weightAt (xs ++ ys) i = f.weightAt xs i + f.weightAt ys i := by
  rw [weightAt, List.map_append, List.sum_append, weightAt, weightAt]

theorem weightAt_singleton (f : CountMinSketch t) (x : T) (w : CountMinValue t) (i : ℕ) :
    f.weightAt [(x, w)] i = if f.hits x i = true then w.val else 0 := by
  rw [weightAt, List.map_singleton, List.sum_singleton]

theorem SameConfig.weightAt_eq (hfg : SameConfig f g) (xs : List (T × CountMinValue t)) (i : ℕ) :
    f.weightAt xs i = g.weightAt xs i := by
  unfold weightAt
  simp only [hfg.hits_eq]

omit [Hash T] in
theorem absWeight_append (xs ys : List (T × CountMinValue t)) :
    absWeight (xs ++ ys) = absWeight xs + absWeight ys := by
  rw [absWeight, List.map_append, List.sum_append, absWeight, absWeight]

/-! ## What a script makes -/

/-- What holds of every sketch that was made. -/
structure Made (s : Script T sc) (f : CountMinSketch t) : Prop where
  shaped : f.Shaped
  total_nonneg : 0 ≤ f.totalWeight.val
  dominated : f.Dominated
  total_eq : s.Linear → f.totalWeight.val = absWeight s.stream
  countAt_eq : s.Linear → ∀ i < f.counts.length, countAt f.counts i = f.weightAt s.stream i

variable {s s' : Script T sc}

/-- The counters, by index. -/
theorem dominated_iff : f.Dominated ↔
    ∀ i < f.counts.length, |countAt f.counts i| ≤ f.totalWeight.val := by
  unfold Dominated countAt
  rw [List.forall_mem_iff_forall_getElem]
  refine forall₂_congr fun i hi ↦ ?_
  rw [List.getD_eq_getElem _ _ hi]

theorem made_build {numHashes : UInt8} {numBuckets : UInt32} {seed : UInt64}
    (hnew : withSeed numHashes numBuckets seed = .ok f) :
    Made (.build numHashes numBuckets seed : Script T sc) f := by
  obtain ⟨hshaped, htotal, hcounts⟩ := withSeed_spec hnew
  have hzero : ∀ i < f.counts.length, countAt f.counts i = 0 := by
    intro i hi
    rw [countAt, List.getD_eq_getElem _ _ hi, hcounts _ (List.getElem_mem hi)]
    rfl
  have htotal' : f.totalWeight.val = 0 := congrArg CountMinValue.val htotal
  refine ⟨hshaped, htotal'.ge, dominated_iff.mpr fun i hi ↦ ?_, fun _ ↦ htotal', fun _ i hi ↦ hzero i hi⟩
  rw [hzero i hi, abs_zero]
  exact htotal'.ge

theorem Made.update (hf : Made s f) {item : T} {weight : CountMinValue t}
    (hok : f.updateWithWeight item weight = .ok g) : Made (s.update item weight) g := by
  obtain ⟨hcfg, hlen, htotal, hval⟩ := updateWithWeight_eq_ok hf.shaped hok
  refine ⟨hf.shaped.of_sameConfig hcfg hlen, ?_, ?_, fun hlin ↦ ?_, fun hlin i hi ↦ ?_⟩
  · rw [htotal]
    exact add_nonneg hf.total_nonneg (abs_nonneg _)
  · rw [dominated_iff, hlen]
    intro i hi
    have hold := dominated_iff.mp hf.dominated i hi
    rw [hval i hi, htotal]
    split_ifs
    · exact (abs_add_le _ _).trans (add_le_add_left hold _)
    · rw [add_zero]
      exact hold.trans (le_add_of_nonneg_right (abs_nonneg _))
  · rw [htotal, hf.total_eq hlin, Script.stream, absWeight_append]
    simp [absWeight]
  · rw [hlen] at hi
    rw [hval i hi, hf.countAt_eq hlin i hi, Script.stream, weightAt_append, weightAt_singleton,
      hcfg.weightAt_eq, hcfg.hits_eq]

theorem Made.merge (hf : Made s f) (hg : Made s' g) (hok : f.merge g = .ok h) :
    Made (s.merge s') h := by
  obtain ⟨hfg, hcfg, hlen, htotal, hval⟩ := merge_eq_ok hf.shaped hg.shaped hok
  have hlen' : g.counts.length = f.counts.length := by
    rw [hf.shaped.length_eq, hg.shaped.length_eq, hfg.numHashes_eq, hfg.numBuckets_eq]
  refine ⟨hf.shaped.of_sameConfig hcfg hlen, ?_, ?_, fun hlin ↦ ?_, fun hlin i hi ↦ ?_⟩
  · rw [htotal]
    exact add_nonneg hf.total_nonneg hg.total_nonneg
  · rw [dominated_iff, hlen]
    intro i hi
    rw [hval, htotal]
    exact (abs_add_le _ _).trans (add_le_add (dominated_iff.mp hf.dominated i hi)
      (dominated_iff.mp hg.dominated i (hlen' ▸ hi)))
  · rw [htotal, hf.total_eq hlin.1, hg.total_eq hlin.2, Script.stream, absWeight_append]
  · rw [hlen] at hi
    rw [hval, hf.countAt_eq hlin.1 i hi, hg.countAt_eq hlin.2 i (hlen' ▸ hi), Script.stream,
      weightAt_append, hcfg.weightAt_eq, hfg.symm.weightAt_eq, hcfg.weightAt_eq]

/-- A monotone map of all counters and the total. -/
theorem Made.map (hu : t.isSigned = false) (hf : Made s f) {p : CountMinValue t → CountMinValue t}
    (hmono : ∀ a b, a.val ≤ b.val → (p a).val ≤ (p b).val) :
    Shaped { f with counts := f.counts.map p, totalWeight := p f.totalWeight } ∧
      Dominated { f with counts := f.counts.map p, totalWeight := p f.totalWeight } := by
  refine ⟨hf.shaped.of_sameConfig ⟨rfl, rfl, rfl, rfl, rfl⟩ (List.length_map p), ?_⟩
  intro c hc
  obtain ⟨c', hc', rfl⟩ := List.mem_map.mp hc
  rw [abs_of_nonneg (CountMinValue.nonneg_of_unsigned hu _)]
  exact hmono _ _ ((le_abs_self _).trans (hf.dominated c' hc'))

/-- Everything that a script makes. -/
theorem Script.made (hok : s.eval = .ok f) : Made s f := by
  induction s generalizing f with
  | build numHashes numBuckets seed => exact made_build (checked_eq_ok.mp hok)
  | update s item weight ih =>
      obtain ⟨f₀, h₀, hok⟩ := bind_eq_ok.mp hok
      exact (ih h₀).update (checked_eq_ok.mp hok)
  | merge s s' ih ih' =>
      obtain ⟨f₀, h₀, hok⟩ := bind_eq_ok.mp hok
      obtain ⟨g₀, h₀', hok⟩ := bind_eq_ok.mp hok
      exact (ih h₀).merge (ih' h₀') (checked_eq_ok.mp hok)
  | halve hu s ih =>
      obtain ⟨f₀, h₀, hok⟩ := bind_eq_ok.mp hok
      cases hok
      obtain ⟨hshaped, hdom⟩ := (ih h₀).map hu (p := CountMinValue.halve hu)
        fun a b hab ↦ Int.ediv_le_ediv two_pos hab
      exact ⟨hshaped, CountMinValue.nonneg_of_unsigned hu _, hdom, fun h ↦ h.elim, fun h ↦ h.elim⟩
  | decay hu factor s ih =>
      obtain ⟨f₀, h₀, hok⟩ := bind_eq_ok.mp hok
      obtain ⟨-, hok⟩ := assert_bind_eq_ok.mp (checked_eq_ok.mp hok)
      cases hok
      obtain ⟨hshaped, hdom⟩ := (ih h₀).map hu (sc.mono factor)
      exact ⟨hshaped, CountMinValue.nonneg_of_unsigned hu _, hdom, fun h ↦ h.elim, fun h ↦ h.elim⟩
  | reload s ih =>
      obtain ⟨f₀, h₀, hok⟩ := bind_eq_ok.mp hok
      obtain ⟨bytes, hbytes, hok⟩ := bind_eq_ok.mp hok
      have hmade := ih h₀
      obtain ⟨bytes', hser, hde⟩ := deserialize_serialize hmade.shaped hmade.dominated
      rw [checked_eq_ok, hser] at hbytes
      cases hbytes
      rw [hde] at hok
      cases hok
      exact ⟨hmade.shaped, hmade.total_nonneg, hmade.dominated, hmade.total_eq, hmade.countAt_eq⟩

/-! ## Processing the stream -/

namespace Script

/-- Updates a new sketch with all items of a stream. -/
def feed (sc : Scaling t) (numHashes : UInt8) (numBuckets : UInt32) (seed : UInt64)
    (stream : List (T × CountMinValue t)) : Script T sc :=
  stream.foldl (fun s p ↦ s.update p.1 p.2) (build numHashes numBuckets seed)

omit [Hash T] in
theorem feed_concat (sc : Scaling t) (numHashes : UInt8) (numBuckets : UInt32) (seed : UInt64)
    (stream : List (T × CountMinValue t)) (p : T × CountMinValue t) :
    feed sc numHashes numBuckets seed (stream ++ [p]) =
      (feed sc numHashes numBuckets seed stream).update p.1 p.2 := List.foldl_concat _ _ _ _

omit [Hash T] in
theorem stream_feed (sc : Scaling t) (numHashes : UInt8) (numBuckets : UInt32) (seed : UInt64)
    (stream : List (T × CountMinValue t)) :
    (feed sc numHashes numBuckets seed stream).stream = stream ∧
      (feed sc numHashes numBuckets seed stream).Linear := by
  induction stream using List.reverseRecOn with
  | nil => exact ⟨rfl, trivial⟩
  | append_singleton stream p ih =>
      rw [feed_concat]
      exact ⟨congrArg (· ++ [p]) ih.1, ih.2⟩

omit [Hash T] in
/-- No sketch of a signed type is halved or decayed. -/
theorem linear_of_signed (hs : t.isSigned = true) (s : Script T sc) : s.Linear := by
  induction s with
  | build _ _ _ => trivial
  | update _ _ _ ih => exact ih
  | merge _ _ ih ih' => exact ⟨ih, ih'⟩
  | halve hu _ => exact Bool.false_ne_true (hu.symm.trans hs)
  | decay hu _ _ => exact Bool.false_ne_true (hu.symm.trans hs)
  | reload _ ih => exact ih

end Script

omit [Hash T] in
theorem absWeight_nonneg (xs : List (T × CountMinValue t)) : 0 ≤ absWeight xs := by
  refine List.sum_nonneg fun w hw ↦ ?_
  obtain ⟨p, -, rfl⟩ := List.mem_map.mp hw
  exact abs_nonneg _

/-- A new sketch of the same configuration can be made. -/
theorem Shaped.withSeed_total (hf : f.Shaped) : ∃ g : CountMinSketch t,
    withSeed f.numHashes f.numBuckets f.seed = .ok g ∧ SameConfig f g := by
  refine ⟨{ f with
    totalWeight := .zero, counts := List.replicate (f.numHashes.toNat * f.numBuckets.toNat) .zero },
    ?_, ⟨rfl, rfl, rfl, rfl, rfl⟩⟩
  rw [withSeed, hf.config, ok_bind, make_eq_ok]
  exact ⟨⟨rfl, rfl, rfl⟩, hf.seedHash_eq, hf.hashSeeds_eq, rfl, rfl⟩

/-- A stream of weights that fit in the total is processed. -/
theorem Shaped.feed_total (sc : Scaling t) (hf : f.Shaped) {stream : List (T × CountMinValue t)}
    (hroom : absWeight stream ≤ t.max) : ∃ g,
      (Script.feed sc f.numHashes f.numBuckets f.seed stream).eval = .ok g ∧ SameConfig f g := by
  induction stream using List.reverseRecOn with
  | nil =>
      obtain ⟨g, hg, hcfg⟩ := hf.withSeed_total
      exact ⟨g, checked_eq_ok.mpr hg, hcfg⟩
  | append_singleton stream p ih =>
      have hone : absWeight [p] = |p.2.val| := by simp [absWeight]
      rw [absWeight_append, hone] at hroom
      obtain ⟨g, hg, hcfg⟩ := ih (by linarith [abs_nonneg p.2.val])
      have hmade := Script.made hg
      obtain ⟨hstream, hlin⟩ := Script.stream_feed sc f.numHashes f.numBuckets f.seed stream
      have htotal := hmade.total_eq hlin
      rw [hstream] at htotal
      obtain ⟨h, hh⟩ := updateWithWeight_total hmade.shaped hmade.dominated p.1
        hmade.total_nonneg (show g.totalWeight.val + |p.2.val| ≤ t.max from htotal ▸ hroom)
      refine ⟨h, ?_, hcfg.trans (updateWithWeight_eq_ok hmade.shaped hh).1⟩
      rw [Script.feed_concat, Script.eval, hg]
      exact checked_eq_ok.mpr hh

/-- Merging and reloading amount to processing all items in one sketch. -/
theorem Script.eval_feed (hok : s.eval = .ok f) (hlin : s.Linear) :
    (feed sc f.numHashes f.numBuckets f.seed s.stream).eval = .ok f := by
  have hf := Script.made hok
  obtain ⟨g, hg, hcfg⟩ := hf.shaped.feed_total sc
    (show absWeight s.stream ≤ t.max from hf.total_eq hlin ▸ f.totalWeight.range.2)
  have hmade := Script.made hg
  obtain ⟨hstream, hlin'⟩ := stream_feed sc f.numHashes f.numBuckets f.seed s.stream
  have hlen : f.counts.length = g.counts.length := by
    rw [hf.shaped.length_eq, hmade.shaped.length_eq, hcfg.numHashes_eq, hcfg.numBuckets_eq]
  have hsame : f = g := by
    refine hcfg.ext (CountMinValue.ext ?_) (counts_ext hlen fun i hi ↦ ?_)
    · rw [hf.total_eq hlin, hmade.total_eq hlin', hstream]
    · rw [hf.countAt_eq hlin i hi, hmade.countAt_eq hlin' i (hlen ▸ hi), hstream, hcfg.weightAt_eq]
  rw [hg, ← hsame]

/-! ## Estimates -/

/-- An index that counts an item is in bounds. -/
theorem Shaped.hits_lt (hf : f.Shaped) {x : T} {i : ℕ} (hit : f.hits x i = true) :
    i < f.counts.length := by
  have hrow : i / f.numBuckets.toNat < f.numHashes.toNat := by
    by_contra hge
    rw [hits, CountMinSketch.hit, List.getElem?_eq_none (hf.length_seeds ▸ not_lt.mp hge)] at hit
    exact Bool.false_ne_true hit
  rw [hf.length_eq]
  exact (Nat.div_lt_iff_lt_mul hf.numBuckets_pos).mp hrow

/-- Every item is counted by a counter. -/
theorem Shaped.exists_hits (hf : f.Shaped) (x : T) : ∃ i, f.hits x i = true := by
  have hhash : 0 < f.numHashes.toNat := UInt8.lt_iff_toNat_lt.mp (entriesForConfig_eq_ok.mp hf.config).1.1
  obtain ⟨seed, hseed⟩ : ∃ seed, f.hashSeeds[0]? = some seed :=
    ⟨_, List.getElem?_eq_getElem (hf.length_seeds ▸ hhash)⟩
  obtain ⟨b, hb, hlt⟩ := bucketIndex_total f.numBuckets hf.numBuckets_pos x seed
  refine ⟨b, ?_⟩
  rw [hits, hit, Nat.div_eq_of_lt hlt, hseed, Option.any_some, Nat.mod_eq_of_lt hlt, hb]
  exact decide_eq_true rfl

section Alone

variable [DecidableEq T]

/-- The count of an item by itself is bounded by all counters that count the item. -/
structure Covers (s : Script T sc) (f : CountMinSketch t) (x : T) (c : CountMinValue t) : Prop where
  alone_eq : s.alone x = .ok c
  nonneg : 0 ≤ c.val
  le_total : c.val ≤ f.totalWeight.val
  le_count : ∀ i, f.hits x i = true → c.val ≤ countAt f.counts i
  counts_nonneg : ∀ i < f.counts.length, 0 ≤ countAt f.counts i

variable {c c' : CountMinValue t} {x : T}

theorem Covers.update (hf : Made s f) (hc : Covers s f x c) {item : T} {weight : CountMinValue t}
    (hw : 0 ≤ weight.val) (hok : f.updateWithWeight item weight = .ok g) :
    ∃ c', Covers (s.update item weight) g x c' := by
  obtain ⟨hcfg, hlen, htotal, hval⟩ := updateWithWeight_eq_ok hf.shaped hok
  rw [abs_of_nonneg hw] at htotal
  have hcounts : ∀ i < g.counts.length, 0 ≤ countAt g.counts i := by
    intro i hi
    rw [hlen] at hi
    rw [hval i hi]
    have hold := hc.counts_nonneg i hi
    split_ifs <;> linarith
  by_cases hx : item = x
  · have hle : c.val + weight.val ≤ g.totalWeight.val := by linarith [hc.le_total]
    refine ⟨⟨c.val + weight.val, ?_⟩, ?_, add_nonneg hc.nonneg hw, hle, fun i hi ↦ ?_, hcounts⟩
    · exact ⟨(CountMinValue.zero_range t).1.trans (add_nonneg hc.nonneg hw),
        hle.trans g.totalWeight.range.2⟩
    · rw [Script.alone, hc.alone_eq, ok_bind, if_pos hx]
      exact CountMinValue.add_eq_ok.mpr rfl
    · rw [← hcfg.hits_eq] at hi
      rw [hval i (hf.shaped.hits_lt hi), hx, if_pos hi]
      exact add_le_add_left (hc.le_count i hi) _
  · refine ⟨c, ?_, hc.nonneg, by linarith [hc.le_total], fun i hi ↦ ?_, hcounts⟩
    · rw [Script.alone, hc.alone_eq, ok_bind, if_neg hx]
      rfl
    · rw [← hcfg.hits_eq] at hi
      rw [hval i (hf.shaped.hits_lt hi)]
      have hold := hc.le_count i hi
      split_ifs <;> linarith

theorem Covers.merge (hf : Made s f) (hg : Made s' g) (hc : Covers s f x c) (hc' : Covers s' g x c')
    (hok : f.merge g = .ok h) : ∃ c'', Covers (s.merge s') h x c'' := by
  obtain ⟨hfg, hcfg, hlen, htotal, hval⟩ := merge_eq_ok hf.shaped hg.shaped hok
  have hlen' : g.counts.length = f.counts.length := by
    rw [hf.shaped.length_eq, hg.shaped.length_eq, hfg.numHashes_eq, hfg.numBuckets_eq]
  have hpos := add_nonneg hc.nonneg hc'.nonneg
  have hle : c.val + c'.val ≤ h.totalWeight.val := by linarith [hc.le_total, hc'.le_total]
  refine ⟨⟨c.val + c'.val, ?_⟩, ?_, hpos, hle, fun i hi ↦ ?_, fun i hi ↦ ?_⟩
  · exact ⟨(CountMinValue.zero_range t).1.trans hpos, hle.trans h.totalWeight.range.2⟩
  · rw [Script.alone, hc.alone_eq, ok_bind, hc'.alone_eq, ok_bind]
    exact CountMinValue.add_eq_ok.mpr rfl
  · rw [← hcfg.hits_eq] at hi
    rw [hval]
    exact add_le_add (hc.le_count i hi) (hc'.le_count i (hfg.hits_eq x i ▸ hi))
  · rw [hval]
    exact add_nonneg (hc.counts_nonneg i (hlen ▸ hi)) (hc'.counts_nonneg i (hlen'.symm ▸ hlen ▸ hi))

/-- A monotone map that keeps zero, on the sketch and on the count by itself. -/
theorem Covers.map (hu : t.isSigned = false) (hc : Covers s f x c)
    {p : CountMinValue t → CountMinValue t} (hp : p .zero = .zero)
    (hmono : ∀ a b, a.val ≤ b.val → (p a).val ≤ (p b).val) (hs : s'.alone x = .ok (p c)) :
    Covers s' { f with counts := f.counts.map p, totalWeight := p f.totalWeight } x (p c) where
  alone_eq := hs
  nonneg := CountMinValue.nonneg_of_unsigned hu _
  le_total := hmono _ _ hc.le_total
  le_count i hi := by
    rw [countAt_map hp]
    exact hmono _ _ (hc.le_count i hi)
  counts_nonneg i hi := by
    rw [countAt_map hp]
    exact CountMinValue.nonneg_of_unsigned hu _

/-- The count of an item by itself does not overflow, and no counter of the item is smaller. -/
theorem Script.covers (hok : s.eval = .ok f) (hnn : s.NonNeg) (x : T) : ∃ c, Covers s f x c := by
  induction s generalizing f with
  | build numHashes numBuckets seed =>
      have hzero : ∀ i, countAt f.counts i = 0 := by
        intro i
        obtain ⟨-, -, hcounts⟩ := withSeed_spec (checked_eq_ok.mp hok)
        rcases Nat.lt_or_ge i f.counts.length with hi | hi
        · rw [countAt, List.getD_eq_getElem _ _ hi, hcounts _ (List.getElem_mem hi)]
          rfl
        · rw [countAt, List.getD_eq_default _ _ hi]
          rfl
      exact ⟨.zero, rfl, le_rfl, (Script.made hok).total_nonneg, fun i _ ↦ (hzero i).ge,
        fun i _ ↦ (hzero i).ge⟩
  | update s item weight ih =>
      obtain ⟨f₀, h₀, hok⟩ := bind_eq_ok.mp hok
      obtain ⟨c, hc⟩ := ih h₀ hnn.2
      exact hc.update (Script.made h₀) hnn.1 (checked_eq_ok.mp hok)
  | merge s s' ih ih' =>
      obtain ⟨f₀, h₀, hok⟩ := bind_eq_ok.mp hok
      obtain ⟨g₀, h₀', hok⟩ := bind_eq_ok.mp hok
      obtain ⟨c, hc⟩ := ih h₀ hnn.1
      obtain ⟨c', hc'⟩ := ih' h₀' hnn.2
      exact hc.merge (Script.made h₀) (Script.made h₀') hc' (checked_eq_ok.mp hok)
  | halve hu s ih =>
      obtain ⟨f₀, h₀, hok⟩ := bind_eq_ok.mp hok
      obtain ⟨c, hc⟩ := ih h₀ hnn
      cases hok
      refine ⟨c.halve hu, hc.map hu rfl (fun a b hab ↦ Int.ediv_le_ediv two_pos hab) ?_⟩
      rw [alone, hc.alone_eq]
      rfl
  | decay hu factor s ih =>
      obtain ⟨f₀, h₀, hok⟩ := bind_eq_ok.mp hok
      obtain ⟨c, hc⟩ := ih h₀ hnn
      obtain ⟨-, hok⟩ := assert_bind_eq_ok.mp (checked_eq_ok.mp hok)
      cases hok
      refine ⟨sc.scale factor c, hc.map hu (sc.zero factor) (sc.mono factor) ?_⟩
      rw [alone, hc.alone_eq]
      rfl
  | reload s ih =>
      obtain ⟨f₀, h₀, hok⟩ := bind_eq_ok.mp hok
      obtain ⟨bytes, hbytes, hok⟩ := bind_eq_ok.mp hok
      obtain ⟨c, hc⟩ := ih h₀ hnn
      have hmade := Script.made h₀
      obtain ⟨bytes', hser, hde⟩ := deserialize_serialize hmade.shaped hmade.dominated
      rw [checked_eq_ok, hser] at hbytes
      cases hbytes
      rw [hde] at hok
      cases hok
      exact ⟨c, hc.1, hc.2, hc.3, hc.4, hc.5⟩

/-- Counts are never underestimated. -/
theorem Script.le_estimate (hok : s.eval = .ok f) (hnn : s.NonNeg) (x : T) :
    ∃ c e, s.alone x = .ok c ∧ f.estimate x = .ok e ∧ c.val ≤ e.val := by
  obtain ⟨c, hc⟩ := Script.covers hok hnn x
  obtain ⟨e, he, hspec⟩ := estimate_spec (Script.made hok).shaped x
  exact ⟨c, e, hc.alone_eq, he, (hspec c.val).mpr ⟨c.range.2, hc.le_count⟩⟩

end Alone

/-! ## Emptiness -/

theorem isEmpty_iff : f.isEmpty = true ↔ f.totalWeight.val = 0 := by
  rw [isEmpty, decide_eq_true_eq, CountMinValue.ext_iff, CountMinValue.val_zero]

omit [Hash T] in
theorem Script.NonNeg.mem_stream (hnn : s.NonNeg) {p : T × CountMinValue t} (hp : p ∈ s.stream) :
    0 ≤ p.2.val := by
  induction s with
  | build _ _ _ => cases hp
  | update s item weight ih =>
      rcases List.mem_append.mp hp with hp | hp
      · exact ih hnn.2 hp
      · cases List.mem_singleton.mp hp
        exact hnn.1
  | merge s s' ih ih' =>
      rcases List.mem_append.mp hp with hp | hp
      · exact ih hnn.1 hp
      · exact ih' hnn.2 hp
  | halve _ s ih => exact ih hnn hp
  | decay _ _ s ih => exact ih hnn hp
  | reload s ih => exact ih hnn hp

/-- Weights that are not negative cannot cancel. -/
theorem Script.isEmpty_of_counts (hok : s.eval = .ok f) (hlin : s.Linear) (hnn : s.NonNeg)
    (hzero : ∀ c ∈ f.counts, c = .zero) : f.isEmpty = true := by
  have hf := Script.made hok
  rw [isEmpty_iff, hf.total_eq hlin]
  refine List.sum_eq_zero fun w hw ↦ ?_
  obtain ⟨p, hp, rfl⟩ := List.mem_map.mp hw
  obtain ⟨i, hi⟩ := hf.shaped.exists_hits p.1
  have hlt := hf.shaped.hits_lt hi
  have hcount : countAt f.counts i = 0 := by
    rw [countAt, List.getD_eq_getElem _ _ hlt, hzero _ (List.getElem_mem hlt)]
    rfl
  have hle : p.2.val ≤ f.weightAt s.stream i := by
    refine List.single_le_sum (fun w hw ↦ ?_) _ (List.mem_map.mpr ⟨p, hp, if_pos hi⟩)
    obtain ⟨q, hq, rfl⟩ := List.mem_map.mp hw
    split_ifs
    · exact hnn.mem_stream hq
    · exact le_rfl
  rw [← hf.countAt_eq hlin i hlt, hcount] at hle
  exact abs_eq_zero.mpr (le_antisymm hle (hnn.mem_stream hp))

/-! ## What a run guarantees -/

/-- Without halving and decay, and so for every signed type, a counter is the sum of the weights
that it counts, and the sketch is that of the whole stream.  The total dominates every counter, so
an empty sketch has no counter to lose and every sketch is read back; an empty sketch that was
neither halved nor decayed has seen no weight.  No count is underestimated. -/
theorem eval_spec [DecidableEq T] (hok : s.eval = .ok f) :
    (t.isSigned = true → s.Linear) ∧
    (s.Linear →
      (∀ i < f.counts.length, countAt f.counts i = f.weightAt s.stream i) ∧
      (Script.feed sc f.numHashes f.numBuckets f.seed s.stream).eval = .ok f) ∧
    (∀ c ∈ f.counts, |c.val| ≤ f.totalWeight.val) ∧
    (f.isEmpty = true → ∀ c ∈ f.counts, c = .zero) ∧
    (s.Linear → s.NonNeg → ((∀ c ∈ f.counts, c = .zero) ↔ f.isEmpty = true)) ∧
    (∃ bytes, f.serialize = .ok bytes ∧ deserializeWithSeed t bytes f.seed = .ok f) ∧
    (s.NonNeg → ∀ x, ∃ c e, s.alone x = .ok c ∧ f.estimate x = .ok e ∧ c.val ≤ e.val) := by
  have hf := Script.made hok
  have hempty := hf.dominated.counts_of_isEmpty
  exact ⟨fun hs ↦ Script.linear_of_signed hs s, fun hlin ↦ ⟨hf.countAt_eq hlin, s.eval_feed hok hlin⟩,
    hf.dominated, hempty, fun hlin hnn ↦ ⟨s.isEmpty_of_counts hok hlin hnn, hempty⟩,
    deserialize_serialize hf.shaped hf.dominated, fun hnn x ↦ s.le_estimate hok hnn x⟩

/-- The scaling of a type without `decay`. -/
def Scaling.none (t : CountMinType) : Scaling t := ⟨Empty, Empty.elim, Empty.elim,
  fun k ↦ k.elim, fun k ↦ k.elim⟩

/-- A merge of a sketch that was reloaded. -/
theorem eval_spec_merge : ∃ f : CountMinSketch .i64,
    (Script.merge (.reload (.update (.build 1 3 9001) (7 : UInt64) ⟨2, by decide⟩))
      (.update (.build 1 3 9001) 8 ⟨-1, by decide⟩) : Script UInt64 (Scaling.none .i64)).eval = .ok f ∧
      (∀ i < f.counts.length, countAt f.counts i = f.weightAt
        [((7 : UInt64), ⟨2, by decide⟩), (8, ⟨-1, by decide⟩)] i) := by
  obtain ⟨f, hf⟩ : ∃ f : CountMinSketch .i64,
      (Script.merge (.reload (.update (.build 1 3 9001) (7 : UInt64) ⟨2, by decide⟩))
        (.update (.build 1 3 9001) 8 ⟨-1, by decide⟩) : Script UInt64 (Scaling.none .i64)).eval =
          .ok f := by
    have hrun : (Script.merge (.reload (.update (.build 1 3 9001) (7 : UInt64) ⟨2, by decide⟩))
        (.update (.build 1 3 9001) 8 ⟨-1, by decide⟩) :
          Script UInt64 (Scaling.none .i64)).eval.map isEmpty = .ok false := by decide +kernel
    obtain ⟨f, hf, -⟩ := map_eq_ok.mp hrun
    exact ⟨f, hf⟩
  have hspec := eval_spec hf
  exact ⟨f, hf, (hspec.2.1 (hspec.1 rfl)).1⟩

/-- A sketch in which two weights cancel is not empty, though every counter is zero. -/
theorem counts_zero_of_cancel : ∃ f : CountMinSketch .i64,
    (Script.update (.update (.build 1 3 9001) (7 : UInt64) ⟨1, by decide⟩) 7 ⟨-1, by decide⟩ :
      Script UInt64 (Scaling.none .i64)).eval = .ok f ∧
      f.isEmpty = false ∧ ∀ c ∈ f.counts, c = .zero := by
  have hrun : (Script.update (.update (.build 1 3 9001) (7 : UInt64) ⟨1, by decide⟩) 7
      ⟨-1, by decide⟩ : Script UInt64 (Scaling.none .i64)).eval.map
        (fun f ↦ (f.isEmpty, f.counts)) = .ok (false, [.zero, .zero, .zero]) := by decide +kernel
  obtain ⟨f, hf, heq⟩ := map_eq_ok.mp hrun
  refine ⟨f, hf, congrArg Prod.fst heq, fun c hc ↦ ?_⟩
  have hcounts : f.counts = List.replicate 3 .zero := congrArg Prod.snd heq
  exact List.eq_of_mem_replicate (hcounts ▸ hc)

end CountMinSketch

end DataSketches
