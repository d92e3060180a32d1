import DataSketches.ThetaFamily.Portable
import DataSketches.ThetaFamily.Tuple.HashTable

/-!
# Tuple sketches and their set operations

The set operations of the Tuple sketch instantiate the state machines of the
family with entries that carry a summary.  The second sketch of a difference may
have summaries of another type, which are never looked at.
-/

namespace DataSketches

open Runs SketchHashTable

/-- Compact, immutable form of a Tuple sketch. -/
structure CompactTupleSketch (S : Type) where
  entries : List (TupleEntry S)
  theta : ℕ
  seedHash : ℕ
  ordered : Bool
  empty : Bool
deriving DecidableEq

namespace CompactTupleSketch

variable {S : Type}

def fromParts (parts : CompactSketchParts (TupleEntry S)) : CompactTupleSketch S :=
  ⟨parts.entries, parts.theta, parts.seedHash, parts.ordered, parts.empty⟩

/-- Returns `true` if the sketch is in estimation mode. -/
def isEstimationMode (c : CompactTupleSketch S) : Bool := c.theta < maxTheta

/-- Returns the number of retained entries. -/
def numRetained (c : CompactTupleSketch S) : ℕ := c.entries.length

/-- What a set operation reads.  The entries of the view are built anew from the hashes and the
summaries, and the hashes are not zero. -/
def asView (c : CompactTupleSketch S) : EntrySketch (TupleEntry S) where
  scalars := ⟨c.seedHash, c.theta, c.empty, c.ordered, c.numRetained⟩
  entries := c.entries

theorem asView_fromParts (parts : CompactSketchParts (TupleEntry S)) :
    (fromParts parts).asView = parts.asView := rfl

end CompactTupleSketch

/-- Returns this sketch in compact, immutable form. -/
def TupleHashTable.compact {S : Type} (t : TupleHashTable S) (ordered : Bool) :
    Checked (CompactTupleSketch S) :=
  CompactTupleSketch.fromParts <$> t.toCompactParts ordered

/-- A read-only view of a Tuple sketch. -/
inductive TupleSketchView (S : Type) where
  | mutable (table : TupleHashTable S)
  | compact (sketch : CompactTupleSketch S)

/-- What a set operation reads. -/
def TupleSketchView.view {S : Type} : TupleSketchView S → Checked (EntrySketch (TupleEntry S))
  | .mutable t => do return t.asView (← t.seedHash)
  | .compact c => .ok c.asView

/-! ## The set operations -/

abbrev TupleUnion (S : Type) := UnionState (TupleEntry S)

namespace TupleUnion

variable {S : Type}

def new (lgK : ℕ) (resizeFactor : ResizeFactor) (p : ℚ) (seed : UInt64) (combine : S → S → S) :
    Checked (TupleUnion S) := UnionState.new lgK resizeFactor p seed (summaryPolicy combine)

def update (u : TupleUnion S) (sketch : TupleSketchView S) :
    Checked (TupleUnion S × Except Error Unit) := do UnionState.update u (← sketch.view)

def toSketch (u : TupleUnion S) (ordered : Bool) : Checked (CompactTupleSketch S) :=
  CompactTupleSketch.fromParts <$> u.toCompactParts ordered

/-- What can be done to a union. -/
inductive Op (S : Type) where
  | update (sketch : TupleSketchView S)
  | reset

def step (u : TupleUnion S) : Op S → Except Fault (TupleUnion S)
  | .update sketch => accepted (u.update sketch)
  | .reset => .ok u.reset

end TupleUnion

abbrev TupleIntersection (S : Type) := IntersectionState (TupleEntry S)

namespace TupleIntersection

variable {S : Type}

def withSeed (combine : S → S → S) (seed : UInt64) : Checked (TupleIntersection S) :=
  IntersectionState.new seed (summaryPolicy combine)

def update (i : TupleIntersection S) (sketch : TupleSketchView S) :
    Checked (TupleIntersection S × Except Error Unit) := do
  IntersectionState.update i (← sketch.view)

def toSketch (i : TupleIntersection S) (ordered : Bool) :
    Checked (Option (CompactTupleSketch S)) := do
  if !i.hasResult then
    return none
  return some (.fromParts (← i.toCompactParts ordered))

end TupleIntersection

/-- Set difference operator for Tuple sketches. -/
structure TupleANotB where
  seedHash : ℕ

namespace TupleANotB

def withSeed (seed : UInt64) : Checked TupleANotB := do return ⟨← computeSeedHash seed⟩

def compute {S T : Type} (op : TupleANotB) (a : TupleSketchView S) (b : TupleSketchView T)
    (ordered : Bool) : Checked (Except Error (CompactTupleSketch S)) := do
  return CompactTupleSketch.fromParts <$> ANotB.compute op.seedHash (← a.view) (← b.view) ordered

end TupleANotB

/-! ## What the library produces -/

namespace Tuple

/-- The sketches that updates and set operations give, applied to each other in any way, with
summaries of any types. -/
inductive Producible : (S : Type) → TupleSketchView S → Prop
  /-- An update sketch after any number of updates, trims and resets. -/
  | mutable {S U : Type} {policy : SummaryUpdatePolicy S U} {lgK : ℕ} {rf : ResizeFactor} {p : ℚ}
      {seed : UInt64} {ops : List (Op U)} {t₀ t : TupleHashTable S}
      (hlgK : minLgK ≤ lgK ∧ lgK ≤ maxLgK) (hp : 0 < p ∧ p ≤ 1)
      (hnew : SketchHashTable.new lgK rf p seed = .ok t₀) (hrun : run (step policy) t₀ ops = .ok t) :
      Producible S (.mutable t)
  /-- The compact form of an update sketch. -/
  | compact {S : Type} {t : TupleHashTable S} {ordered : Bool} {c : CompactTupleSketch S}
      (h : Producible S (.mutable t)) (hc : t.compact ordered = .ok c) : Producible S (.compact c)
  /-- The result of a union. -/
  | union {S : Type} {combine : S → S → S} {lgK : ℕ} {rf : ResizeFactor} {p : ℚ} {seed : UInt64}
      {ops : List (TupleUnion.Op S)} {u₀ u : TupleUnion S} {ordered : Bool} {c : CompactTupleSketch S}
      (hlgK : minLgK ≤ lgK ∧ lgK ≤ maxLgK) (hp : 0 < p ∧ p ≤ 1)
      (hnew : TupleUnion.new lgK rf p seed combine = .ok u₀)
      (hin : ∀ v, .update v ∈ ops → Producible S v) (hrun : run TupleUnion.step u₀ ops = .ok u)
      (hc : u.toSketch ordered = .ok c) : Producible S (.compact c)
  /-- The result of an intersection. -/
  | intersection {S : Type} {combine : S → S → S} {seed : UInt64} {inputs : List (TupleSketchView S)}
      {i₀ i : TupleIntersection S} {ordered : Bool} {c : CompactTupleSketch S}
      (hnew : TupleIntersection.withSeed combine seed = .ok i₀)
      (hin : ∀ v ∈ inputs, Producible S v)
      (hrun : run (fun i v ↦ accepted (TupleIntersection.update i v)) i₀ inputs = .ok i)
      (hc : i.toSketch ordered = .ok (some c)) : Producible S (.compact c)
  /-- The result of a difference. -/
  | aNotB {S T : Type} {seed : UInt64} {op : TupleANotB} {a : TupleSketchView S}
      {b : TupleSketchView T} {ordered : Bool} {c : CompactTupleSketch S}
      (hnew : TupleANotB.withSeed seed = .ok op) (ha : Producible S a) (hb : Producible T b)
      (hc : op.compute a b ordered = .ok (.ok c)) : Producible S (.compact c)

variable {S U : Type}

/-- The view of a sketch is portable. -/
def Sound (v : TupleSketchView S) : Prop := ∀ s, v.view = .ok s → Portable s

/-- Portable compact parts give a sound sketch. -/
theorem sound_fromParts {parts : CompactSketchParts (TupleEntry S)} (h : Portable parts.asView) :
    Sound (.compact (.fromParts parts)) := by
  rintro s ⟨⟩
  exact h

/-- A compact sketch is made of parts. -/
theorem of_map_fromParts {x : Checked (CompactSketchParts (TupleEntry S))} {c : CompactTupleSketch S}
    (h : CompactTupleSketch.fromParts <$> x = .ok c) :
    ∃ parts, x = .ok parts ∧ c = .fromParts parts := by
  cases x with
  | error e => cases h
  | ok parts => exact ⟨parts, rfl, (Except.ok.inj h).symm⟩

/-- The invariant of a mutable sketch gives that of its compact form as well. -/
theorem RunInv.sound {policy : SummaryUpdatePolicy S U} {lgK : ℕ} (hlgK : lgK ≤ maxLgK) {p : ℚ}
    {ops : List (Op U)} {t : TupleHashTable S} (h : RunInv policy lgK p ops t) :
    Sound (.mutable t) ∧ ∀ ordered c, t.compact ordered = .ok c → Sound (.compact c) := by
  have htheta : t.theta ≤ maxTheta := h.samples.le_top.trans (startingTheta_le p)
  refine ⟨fun s hs ↦ ?_, fun ordered c hc ↦ ?_⟩
  · obtain ⟨sh, hsh, hs⟩ := bind_eq_ok.mp hs
    cases hs
    exact h.portable_asView h.lgNomSize_eq hlgK htheta h.entries_of_isEmpty hsh
  · obtain ⟨parts, hparts, rfl⟩ := of_map_fromParts hc
    exact sound_fromParts
      (h.portable_toCompactParts h.lgNomSize_eq hlgK htheta h.entries_of_isEmpty hparts)

theorem tame_step {lgK : ℕ} (hlgK : minLgK ≤ lgK) {u u' : TupleUnion S}
    (h : UnionState.Tame lgK u) {op : TupleUnion.Op S} (hop : ∀ v, op = .update v → Sound v)
    (hok : u.step op = .ok u') : UnionState.Tame lgK u' := by
  cases op with
  | reset =>
      cases hok
      exact UnionState.Tame.reset h hlgK
  | update v =>
      obtain ⟨s, hs, hok⟩ := bind_eq_ok.mp (accepted_eq_ok.mp hok)
      exact UnionState.Tame.update h (hop v rfl s hs).toWellFormed hok

theorem sound_aNotB {T : Type} {seed : UInt64} {op : TupleANotB} (hnew : TupleANotB.withSeed seed = .ok op)
    {a : TupleSketchView S} {b : TupleSketchView T} (ha : Sound a) (hb : Sound b) {ordered : Bool}
    {c : CompactTupleSketch S} (hc : op.compute a b ordered = .ok (.ok c)) :
    Sound (.compact c) := by
  obtain ⟨sh, hsh, hnew⟩ := bind_eq_ok.mp hnew
  cases hnew
  obtain ⟨sa, hsa, hc⟩ := bind_eq_ok.mp hc
  obtain ⟨sb, hsb, hc⟩ := bind_eq_ok.mp hc
  cases hparts : ANotB.compute sh sa sb ordered with
  | error e =>
      rw [hparts] at hc
      cases hc
  | ok parts =>
      rw [hparts] at hc
      cases hc
      exact sound_fromParts (ANotB.portable (ha sa hsa) (hb sb hsb) (computeSeedHash_range hsh).2 hparts)

/-- Every sketch that the library produces is sound. -/
theorem Producible.sound {v : TupleSketchView S} (h : Producible S v) : Sound v := by
  have hmutable : ∀ {S : Type} {t : TupleHashTable S}, Producible S (.mutable t) →
      Sound (.mutable t) ∧ ∀ ordered c, t.compact ordered = .ok c → Sound (.compact c) := by
    intro S t h
    cases h with
    | @mutable _ U policy lgK rf p seed ops t₀ _ hlgK hp hnew hrun =>
      obtain ⟨t₀', t', hnew', hrun', hinv⟩ := run_spec policy hlgK.1 rf p seed ops
      rw [hnew] at hnew'
      cases hnew'
      rw [hrun] at hrun'
      cases hrun'
      exact hinv.sound hlgK.2
  induction h with
  | mutable hlgK hp hnew hrun => exact (hmutable (.mutable hlgK hp hnew hrun)).1
  | compact h hc => exact (hmutable h).2 _ _ hc
  | @union S combine lgK rf p seed ops u₀ u ordered c hlgK hp hnew hin hrun hc ih =>
      have htame : UnionState.Tame lgK u := by
        refine run_invariant (I := fun ops u ↦ (∀ v, .update v ∈ ops → Sound v) →
          UnionState.Tame lgK u) (fun _ ↦ UnionState.tame_new hlgK.1 hnew) ?_ hrun ih
        intro ops op u u' ihrun hstep hsound
        refine tame_step hlgK.1 (ihrun fun v hv ↦ hsound v (List.mem_append_left _ hv)) ?_ hstep
        rintro v rfl
        exact hsound v (by simp)
      obtain ⟨parts, hparts, rfl⟩ := of_map_fromParts hc
      exact sound_fromParts (htame.portable hlgK.2 hparts)
  | @intersection S combine seed inputs i₀ i ordered c hnew hin hrun hc ih =>
      have htame : IntersectionState.Tame seed (summaryPolicy combine) i := by
        refine run_invariant (I := fun inputs i ↦ (∀ v ∈ inputs, Sound v) →
          IntersectionState.Tame seed (summaryPolicy combine) i)
          (fun _ ↦ IntersectionState.tame_new hnew) ?_ hrun ih
        intro inputs v i i' ihrun hstep hsound
        obtain ⟨s, hs, hok⟩ := bind_eq_ok.mp (accepted_eq_ok.mp hstep)
        exact (ihrun fun v hv ↦ hsound v (List.mem_append_left _ hv)).update
          (hsound v (by simp) s hs) hok
      unfold TupleIntersection.toSketch at hc
      split_ifs at hc with hres
      · cases hc
      · obtain ⟨parts, hparts, hc⟩ := bind_eq_ok.mp hc
        cases hc
        exact sound_fromParts (htame.portable (by simpa using hres) hparts)
  | aNotB hnew ha hb hc iha ihb => exact sound_aNotB hnew iha ihb hc

end Tuple

end DataSketches
