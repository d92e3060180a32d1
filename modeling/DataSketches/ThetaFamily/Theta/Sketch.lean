import DataSketches.ThetaFamily.Portable
import DataSketches.ThetaFamily.Theta.HashTable

/-!
# Theta sketches and their set operations

The set operations of the Theta sketch instantiate the state machines of the
family with bare hashes.  `Producible` describes every sketch that updates and
set operations give, whatever they were applied to, and `Producible.ready` what
all of them have in common.
-/

namespace DataSketches

open Runs SketchHashTable

/-- Compact (immutable) theta sketch. -/
structure CompactThetaSketch where
  entries : List ℕ
  theta : ℕ
  seedHash : ℕ
  ordered : Bool
  empty : Bool
deriving DecidableEq, Repr

namespace CompactThetaSketch

def fromParts (parts : CompactSketchParts ThetaEntry) : CompactThetaSketch :=
  ⟨parts.entries.map ThetaEntry.hash, parts.theta, parts.seedHash, parts.ordered, parts.empty⟩

/-- Returns `true` if this sketch is in estimation mode. -/
def isEstimationMode (c : CompactThetaSketch) : Bool := c.theta < maxTheta

/-- Returns the number of retained entries. -/
def numRetained (c : CompactThetaSketch) : ℕ := c.entries.length

end CompactThetaSketch

/-- Returns this sketch in compact, immutable form. -/
def ThetaHashTable.compact (t : ThetaHashTable) (ordered : Bool) : Checked CompactThetaSketch :=
  CompactThetaSketch.fromParts <$> t.toCompactParts ordered

/-- A sketch passed to a Theta set operation. -/
inductive ThetaSketchView where
  | mutable (table : ThetaHashTable)
  | compact (sketch : CompactThetaSketch)

namespace ThetaSketchView

/-- What a set operation reads.  The iterator over a compact sketch makes its entries on the
way; making them all at once differs only for a sketch that retains a zero. -/
def view : ThetaSketchView → Checked (EntrySketch ThetaEntry)
  | .mutable t => do return t.asView (← t.seedHash)
  | .compact c => do
      let entries ← c.entries.mapM ThetaEntry.new
      return ⟨⟨c.seedHash, c.theta, c.empty, c.ordered, c.numRetained⟩, entries⟩

end ThetaSketchView

/-! ## The set operations -/

abbrev ThetaUnion := UnionState ThetaEntry

namespace ThetaUnion

def new (lgK : ℕ) (resizeFactor : ResizeFactor) (p : ℚ) (seed : UInt64) : Checked ThetaUnion :=
  UnionState.new lgK resizeFactor p seed noopPolicy

def update (u : ThetaUnion) (sketch : ThetaSketchView) :
    Checked (ThetaUnion × Except Error Unit) := do UnionState.update u (← sketch.view)

def toSketch (u : ThetaUnion) (ordered : Bool) : Checked CompactThetaSketch :=
  CompactThetaSketch.fromParts <$> u.toCompactParts ordered

/-- What can be done to a union. -/
inductive Op where
  | update (sketch : ThetaSketchView)
  | reset

def step (u : ThetaUnion) : Op → Except Fault ThetaUnion
  | .update sketch => accepted (u.update sketch)
  | .reset => .ok u.reset

end ThetaUnion

abbrev ThetaIntersection := IntersectionState ThetaEntry

namespace ThetaIntersection

def withSeed (seed : UInt64) : Checked ThetaIntersection := IntersectionState.new seed noopPolicy

def update (i : ThetaIntersection) (sketch : ThetaSketchView) :
    Checked (ThetaIntersection × Except Error Unit) := do IntersectionState.update i (← sketch.view)

def toSketch (i : ThetaIntersection) (ordered : Bool) : Checked (Option CompactThetaSketch) := do
  if !i.hasResult then
    return none
  return some (.fromParts (← i.toCompactParts ordered))

end ThetaIntersection

/-- Theta sketch set difference. -/
structure ThetaANotB where
  seedHash : ℕ

namespace ThetaANotB

def withSeed (seed : UInt64) : Checked ThetaANotB := do return ⟨← computeSeedHash seed⟩

def compute (op : ThetaANotB) (a b : ThetaSketchView) (ordered : Bool) :
    Checked (Except Error CompactThetaSketch) := do
  return CompactThetaSketch.fromParts <$> ANotB.compute op.seedHash (← a.view) (← b.view) ordered

end ThetaANotB

/-! ## Views -/

namespace ThetaEntry

theorem mapM_new {hashes : List ℕ} (h : ∀ x ∈ hashes, x ≠ 0) :
    ∃ es, hashes.mapM new = .ok es ∧ es.map ThetaEntry.hash = hashes := by
  induction hashes with
  | nil => exact ⟨[], rfl, rfl⟩
  | cons x hashes ih =>
      obtain ⟨es, hok, hes⟩ := ih fun y hy ↦ h y (List.mem_cons_of_mem _ hy)
      refine ⟨⟨x, h x List.mem_cons_self⟩ :: es, ?_, by rw [List.map_cons, hes]⟩
      rw [List.mapM_cons, new_of_ne_zero (h x List.mem_cons_self), ok_bind, hok]
      rfl

theorem map_hash_of_mapM_new {hashes : List ℕ} {es : List ThetaEntry}
    (h : hashes.mapM new = .ok es) : es.map ThetaEntry.hash = hashes := by
  induction hashes generalizing es with
  | nil =>
      cases h
      rfl
  | cons x hashes ih =>
      rw [List.mapM_cons] at h
      obtain ⟨e, he, h⟩ := bind_eq_ok.mp h
      obtain ⟨es', hes', h⟩ := bind_eq_ok.mp h
      cases h
      rw [List.map_cons, ih hes']
      unfold new at he
      split_ifs at he
      cases he
      rfl

end ThetaEntry

namespace CompactThetaSketch

/-- What a set operation reads of the compact parts is what they were made of. -/
theorem view_fromParts {parts : CompactSketchParts ThetaEntry} {s : EntrySketch ThetaEntry}
    (h : (ThetaSketchView.compact (fromParts parts)).view = .ok s) : s = parts.asView := by
  obtain ⟨es, hes, h⟩ := bind_eq_ok.mp h
  cases h
  have hmap := ThetaEntry.map_hash_of_mapM_new hes
  obtain rfl : es = parts.entries := List.map_injective_iff.mpr ThetaEntry.hash_injective hmap
  simp [fromParts, CompactSketchParts.asView, numRetained]

/-- What is common to the compact sketches of this library: the bounds of the format hold. -/
structure Ready (c : CompactThetaSketch) : Prop where
  nodup : c.entries.Nodup
  range : ∀ x ∈ c.entries, 0 < x ∧ x < c.theta
  ordered : c.ordered = true → c.entries.Pairwise (· < ·)
  entries_of_empty : c.empty = true → c.entries = []
  theta_le : c.theta ≤ maxTheta
  numRetained_lt : c.numRetained < 2 ^ 32
  seedHash_lt : c.seedHash < 2 ^ 16

/-- Parts that are seen as a well-formed sketch give a compact sketch. -/
theorem ready_fromParts {parts : CompactSketchParts ThetaEntry} (h : parts.asView.WellFormed)
    (htheta : parts.theta ≤ maxTheta) (hlen : parts.entries.length < 2 ^ 32)
    (hseed : parts.seedHash < 2 ^ 16) : (fromParts parts).Ready where
  nodup := h.nodup
  range := fun x hx ↦ by
    obtain ⟨e, he, rfl⟩ := List.mem_map.mp hx
    exact h.range e he
  ordered := fun ho ↦ List.pairwise_map.mpr (h.ordered ho)
  entries_of_empty := fun he ↦ by
    have hnil : parts.entries = [] := h.entries_of_empty he
    rw [fromParts, hnil]
    rfl
  theta_le := htheta
  numRetained_lt := by
    rw [numRetained, fromParts, List.length_map]
    exact hlen
  seedHash_lt := hseed

end CompactThetaSketch

/-! ## What the library produces -/

/-- The sketches that updates and set operations give, applied to each other in any way. -/
inductive Producible : ThetaSketchView → Prop
  /-- An update sketch after any number of updates, trims and resets. -/
  | mutable {lgK : ℕ} {rf : ResizeFactor} {p : ℚ} {seed : UInt64} {ops : List Theta.Op}
      {t₀ t : ThetaHashTable} (hlgK : minLgK ≤ lgK ∧ lgK ≤ maxLgK) (hp : 0 < p ∧ p ≤ 1)
      (hnew : SketchHashTable.new lgK rf p seed = .ok t₀) (hrun : run Theta.step t₀ ops = .ok t) :
      Producible (.mutable t)
  /-- The compact form of an update sketch. -/
  | compact {t : ThetaHashTable} {ordered : Bool} {c : CompactThetaSketch}
      (h : Producible (.mutable t)) (hc : t.compact ordered = .ok c) : Producible (.compact c)
  /-- The result of a union. -/
  | union {lgK : ℕ} {rf : ResizeFactor} {p : ℚ} {seed : UInt64} {ops : List ThetaUnion.Op}
      {u₀ u : ThetaUnion} {ordered : Bool} {c : CompactThetaSketch}
      (hlgK : minLgK ≤ lgK ∧ lgK ≤ maxLgK) (hp : 0 < p ∧ p ≤ 1)
      (hnew : ThetaUnion.new lgK rf p seed = .ok u₀)
      (hin : ∀ v, .update v ∈ ops → Producible v) (hrun : run ThetaUnion.step u₀ ops = .ok u)
      (hc : u.toSketch ordered = .ok c) : Producible (.compact c)
  /-- The result of an intersection. -/
  | intersection {seed : UInt64} {inputs : List ThetaSketchView} {i₀ i : ThetaIntersection}
      {ordered : Bool} {c : CompactThetaSketch} (hnew : ThetaIntersection.withSeed seed = .ok i₀)
      (hin : ∀ v ∈ inputs, Producible v)
      (hrun : run (fun i v ↦ accepted (ThetaIntersection.update i v)) i₀ inputs = .ok i)
      (hc : i.toSketch ordered = .ok (some c)) : Producible (.compact c)
  /-- The result of a difference. -/
  | aNotB {seed : UInt64} {op : ThetaANotB} {a b : ThetaSketchView} {ordered : Bool}
      {c : CompactThetaSketch} (hnew : ThetaANotB.withSeed seed = .ok op) (ha : Producible a)
      (hb : Producible b) (hc : op.compute a b ordered = .ok (.ok c)) : Producible (.compact c)

/-- A well-formed sketch within the bounds of the format. -/
structure Fits (s : EntrySketch ThetaEntry) : Prop extends s.WellFormed where
  theta_le : s.scalars.theta ≤ maxTheta
  length_lt : s.entries.length < 2 ^ 32
  seedHash_lt : s.scalars.seedHash < 2 ^ 16

/-- What holds of every sketch that the library produces. -/
structure Sound (v : ThetaSketchView) : Prop where
  fits : ∀ s, v.view = .ok s → Fits s
  ready : ∀ c, v = .compact c → c.Ready

theorem Portable.fits {s : EntrySketch ThetaEntry} (h : Portable s) : Fits s :=
  ⟨h.toWellFormed, h.theta_le, h.length_lt, h.seedHash_lt⟩

theorem Fits.portable {s : EntrySketch ThetaEntry} (h : Fits s) : Portable s :=
  ⟨h.toWellFormed, h.theta_le, h.length_lt, h.seedHash_lt⟩

/-- Portable compact parts give a sound sketch. -/
theorem sound_fromParts {parts : CompactSketchParts ThetaEntry} (h : Portable parts.asView) :
    Sound (.compact (.fromParts parts)) where
  fits := fun s hs ↦ by
    rw [CompactThetaSketch.view_fromParts hs]
    exact h.fits
  ready := fun c hc ↦ by
    cases hc
    exact CompactThetaSketch.ready_fromParts h.toWellFormed h.theta_le h.length_lt h.seedHash_lt

/-- A compact sketch is made of parts. -/
theorem CompactThetaSketch.of_map_fromParts {x : Checked (CompactSketchParts ThetaEntry)}
    {c : CompactThetaSketch} (h : fromParts <$> x = .ok c) :
    ∃ parts, x = .ok parts ∧ c = fromParts parts := by
  cases x with
  | error e => cases h
  | ok parts => exact ⟨parts, rfl, (Except.ok.inj h).symm⟩

/-- The invariant of a mutable sketch gives that of its compact form as well. -/
theorem Theta.RunInv.sound {lgK : ℕ} (hlgK : lgK ≤ maxLgK) {p : ℚ} {ops : List Theta.Op}
    {t : ThetaHashTable} (h : Theta.RunInv lgK p ops t) :
    Sound (.mutable t) ∧
      ∀ ordered c, t.compact ordered = .ok c → Sound (.compact c) := by
  have htheta : t.theta ≤ maxTheta := h.samples.le_top.trans (startingTheta_le p)
  refine ⟨⟨fun s hs ↦ ?_, nofun⟩, fun ordered c hc ↦ ?_⟩
  · obtain ⟨sh, hsh, hs⟩ := bind_eq_ok.mp hs
    cases hs
    exact (h.portable_asView h.lgNomSize_eq hlgK htheta h.entries_of_isEmpty hsh).fits
  · obtain ⟨parts, hparts, rfl⟩ := CompactThetaSketch.of_map_fromParts hc
    exact sound_fromParts
      (h.portable_toCompactParts h.lgNomSize_eq hlgK htheta h.entries_of_isEmpty hparts)

/-! ### Set operations -/

theorem ThetaUnion.tame_step {lgK : ℕ} (hlgK : minLgK ≤ lgK) {u u' : ThetaUnion}
    (h : UnionState.Tame lgK u) {op : ThetaUnion.Op} (hop : ∀ v, op = .update v → Sound v)
    (hok : u.step op = .ok u') : UnionState.Tame lgK u' := by
  cases op with
  | reset =>
      cases hok
      exact UnionState.Tame.reset h hlgK
  | update v =>
      obtain ⟨s, hs, hok⟩ := bind_eq_ok.mp (accepted_eq_ok.mp hok)
      exact UnionState.Tame.update h ((hop v rfl).fits s hs).toWellFormed hok

theorem ThetaIntersection.tame_update {seed : UInt64} {i i' : ThetaIntersection}
    (h : IntersectionState.Tame seed noopPolicy i) {v : ThetaSketchView} (hv : Sound v)
    (hok : ThetaIntersection.update i v = .ok (i', .ok ())) :
    IntersectionState.Tame seed noopPolicy i' := by
  obtain ⟨s, hs, hok⟩ := bind_eq_ok.mp hok
  exact IntersectionState.Tame.update h (hv.fits s hs).portable hok

theorem ThetaIntersection.sound_toSketch {seed : UInt64} {i : ThetaIntersection}
    (h : IntersectionState.Tame seed noopPolicy i) {ordered : Bool} {c : CompactThetaSketch}
    (hc : i.toSketch ordered = .ok (some c)) : Sound (.compact c) := by
  unfold ThetaIntersection.toSketch at hc
  split_ifs at hc with hres
  · cases hc
  · obtain ⟨parts, hparts, hc⟩ := bind_eq_ok.mp hc
    cases hc
    exact sound_fromParts (h.portable (by simpa using hres) hparts)

theorem ThetaANotB.sound {seed : UInt64} {op : ThetaANotB} (hnew : withSeed seed = .ok op)
    {a b : ThetaSketchView} (ha : Sound a) (hb : Sound b) {ordered : Bool} {c : CompactThetaSketch}
    (hc : op.compute a b ordered = .ok (.ok c)) : Sound (.compact c) := by
  obtain ⟨sh, hsh, hnew⟩ := bind_eq_ok.mp hnew
  cases hnew
  obtain ⟨sa, hsa, hc⟩ := bind_eq_ok.mp hc
  obtain ⟨sb, hsb, hc⟩ := bind_eq_ok.mp hc
  cases hparts : ANotB.compute sh sa sb ordered with
  | error e =>
      rw [hparts] at hc
      cases hc
  | ok parts =>
      rw [hparts] at hc
      cases hc
      exact sound_fromParts (ANotB.portable (ha.fits sa hsa).portable (hb.fits sb hsb).portable
        (computeSeedHash_range hsh).2 hparts)

/-- Every sketch that the library produces is sound. -/
theorem Producible.sound {v : ThetaSketchView} (h : Producible v) : Sound v := by
  have hmutable : ∀ {t}, Producible (.mutable t) → ∃ lgK p ops, lgK ≤ maxLgK ∧
      Theta.RunInv lgK p ops t := by
    rintro t ⟨⟩
    case mutable lgK rf p seed ops t₀ hlgK hp hnew hrun =>
      obtain ⟨t₀', t', hnew', hrun', hinv⟩ := Theta.run_spec hlgK.1 rf p seed ops
      rw [hnew] at hnew'
      cases hnew'
      rw [hrun] at hrun'
      cases hrun'
      exact ⟨lgK, p, ops, hlgK.2, hinv⟩
  induction h with
  | mutable hlgK hp hnew hrun =>
      obtain ⟨lgK, p, ops, hle, hinv⟩ := hmutable (.mutable hlgK hp hnew hrun)
      exact (hinv.sound hle).1
  | compact h hc =>
      obtain ⟨lgK, p, ops, hle, hinv⟩ := hmutable h
      exact (hinv.sound hle).2 _ _ hc
  | @union lgK rf p seed ops u₀ u ordered c hlgK hp hnew hin hrun hc ih =>
      have htame : UnionState.Tame lgK u := by
        refine run_invariant (I := fun ops u ↦ (∀ v, .update v ∈ ops → Sound v) →
          UnionState.Tame lgK u) (fun _ ↦ UnionState.tame_new hlgK.1 hnew) ?_ hrun ih
        intro ops op u u' ihrun hstep hsound
        refine ThetaUnion.tame_step hlgK.1 (ihrun fun v hv ↦ hsound v (List.mem_append_left _ hv))
          ?_ hstep
        rintro v rfl
        exact hsound v (by simp)
      obtain ⟨parts, hparts, rfl⟩ := CompactThetaSketch.of_map_fromParts hc
      exact sound_fromParts (htame.portable hlgK.2 hparts)
  | @intersection seed inputs i₀ i ordered c hnew hin hrun hc ih =>
      have htame : IntersectionState.Tame seed noopPolicy i := by
        refine run_invariant (I := fun inputs i ↦ (∀ v ∈ inputs, Sound v) →
          IntersectionState.Tame seed noopPolicy i)
          (fun _ ↦ IntersectionState.tame_new hnew) ?_ hrun ih
        intro inputs v i i' ihrun hstep hsound
        exact ThetaIntersection.tame_update
          (ihrun fun v hv ↦ hsound v (List.mem_append_left _ hv)) (hsound v (by simp))
          (accepted_eq_ok.mp hstep)
      exact ThetaIntersection.sound_toSketch htame hc
  | aNotB hnew ha hb hc iha ihb => exact ThetaANotB.sound hnew iha ihb hc

end DataSketches
