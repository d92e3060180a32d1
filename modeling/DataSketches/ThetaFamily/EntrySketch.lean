import DataSketches.ThetaFamily.HashTable.Invariant

/-!
# Entries, and sketches as the set operations see them

A Theta entry is a bare hash, a Tuple entry carries a summary as well.  A set
operation reads a few scalars of its input and iterates over its entries,
whatever form the input has.  `WellFormed` is what holds of the sketches built by
this library.
-/

namespace DataSketches

open Runs Selection

/-! ## Entries -/

/-- A retained entry in a Theta sketch. -/
structure ThetaEntry where
  hash : ℕ
  ne_zero : hash ≠ 0
deriving DecidableEq

instance : SketchEntry ThetaEntry := ⟨ThetaEntry.hash⟩

namespace ThetaEntry

/-- Wraps a hash, which must not be zero. -/
def new (hash : ℕ) : Checked ThetaEntry :=
  if h : hash ≠ 0 then .ok ⟨hash, h⟩ else .error (.expect "hash must be non-zero")

theorem new_of_ne_zero {hash : ℕ} (h : hash ≠ 0) : new hash = .ok ⟨hash, h⟩ := dif_pos h

theorem hash_injective : Function.Injective (SketchEntry.hash : ThetaEntry → ℕ) := by
  rintro ⟨x, hx⟩ ⟨y, hy⟩ heq
  cases (show x = y from heq)
  rfl

end ThetaEntry

/-- A retained entry in a Tuple sketch: a hash key together with its associated summary. -/
structure TupleEntry (S : Type) where
  hash : ℕ
  ne_zero : hash ≠ 0
  summary : S
deriving DecidableEq

instance {S : Type} : SketchEntry (TupleEntry S) := ⟨TupleEntry.hash⟩

/-- Merges an incoming entry into an existing entry with the same hash, which stays the key
of the entry: the Theta family only merges what is stored beside the hash. -/
structure MergePolicy (E : Type) [SketchEntry E] where
  merge : E → E → E
  hash_merge : ∀ existing incoming, SketchEntry.hash (merge existing incoming) =
    SketchEntry.hash existing

/-- There is nothing to merge in a Theta entry. -/
def noopPolicy : MergePolicy ThetaEntry where
  merge existing _ := existing
  hash_merge _ _ := rfl

/-- Tuple entries combine their summaries. -/
def summaryPolicy {S : Type} (combine : S → S → S) : MergePolicy (TupleEntry S) where
  merge existing incoming := { existing with summary := combine existing.summary incoming.summary }
  hash_merge _ _ := rfl

/-! ## Sketch views -/

/-- Scalar sketch values inspected by Theta-family set operations. -/
structure SketchScalars where
  seedHash : ℕ
  theta : ℕ
  empty : Bool
  ordered : Bool
  numRetained : ℕ
deriving DecidableEq

/-- A sketch view: its scalars, and its entries in the order of iteration. -/
structure EntrySketch (E : Type) where
  scalars : SketchScalars
  entries : List E

namespace EntrySketch

variable {E : Type} [SketchEntry E]

/-- The hashes of a view. -/
def hashes (s : EntrySketch E) : Finset ℕ := (s.entries.map SketchEntry.hash).toFinset

theorem mem_hashes {s : EntrySketch E} {x : ℕ} :
    x ∈ s.hashes ↔ ∃ e ∈ s.entries, SketchEntry.hash e = x := by
  rw [hashes, List.mem_toFinset, List.mem_map]

/-- A sketch whose hashes are distinct, in range, and ascending if it says so. -/
structure WellFormed (s : EntrySketch E) : Prop where
  nodup : (s.entries.map SketchEntry.hash).Nodup
  range : ∀ e ∈ s.entries, 0 < SketchEntry.hash e ∧ SketchEntry.hash e < s.scalars.theta
  ordered : s.scalars.ordered = true →
    s.entries.Pairwise (SketchEntry.hash · < SketchEntry.hash ·)
  numRetained_eq : s.scalars.numRetained = s.entries.length
  entries_of_empty : s.scalars.empty = true → s.entries = []

instance (s : EntrySketch E) : Decidable s.WellFormed :=
  decidable_of_iff ((s.entries.map SketchEntry.hash).Nodup ∧
      (∀ e ∈ s.entries, 0 < SketchEntry.hash e ∧ SketchEntry.hash e < s.scalars.theta) ∧
      (s.scalars.ordered = true → s.entries.Pairwise (SketchEntry.hash · < SketchEntry.hash ·)) ∧
      s.scalars.numRetained = s.entries.length ∧
      (s.scalars.empty = true → s.entries.isEmpty))
    ⟨fun ⟨h₁, h₂, h₃, h₄, h₅⟩ ↦ ⟨h₁, h₂, h₃, h₄, fun h ↦ List.isEmpty_iff.mp (h₅ h)⟩,
      fun ⟨h₁, h₂, h₃, h₄, h₅⟩ ↦ ⟨h₁, h₂, h₃, h₄, fun h ↦ List.isEmpty_iff.mpr (h₅ h)⟩⟩

theorem WellFormed.card_hashes {s : EntrySketch E} (h : s.WellFormed) :
    s.hashes.card = s.scalars.numRetained := by
  rw [hashes, List.toFinset_card_of_nodup h.nodup, List.length_map, h.numRetained_eq]

theorem WellFormed.hashes_lt {s : EntrySketch E} (h : s.WellFormed) {x : ℕ} (hx : x ∈ s.hashes) :
    0 < x ∧ x < s.scalars.theta := by
  obtain ⟨e, he, rfl⟩ := mem_hashes.mp hx
  exact h.range e he

theorem WellFormed.hashes_of_empty {s : EntrySketch E} (h : s.WellFormed)
    (hempty : s.scalars.empty = true) : s.hashes = ∅ := by
  rw [hashes, h.entries_of_empty hempty]
  rfl

/-- A sketch an operator with this seed accepts: one without keys, whose seed is not looked
at, or one of the same seed. -/
def OfSeed (seed : UInt64) (s : EntrySketch E) : Prop :=
  s.scalars.empty = true ∨ computeSeedHash seed = .ok s.scalars.seedHash

end EntrySketch

/-! ## Compact parts -/

section Sorting

open SketchHashTable

variable {E : Type} [SketchEntry E] {es : List E}

theorem sortByHash_perm (es : List E) : (sortByHash es).Perm es := List.mergeSort_perm es _

/-- Sorting distinct hashes makes them ascend. -/
theorem pairwise_sortByHash (h : (es.map SketchEntry.hash).Nodup) :
    (sortByHash es).Pairwise (SketchEntry.hash · < SketchEntry.hash ·) :=
  pairwise_mergeSort_key h

/-- A list with at most one entry ascends. -/
theorem pairwise_of_length_le_one (h : es.length ≤ 1) :
    es.Pairwise (SketchEntry.hash · < SketchEntry.hash ·) := by
  match es, h with
  | [], _ => exact List.Pairwise.nil
  | [e], _ => exact List.pairwise_singleton _ e

end Sorting

namespace CompactSketchParts

variable {E : Type}

/-- A compact sketch is viewed through its parts. -/
def asView (parts : CompactSketchParts E) : EntrySketch E where
  scalars := ⟨parts.seedHash, parts.theta, parts.empty, parts.ordered, parts.entries.length⟩
  entries := parts.entries

end CompactSketchParts

namespace SketchHashTable

variable {E : Type} [SketchEntry E]

/-- A mutable sketch is viewed through its table, without an order. -/
def asView (t : SketchHashTable E) (seedHash : ℕ) : EntrySketch E where
  scalars := ⟨seedHash, t.theta, t.isEmpty, false, t.numRetained⟩
  entries := t.iterEntries

/-- The view of a mutable sketch is well-formed, provided a table flagged empty is. -/
theorem Inv.wellFormed_asView {t : SketchHashTable E} (h : Inv t)
    (hempty : t.isEmpty = true → t.iterEntries = []) (seedHash : ℕ) :
    (t.asView seedHash).WellFormed :=
  ⟨h.nodup_hashes, h.below, nofun, h.numRetained_eq, hempty⟩

/-- The compact parts of a table are well-formed, and an empty one has the maximum theta. -/
theorem Inv.wellFormed_toCompactParts {t : SketchHashTable E} (h : Inv t)
    (hempty : t.isEmpty = true → t.iterEntries = []) {ordered : Bool}
    {parts : CompactSketchParts E} (hok : t.toCompactParts ordered = .ok parts) :
    parts.asView.WellFormed ∧ parts.entries.length = t.numRetained ∧
      parts.theta = (if parts.empty then maxTheta else t.theta) ∧
      computeSeedHash t.seed = .ok parts.seedHash := by
  obtain ⟨sh, hsh, hok⟩ := bind_eq_ok.mp hok
  cases hok
  obtain ⟨ord, hord⟩ : ∃ ord, ord = (ordered || t.isEmpty || decide (t.iterEntries.length = 1 ∧
      (if t.isEmpty then maxTheta else t.theta) = maxTheta)) := ⟨_, rfl⟩
  obtain ⟨out, hout⟩ : ∃ out, out =
      if ord && t.iterEntries.length > 1 then sortByHash t.iterEntries else t.iterEntries :=
    ⟨_, rfl⟩
  have hperm : out.Perm t.iterEntries := by
    rw [hout]
    split_ifs
    · exact sortByHash_perm _
    · exact List.Perm.refl _
  rw [← hord, ← hout]
  refine ⟨⟨(hperm.map _).nodup_iff.mpr h.nodup_hashes, fun e he ↦ ?_, fun ho ↦ ?_, rfl,
    fun he ↦ ?_⟩, hperm.length_eq.trans h.numRetained_eq.symm, rfl, hsh⟩
  · have hbelow := h.below e (hperm.mem_iff.mp he)
    refine ⟨hbelow.1, ?_⟩
    change _ < if t.isEmpty then maxTheta else t.theta
    split_ifs with he'
    · have hnil := hperm.mem_iff.mp he
      rw [hempty he'] at hnil
      exact absurd hnil List.not_mem_nil
    · exact hbelow.2
  · change out.Pairwise _
    rw [hout]
    split_ifs with hsort
    · exact pairwise_sortByHash h.nodup_hashes
    · change ord = true at ho
      rw [ho, Bool.true_and, decide_eq_true_eq, not_lt] at hsort
      exact pairwise_of_length_le_one hsort
  · change out = []
    rw [hempty he] at hperm
    exact hperm.eq_nil

end SketchHashTable

end DataSketches
