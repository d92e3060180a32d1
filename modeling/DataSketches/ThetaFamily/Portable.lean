import DataSketches.ThetaFamily.ANotB
import DataSketches.ThetaFamily.Intersection
import DataSketches.ThetaFamily.Union

/-!
# Sketches within the bounds of the format

Both families write the number of entries in 32 bits, theta in 63 and the hash of
the seed in 16.  Tables and set operations of portable sketches give portable
sketches, whatever the entries are.
-/

namespace DataSketches

open Runs SketchHashTable

variable {E : Type} [SketchEntry E]

/-- A well-formed sketch within the bounds of the format. -/
structure Portable (s : EntrySketch E) : Prop extends s.WellFormed where
  theta_le : s.scalars.theta ≤ maxTheta
  length_lt : s.entries.length < 2 ^ 32
  seedHash_lt : s.scalars.seedHash < 2 ^ 16

namespace SketchHashTable

variable {t : SketchHashTable E} {lgK : ℕ}

/-- A table within the sizes of the builder retains few entries. -/
theorem Inv.numRetained_lt_of_lgK (h : Inv t) (hlg : t.lgNomSize = lgK) (hlgK : lgK ≤ maxLgK) :
    t.numRetained < 2 ^ 32 := by
  have hsize : t.lgCurSize ≤ 32 := by
    have hle := h.lgCurSize_le
    rw [h.lgMaxSize_eq, hlg] at hle
    unfold maxLgK at hlgK
    omega
  calc t.numRetained < t.entries.length := h.numRetained_lt
    _ = 2 ^ t.lgCurSize := h.length_eq
    _ ≤ 2 ^ 32 := Nat.pow_le_pow_right two_pos hsize

section Table

variable (h : Inv t) (hlg : t.lgNomSize = lgK) (hlgK : lgK ≤ maxLgK) (htheta : t.theta ≤ maxTheta)
  (hempty : t.isEmpty = true → t.iterEntries = [])
include h hlg hlgK htheta hempty

/-- A mutable sketch is portable, -/
theorem Inv.portable_asView {sh : ℕ} (hsh : computeSeedHash t.seed = .ok sh) :
    Portable (t.asView sh) :=
  ⟨h.wellFormed_asView hempty sh, htheta, h.numRetained_eq ▸ h.numRetained_lt_of_lgK hlg hlgK,
    (computeSeedHash_range hsh).2⟩

/-- and so is its compact form. -/
theorem Inv.portable_toCompactParts {ordered : Bool} {parts : CompactSketchParts E}
    (hparts : t.toCompactParts ordered = .ok parts) : Portable parts.asView := by
  obtain ⟨hwf, hlen, hth, hsh⟩ := h.wellFormed_toCompactParts hempty hparts
  refine ⟨hwf, ?_, hlen.trans_lt (h.numRetained_lt_of_lgK hlg hlgK), (computeSeedHash_range hsh).2⟩
  change parts.theta ≤ maxTheta
  rw [hth]
  split_ifs
  · exact le_refl _
  · exact htheta

end Table

end SketchHashTable

/-! ## Unions -/

namespace UnionState

variable {lgK : ℕ} {u u' : UnionState E} {s : EntrySketch E}

/-- A union of well-formed sketches. -/
def Tame (lgK : ℕ) (u : UnionState E) : Prop :=
  ∃ start inputs, start ≤ maxTheta ∧ (∀ s ∈ inputs, s.WellFormed) ∧ RunInv lgK start inputs u

theorem tame_new {rf : ResizeFactor} {p : ℚ} {seed : UInt64} {policy : MergePolicy E}
    (hlgK : minLgK ≤ lgK) (hnew : new lgK rf p seed policy = .ok u) : u.Tame lgK := by
  obtain ⟨u', hnew', -, hinv⟩ := new_runInv hlgK rf p seed policy
  obtain rfl : u = u' := Except.ok.inj (hnew.symm.trans hnew')
  exact ⟨_, [], startingTheta_le p, fun s hs ↦ absurd hs List.not_mem_nil, hinv⟩

theorem Tame.update (h : u.Tame lgK) (hs : s.WellFormed) (hok : u.update s = .ok (u', .ok ())) :
    u'.Tame lgK := by
  obtain ⟨start, inputs, hstart, hwf, hinv⟩ := h
  obtain ⟨u'', hok', hinv', -⟩ := update_spec hinv hs (ofSeed_of_update hok)
  rw [hok] at hok'
  cases hok'
  refine ⟨start, inputs ++ [s], hstart, fun s' hs' ↦ ?_, hinv'⟩
  rcases List.mem_append.mp hs' with hs' | hs'
  · exact hwf s' hs'
  · rw [List.mem_singleton.mp hs']
    exact hs

theorem Tame.reset (h : u.Tame lgK) (hlgK : minLgK ≤ lgK) : u.reset.Tame lgK := by
  obtain ⟨start, inputs, hstart, hwf, hinv⟩ := h
  exact ⟨_, [], startingTheta_le _, fun s hs ↦ absurd hs List.not_mem_nil, reset_runInv hinv hlgK⟩

/-- The result of a union is portable. -/
theorem Tame.portable (h : u.Tame lgK) (hlgK : lgK ≤ maxLgK) {ordered : Bool}
    {parts : CompactSketchParts E} (hparts : u.toCompactParts ordered = .ok parts) :
    Portable parts.asView := by
  obtain ⟨start, inputs, hstart, hwf, hinv⟩ := h
  obtain ⟨hwf', htheta, hlen, hsh⟩ := wellFormed_toCompactParts hinv hwf hparts
  exact ⟨hwf', htheta.trans hstart,
    hlen.trans_lt (Nat.pow_lt_pow_right one_lt_two (hlgK.trans_lt (by decide))),
    (computeSeedHash_range hsh).2⟩

end UnionState

/-! ## Intersections -/

namespace IntersectionState

variable {seed : UInt64} {policy : MergePolicy E} {i i' : IntersectionState E} {s : EntrySketch E}

/-- An intersection of portable sketches. -/
def Tame (seed : UInt64) (policy : MergePolicy E) (i : IntersectionState E) : Prop :=
  ∃ inputs, (∀ s ∈ inputs, Portable s) ∧ RunInv seed policy inputs i

theorem tame_new (hnew : new seed policy = .ok i) : i.Tame seed policy := by
  obtain ⟨i', hnew', hinv, -⟩ := new_runInv seed policy
  obtain rfl : i = i' := Except.ok.inj (hnew.symm.trans hnew')
  exact ⟨[], fun s hs ↦ absurd hs List.not_mem_nil, hinv⟩

theorem Tame.update (h : i.Tame seed policy) (hs : Portable s)
    (hok : i.update s = .ok (i', .ok ())) : i'.Tame seed policy := by
  obtain ⟨inputs, hall, hinv⟩ := h
  have hall' : ∀ s' ∈ inputs ++ [s], Portable s' := by
    intro s' hmem
    rcases List.mem_append.mp hmem with hmem | hmem
    · exact hall s' hmem
    · rw [List.mem_singleton.mp hmem]
      exact hs
  exact ⟨inputs ++ [s], hall',
    hinv.of_accepted (fun s' hmem ↦ (hall' s' hmem).toWellFormed) hs.theta_le hok⟩

/-- The result of an intersection is portable. -/
theorem Tame.portable (h : i.Tame seed policy) (hresult : i.hasResult = true) {ordered : Bool}
    {parts : CompactSketchParts E} (hparts : i.toCompactParts ordered = .ok parts) :
    Portable parts.asView := by
  obtain ⟨inputs, hall, hinv⟩ := h
  have hne : inputs ≠ [] := hinv.hasResult_iff.mp hresult
  obtain ⟨hwf, htheta, hlen, -, hsh⟩ := wellFormed_toCompactParts hinv hne
    (fun s hs ↦ (hall s hs).toWellFormed) hparts
  obtain ⟨s, hs⟩ := List.exists_mem_of_ne_nil inputs hne
  exact ⟨hwf, htheta, (hlen s hs).trans_lt (hall s hs).length_lt, (computeSeedHash_range hsh).2⟩

end IntersectionState

/-! ## Differences -/

/-- The difference of portable sketches is portable. -/
theorem ANotB.portable {F : Type} [SketchEntry F] {a : EntrySketch E} {b : EntrySketch F}
    (ha : Portable a) (hb : Portable b) {sh : ℕ} (hsh : sh < 2 ^ 16) {ordered : Bool}
    {parts : CompactSketchParts E} (hparts : compute sh a b ordered = .ok parts) :
    Portable parts.asView := by
  obtain ⟨htheta, hlen, hseed⟩ := compute_le ha.toWellFormed hb.toWellFormed hparts
  refine ⟨wellFormed_compute ha.toWellFormed hb.toWellFormed hparts, htheta.trans ha.theta_le,
    hlen.trans_lt ha.length_lt, ?_⟩
  change parts.seedHash < 2 ^ 16
  rcases hseed with heq | heq
  · rw [heq]
    exact ha.seedHash_lt
  · rw [heq]
    exact hsh

end DataSketches
