import Mathlib

/-!
# Selecting the smallest elements

A bottom-`k` sample of a set keeps its `k` smallest elements and remembers the
next one as a threshold.  This file describes such samples over an arbitrary
linear order: what they are (`IsRank`, `KMin`), and that a sample which was cut
too late, too early or several times is still cut to the same result
(`KMin.canonical`).

## Main definitions

* `IsRank s n x`: `x ∈ s` and exactly `n` elements of `s` are below `x`.
* `KMin k top s θ r`: `r` is the part of `s` below the threshold `θ`, and `θ`
  was only ever lowered from `top` to an element of `s` above at least `k` others.
-/

universe u v

namespace Selection

variable {α : Type u} [LinearOrder α]

/-! ## Ranks -/

/-- `x` is the element of `s` with exactly `n` smaller ones. -/
structure IsRank (s : Finset α) (n : ℕ) (x : α) : Prop where
  /-- A rank is taken by an element. -/
  mem : x ∈ s
  /-- `n` elements are smaller. -/
  card_lt : (s.filter (· < x)).card = n

/-- Smaller elements have smaller ranks. -/
theorem IsRank.lt_of_lt {s : Finset α} {m n : ℕ} {x y : α} (hx : IsRank s m x)
    (hy : IsRank s n y) (h : x < y) : m < n := by
  rw [← hx.card_lt, ← hy.card_lt]
  refine Finset.card_lt_card ⟨fun z hz ↦ ?_, fun hsub ↦ ?_⟩
  · rw [Finset.mem_filter] at hz ⊢
    exact ⟨hz.1, hz.2.trans h⟩
  · have hmem : x ∈ s.filter (· < x) := hsub (Finset.mem_filter.mpr ⟨hx.mem, h⟩)
    exact lt_irrefl x (Finset.mem_filter.mp hmem).2

/-- A rank determines its element. -/
theorem IsRank.unique {s : Finset α} {n : ℕ} {x y : α} (hx : IsRank s n x) (hy : IsRank s n y) :
    x = y := by
  rcases lt_trichotomy x y with h | h | h
  · exact absurd (hx.lt_of_lt hy h) (lt_irrefl n)
  · exact h
  · exact absurd (hy.lt_of_lt hx h) (lt_irrefl n)

/-- A rank survives restriction to a lower part that contains the element. -/
theorem IsRank.filter_lt_iff {s : Finset α} {n : ℕ} {x t : α} (hxt : x < t) :
    IsRank (s.filter (· < t)) n x ↔ IsRank s n x := by
  have hfilter : (s.filter (· < t)).filter (· < x) = s.filter (· < x) := by
    rw [Finset.filter_filter]
    exact Finset.filter_congr fun y _ ↦ ⟨And.right, fun h ↦ ⟨h.trans hxt, h⟩⟩
  constructor
  · rintro ⟨hm, hc⟩
    exact ⟨(Finset.mem_filter.mp hm).1, by rw [← hfilter, hc]⟩
  · rintro ⟨hm, hc⟩
    exact ⟨Finset.mem_filter.mpr ⟨hm, hxt⟩, by rw [hfilter, hc]⟩

/-! ## Cutting a sorted list -/

/-- In a list whose keys strictly increase, the elements with a key below the one at
position `k` are the first `k`. -/
theorem filter_key_lt_getElem {β : Type v} {f : β → α} {l : List β}
    (hl : l.Pairwise (f · < f ·)) {k : ℕ} (hk : k < l.length) :
    l.filter (f · < f l[k]) = l.take k := by
  obtain ⟨t, ht⟩ : ∃ t, t = f l[k] := ⟨_, rfl⟩
  rw [← ht]
  conv_lhs => rw [← List.take_append_drop k l]
  rw [List.filter_append, List.filter_eq_self.mpr, List.filter_eq_nil_iff.mpr, List.append_nil]
  · intro x hx
    obtain ⟨i, hi, rfl⟩ := List.mem_iff_getElem.mp hx
    rw [List.length_drop] at hi
    rw [List.getElem_drop, decide_eq_true_eq, not_lt, ht]
    rcases Nat.eq_zero_or_pos i with rfl | hpos
    · exact le_of_eq (by simp)
    · exact (List.pairwise_iff_getElem.mp hl k (k + i) hk (by omega) (by omega)).le
  · intro x hx
    obtain ⟨i, hi, rfl⟩ := List.mem_iff_getElem.mp hx
    rw [List.length_take] at hi
    rw [List.getElem_take, decide_eq_true_eq, ht]
    exact List.pairwise_iff_getElem.mp hl i k (by omega) hk (by omega)

/-- Sorting a list with distinct keys makes its keys strictly increase. -/
theorem pairwise_mergeSort_key {β : Type v} {f : β → α} {l : List β} (hl : (l.map f).Nodup) :
    (l.mergeSort (f · ≤ f ·)).Pairwise (f · < f ·) := by
  have hle : (l.mergeSort (f · ≤ f ·)).Pairwise (f · ≤ f ·) := by
    have hsort := List.pairwise_mergeSort
      (fun a b c (hab : decide (f a ≤ f b) = true) (hbc : decide (f b ≤ f c) = true) ↦ by
        rw [decide_eq_true_eq] at hab hbc ⊢
        exact hab.trans hbc)
      (fun a b ↦ by simpa using le_total (f a) (f b)) l
    simpa using hsort
  have hne : (l.mergeSort (f · ≤ f ·)).Pairwise (f · ≠ f ·) :=
    List.pairwise_map.mp (((List.mergeSort_perm l _).map f).nodup_iff.mpr hl)
  exact (hle.and hne).imp fun h ↦ lt_of_le_of_ne h.1 h.2

/-! ## Bottom-`k` samples -/

/-- `r` is a sample of `s` with threshold `θ`: the elements of `s` below `θ`, where
`θ` is `top` or an element of `s` that at least `k` elements precede. -/
structure KMin (k : ℕ) (top : α) (s : Finset α) (θ : α) (r : Finset α) : Prop where
  /-- The threshold never rises above its start. -/
  le_top : θ ≤ top
  /-- The sample is the part of the set below the threshold. -/
  eq_filter : r = s.filter (· < θ)
  /-- A lowered threshold is an element of the set. -/
  mem_of_lt : θ < top → θ ∈ s
  /-- A lowered threshold leaves at least `k` elements. -/
  card_of_lt : θ < top → k ≤ r.card

namespace KMin

variable {k : ℕ} {top θ : α} {s r : Finset α}

theorem empty (k : ℕ) (top : α) : KMin k top ∅ top ∅ :=
  ⟨le_refl top, by simp, fun h ↦ absurd h (lt_irrefl top), fun h ↦ absurd h (lt_irrefl top)⟩

theorem mem_iff (h : KMin k top s θ r) {x : α} : x ∈ r ↔ x ∈ s ∧ x < θ := by
  rw [h.eq_filter, Finset.mem_filter]

/-- Elements at or above the threshold change the set only. -/
theorem union_of_le (h : KMin k top s θ r) {u : Finset α} (hu : ∀ x ∈ u, θ ≤ x) :
    KMin k top (s ∪ u) θ r where
  le_top := h.le_top
  eq_filter := by
    rw [Finset.filter_union, Finset.filter_false_of_mem fun x hx ↦ not_lt.mpr (hu x hx),
      Finset.union_empty, ← h.eq_filter]
  mem_of_lt := fun hlt ↦ Finset.mem_union_left _ (h.mem_of_lt hlt)
  card_of_lt := h.card_of_lt

theorem insert_of_le (h : KMin k top s θ r) {x : α} (hx : θ ≤ x) :
    KMin k top (insert x s) θ r := by
  rw [Finset.insert_eq, Finset.union_comm]
  exact h.union_of_le fun y hy ↦ (Finset.mem_singleton.mp hy).ge.trans' hx

/-- An element below the threshold joins the sample. -/
theorem insert_of_lt (h : KMin k top s θ r) {x : α} (hx : x < θ) :
    KMin k top (insert x s) θ (insert x r) where
  le_top := h.le_top
  eq_filter := by rw [Finset.filter_insert, if_pos hx, ← h.eq_filter]
  mem_of_lt := fun hlt ↦ Finset.mem_insert_of_mem (h.mem_of_lt hlt)
  card_of_lt := fun hlt ↦ (h.card_of_lt hlt).trans (Finset.card_le_card (Finset.subset_insert _ _))

/-- Lowering the threshold to an element of the sample that `k` elements precede. -/
theorem cut (h : KMin k top s θ r) {x : α} (hx : IsRank r k x) :
    KMin k top s x (r.filter (· < x)) := by
  have hxθ : x < θ := (h.mem_iff.mp hx.mem).2
  refine ⟨hxθ.le.trans h.le_top, ?_, fun _ ↦ (h.mem_iff.mp hx.mem).1, fun _ ↦ hx.card_lt.ge⟩
  rw [h.eq_filter, Finset.filter_filter]
  exact Finset.filter_congr fun y _ ↦ ⟨And.right, fun hy ↦ ⟨hy.trans hxθ, hy⟩⟩

/-- Lowering the start restricts the set. -/
theorem restrict (h : KMin k top s θ r) {top' : α} (hle : top' ≤ top) :
    KMin k top' (s.filter (· < top')) (min top' θ) (r.filter (· < min top' θ)) := by
  have hfilter : r.filter (· < min top' θ) = (s.filter (· < top')).filter (· < min top' θ) := by
    ext x
    simp only [h.eq_filter, Finset.mem_filter, lt_min_iff]
    tauto
  refine ⟨min_le_left _ _, hfilter, fun hlt ↦ ?_, fun hlt ↦ ?_⟩
  · have hθ : θ < top' := (min_lt_iff.mp hlt).resolve_left (lt_irrefl top')
    rw [min_eq_right hθ.le]
    exact Finset.mem_filter.mpr ⟨h.mem_of_lt (hθ.trans_le hle), hθ⟩
  · have hθ : θ < top' := (min_lt_iff.mp hlt).resolve_left (lt_irrefl top')
    refine (h.card_of_lt (hθ.trans_le hle)).trans (Finset.card_le_card fun x hx ↦ ?_)
    rw [min_eq_right hθ.le]
    exact Finset.mem_filter.mpr ⟨hx, (h.mem_iff.mp hx).2⟩

/-- A sample of at most `k` elements is determined by the set: everything below
`top` if that is at most `k` elements, and otherwise the `k` smallest elements with
the next one as threshold. -/
theorem canonical (h : KMin k top s θ r) (hr : r.card ≤ k) :
    ((s.filter (· < top)).card ≤ k → θ = top ∧ r = s.filter (· < top)) ∧
      (k < (s.filter (· < top)).card → IsRank (s.filter (· < top)) k θ) := by
  rcases h.le_top.lt_or_eq with hlt | heq
  · have hcard : r.card = k := le_antisymm hr (h.card_of_lt hlt)
    have hrank : IsRank (s.filter (· < top)) k θ := by
      rw [IsRank.filter_lt_iff hlt]
      exact ⟨h.mem_of_lt hlt, by rw [← h.eq_filter, hcard]⟩
    refine ⟨fun hle ↦ absurd hle (not_le.mpr ?_), fun _ ↦ hrank⟩
    rw [← hrank.card_lt]
    exact Finset.card_lt_card (Finset.filter_ssubset.mpr ⟨θ, hrank.mem, lt_irrefl θ⟩)
  · subst heq
    refine ⟨fun _ ↦ ⟨rfl, h.eq_filter⟩, fun hgt ↦ absurd hgt ?_⟩
    rw [← h.eq_filter]
    exact not_lt.mpr hr

end KMin

end Selection
