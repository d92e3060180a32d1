import DataSketches.Lib.LinearProbing

/-!
# Linear probing without recorded distances

An entry of such a table can be found as long as no slot between its home and its
place is free.  When an entry is removed, the entries that follow it up to the
next free slot are taken out and stored again, one after the other.

## Main definitions

* `Walked`: every entry is reached from its home over occupied slots.
* `Ends`: the number of steps after which the search for an entry ends.
* `Reinserting`: the state of the loop that stores the following entries again.
-/

universe u

namespace LinearProbing

open OpenAddressing

variable {α : Type u} (home : α → ℕ)

/-- An entry is `d` slots after its home, and every slot before is occupied or a hole. -/
def Reaches (hole : ℕ → Prop) (slots : List (Option α)) (i : ℕ) (e : α) : Prop :=
  ∃ d < slots.length, (home e + d) % slots.length = i ∧ ∀ j < d,
    get slots ((home e + j) % slots.length) ≠ none ∨ hole ((home e + j) % slots.length)

/-- Every entry is reached from its home. -/
def Walked (slots : List (Option α)) : Prop :=
  ∀ i e, get slots i = some e → Reaches home (fun _ ↦ False) slots i e

/-- A search for `x` that starts at slot `h` ends after `d` steps, at a free slot or at `x`. -/
structure Ends (slots : List (Option α)) (h : ℕ) (x : α) (d : ℕ) : Prop where
  last : get slots ((h + d) % slots.length) = none ∨ get slots ((h + d) % slots.length) = some x
  before : ∀ j < d, ∃ e, get slots ((h + j) % slots.length) = some e ∧ e ≠ x

variable {home} {slots : List (Option α)} {x : α}

theorem walked_replicate_none (n : ℕ) : Walked home (List.replicate n none) := by
  intro i e h
  rw [get_replicate_none] at h
  cases h

/-- A search ends at the first slot that is free or holds the entry. -/
theorem exists_ends (slots : List (Option α)) (x : α) {h d : ℕ}
    (hd : get slots ((h + d) % slots.length) = none ∨ get slots ((h + d) % slots.length) = some x) :
    ∃ d' ≤ d, Ends slots h x d' := by
  classical
  have hex : ∃ d, get slots ((h + d) % slots.length) = none ∨
      get slots ((h + d) % slots.length) = some x := ⟨d, hd⟩
  refine ⟨Nat.find hex, Nat.find_min' hex hd, Nat.find_spec hex, fun j hj ↦ ?_⟩
  obtain ⟨hnone, hsome⟩ := not_or.mp (Nat.find_min hex hj)
  obtain ⟨e, he⟩ := Option.ne_none_iff_exists'.mp hnone
  exact ⟨e, he, fun heq ↦ hsome (heq ▸ he)⟩

/-- Every slot is a number of steps away. -/
theorem exists_steps {n i : ℕ} (h : ℕ) (hi : i < n) : ∃ d < n, (h + d) % n = i := by
  have hpos : 0 < n := Nat.zero_lt_of_lt hi
  have hk := Nat.mod_lt h hpos
  refine ⟨(i + (n - h % n)) % n, Nat.mod_lt _ hpos, ?_⟩
  rw [Nat.add_mod_mod, ← Nat.mod_add_mod, show h % n + (i + (n - h % n)) = i + n by omega,
    Nat.add_mod_right, Nat.mod_eq_of_lt hi]

/-- While a slot is free, a search ends within one round. -/
theorem exists_ends_of_free {i : ℕ} (hi : i < slots.length) (hfree : get slots i = none) (h : ℕ)
    (x : α) : ∃ d < slots.length, Ends slots h x d := by
  obtain ⟨d, hd, hat⟩ := exists_steps h hi
  obtain ⟨d', hle, hends⟩ := exists_ends slots x (.inl (hat ▸ hfree))
  exact ⟨d', hle.trans_lt hd, hends⟩

/-- A search that ends at a free slot shows that the entry is not stored. -/
theorem Walked.notMem (hw : Walked home slots) {d : ℕ} (hends : Ends slots (home x) x d)
    (hfree : get slots ((home x + d) % slots.length) = none) : x ∉ contents slots := by
  intro hmem
  obtain ⟨i, hi⟩ := mem_contents_iff.mp hmem
  obtain ⟨d', -, hat, hpath⟩ := hw i x hi
  rcases Nat.lt_trichotomy d d' with hlt | rfl | hgt
  · exact (hpath d hlt).resolve_right id hfree
  · rw [hat, hi] at hfree
    cases hfree
  · obtain ⟨e, he, hne⟩ := hends.before d' hgt
    rw [hat, hi] at he
    cases he
    exact hne rfl

/-- Occupied slots stay occupied when an entry is written. -/
theorem get_set_some_ne_none {i j : ℕ} (h : get slots j ≠ none) (e : α) :
    get (slots.set i (some e)) j ≠ none := by
  by_cases hij : i = j
  · have hlt : i < slots.length := by
      obtain ⟨e', he'⟩ := Option.ne_none_iff_exists'.mp h
      exact hij ▸ lt_length_of_get he'
    rw [← hij, get_set_self hlt]
    exact Option.some_ne_none e
  · rwa [get_set_ne hij]

/-- Writing where the search for the entry ended. -/
theorem Walked.insert (hw : Walked home slots) {d : ℕ} (hd : d < slots.length)
    (hends : Ends slots (home x) x d) :
    Walked home (slots.set ((home x + d) % slots.length) (some x)) := by
  have hlt : (home x + d) % slots.length < slots.length := Nat.mod_lt _ (Nat.zero_lt_of_lt hd)
  intro i e hi
  rw [Reaches, List.length_set]
  by_cases hi' : (home x + d) % slots.length = i
  · rw [← hi', get_set_self hlt] at hi
    cases hi
    refine ⟨d, hd, hi', fun j hj ↦ .inl (get_set_some_ne_none ?_ x)⟩
    obtain ⟨e', he', -⟩ := hends.before j hj
    rw [he']
    exact Option.some_ne_none e'
  · rw [get_set_ne hi'] at hi
    obtain ⟨d', hd', hat, hpath⟩ := hw i e hi
    exact ⟨d', hd', hat, fun j hj ↦ .inl (get_set_some_ne_none ((hpath j hj).resolve_right id) x)⟩

/-! ## Removing an entry -/

variable (home) in
/-- The slots `p`, …, `p + t - 1` were taken out, and the entries up to the free slot `z` are still
to be stored again. -/
structure Reinserting (slots : List (Option α)) (p t z : ℕ) : Prop where
  pos : 1 ≤ t
  le : p + t ≤ z
  lt : z < p + slots.length
  free : get slots (z % slots.length) = none
  pending : ∀ s, t ≤ s → p + s < z → get slots ((p + s) % slots.length) ≠ none
  reaches : ∀ i e, get slots i = some e →
    Reaches home (fun y ↦ (∃ s < t, y = (p + s) % slots.length) ∧
      ∃ s, t ≤ s ∧ p + s < z ∧ i = (p + s) % slots.length) slots i e

/-- Taking the first entry out. -/
theorem Walked.remove (hw : Walked home slots) {p : ℕ} (hp : p < slots.length) {i : ℕ}
    (hi : i < slots.length) (hne : i ≠ p) (hfree : get slots i = none) :
    ∃ z, Reinserting home (slots.set p none) p 1 z := by
  have hpos : 0 < slots.length := Nat.zero_lt_of_lt hp
  have hnone : ∀ y, get slots y = none → get (slots.set p none) y = none := by
    intro y hy
    by_cases hpy : p = y
    · rw [← hpy, get_set_self hp]
    · rw [get_set_ne hpy, hy]
  -- the next free slot after `p`
  obtain ⟨d, hd, hat⟩ := exists_steps p hi
  have hdpos : d ≠ 0 := by
    rintro rfl
    rw [Nat.add_zero, Nat.mod_eq_of_lt hp] at hat
    exact hne hat.symm
  classical
  have hex : ∃ r, get slots ((p + 1 + r) % slots.length) = none :=
    ⟨d - 1, by rw [show p + 1 + (d - 1) = p + d by omega, hat, hfree]⟩
  have hr : Nat.find hex ≤ d - 1 := Nat.find_min' hex (by
    rw [show p + 1 + (d - 1) = p + d by omega, hat, hfree])
  refine ⟨p + 1 + Nat.find hex, le_rfl, Nat.le_add_right _ _, ?_, ?_, fun s hs hlt ↦ ?_,
    fun i e hie ↦ ?_⟩
  · rw [List.length_set]
    omega
  · rw [List.length_set]
    exact hnone _ (Nat.find_spec hex)
  · have hpath := Nat.find_min hex (m := s - 1) (by omega)
    rw [show p + 1 + (s - 1) = p + s by omega] at hpath
    rw [List.length_set, get_set_ne]
    · exact hpath
    · intro heq
      have hzero : 0 = s := step_inj hpos (by omega) ((Nat.mod_eq_of_lt hp).trans heq)
      omega
  · rw [Reaches, List.length_set]
    have hpi : p ≠ i := by
      rintro rfl
      rw [get_set_self hp] at hie
      cases hie
    rw [get_set_ne hpi] at hie
    obtain ⟨d', hd', hat', hpath⟩ := hw i e hie
    refine ⟨d', hd', hat', fun j hj ↦ ?_⟩
    by_cases hj' : p = (home e + j) % slots.length
    · refine .inr ⟨⟨0, one_pos, by rw [Nat.add_zero, Nat.mod_eq_of_lt hp, hj']⟩, d' - j, by omega, ?_, ?_⟩
      · -- the way from `p` to the entry does not pass the free slot
        by_contra hge
        have hfind := Nat.find_spec hex
        have hfrom : (p + 1 + Nat.find hex) % slots.length =
            (home e + (j + (1 + Nat.find hex))) % slots.length := by
          rw [← Nat.add_assoc (home e), ← Nat.mod_add_mod (home e + j), ← hj', Nat.add_assoc]
        rw [hfrom] at hfind
        rcases Nat.lt_or_eq_of_le (show j + (1 + Nat.find hex) ≤ d' by omega) with hlt | heq
        · exact (hpath _ hlt).resolve_right id hfind
        · rw [heq, hat', hie] at hfind
          cases hfind
      · rw [← hat', show home e + d' = home e + j + (d' - j) by omega, ← Nat.mod_add_mod, ← hj']
    · rw [get_set_ne hj']
      exact .inl ((hpath j hj).resolve_right id)

namespace Reinserting

variable {p t z : ℕ}

/-- The slots up to the free one are different. -/
theorem mod_ne (h : Reinserting home slots p t z) {r s : ℕ} (hr : p + r ≤ z) (hs : p + s ≤ z)
    (hne : r ≠ s) : (p + r) % slots.length ≠ (p + s) % slots.length := fun heq ↦
  hne (step_inj (by have := h.lt; omega) (by have := h.lt; omega) heq)

/-- The loop ends at the free slot. -/
theorem eq_iff (h : Reinserting home slots p t z) :
    get slots ((p + t) % slots.length) = none ↔ p + t = z := by
  constructor
  · intro hnone
    by_contra hne
    exact h.pending t le_rfl (lt_of_le_of_ne h.le hne) hnone
  · intro heq
    rw [heq]
    exact h.free

/-- At the end, every entry is reached. -/
theorem walked (h : Reinserting home slots p t z) (heq : p + t = z) : Walked home slots := by
  intro i e hi
  obtain ⟨d, hd, hat, hpath⟩ := h.reaches i e hi
  refine ⟨d, hd, hat, fun j hj ↦ .inl ((hpath j hj).resolve_right ?_)⟩
  rintro ⟨-, s, hs, hlt, -⟩
  omega

/-- The next entry is taken out, and the search for it ends at one of the slots taken out. -/
theorem ends (h : Reinserting home slots p t z)
    (hx : get slots ((p + t) % slots.length) = some x)
    (hnot : x ∉ contents (slots.set ((p + t) % slots.length) none)) :
    ∃ d < slots.length, Ends (slots.set ((p + t) % slots.length) none) (home x) x d ∧
      get (slots.set ((p + t) % slots.length) none) ((home x + d) % slots.length) = none ∧
      ∃ s ≤ t, (home x + d) % slots.length = (p + s) % slots.length := by
  have hq := lt_length_of_get hx
  obtain ⟨d, hd, hat, hpath⟩ := h.reaches _ x hx
  have hlen : (slots.set ((p + t) % slots.length) none).length = slots.length := List.length_set
  obtain ⟨d', hle, hends⟩ := exists_ends (slots.set ((p + t) % slots.length) none) x
    (h := home x) (d := d) (.inl (by rw [hlen, hat, get_set_self hq]))
  have hnone : get (slots.set ((p + t) % slots.length) none) ((home x + d') % slots.length) = none := by
    have hlast := hends.last
    rw [hlen] at hlast
    exact hlast.resolve_right fun hsome ↦ hnot (mem_contents_iff.mpr ⟨_, hsome⟩)
  refine ⟨d', hle.trans_lt hd, hends, hnone, ?_⟩
  rcases Nat.lt_or_eq_of_le hle with hlt | rfl
  · by_cases heq : (p + t) % slots.length = (home x + d') % slots.length
    · exact ⟨t, le_rfl, heq.symm⟩
    · rw [get_set_ne heq] at hnone
      obtain ⟨⟨s, hs, hsy⟩, -⟩ := (hpath d' hlt).resolve_left (not_not.mpr hnone)
      exact ⟨s, hs.le, hsy⟩
  · exact ⟨t, le_rfl, hat⟩

/-- The next entry is stored again. -/
theorem step (h : Reinserting home slots p t z)
    (hx : get slots ((p + t) % slots.length) = some x) {d : ℕ} (hd : d < slots.length)
    (hends : Ends (slots.set ((p + t) % slots.length) none) (home x) x d)
    (hs : ∃ s ≤ t, (home x + d) % slots.length = (p + s) % slots.length) :
    Reinserting home ((slots.set ((p + t) % slots.length) none).set ((home x + d) % slots.length)
      (some x)) p (t + 1) z := by
  have hq := lt_length_of_get hx
  obtain ⟨s₀, hs₀, hat₀⟩ := hs
  have hlt : p + t < z := lt_of_le_of_ne h.le fun heq ↦ by
    rw [h.eq_iff.mpr heq] at hx
    cases hx
  have hy : (home x + d) % slots.length < slots.length := Nat.mod_lt _ (by omega)
  have hlen : ((slots.set ((p + t) % slots.length) none).set ((home x + d) % slots.length)
      (some x)).length = slots.length := by rw [List.length_set, List.length_set]
  have hat := fun i ↦ get_set_set hq hy none (some x) i
  -- a slot that was not taken out is as before
  have hkeep : ∀ s, t + 1 ≤ s → p + s ≤ z →
      get ((slots.set ((p + t) % slots.length) none).set ((home x + d) % slots.length) (some x))
        ((p + s) % slots.length) = get slots ((p + s) % slots.length) := by
    intro s hs hsz
    rw [hat, if_neg, if_neg]
    · exact h.mod_ne hsz h.le (by omega)
    · rw [hat₀]
      exact h.mod_ne hsz (by omega) (by omega)
  have hocc : ∀ y, y ≠ (p + t) % slots.length → get slots y ≠ none →
      get ((slots.set ((p + t) % slots.length) none).set ((home x + d) % slots.length) (some x)) y ≠
        none := by
    intro y hyq hy'
    rw [hat]
    split_ifs
    · exact Option.some_ne_none x
    · exact hy'
  refine ⟨Nat.le_add_left 1 t, hlt, ?_, ?_, ?_, ?_⟩
  · rw [hlen]
    exact h.lt
  · rw [hlen]
    have hz := hkeep (z - p) (by omega) (by omega)
    rw [show p + (z - p) = z by omega] at hz
    rw [hz]
    exact h.free
  · intro s hs hsz
    rw [hlen, hkeep s hs hsz.le]
    exact h.pending s (by omega) hsz
  · intro i e hi
    rw [Reaches, hlen]
    rw [hat] at hi
    split_ifs at hi with h₁ h₂
    · -- the entry itself
      cases hi
      refine ⟨d, hd, h₁.symm, fun j hj ↦ .inl ?_⟩
      obtain ⟨e', he', -⟩ := hends.before j hj
      rw [List.length_set] at he'
      exact get_set_some_ne_none (by rw [he']; exact Option.some_ne_none e') x
    · obtain ⟨d', hd', hat', hpath⟩ := h.reaches i e hi
      refine ⟨d', hd', hat', fun j hj ↦ ?_⟩
      have hlater : ∀ s, t ≤ s → i = (p + s) % slots.length → t + 1 ≤ s := by
        intro s hs heq
        rcases Nat.lt_or_eq_of_le hs with hs | rfl
        · exact hs
        · exact absurd heq h₂
      rcases hpath j hj with hocc' | ⟨⟨s, hs, hsy⟩, s', hs', hlt', hi'⟩
      · by_cases hjq : (home e + j) % slots.length = (p + t) % slots.length
        swap
        · exact .inl (hocc _ hjq hocc')
        -- the way from the slot taken out to the entry does not pass the free slot
        refine .inr ⟨⟨t, Nat.lt_succ_self t, hjq⟩, t + (d' - j), by omega, ?_, ?_⟩
        · by_contra hge
          have hzat : (home e + (j + (z - (p + t)))) % slots.length = z % slots.length := by
            rw [← Nat.add_assoc, ← Nat.mod_add_mod, hjq, Nat.mod_add_mod,
              show p + t + (z - (p + t)) = z by omega]
          rcases Nat.lt_or_eq_of_le (show j + (z - (p + t)) ≤ d' by omega) with hlt' | heq
          · rcases hpath _ hlt' with hocc'' | ⟨⟨s, hs, hsy⟩, -⟩
            · rw [hzat] at hocc''
              exact hocc'' h.free
            · rw [hzat] at hsy
              refine h.mod_ne (r := z - p) (s := s) (by omega) (by omega) (by omega) ?_
              rwa [show p + (z - p) = z by omega]
          · rw [← heq, hzat] at hat'
            rw [← hat', h.free] at hi
            cases hi
        · rw [← hat', show home e + d' = home e + j + (d' - j) by omega, ← Nat.mod_add_mod, hjq,
            Nat.mod_add_mod, Nat.add_assoc]
      · exact .inr ⟨⟨s, by omega, hsy⟩, s', hlater s' hs' hi', hlt', hi'⟩

end Reinserting

end LinearProbing
