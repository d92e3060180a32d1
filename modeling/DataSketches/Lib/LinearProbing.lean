import DataSketches.Lib.OpenAddressing

/-!
# Linear probing with recorded distances

Every entry of a table records how far it is from the slot that its hash names.
An entry can be found if all slots on the way to it are occupied.  An entry is
removed by closing the hole it leaves: a later entry of the run that may move
into the hole does so and leaves a hole of its own, until the run ends.

## Main definitions

* `Probed`: every entry is where its distance says, and no slot before it is
  free, but for given holes.
* `Scan`: the state of the loop that closes a hole.
-/

universe u

namespace LinearProbing

open OpenAddressing

variable {α : Type u} (home dist : α → ℕ) (hole : ℕ → Prop) {slots : List (Option α)}

/-- An entry at distance `s + 1` is `s` slots after its home, and every slot in between is
occupied or a hole. -/
def Probed (slots : List (Option α)) : Prop :=
  ∀ i e, get slots i = some e → ∃ s, dist e = s + 1 ∧ s < slots.length ∧
    (home e + s) % slots.length = i ∧ ∀ j < s,
      get slots ((home e + j) % slots.length) ≠ none ∨ hole ((home e + j) % slots.length)

variable {home dist hole}

theorem probed_replicate_none (n : ℕ) : Probed home dist hole (List.replicate n none) := by
  intro i e h
  rw [get_replicate_none] at h
  cases h

/-- Two slots fewer than `n` steps apart are different. -/
theorem step_inj {n a s t : ℕ} (hs : s < n) (ht : t < n) (h : (a + s) % n = (a + t) % n) : s = t := by
  have hmod : s ≡ t [MOD n] := Nat.ModEq.add_left_cancel' a h
  rwa [Nat.ModEq, Nat.mod_eq_of_lt hs, Nat.mod_eq_of_lt ht] at hmod

/-- What is in a slot after two slots were written. -/
theorem get_set_set {x y : ℕ} (hx : x < slots.length) (hy : y < slots.length) (o o' : Option α)
    (i : ℕ) : get ((slots.set x o).set y o') i =
      if i = y then o' else if i = x then o else get slots i := by
  split_ifs with h h'
  · rw [h, get_set_self (by rw [List.length_set]; exact hy)]
  · rw [get_set_ne (Ne.symm h), h', get_set_self hx]
  · rw [get_set_ne (Ne.symm h), get_set_ne (Ne.symm h')]

/-! ## Writing -/

/-- Writing to the first free slot on the way. -/
theorem Probed.insert (hp : Probed home dist hole slots) {e : α} {s : ℕ} (hd : dist e = s + 1)
    (hs : s < slots.length) (hfree : get slots ((home e + s) % slots.length) = none)
    (hbefore : ∀ j < s, get slots ((home e + j) % slots.length) ≠ none) :
    Probed home dist hole (slots.set ((home e + s) % slots.length) (some e)) := by
  have hlt : (home e + s) % slots.length < slots.length := Nat.mod_lt _ (by omega)
  have hocc : ∀ i, get slots i ≠ none →
      get (slots.set ((home e + s) % slots.length) (some e)) i ≠ none := by
    intro i hi
    rwa [get_set_ne]
    rintro rfl
    exact hi hfree
  intro i e' hi
  rw [List.length_set]
  by_cases hi' : i = (home e + s) % slots.length
  · rw [hi', get_set_self hlt] at hi
    cases hi
    exact ⟨s, hd, hs, hi'.symm, fun j hj ↦ .inl (hocc _ (hbefore j hj))⟩
  · rw [get_set_ne (Ne.symm hi')] at hi
    obtain ⟨s', hd', hs', hat, hpath⟩ := hp i e' hi
    exact ⟨s', hd', hs', hat, fun j hj ↦ (hpath j hj).imp_left (hocc _)⟩

/-- Changing an entry that stays in its place. -/
theorem Probed.replace (hp : Probed home dist hole slots) {i : ℕ} {e e' : α}
    (hi : get slots i = some e) (hhome : home e' = home e) (hdist : dist e' = dist e) :
    Probed home dist hole (slots.set i (some e')) := by
  have hlt := lt_length_of_get hi
  have hocc : ∀ k, get slots k ≠ none → get (slots.set i (some e')) k ≠ none := by
    intro k hk
    by_cases hik : i = k
    · rw [← hik, get_set_self hlt]
      exact Option.some_ne_none _
    · rwa [get_set_ne hik]
  intro k e'' hk
  rw [List.length_set]
  by_cases hik : i = k
  · rw [← hik, get_set_self hlt] at hk
    cases hk
    obtain ⟨s, hd, hs, hat, hpath⟩ := hp i e hi
    rw [hhome, hdist]
    exact ⟨s, hd, hs, hat.trans hik, fun j hj ↦ (hpath j hj).imp_left (hocc _)⟩
  · rw [get_set_ne hik] at hk
    obtain ⟨s, hd, hs, hat, hpath⟩ := hp k e'' hk
    exact ⟨s, hd, hs, hat, fun j hj ↦ (hpath j hj).imp_left (hocc _)⟩

/-! ## Closing a hole -/

variable (home dist) in
/-- The slots `x + 1`, …, `x + t - 1` hold entries whose home is after the hole `x`. -/
structure Scan (slots : List (Option α)) (x t : ℕ) : Prop where
  probed : Probed home dist (· = x % slots.length) slots
  free : get slots (x % slots.length) = none
  pos : 1 ≤ t
  passed : ∀ s, 1 ≤ s → s < t → ∃ e, get slots ((x + s) % slots.length) = some e ∧ dist e ≤ s

/-- Removing an entry leaves a hole. -/
theorem Probed.remove (hp : Probed home dist (fun _ ↦ False) slots) {x : ℕ} {e : α}
    (hx : get slots (x % slots.length) = some e) :
    Scan home dist (slots.set (x % slots.length) none) x 1 := by
  have hlt := lt_length_of_get hx
  refine ⟨?_, by rw [List.length_set, get_set_self hlt], le_rfl, fun s hs ht ↦ by omega⟩
  intro i e' hi
  rw [List.length_set]
  by_cases hi' : x % slots.length = i
  · rw [← hi', get_set_self hlt] at hi
    cases hi
  · rw [get_set_ne hi'] at hi
    obtain ⟨s, hd, hs, hat, hpath⟩ := hp i e' hi
    refine ⟨s, hd, hs, hat, fun j hj ↦ ?_⟩
    by_cases hj' : (home e' + j) % slots.length = x % slots.length
    · exact .inr hj'
    · rw [get_set_ne (Ne.symm hj')]
      exact .inl ((hpath j hj).resolve_right id)

namespace Scan

variable {x t : ℕ}

/-- An entry whose home is after the hole is passed. -/
theorem skip (h : Scan home dist slots x t) {e : α} (he : get slots ((x + t) % slots.length) = some e)
    (hd : dist e ≤ t) : Scan home dist slots x (t + 1) := by
  refine ⟨h.probed, h.free, Nat.le_add_left 1 t, fun s hs hst ↦ ?_⟩
  rcases Nat.lt_succ_iff_lt_or_eq.mp hst with hst | rfl
  · exact h.passed s hs hst
  · exact ⟨e, he, hd⟩

/-- An entry whose home is not after the hole moves into it. -/
theorem move (h : Scan home dist slots x t) {e e' : α}
    (he : get slots ((x + t) % slots.length) = some e) (hd : t < dist e) (hhome : home e' = home e)
    (hdist : dist e' = dist e - t) :
    Scan home dist ((slots.set (x % slots.length) (some e')).set ((x + t) % slots.length) none)
      (x + t) 1 := by
  have hy := lt_length_of_get he
  have hx : x % slots.length < slots.length := Nat.mod_lt _ (by omega)
  have hne : x % slots.length ≠ (x + t) % slots.length := by
    intro heq
    rw [← heq, h.free] at he
    cases he
  have hlen : ((slots.set (x % slots.length) (some e')).set ((x + t) % slots.length) none).length =
      slots.length := by rw [List.length_set, List.length_set]
  have hocc : ∀ i, get slots i ≠ none ∨ i = x % slots.length →
      get ((slots.set (x % slots.length) (some e')).set ((x + t) % slots.length) none) i ≠ none ∨
        i = (x + t) % slots.length := by
    intro i hi
    rw [get_set_set hx hy]
    split_ifs with h₁ h₂
    · exact .inr h₁
    · exact .inl (Option.some_ne_none _)
    · exact .inl (hi.resolve_right h₂)
  refine ⟨?_, ?_, le_rfl, fun s hs hst ↦ by omega⟩
  · intro i e₁ hi
    rw [hlen]
    rw [get_set_set hx hy] at hi
    split_ifs at hi with h₁ h₂
    · cases hi
      obtain ⟨s, hs, hlt, hat, hpath⟩ := h.probed _ e he
      refine ⟨s - t, by omega, by omega, ?_, fun j hj ↦ ?_⟩
      · have hmod : home e + (s - t) + t ≡ x + t [MOD slots.length] := by
          rw [show home e + (s - t) + t = home e + s by omega]
          exact hat
        rw [hhome, h₂]
        exact Nat.ModEq.add_right_cancel' t hmod
      · rw [hhome]
        exact hocc _ (hpath j (by omega))
    · obtain ⟨s, hs, hlt, hat, hpath⟩ := h.probed i e₁ hi
      exact ⟨s, hs, hlt, hat, fun j hj ↦ hocc _ (hpath j hj)⟩
  · rw [hlen, get_set_set hx hy, if_pos rfl]

/-- At the end of the run, no entry depends on the hole. -/
theorem close (h : Scan home dist slots x t) (hlt : t < slots.length)
    (hend : get slots ((x + t) % slots.length) = none) :
    Probed home dist (fun _ ↦ False) slots := by
  intro i e hi
  obtain ⟨s, hd, hs, hat, hpath⟩ := h.probed i e hi
  refine ⟨s, hd, hs, hat, fun j hj ↦ .inl ?_⟩
  rcases hpath j hj with hocc | hx
  · exact hocc
  -- the entry would be behind the hole, where the run has ended or its home is after the hole
  have hfrom : ∀ r, (home e + (j + r)) % slots.length = (x + r) % slots.length := by
    intro r
    rw [← Nat.add_assoc]
    exact Nat.ModEq.add_right r hx
  have hi' : i = (x + (s - j)) % slots.length := by
    rw [← hat, ← hfrom, Nat.add_sub_cancel' hj.le]
  rcases Nat.lt_trichotomy (s - j) t with hst | hst | hst
  · obtain ⟨e', he', hle⟩ := h.passed (s - j) (by omega) hst
    rw [← hi', hi] at he'
    cases he'
    omega
  · rw [← hst, ← hi', hi] at hend
    cases hend
  · have hpast := hpath (j + t) (by omega)
    rw [hfrom] at hpast
    rcases hpast with hocc | heq
    · exact absurd hend hocc
    · have hzero : t = 0 := step_inj hlt (by omega) (heq.trans (by rw [Nat.add_zero]))
      exact absurd h.pos (by omega)

end Scan

end LinearProbing
