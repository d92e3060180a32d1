import Mathlib

/-!
# Runs of a fallible step function

A run feeds a list of inputs to a step function that may fail.  Invariants of
runs are stated here with the inputs consumed so far as an index, which is what
a specification of an accumulating program talks about.
-/

universe u v w

namespace Runs

variable {ε : Type u} {σ ι : Type u}

/-! ## The error monad, computed -/

@[simp] theorem ok_bind {α β : Type v} (a : α) (f : α → Except ε β) :
    ((Except.ok a : Except ε α) >>= f) = f a := rfl

@[simp] theorem error_bind {α β : Type v} (e : ε) (f : α → Except ε β) :
    ((Except.error e : Except ε α) >>= f) = .error e := rfl

@[simp] theorem pure_eq_ok {α : Type v} (a : α) : (pure a : Except ε α) = .ok a := rfl

@[simp] theorem throw_eq_error {α : Type v} (e : ε) : (throw e : Except ε α) = .error e := rfl

@[simp] theorem ok_map {α β : Type v} (f : α → β) (a : α) :
    f <$> (Except.ok a : Except ε α) = .ok (f a) := rfl

@[simp] theorem ok_mapError {α ε' : Type v} (f : ε → ε') (a : α) :
    (Except.ok a : Except ε α).mapError f = .ok a := rfl

/-- A bind that succeeds exposes the intermediate result. -/
theorem bind_eq_ok {α β : Type v} {x : Except ε α} {f : α → Except ε β} {b : β} :
    x >>= f = .ok b ↔ ∃ a, x = .ok a ∧ f a = .ok b := by
  cases x with
  | error e => simp
  | ok a => simp

theorem exists_ok_of_isOk {α : Type v} {x : Except ε α} (h : x.isOk = true) : ∃ a, x = .ok a := by
  cases x with
  | error e => cases h
  | ok a => exact ⟨a, rfl⟩

theorem map_eq_ok {α β : Type v} {x : Except ε α} {f : α → β} {b : β} :
    x.map f = .ok b ↔ ∃ a, x = .ok a ∧ f a = b := by
  cases x <;> simp [Except.map]

/-- An error survives any use of the result. -/
theorem map_eq_error {α β : Type v} {x : Except ε α} {f : α → β} {e : ε} :
    x.map f = .error e ↔ x = .error e := by
  cases x with
  | error e' => simp [Except.map]
  | ok a => simp [Except.map]

/-! ## Outcomes -/

/-- The computation gives a result with `post`, or fails in one of the ways of `bad`. -/
def Outcome {α : Type v} (bad : ε → Prop) (x : Except ε α) (post : α → Prop) : Prop :=
  match x with
  | .ok a => post a
  | .error e => bad e

namespace Outcome

variable {α β : Type v} {bad : ε → Prop} {x : Except ε α} {post post' : α → Prop}

theorem ok {a : α} (h : post a) : Outcome bad (.ok a) post := h

theorem error {e : ε} (h : bad e) : Outcome bad (.error e : Except ε α) post := h

theorem of_eq_ok {a : α} (hx : x = .ok a) (h : post a) : Outcome bad x post := by
  rw [hx]
  exact h

/-- What a result satisfies. -/
theorem post_of_ok (h : Outcome bad x post) {a : α} (hx : x = .ok a) : post a := by
  rwa [hx] at h

theorem bad_of_error (h : Outcome bad x post) {e : ε} (hx : x = .error e) : bad e := by
  rwa [hx] at h

theorem mono (h : Outcome bad x post) (himp : ∀ a, x = .ok a → post a → post' a) :
    Outcome bad x post' := by
  cases x with
  | ok a => exact himp a rfl h
  | error e => exact h

/-- More ways to fail. -/
theorem weaken {bad' : ε → Prop} (h : Outcome bad x post) (himp : ∀ e, bad e → bad' e) :
    Outcome bad' x post := by
  cases x with
  | ok a => exact h
  | error e => exact himp e h

theorem bind (h : Outcome bad x post) {f : α → Except ε β} {post' : β → Prop}
    (hf : ∀ a, x = .ok a → post a → Outcome bad (f a) post') : Outcome bad (x >>= f) post' := by
  cases x with
  | ok a => exact hf a rfl h
  | error e => exact h

end Outcome

/-! ## Runs -/

/-- Feed the inputs to `step`, from the left. -/
def run (step : σ → ι → Except ε σ) (s : σ) (xs : List ι) : Except ε σ := xs.foldlM step s

variable {step : σ → ι → Except ε σ}

@[simp] theorem run_nil (s : σ) : run step s [] = .ok s := rfl

@[simp] theorem run_cons (s : σ) (x : ι) (xs : List ι) :
    run step s (x :: xs) = step s x >>= fun s' ↦ run step s' xs := rfl

theorem run_append (s : σ) (xs ys : List ι) :
    run step s (xs ++ ys) = run step s xs >>= fun s' ↦ run step s' ys := by
  rw [run, List.foldlM_append]
  rfl

theorem run_concat (s : σ) (xs : List ι) (x : ι) :
    run step s (xs ++ [x]) = run step s xs >>= fun s' ↦ step s' x := by
  rw [run_append]
  refine congrArg _ (funext fun s' ↦ ?_)
  rw [run_cons]
  cases step s' x <;> rfl

/-- A step that always succeeds and preserves an invariant makes every run succeed
and preserve it. -/
theorem run_total {I : List ι → σ → Prop} {s : σ} (h₀ : I [] s)
    (hstep : ∀ xs x s, I xs s → ∃ s', step s x = .ok s' ∧ I (xs ++ [x]) s') (xs : List ι) :
    ∃ s', run step s xs = .ok s' ∧ I xs s' := by
  induction xs using List.reverseRecOn with
  | nil => exact ⟨s, rfl, h₀⟩
  | append_singleton xs x ih =>
      obtain ⟨s₁, h₁, hI⟩ := ih
      obtain ⟨s₂, h₂, hI₂⟩ := hstep xs x s₁ hI
      exact ⟨s₂, by rw [run_concat, h₁]; exact h₂, hI₂⟩

/-- An invariant that every successful step preserves holds after every successful run. -/
theorem run_invariant {I : List ι → σ → Prop} {s : σ} (h₀ : I [] s)
    (hstep : ∀ xs x s s', I xs s → step s x = .ok s' → I (xs ++ [x]) s') {xs : List ι} {s' : σ}
    (hrun : run step s xs = .ok s') : I xs s' := by
  induction xs using List.reverseRecOn generalizing s' with
  | nil => cases hrun; exact h₀
  | append_singleton xs x ih =>
      rw [run_concat] at hrun
      obtain ⟨s₁, h₁, h₂⟩ := bind_eq_ok.mp hrun
      exact hstep xs x s₁ s' (ih h₁) h₂

/-- The outcome of a run, by an invariant of its steps. -/
theorem run_outcome {bad : ε → Prop} {I : List ι → σ → Prop} {s : σ} (h₀ : I [] s)
    (hstep : ∀ xs x s, I xs s → Outcome bad (step s x) (I (xs ++ [x]))) (xs : List ι) :
    Outcome bad (run step s xs) (I xs) := by
  induction xs using List.reverseRecOn with
  | nil => exact Outcome.ok h₀
  | append_singleton xs x ih =>
      rw [run_concat]
      exact ih.bind fun s' _ hI ↦ hstep xs x s' hI

end Runs
