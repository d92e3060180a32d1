import Mathlib

/-!
# Panics and errors

Two things can go wrong in a call: it can return an `Error`, or it can panic.
`Panic` lists the ways the modelled functions panic, with the message of the
assertion or of the arm that fires; `Checked` is the monad of computations that
return or panic.  Arithmetic on a fixed-width type is checked where the source
relies on it staying in range.
-/

namespace DataSketches

/-- The ways a modelled function can panic. -/
inductive Panic where
  /-- An `assert!` or `debug_assert!` that fails. -/
  | assertion (msg : String)
  /-- An `unreachable!` or `panic!` that is reached. -/
  | unreachable (msg : String)
  /-- An `expect` on a missing value. -/
  | expect (msg : String)
  /-- Arithmetic that leaves the range of its type. -/
  | overflow
  /-- An index outside a slice. -/
  | outOfBounds
  /-- A loop that does not end. -/
  | diverges
deriving DecidableEq, Repr

/-- Computations that return or panic. -/
abbrev Checked := Except Panic

/-- `assert!(c, msg)` -/
def assert (c : Prop) [Decidable c] (msg : String) : Checked Unit :=
  if c then .ok () else .error (.assertion msg)

@[simp] theorem assert_pos {c : Prop} [Decidable c] (h : c) (msg : String) :
    assert c msg = .ok () := if_pos h

@[simp] theorem assert_neg {c : Prop} [Decidable c] (h : ¬ c) (msg : String) :
    assert c msg = .error (.assertion msg) := if_neg h

/-- A computation gets past an assertion exactly if it holds. -/
theorem assert_bind_eq_ok {c : Prop} [Decidable c] {msg : String} {α : Type}
    {f : Unit → Checked α} {a : α} : (assert c msg >>= f) = .ok a ↔ c ∧ f () = .ok a := by
  by_cases h : c
  · rw [assert_pos h]
    exact (and_iff_right h).symm
  · rw [assert_neg h]
    exact iff_of_false (by rintro ⟨⟩) fun ha ↦ h ha.1

/-- Subtraction on an unsigned type. -/
def checkedSub (a b : ℕ) : Checked ℕ := if b ≤ a then .ok (a - b) else .error .overflow

/-- Addition on an unsigned type of the given width. -/
def checkedAdd (bits a b : ℕ) : Checked ℕ :=
  if a + b < 2 ^ bits then .ok (a + b) else .error .overflow

@[simp] theorem checkedSub_of_le {a b : ℕ} (h : b ≤ a) : checkedSub a b = .ok (a - b) := if_pos h

@[simp] theorem checkedAdd_of_lt {bits a b : ℕ} (h : a + b < 2 ^ bits) :
    checkedAdd bits a b = .ok (a + b) := if_pos h

theorem checkedAdd_eq_ok {bits a b c : ℕ} :
    checkedAdd bits a b = .ok c ↔ a + b < 2 ^ bits ∧ c = a + b := by
  unfold checkedAdd
  split_ifs with h
  · rw [Except.ok.injEq, and_iff_right h, eq_comm]
  · exact iff_of_false nofun fun hc ↦ h hc.1

/-- Categories of errors returned by DataSketches operations. -/
inductive ErrorKind where
  | invalidArgument
  | invalidData
deriving DecidableEq, Repr

/-- Error returned by a DataSketches operation. -/
structure Error where
  kind : ErrorKind
  message : String
deriving DecidableEq, Repr

namespace Error

def invalidArgument (msg : String) : Error := ⟨.invalidArgument, msg⟩

def deserial (msg : String) : Error := ⟨.invalidData, msg⟩

def insufficientData (msg : String) : Error := deserial ("insufficient data: " ++ msg)

def insufficientDataOf (context msg : String) : Error :=
  deserial s!"insufficient data ({context}): {msg}"

def invalidFamily (expected actual : ℕ) (name : String) : Error :=
  deserial s!"invalid family: expected {expected} ({name}), got {actual}"

def invalidPreambleLongs (expected : List ℕ) (actual : ℕ) : Error :=
  deserial s!"invalid preamble longs: expected one of {expected}, got {actual}"

end Error

/-- What can stop a sequence of calls. -/
inductive Fault where
  | panic (p : Panic)
  | error (e : Error)
deriving DecidableEq, Repr

/-- The state after a call that changes it and reports success. -/
def accepted {σ : Type} : Checked (σ × Except Error Unit) → Except Fault σ
  | .error p => .error (.panic p)
  | .ok (_, .error e) => .error (.error e)
  | .ok (s, .ok ()) => .ok s

theorem accepted_eq_ok {σ : Type} {x : Checked (σ × Except Error Unit)} {s : σ} :
    accepted x = .ok s ↔ x = .ok (s, .ok ()) := by
  rcases x with p | ⟨s', e | u⟩ <;> simp [accepted]

end DataSketches
