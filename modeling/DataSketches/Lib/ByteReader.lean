import DataSketches.Lib.LittleEndian
import DataSketches.Lib.Runs

/-!
# Readers of byte strings

A reader consumes a prefix of a byte string, or fails.  Each reader has two
lemmas: what it does on a string that starts with what a writer wrote, and what a
string it accepts looks like.
-/

open Runs LittleEndian

/-- Consumes bytes from the left. -/
abbrev ByteReader (ε α : Type) := StateT (List UInt8) (Except ε) α

namespace ByteReader

variable {ε α β : Type} {bs rest : List UInt8}

def fail (e : ε) : ByteReader ε α := fun _ ↦ .error e

/-- A computation that reads nothing. -/
def lift (x : Except ε α) : ByteReader ε α := fun bs ↦ x.map fun a ↦ (a, bs)

/-- The number of bytes that are left. -/
def remaining : ByteReader ε ℕ := fun bs ↦ .ok (bs.length, bs)

/-- The next `n` bytes. -/
def readExact (e : ε) (n : ℕ) : ByteReader ε (List UInt8) := fun bs ↦
  if n ≤ bs.length then .ok (bs.take n, bs.drop n) else .error e

/-- The number in the next `n` bytes. -/
def readLe (e : ε) (n : ℕ) : ByteReader ε ℕ := fun bs ↦
  if n ≤ bs.length then .ok (leNat (bs.take n), bs.drop n) else .error e

/-! ## Computing -/

@[simp] theorem bind_apply (p : ByteReader ε α) (f : α → ByteReader ε β) (bs : List UInt8) :
    (p >>= f) bs = p bs >>= fun x ↦ f x.1 x.2 := rfl

/-- The rest of a reader, after a part that succeeds. -/
theorem bind_of_ok {p : ByteReader ε α} {f : α → ByteReader ε β} {a : α} (h : p bs = .ok (a, rest)) :
    (p >>= f) bs = f a rest := by
  rw [bind_apply, h]
  rfl

@[simp] theorem pure_apply (a : α) (bs : List UInt8) :
    (pure a : ByteReader ε α) bs = .ok (a, bs) := rfl

@[simp] theorem fail_apply (e : ε) (bs : List UInt8) :
    (fail e : ByteReader ε α) bs = .error e := rfl

@[simp] theorem lift_ok (a : α) (bs : List UInt8) :
    (lift (.ok a) : ByteReader ε α) bs = .ok (a, bs) := rfl

@[simp] theorem lift_error (e : ε) (bs : List UInt8) :
    (lift (.error e) : ByteReader ε α) bs = .error e := rfl

@[simp] theorem remaining_apply (bs : List UInt8) :
    (remaining : ByteReader ε ℕ) bs = .ok (bs.length, bs) := rfl

@[simp] theorem if_apply {c : Prop} [Decidable c] (p q : ByteReader ε α) (bs : List UInt8) :
    (if c then p else q) bs = if c then p bs else q bs := by
  split_ifs <;> rfl

/-- Reading back bytes that were written. -/
@[simp] theorem readExact_append {e : ε} {n : ℕ} (h : bs.length = n) (rest : List UInt8) :
    readExact e n (bs ++ rest) = .ok (bs, rest) := by
  subst h
  rw [readExact, if_pos (by rw [List.length_append]; exact Nat.le_add_right _ _),
    List.take_left, List.drop_left]

/-- Reading back a number that was written. -/
theorem readLe_append {e : ε} {n x : ℕ} (h : x < 256 ^ n) (rest : List UInt8) :
    readLe e n (leBytes n x ++ rest) = .ok (x, rest) := by
  have hlen : n = (leBytes n x).length := (length_leBytes n x).symm
  rw [readLe, if_pos (by rw [List.length_append, length_leBytes]; exact Nat.le_add_right _ _),
    List.take_left' hlen.symm, List.drop_left' hlen.symm, leNat_leBytes_of_lt h]

/-! ## Inverting -/

theorem bind_apply_eq_ok {p : ByteReader ε α} {f : α → ByteReader ε β} {b : β} :
    (p >>= f) bs = .ok (b, rest) ↔
      ∃ a mid, p bs = .ok (a, mid) ∧ f a mid = .ok (b, rest) := by
  rw [bind_apply, Runs.bind_eq_ok]
  exact Prod.exists

theorem lift_eq_ok {x : Except ε α} {a : α} :
    lift x bs = .ok (a, rest) ↔ x = .ok a ∧ rest = bs := by
  cases x with
  | error e => simp
  | ok a' => simp [eq_comm]

theorem readExact_eq_ok {e : ε} {n : ℕ} {x : List UInt8} :
    readExact e n bs = .ok (x, rest) ↔ n ≤ bs.length ∧ x = bs.take n ∧ rest = bs.drop n := by
  rw [readExact]
  split_ifs with h
  · simp [h, eq_comm]
  · simp [h]

theorem readLe_eq_ok {e : ε} {n x : ℕ} :
    readLe e n bs = .ok (x, rest) ↔ n ≤ bs.length ∧ x = leNat (bs.take n) ∧ rest = bs.drop n := by
  rw [readLe]
  split_ifs with h
  · simp [h, eq_comm]
  · simp [h]

/-! ## Readers of any bytes -/

/-- Whatever there is to read, the reader gives a result with `post`, or fails in one of the ways
of `bad`. -/
def Reads (bad : ε → Prop) (p : ByteReader ε α) (post : α → Prop) : Prop :=
  ∀ bs, Outcome bad (p bs) fun r ↦ post r.1

namespace Reads

variable {bad : ε → Prop} {p : ByteReader ε α} {post post' : α → Prop}

theorem pure {a : α} (h : post a) : Reads bad (Pure.pure a) post := fun _ ↦ Outcome.ok h

theorem fail {e : ε} (h : bad e) : Reads bad (fail e : ByteReader ε α) post :=
  fun _ ↦ Outcome.error h

theorem mono (h : Reads bad p post) (himp : ∀ a, post a → post' a) : Reads bad p post' :=
  fun bs ↦ (h bs).mono fun r _ ↦ himp r.1

theorem bind (h : Reads bad p post) {f : α → ByteReader ε β} {post' : β → Prop}
    (hf : ∀ a, post a → Reads bad (f a) post') : Reads bad (p >>= f) post' :=
  fun bs ↦ (h bs).bind fun r _ hr ↦ hf r.1 hr r.2

theorem ite {c : Prop} [Decidable c] {q : ByteReader ε α} (hp : c → Reads bad p post)
    (hq : ¬ c → Reads bad q post) : Reads bad (if c then p else q) post := by
  split_ifs with hc
  · exact hp hc
  · exact hq hc

theorem lift {x : Except ε α} (h : Outcome bad x post) : Reads bad (lift x) post := by
  intro bs
  cases x with
  | ok a => exact h
  | error e => exact h

theorem remaining : Reads bad (remaining : ByteReader ε ℕ) fun _ ↦ True := fun _ ↦ trivial

/-- What is read from `n` bytes fits in them. -/
theorem readLe {e : ε} (h : bad e) (n : ℕ) : Reads bad (readLe e n) (· < 256 ^ n) := by
  intro bs
  rw [ByteReader.readLe]
  split_ifs with hlen
  · refine Outcome.ok ((leNat_lt _).trans_eq ?_)
    rw [List.length_take, Nat.min_eq_left hlen]
  · exact Outcome.error h

end Reads

/-! ## Reading at an offset -/

/-- The number in `n` bytes from offset `off`. -/
def fieldAt (bytes : List UInt8) (off n : ℕ) : ℕ := leNat ((bytes.drop off).take n)

variable {bytes : List UInt8} {off n : ℕ}

theorem fieldAt_lt (off n : ℕ) : fieldAt bytes off n < 256 ^ n :=
  (leNat_lt _).trans_le (Nat.pow_le_pow_right (by decide) (List.length_take_le _ _))

/-- A field is read where the last one ended. -/
theorem readLe_drop {e : ε} {x : ℕ} (h : readLe e n (bytes.drop off) = .ok (x, rest)) :
    x = fieldAt bytes off n ∧ rest = bytes.drop (off + n) := by
  obtain ⟨-, hx, hrest⟩ := readLe_eq_ok.mp h
  exact ⟨hx, by rw [hrest, List.drop_drop]⟩

/-- A field that is read and passed on. -/
theorem of_readLe_drop {e : ε} {f : ℕ → ByteReader ε β} {b : β}
    (h : (readLe e n >>= f) (bytes.drop off) = .ok (b, rest)) :
    f (fieldAt bytes off n) (bytes.drop (off + n)) = .ok (b, rest) := by
  obtain ⟨x, mid, hread, h⟩ := bind_apply_eq_ok.mp h
  obtain ⟨rfl, rfl⟩ := readLe_drop hread
  exact h

end ByteReader
