import DataSketches.Common.Panic
import DataSketches.Lib.ByteReader

/-!
# Reading and writing sketches

`SketchSlice` is the cursor that deserializers read from, a reader whose
failures are errors of this library or panics.  Writers are byte strings to be
concatenated.
-/

namespace DataSketches

open LittleEndian

/-! ## Families -/

/-- Defines the various families of sketch and set operation classes. -/
structure Family where
  /-- The byte ID for this family. -/
  id : ℕ
  name : String
  /-- The minimum preamble size for this family in longs. -/
  minPreLongs : ℕ
  /-- The maximum preamble size for this family in longs. -/
  maxPreLongs : ℕ

namespace Family

/-- Theta Sketch for cardinality estimation. -/
def theta : Family := ⟨3, "THETA", 1, 3⟩

/-- The HLL family of sketches. -/
def hll : Family := ⟨7, "HLL", 1, 1⟩

/-- Tuple Sketch for cardinality estimation with per-key summaries. -/
def tuple : Family := ⟨9, "TUPLE", 1, 3⟩

/-- The Frequency family of sketches. -/
def frequency : Family := ⟨10, "FREQUENCY", 1, 4⟩

/-- Compressed Probabilistic Counting (CPC) Sketch. -/
def cpc : Family := ⟨16, "CPC", 1, 5⟩

/-- Relative Error Quantiles (REQ) sketch. -/
def req : Family := ⟨17, "REQ", 1, 2⟩

/-- CountMin Sketch -/
def countmin : Family := ⟨18, "COUNTMIN", 2, 2⟩

/-- T-Digest for estimating quantiles and ranks. -/
def tdigest : Family := ⟨20, "TDIGEST", 1, 2⟩

/-- Bloom Filter. -/
def bloomfilter : Family := ⟨21, "BLOOMFILTER", 3, 4⟩

def validateId (f : Family) (familyId : ℕ) : Except Error Unit :=
  if familyId ≠ f.id then .error (.invalidFamily f.id familyId f.name) else .ok ()

end Family

def ensureSerialVersionIs (expected actual : ℕ) : Except Error Unit :=
  if expected = actual then .ok ()
  else .error (.deserial s!"unsupported serial version: expected {expected}, got {actual}")

def ensurePreambleLongsIn (expected : List ℕ) (actual : ℕ) : Except Error Unit :=
  if actual ∈ expected then .ok () else .error (.invalidPreambleLongs expected actual)

/-- The inclusive range `[lo, hi]` of preamble sizes. -/
def ensurePreambleLongsInRange (lo hi actual : ℕ) : Except Error Unit :=
  if lo ≤ actual ∧ actual ≤ hi then .ok ()
  else .error (.deserial s!"invalid preamble longs: expected [{lo}, {hi}], got {actual}")

/-! ## The cursor -/

abbrev SketchSlice := ByteReader Fault

namespace SketchSlice

open ByteReader

variable {α : Type}

/-- Return an error. -/
def err (e : Error) : SketchSlice α := fail (.error e)

/-- A call that may return an error. -/
def liftResult (x : Except Error α) : SketchSlice α := lift (x.mapError .error)

/-- A call that may panic. -/
def liftChecked (x : Checked α) : SketchSlice α := lift (x.mapError .panic)

def insufficientData (tag : String) : Fault := .error (.insufficientData tag)

def readU8 (tag : String) : SketchSlice ℕ := readLe (insufficientData tag) 1

def readU16Le (tag : String) : SketchSlice ℕ := readLe (insufficientData tag) 2

def readU32Le (tag : String) : SketchSlice ℕ := readLe (insufficientData tag) 4

def readU64Le (tag : String) : SketchSlice ℕ := readLe (insufficientData tag) 8

/-- A 32-bit number in two's complement. -/
def toI32 (n : ℕ) : ℤ := if n < 2 ^ 31 then n else n - 2 ^ 32

def readI32Le (tag : String) : SketchSlice ℤ := do return toI32 (← readU32Le tag)

variable {bs rest : List UInt8} {a : α}

@[simp] theorem err_apply (e : Error) (bs : List UInt8) :
    (err e : SketchSlice α) bs = .error (.error e) := rfl

@[simp] theorem liftResult_ok (a : α) (bs : List UInt8) :
    liftResult (.ok a) bs = .ok (a, bs) := rfl

@[simp] theorem liftChecked_ok (a : α) (bs : List UInt8) :
    liftChecked (.ok a) bs = .ok (a, bs) := rfl

theorem liftResult_eq_ok {x : Except Error α} :
    liftResult x bs = .ok (a, rest) ↔ x = .ok a ∧ rest = bs := by
  rw [liftResult, lift_eq_ok]
  cases x <;> simp [Except.mapError]

theorem liftChecked_eq_ok {x : Checked α} :
    liftChecked x bs = .ok (a, rest) ↔ x = .ok a ∧ rest = bs := by
  rw [liftChecked, lift_eq_ok]
  cases x <;> simp [Except.mapError]

/-- A panic of the given kind. -/
def Panicked (bad : Panic → Prop) (e : Fault) : Prop := ∃ p, e = .panic p ∧ bad p

/-- The outcome of a call is that of reading nothing. -/
theorem outcome_liftChecked {bad : Panic → Prop} {x : Checked α} {post : α → Prop}
    (h : Runs.Outcome bad x post) (bs : List UInt8) :
    Runs.Outcome (Panicked bad) (liftChecked x bs) fun r ↦ post r.1 := by
  cases x with
  | error p => exact ⟨p, rfl, h⟩
  | ok a => exact h

/-- An error, or a panic of the given kind. -/
def Tolerated (bad : Panic → Prop) (e : Fault) : Prop := ∀ p, e = .panic p → bad p

section Reads

variable {bad : Panic → Prop} {post : α → Prop}

theorem tolerated_error (e : Error) : Tolerated bad (.error e) := nofun

theorem tolerated_panic {p : Panic} (h : bad p) : Tolerated bad (.panic p) := by
  rintro p' ⟨⟩
  exact h

theorem reads_err (e : Error) : Reads (Tolerated bad) (err e : SketchSlice α) post :=
  Reads.fail (tolerated_error e)

theorem reads_liftResult {x : Except Error α} (h : ∀ a, x = .ok a → post a) :
    Reads (Tolerated bad) (liftResult x) post := by
  refine Reads.lift ?_
  cases x with
  | ok a => exact Runs.Outcome.ok (h a rfl)
  | error e => exact Runs.Outcome.error (tolerated_error e)

theorem reads_liftResult_any {x : Except Error α} :
    Reads (Tolerated bad) (liftResult x) fun _ ↦ True := reads_liftResult fun _ _ ↦ trivial

theorem reads_liftChecked {x : Checked α} (h : Runs.Outcome bad x post) :
    Reads (Tolerated bad) (liftChecked x) post := by
  refine Reads.lift ?_
  cases x with
  | ok a => exact h
  | error p => exact Runs.Outcome.error (tolerated_panic h)

theorem reads_readU8 (tag : String) : Reads (Tolerated bad) (readU8 tag) (· < 2 ^ 8) :=
  Reads.readLe (tolerated_error _) 1

theorem reads_readU16Le (tag : String) : Reads (Tolerated bad) (readU16Le tag) (· < 2 ^ 16) :=
  Reads.readLe (tolerated_error _) 2

theorem reads_readU32Le (tag : String) : Reads (Tolerated bad) (readU32Le tag) (· < 2 ^ 32) :=
  Reads.readLe (tolerated_error _) 4

theorem reads_readU64Le (tag : String) : Reads (Tolerated bad) (readU64Le tag) (· < 2 ^ 64) :=
  Reads.readLe (tolerated_error _) 8

end Reads

theorem outcome_fst {bad : Fault → Prop} {x : Except Fault (α × List UInt8)} {post : α → Prop}
    (h : Runs.Outcome bad x fun r ↦ post r.1) : Runs.Outcome bad (Prod.fst <$> x) post := by
  cases x with
  | error p => exact h
  | ok a => exact h

end SketchSlice

/-! ## The writer -/

namespace SketchBytes

def writeU8 (n : ℕ) : List UInt8 := leBytes 1 n

def writeU16Le (n : ℕ) : List UInt8 := leBytes 2 n

def writeU16Be (n : ℕ) : List UInt8 := (leBytes 2 n).reverse

def writeU32Le (n : ℕ) : List UInt8 := leBytes 4 n

def writeU32Be (n : ℕ) : List UInt8 := (leBytes 4 n).reverse

def writeU64Le (n : ℕ) : List UInt8 := leBytes 8 n

/-- `write_i32_le(n as i32)`, the cast of an unsigned number. -/
def writeI32Le (n : ℕ) : List UInt8 := leBytes 4 n

/-- A field that is not used is zero in any byte order. -/
theorem writeU16Be_zero : writeU16Be 0 = writeU16Le 0 := rfl

theorem writeU32Be_zero : writeU32Be 0 = writeU32Le 0 := rfl

end SketchBytes

/-! ## Reading back what was written -/

namespace SketchSlice

open ByteReader Runs SketchBytes

variable {x : ℕ}

theorem readU8_write (h : x < 2 ^ 8) (tag : String) (rest : List UInt8) :
    readU8 tag (writeU8 x ++ rest) = .ok (x, rest) := readLe_append h rest

theorem readU16Le_write (h : x < 2 ^ 16) (tag : String) (rest : List UInt8) :
    readU16Le tag (writeU16Le x ++ rest) = .ok (x, rest) := readLe_append h rest

theorem readU32Le_write (h : x < 2 ^ 32) (tag : String) (rest : List UInt8) :
    readU32Le tag (writeU32Le x ++ rest) = .ok (x, rest) := readLe_append h rest

theorem readU64Le_write (h : x < 2 ^ 64) (tag : String) (rest : List UInt8) :
    readU64Le tag (writeU64Le x ++ rest) = .ok (x, rest) := readLe_append h rest

theorem readI32Le_write (h : x < 2 ^ 31) (tag : String) (rest : List UInt8) :
    readI32Le tag (writeI32Le x ++ rest) = .ok ((x : ℤ), rest) := by
  have hread : readU32Le tag (writeI32Le x ++ rest) = .ok (x, rest) :=
    readLe_append (h.trans (by decide)) rest
  have hcast : toI32 x = x := if_pos h
  rw [readI32Le, bind_apply, hread, ok_bind, hcast, pure_apply]

end SketchSlice

end DataSketches
