import Mathlib

/-!
# Fields of bits, lowest bit first

A stream of bits is a number, whose lowest bit comes first.  A field is a number
of a given width; fields are packed one above the other, and what follows them
is the tail of the stream.

A set of fields is prefix free if no field is the beginning of another one.  A
stream then begins with at most one of them.

## Main definitions

* `pack`: the stream that begins with the given fields.
* `Starts`: a stream begins with a field.
* `PrefixFree`: no field of a family is the beginning of another one.
-/

universe u

namespace BitFields

/-- A number that takes `width` bits. -/
structure Field where
  value : ℕ
  width : ℕ
deriving DecidableEq, Repr

def Field.Fits (f : Field) : Prop := f.value < 2 ^ f.width

instance (f : Field) : Decidable f.Fits := inferInstanceAs (Decidable (_ < _))

/-- The stream that begins with the fields and goes on with the tail. -/
def pack : List Field → ℕ → ℕ
  | [], tail => tail
  | f :: fs, tail => f.value + 2 ^ f.width * pack fs tail

/-- The number of bits of the fields. -/
def width (fs : List Field) : ℕ := (fs.map Field.width).sum

variable {f g : Field} {fs gs : List Field} {tail : ℕ}

@[simp] theorem pack_nil : pack [] tail = tail := rfl

theorem pack_cons : pack (f :: fs) tail = f.value + 2 ^ f.width * pack fs tail := rfl

@[simp] theorem width_nil : width [] = 0 := rfl

@[simp] theorem width_cons : width (f :: fs) = f.width + width fs := List.sum_cons

theorem pack_append : pack (fs ++ gs) tail = pack fs (pack gs tail) := by
  induction fs with
  | nil => rfl
  | cons f fs ih => rw [List.cons_append, pack_cons, ih, pack_cons]

@[simp] theorem width_append : width (fs ++ gs) = width fs + width gs := by
  rw [width, List.map_append, List.sum_append]
  rfl

/-- The tail lies above the fields. -/
theorem pack_eq_add : pack fs tail = pack fs 0 + 2 ^ width fs * tail := by
  induction fs with
  | nil => rw [pack_nil, pack_nil, width_nil, pow_zero, Nat.one_mul, Nat.zero_add]
  | cons f fs ih =>
      rw [pack_cons, ih, pack_cons, width_cons, Nat.mul_add, ← Nat.mul_assoc, ← pow_add,
        Nat.add_assoc]

/-- A field is added at the end. -/
theorem pack_concat : pack (fs ++ [f]) 0 = pack fs 0 + 2 ^ width fs * f.value := by
  rw [pack_append, pack_eq_add, pack_cons, pack_nil, Nat.mul_zero, Nat.add_zero]

/-- Fields that fit are packed within their widths. -/
theorem pack_lt (h : ∀ f ∈ fs, f.Fits) : pack fs 0 < 2 ^ width fs := by
  induction fs with
  | nil => exact Nat.one_pos
  | cons f fs ih =>
      rw [pack_cons, width_cons, pow_add]
      have hf : f.value < 2 ^ f.width := h f List.mem_cons_self
      have hfs := ih fun g hg ↦ h g (List.mem_cons_of_mem _ hg)
      calc f.value + 2 ^ f.width * pack fs 0
          < 2 ^ f.width + 2 ^ f.width * pack fs 0 := Nat.add_lt_add_right hf _
        _ = 2 ^ f.width * (pack fs 0 + 1) := by rw [Nat.mul_add, Nat.mul_one, Nat.add_comm]
        _ ≤ 2 ^ f.width * 2 ^ width fs := Nat.mul_le_mul_left _ hfs

/-- The low bits are the first field. -/
theorem pack_mod (h : f.Fits) : pack (f :: fs) tail % 2 ^ f.width = f.value := by
  rw [pack_cons, Nat.add_mul_mod_self_left, Nat.mod_eq_of_lt h]

/-- The stream after the first field. -/
theorem pack_div (h : f.Fits) : pack (f :: fs) tail / 2 ^ f.width = pack fs tail := by
  rw [pack_cons, Nat.add_mul_div_left _ _ (Nat.two_pow_pos _), Nat.div_eq_of_lt h, Nat.zero_add]

/-! ## Beginnings -/

/-- The stream `v` begins with the field. -/
def Starts (f : Field) (v : ℕ) : Prop := v % 2 ^ f.width = f.value

instance (f : Field) (v : ℕ) : Decidable (Starts f v) := inferInstanceAs (Decidable (_ = _))

theorem starts_pack (h : f.Fits) : Starts f (pack (f :: fs) tail) := pack_mod h

/-- The beginning of a stream is seen in its low bits. -/
theorem Starts.mod {v n : ℕ} (h : Starts f v) (hn : f.width ≤ n) : Starts f (v % 2 ^ n) := by
  rw [Starts, Nat.mod_mod_of_dvd _ (pow_dvd_pow 2 hn), h]

/-- Of two beginnings of a stream, the shorter one is the beginning of the longer one. -/
theorem Starts.starts_value {v : ℕ} (hf : Starts f v) (hg : Starts g v)
    (hle : f.width ≤ g.width) : Starts f g.value := by
  rw [← hg]
  exact hf.mod hle

/-- No field is the beginning of another one. -/
def PrefixFree {ι : Type u} (word : ι → Field) : Prop :=
  ∀ s t, (word s).width ≤ (word t).width → Starts (word s) (word t).value → s = t

/-- A stream begins with at most one of the fields. -/
theorem PrefixFree.eq {ι : Type u} {word : ι → Field} (h : PrefixFree word) {s t : ι} {v : ℕ}
    (hs : Starts (word s) v) (ht : Starts (word t) v) : s = t := by
  rcases Nat.le_total (word s).width (word t).width with hle | hle
  · exact h s t hle (hs.starts_value ht hle)
  · exact (h t s hle (ht.starts_value hs hle)).symm

/-- A field of no width would be the beginning of every other one. -/
theorem PrefixFree.width_pos {ι : Type u} {word : ι → Field} (h : PrefixFree word) {s t : ι}
    (hfits : (word s).Fits) (hne : s ≠ t) : 0 < (word s).width := by
  rcases Nat.eq_zero_or_pos (word s).width with hzero | hpos
  · refine absurd (h s t (hzero ▸ Nat.zero_le _) ?_) hne
    rw [Field.Fits, hzero, pow_zero, Nat.lt_one_iff] at hfits
    rw [Starts, hzero, hfits, pow_zero, Nat.mod_one]
  · exact hpos

end BitFields
