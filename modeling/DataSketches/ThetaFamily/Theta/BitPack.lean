import DataSketches.Common.Panic
import DataSketches.Lib.BitStream
import DataSketches.Lib.Runs
import DataSketches.ThetaFamily.Theta.BitPackTables

/-!
# Packing of values into bits

The compressed format of the Theta sketch packs numbers of a fixed width, highest
bit first: blocks of eight by an unrolled function for each width, and the rest by
a packer that keeps a position.  Both write, and both ways of unpacking read, the
same bit string (`BitStream.Holds`).

Bytes and values are natural numbers, and a cast to `u8` is the remainder modulo
256.
-/

namespace DataSketches

namespace BitPack

open BitStream Runs

def blockWidth : ℕ := 8

def lowBitToByteMask (bits : ℕ) : ℕ := if bits ≥ 8 then 255 else 1 <<< bits - 1

/-- Assigns a byte, given its old value. -/
def modifyByte (bytes : List ℕ) (i : ℕ) (f : ℕ → ℕ) : Checked (List ℕ) :=
  match bytes[i]? with
  | none => .error .outOfBounds
  | some b => .ok (bytes.set i (f b))

/-- Reads a byte. -/
def byteAt (bytes : List ℕ) (i : ℕ) : Checked ℕ :=
  match bytes[i]? with
  | none => .error .outOfBounds
  | some b => .ok b

/-! ## The packer -/

/-- Packs values into a byte buffer with arbitrary bit widths. -/
structure BitPacker where
  bytes : List ℕ
  byteIndex : ℕ
  byteBitUsed : ℕ

namespace BitPacker

def new (bytes : List ℕ) : BitPacker := ⟨bytes, 0, 0⟩

/-- Return the number of bytes used. -/
def bytesUsed (p : BitPacker) : ℕ :=
  if p.byteBitUsed = 0 then p.byteIndex else p.byteIndex + 1

/-- The loop of `packValue` over whole bytes.  It returns the bits that are left. -/
def packBytes (value : ℕ) : ℕ → List ℕ → ℕ → Checked (List ℕ × ℕ × ℕ)
  | bits + 8, bytes, i => do
      let bytes ← modifyByte bytes i fun _ ↦ (value >>> bits) % 256
      packBytes value bits bytes (i + 1)
  | bits, bytes, i => .ok (bytes, i, bits)

/-- The part of `packValue` that starts at a byte boundary. -/
def packAligned (value bits : ℕ) (bytes : List ℕ) (i : ℕ) : Checked BitPacker := do
  let (bytes, i, bits) ← packBytes value bits bytes i
  if bits > 0 then
    let bytes ← modifyByte bytes i fun _ ↦ (value <<< (8 - bits)) % 256
    return ⟨bytes, i, bits⟩
  else
    return ⟨bytes, i, 0⟩

/-- Packs the low `bits` bits of `value`. -/
def packValue (p : BitPacker) (value bits : ℕ) : Checked BitPacker := do
  assert (p.byteBitUsed < 8) "offset must be in [0, 7]"
  if p.byteBitUsed > 0 then
    let remainBits := 8 - p.byteBitUsed
    let remainMask := lowBitToByteMask remainBits
    -- Fast path: there is enough space for remain byte to pack whole value.
    if bits < remainBits then
      let bytes ← modifyByte p.bytes p.byteIndex fun b ↦
        b ||| ((value <<< (remainBits - bits)) % 256 &&& remainMask)
      return ⟨bytes, p.byteIndex, p.byteBitUsed + bits⟩
    else
      -- Pack highest remain_bits bit first.
      let bytes ← modifyByte p.bytes p.byteIndex fun b ↦
        b ||| ((value >>> (bits - remainBits)) % 256 &&& remainMask)
      packAligned value (bits - remainBits) bytes (p.byteIndex + 1)
  else
    packAligned value bits p.bytes p.byteIndex

end BitPacker

/-! ## The unpacker -/

/-- Unpacks values from a byte buffer with arbitrary bit widths. -/
structure BitUnpacker where
  bytes : List ℕ
  byteIndex : ℕ
  byteBitUsed : ℕ

namespace BitUnpacker

def new (bytes : List ℕ) : BitUnpacker := ⟨bytes, 0, 0⟩

/-- The loop of `unpackValue` over whole bytes.  It returns the bits that are left. -/
def unpackBytes (bytes : List ℕ) : ℕ → ℕ → ℕ → Checked (ℕ × ℕ × ℕ)
  | bits + 8, i, value => do
      let b ← byteAt bytes i
      unpackBytes bytes bits (i + 1) (value <<< 8 ||| b)
  | bits, i, value => .ok (value, i, bits)

/-- Unpack a value of `bits` bits. -/
def unpackValue (u : BitUnpacker) (bits : ℕ) : Checked (ℕ × BitUnpacker) := do
  if bits = 0 then
    return (0, u)
  let availBits := 8 - u.byteBitUsed
  let chunkBits := min availBits bits
  let chunkMask := lowBitToByteMask chunkBits
  let b ← byteAt u.bytes u.byteIndex
  let value := (b >>> (availBits - chunkBits)) &&& chunkMask
  -- Use all remain bits for current byte.
  let i := if chunkBits = availBits then u.byteIndex + 1 else u.byteIndex
  let used := (u.byteBitUsed + chunkBits) &&& 7
  let (value, i, bits) ← unpackBytes u.bytes (bits - chunkBits) i value
  if bits > 0 then
    let b ← byteAt u.bytes i
    return (value <<< bits ||| b >>> (8 - bits), ⟨u.bytes, i, bits⟩)
  else
    return (value, ⟨u.bytes, i, used⟩)

end BitUnpacker

/-! ## Blocks of eight -/

/-- The value of one assignment of an unrolled function. -/
def joinTerms (xs : List ℕ) (terms : List (ℕ × ℕ × ℕ × ℕ)) : ℕ :=
  terms.foldl (fun acc ⟨i, r, m, l⟩ ↦ acc ||| ((xs.getD i 0 >>> r) &&& m) <<< l) 0

/-- Packs eight values of `bits` bits. -/
def packBitsBlock (values bytes : List ℕ) (bits : ℕ) : Checked (List ℕ) := do
  assert (values.length = blockWidth) "values length must be 8"
  assert (1 ≤ bits ∧ bits ≤ 63) s!"wrong number of bits in pack_bits_block8: {bits}"
  assert (bytes.length ≥ bits) "output buffer too small"
  match packTables[bits - 1]? with
  | none => .error (.unreachable "internal error: entered unreachable code")
  | some table => return table.map (joinTerms values · % 256) ++ bytes.drop bits

/-- Unpacks eight values of `bits` bits. -/
def unpackBitsBlock (bytes : List ℕ) (bits : ℕ) : Checked (List ℕ) := do
  assert (1 ≤ bits ∧ bits ≤ 63) s!"wrong number of bits in unpack_bits_block8: {bits}"
  assert (bytes.length ≥ bits) "output buffer too small"
  match unpackTables[bits - 1]? with
  | none => .error (.unreachable "internal error: entered unreachable code")
  | some table => return table.map (joinTerms bytes)

/-! ## Packing and unpacking a block -/

theorem testBit_joinTerms (xs : List ℕ) (terms : List (ℕ × ℕ × ℕ × ℕ)) (t : ℕ) :
    (joinTerms xs terms).testBit t = true ↔ ∃ i r m l, (i, r, m, l) ∈ terms ∧ l ≤ t ∧
      (xs.getD i 0).testBit (r + (t - l)) = true ∧ m.testBit (t - l) = true := by
  have hfold : ∀ (terms : List (ℕ × ℕ × ℕ × ℕ)) (acc : ℕ),
      (terms.foldl (fun acc ⟨i, r, m, l⟩ ↦ acc ||| ((xs.getD i 0 >>> r) &&& m) <<< l) acc).testBit t
        = true ↔ acc.testBit t = true ∨ ∃ i r m l, (i, r, m, l) ∈ terms ∧ l ≤ t ∧
          (xs.getD i 0).testBit (r + (t - l)) = true ∧ m.testBit (t - l) = true := by
    intro terms
    induction terms with
    | nil => intro acc; simp
    | cons term terms ih =>
        intro acc
        obtain ⟨i, r, m, l⟩ := term
        rw [List.foldl_cons, ih]
        simp only [Nat.testBit_lor, Nat.testBit_shiftLeft, Nat.testBit_land, Nat.testBit_shiftRight,
          Bool.or_eq_true, Bool.and_eq_true, decide_eq_true_eq, List.mem_cons, Prod.mk.injEq]
        constructor
        · rintro ((h | ⟨hl, hx, hm⟩) | ⟨i', r', m', l', hmem, h⟩)
          · exact .inl h
          · exact .inr ⟨i, r, m, l, .inl ⟨rfl, rfl, rfl, rfl⟩, hl, hx, hm⟩
          · exact .inr ⟨i', r', m', l', .inr hmem, h⟩
        · rintro (h | ⟨i', r', m', l', ⟨rfl, rfl, rfl, rfl⟩ | hmem, h⟩)
          · exact .inl (.inl h)
          · exact .inl (.inr h)
          · exact .inr ⟨i', r', m', l', hmem, h⟩
  rw [joinTerms, hfold]
  simp

/-- A position is in one value only. -/
theorem value_unique (bits q : ℕ) {i i' : ℕ} (h : i * bits ≤ q) (h₁ : q < i * bits + bits)
    (h' : i' * bits ≤ q) (h₁' : q < i' * bits + bits) : i' = i := by
  rw [← Nat.succ_mul] at h₁ h₁'
  rw [← Nat.div_eq_of_lt_le h h₁, ← Nat.div_eq_of_lt_le h' h₁']

/-- A packed block holds its values one after the other. -/
theorem holds_packLayout {bits : ℕ} (values : List ℕ) {i : ℕ} (hi : i < 8) :
    Holds ((packLayout bits).map (joinTerms values · % 256)) (i * bits) bits (values.getD i 0) := by
  intro s hs
  obtain ⟨q, hq⟩ : ∃ q, q = i * bits + s := ⟨_, rfl⟩
  have hq₈ : q < 8 * bits := by
    have : (i + 1) * bits ≤ 8 * bits := Nat.mul_le_mul_right bits hi
    rw [Nat.succ_mul] at this
    omega
  rw [← hq, bit, List.getD_eq_getElem _ _ (by simp [packLayout]; omega)]
  simp only [packLayout, List.getElem_map, List.getElem_range]
  change (joinTerms _ _ % 2 ^ 8).testBit _ = _
  rw [Nat.testBit_mod_two_pow, decide_eq_true (by omega), Bool.true_and, Bool.eq_iff_iff,
    testBit_joinTerms]
  simp only [List.mem_filterMap, List.mem_range, Option.ite_none_right_eq_some,
    Option.some.injEq, Prod.mk.injEq]
  constructor
  · rintro ⟨i', r, m, l, ⟨i', hi', hlt, rfl, rfl, rfl, rfl⟩, hl, hx, hm⟩
    rw [Nat.testBit_two_pow_sub_one, decide_eq_true_eq] at hm
    obtain rfl : i' = i := value_unique bits q (by omega) (by omega) (by omega) (by omega)
    rw [← hx]
    congr 1
    omega
  · intro hx
    refine ⟨i, _, _, _, ⟨i, hi, ?_, rfl, rfl, rfl, rfl⟩, ?_, ?_, ?_⟩
    · omega
    · omega
    · rw [← hx]
      congr 1
      omega
    · rw [Nat.testBit_two_pow_sub_one, decide_eq_true_eq]
      omega

/-- An unpacked value is the one the block holds at its place. -/
theorem holds_unpackLayout {bits : ℕ} (bytes : List ℕ) {i : ℕ} (hi : i < 8) :
    Holds bytes (i * bits) bits (((unpackLayout bits).map (joinTerms bytes)).getD i 0) ∧
      ((unpackLayout bits).map (joinTerms bytes)).getD i 0 < 2 ^ bits := by
  rw [List.getD_eq_getElem _ _ (by simpa [unpackLayout] using hi)]
  simp only [unpackLayout, List.getElem_map, List.getElem_range]
  constructor
  · intro s hs
    obtain ⟨q, hq⟩ : ∃ q, q = i * bits + s := ⟨_, rfl⟩
    have hq₈ : q < 8 * bits := by
      have : (i + 1) * bits ≤ 8 * bits := Nat.mul_le_mul_right bits hi
      rw [Nat.succ_mul] at this
      omega
    rw [← hq, Bool.eq_iff_iff, testBit_joinTerms, bit]
    simp only [List.mem_filterMap, List.mem_range, Option.ite_none_right_eq_some,
      Option.some.injEq, Prod.mk.injEq]
    constructor
    · intro hx
      refine ⟨q / 8, _, _, _, ⟨q / 8, by omega, ?_, rfl, rfl, rfl, rfl⟩, ?_, ?_, ?_⟩
      · omega
      · omega
      · rw [← hx]
        congr 1
        omega
      · rw [Nat.testBit_two_pow_sub_one, decide_eq_true_eq]
        omega
    · rintro ⟨j, r, m, l, ⟨j, hj, hlt, rfl, rfl, rfl, rfl⟩, hl, hx, hm⟩
      rw [Nat.testBit_two_pow_sub_one, decide_eq_true_eq] at hm
      obtain rfl : j = q / 8 := by omega
      rw [← hx]
      congr 1
      omega
  · refine Nat.lt_pow_two_of_testBit _ fun t ht ↦ ?_
    rw [Bool.eq_false_iff, Ne, testBit_joinTerms]
    rintro ⟨j, r, m, l, hmem, hl, -, hm⟩
    simp only [List.mem_filterMap, List.mem_range, Option.ite_none_right_eq_some,
      Option.some.injEq, Prod.mk.injEq] at hmem
    obtain ⟨j, hj, hlt, rfl, rfl, rfl, rfl⟩ := hmem
    rw [Nat.testBit_two_pow_sub_one, decide_eq_true_eq] at hm
    omega

theorem testBit_lowBitToByteMask {bits : ℕ} (h : bits ≤ 8) (t : ℕ) :
    (lowBitToByteMask bits).testBit t = decide (t < bits) := by
  have hmask : lowBitToByteMask bits = 2 ^ bits - 1 := by
    unfold lowBitToByteMask
    split_ifs with h₈
    · rw [le_antisymm h h₈]
      rfl
    · rw [Nat.one_shiftLeft]
  rw [hmask, Nat.testBit_two_pow_sub_one]

theorem modifyByte_of_lt {bytes : List ℕ} {i : ℕ} (h : i < bytes.length) (f : ℕ → ℕ) :
    modifyByte bytes i f = .ok (bytes.set i (f (bytes.getD i 0))) := by
  rw [modifyByte, List.getElem?_eq_getElem h, List.getD_eq_getElem _ _ h]

theorem byteAt_of_lt {bytes : List ℕ} {i : ℕ} (h : i < bytes.length) :
    byteAt bytes i = .ok (bytes.getD i 0) := by
  rw [byteAt, List.getElem?_eq_getElem h, List.getD_eq_getElem _ _ h]

/-! ## Packing value by value -/

namespace BitPacker

/-- The number of bits packed so far. -/
def pos (p : BitPacker) : ℕ := 8 * p.byteIndex + p.byteBitUsed

/-- Nothing is written past the position. -/
structure Ready (p : BitPacker) : Prop where
  used_lt : p.byteBitUsed < 8
  zero_after : ∀ q, p.pos ≤ q → bit p.bytes q = false

/-- `p'` is `p` with the low `bits` bits of `value` appended. -/
structure Packs (p p' : BitPacker) (value bits : ℕ) : Prop extends Ready p' where
  pos_eq : p'.pos = p.pos + bits
  length_eq : p'.bytes.length = p.bytes.length
  before : ∀ q < p.pos, bit p'.bytes q = bit p.bytes q
  holds : Holds p'.bytes p.pos bits value

theorem Packs.refl {p : BitPacker} (h : Ready p) (value : ℕ) : Packs p p value 0 :=
  ⟨h, rfl, rfl, fun _ _ ↦ rfl, holds_zero _ _ _⟩

/-- Appending the high bits and then the low bits. -/
theorem Packs.trans {p p₁ p' : BitPacker} {value k m : ℕ} (h : Packs p p₁ (value >>> m) k)
    (h' : Packs p₁ p' value m) : Packs p p' value (k + m) where
  toReady := h'.toReady
  pos_eq := by rw [h'.pos_eq, h.pos_eq, Nat.add_assoc]
  length_eq := h'.length_eq.trans h.length_eq
  before := fun q hq ↦ (h'.before q (by rw [h.pos_eq]; omega)).trans (h.before q hq)
  holds := by
    rw [holds_add]
    refine ⟨h.holds.of_bits fun q hq hqk ↦ h'.before q (by rw [h.pos_eq]; exact hqk), ?_⟩
    rw [← h.pos_eq]
    exact h'.holds

/-- Every write to a byte appends bits: it keeps the high bits that are used, sets the next
ones, and leaves the rest zero. -/
theorem packs_set {p p' : BitPacker} {x n b : ℕ} (h : Ready p)
    (hi : p.byteIndex < p.bytes.length) (hn : p.byteBitUsed + n ≤ 8)
    (hbytes : p'.bytes = p.bytes.set p.byteIndex b) (hpos : p'.pos = p.pos + n)
    (hused : p'.byteBitUsed < 8)
    (hb : ∀ t < 8, b.testBit t =
      if 8 - p.byteBitUsed ≤ t then (p.bytes.getD p.byteIndex 0).testBit t
      else if 8 - p.byteBitUsed - n ≤ t then x.testBit (t - (8 - p.byteBitUsed - n))
      else false) : Packs p p' x n := by
  have hp : p.pos = 8 * p.byteIndex + p.byteBitUsed := rfl
  have hbit : ∀ q, bit p'.bytes q = if q / 8 = p.byteIndex then b.testBit (7 - q % 8)
      else bit p.bytes q := fun q ↦ hbytes ▸ bit_set hi q
  refine ⟨⟨hused, fun q hq ↦ ?_⟩, hpos, by rw [hbytes, List.length_set], fun q hq ↦ ?_, ?_⟩
  · rw [hbit]
    split_ifs with hq₈
    · rw [hb _ (by omega), if_neg (by omega), if_neg (by omega)]
    · exact h.zero_after q (by omega)
  · rw [hbit]
    split_ifs with hq₈
    · rw [hb _ (by omega), if_pos (by omega), bit, hq₈]
    · rfl
  · intro s hs
    rw [hbit, if_pos (by omega), hb _ (by omega), if_neg (by omega), if_pos (by omega)]
    congr 1
    omega

theorem testBit_mod_256 {t : ℕ} (ht : t < 8) (x : ℕ) : (x % 256).testBit t = x.testBit t := by
  change (x % 2 ^ 8).testBit t = _
  rw [Nat.testBit_mod_two_pow, decide_eq_true ht, Bool.true_and]

/-- Assigning a byte at a byte boundary. -/
theorem packs_assign {bytes : List ℕ} {i x n b : ℕ} {p' : BitPacker} (h : Ready ⟨bytes, i, 0⟩)
    (hi : i < bytes.length) (hn : n ≤ 8) (hbytes : p'.bytes = bytes.set i b)
    (hpos : p'.pos = 8 * i + n) (hused : p'.byteBitUsed < 8)
    (hb : ∀ t < 8, b.testBit t = (decide (8 - n ≤ t) && x.testBit (t - (8 - n)))) :
    Packs ⟨bytes, i, 0⟩ p' x n := by
  refine packs_set h hi (by dsimp only; omega) hbytes hpos hused fun t ht ↦ ?_
  dsimp only
  rw [hb t ht, Nat.sub_zero, if_neg (not_le.mpr ht)]
  by_cases hle : 8 - n ≤ t <;> simp [hle]

/-- Filling up a byte that is partly used. -/
theorem packs_fill {p p' : BitPacker} {x n z : ℕ} (h : Ready p)
    (hi : p.byteIndex < p.bytes.length) (hn : p.byteBitUsed + n ≤ 8)
    (hbytes : p'.bytes = p.bytes.set p.byteIndex
      (p.bytes.getD p.byteIndex 0 ||| (z &&& lowBitToByteMask (8 - p.byteBitUsed))))
    (hpos : p'.pos = p.pos + n) (hused : p'.byteBitUsed < 8)
    (hz : ∀ t < 8, z.testBit t = (decide (8 - p.byteBitUsed - n ≤ t) &&
      x.testBit (t - (8 - p.byteBitUsed - n)))) : Packs p p' x n := by
  refine packs_set h hi hn hbytes hpos hused fun t ht ↦ ?_
  have hp : p.pos = 8 * p.byteIndex + p.byteBitUsed := rfl
  rw [Nat.testBit_lor, Nat.testBit_land, testBit_lowBitToByteMask (Nat.sub_le _ _), hz t ht]
  by_cases hold : 8 - p.byteBitUsed ≤ t
  · simp [hold, not_lt.mpr hold]
  · have hzero := h.zero_after (8 * p.byteIndex + 7 - t) (by omega)
    rw [bit, show (8 * p.byteIndex + 7 - t) / 8 = p.byteIndex by omega,
      show 7 - (8 * p.byteIndex + 7 - t) % 8 = t by omega] at hzero
    rw [hzero, if_neg hold, Bool.false_or, decide_eq_true (not_le.mp hold), Bool.and_true]
    by_cases hle : 8 - p.byteBitUsed - n ≤ t <;> simp [hle]

theorem packBytes_of_lt {value bits : ℕ} (h : bits < 8) (bytes : List ℕ) (i : ℕ) :
    packBytes value bits bytes i = .ok (bytes, i, bits) := by
  rw [packBytes]
  omega

/-- The loop over whole bytes appends all but the last bits. -/
theorem packBytes_spec (value : ℕ) {r : ℕ} (hr : r < 8) (n : ℕ) {bytes : List ℕ} {i : ℕ}
    (h : Ready ⟨bytes, i, 0⟩) (hroom : i + n ≤ bytes.length) :
    ∃ bytes', packBytes value (8 * n + r) bytes i = .ok (bytes', i + n, r) ∧
      Packs ⟨bytes, i, 0⟩ ⟨bytes', i + n, 0⟩ (value >>> r) (8 * n) := by
  induction n generalizing bytes i with
  | zero =>
      rw [Nat.mul_zero, Nat.zero_add]
      exact ⟨bytes, packBytes_of_lt hr bytes i, Packs.refl h _⟩
  | succ n ih =>
      have hi : i < bytes.length := by omega
      have hset : Packs ⟨bytes, i, 0⟩
          ⟨bytes.set i ((value >>> (8 * n + r)) % 256), i + 1, 0⟩ (value >>> r >>> (8 * n)) 8 := by
        refine packs_assign h hi (le_refl 8) rfl rfl (Nat.zero_lt_succ 7) fun t ht ↦ ?_
        rw [testBit_mod_256 ht, ← Nat.shiftRight_add, Nat.add_comm r]
        simp
      obtain ⟨bytes', hok, hpacks⟩ := ih hset.toReady (by rw [List.length_set]; omega)
      refine ⟨bytes', ?_, ?_⟩
      · rw [show 8 * (n + 1) + r = 8 * n + r + 8 by omega, packBytes, modifyByte_of_lt hi,
          show i + (n + 1) = i + 1 + n by omega]
        exact hok
      · rw [show 8 * (n + 1) = 8 + 8 * n by omega, show i + (n + 1) = i + 1 + n by omega]
        exact hset.trans hpacks

/-- Packing from a byte boundary. -/
theorem packAligned_spec (value bits : ℕ) {bytes : List ℕ} {i : ℕ} (h : Ready ⟨bytes, i, 0⟩)
    (hroom : 8 * i + bits ≤ 8 * bytes.length) :
    ∃ p', packAligned value bits bytes i = .ok p' ∧ Packs ⟨bytes, i, 0⟩ p' value bits := by
  obtain ⟨bytes', hok, hpacks⟩ := packBytes_spec value (Nat.mod_lt bits (Nat.zero_lt_succ 7))
    (bits / 8) h (by omega)
  rw [Nat.div_add_mod] at hok
  have hlen : bytes'.length = bytes.length := hpacks.length_eq
  have hrest : 8 * (bits / 8) + bits % 8 = bits := Nat.div_add_mod bits 8
  by_cases hzero : bits % 8 > 0
  · have hi : i + bits / 8 < bytes'.length := by omega
    refine ⟨⟨bytes'.set (i + bits / 8) ((value <<< (8 - bits % 8)) % 256), i + bits / 8, bits % 8⟩,
      ?_, ?_⟩
    · simp only [packAligned, hok, ok_bind, if_pos hzero, modifyByte_of_lt hi, pure_eq_ok]
    · have hassign : Packs ⟨bytes', i + bits / 8, 0⟩ ⟨bytes'.set (i + bits / 8)
          ((value <<< (8 - bits % 8)) % 256), i + bits / 8, bits % 8⟩ value (bits % 8) := by
        refine packs_assign hpacks.toReady hi (by omega) rfl rfl (Nat.mod_lt _ (by omega))
          fun t ht ↦ ?_
        rw [testBit_mod_256 ht, Nat.testBit_shiftLeft]
      have htrans := hpacks.trans hassign
      rwa [hrest] at htrans
  · refine ⟨⟨bytes', i + bits / 8, 0⟩, ?_, ?_⟩
    · simp only [packAligned, hok, ok_bind, if_neg hzero, pure_eq_ok]
    · have hmod : bits % 8 = 0 := by omega
      rw [hmod, Nat.add_zero] at hrest
      rw [hmod, hrest] at hpacks
      exact hpacks

/-- Packing a value appends its bits. -/
theorem packValue_spec {p : BitPacker} (h : Ready p) (value bits : ℕ)
    (hroom : p.pos + bits ≤ 8 * p.bytes.length) :
    ∃ p', p.packValue value bits = .ok p' ∧ Packs p p' value bits := by
  have hp : p.pos = 8 * p.byteIndex + p.byteBitUsed := rfl
  have hlt := h.used_lt
  by_cases hused : p.byteBitUsed > 0
  · have hi : p.byteIndex < p.bytes.length := by omega
    by_cases hfast : bits < 8 - p.byteBitUsed
    · refine ⟨_, ?_, @packs_fill p
        ⟨_, p.byteIndex, p.byteBitUsed + bits⟩ value bits
        ((value <<< (8 - p.byteBitUsed - bits)) % 256) h hi (by omega) rfl ?_ ?_ fun t ht ↦ ?_⟩
      · simp only [packValue, assert_pos hlt, ok_bind, if_pos hused, if_pos hfast,
          modifyByte_of_lt hi, pure_eq_ok]
      · change 8 * p.byteIndex + (p.byteBitUsed + bits) = _
        omega
      · change p.byteBitUsed + bits < 8
        omega
      · rw [testBit_mod_256 ht, Nat.testBit_shiftLeft]
    · have hfill : Packs p ⟨p.bytes.set p.byteIndex (p.bytes.getD p.byteIndex 0 |||
          ((value >>> (bits - (8 - p.byteBitUsed))) % 256 &&&
            lowBitToByteMask (8 - p.byteBitUsed))), p.byteIndex + 1, 0⟩
          (value >>> (bits - (8 - p.byteBitUsed))) (8 - p.byteBitUsed) := by
        refine packs_fill h hi (by omega) rfl ?_ (Nat.zero_lt_succ 7) fun t ht ↦ ?_
        · change 8 * (p.byteIndex + 1) + 0 = _
          omega
        · rw [testBit_mod_256 ht, Nat.sub_self]
          simp
      obtain ⟨p', hok, hpacks⟩ := packAligned_spec value (bits - (8 - p.byteBitUsed)) hfill.toReady
        (by rw [List.length_set]; omega)
      refine ⟨p', ?_, ?_⟩
      · simp only [packValue, assert_pos hlt, ok_bind, if_pos hused, if_neg hfast,
          modifyByte_of_lt hi, hok]
      · have htrans := hfill.trans hpacks
        rwa [Nat.add_sub_cancel' (not_lt.mp hfast)] at htrans
  · have hzero : p.byteBitUsed = 0 := by omega
    obtain ⟨bytes, i, used⟩ := p
    subst hzero
    obtain ⟨p', hok, hpacks⟩ := packAligned_spec value bits h (by dsimp only at hp hroom ⊢; omega)
    refine ⟨p', ?_, hpacks⟩
    simp only [packValue, assert_pos hlt, ok_bind, if_neg hused, hok]

end BitPacker

/-! ## Unpacking value by value -/

namespace BitUnpacker

/-- The number of bits read so far. -/
def pos (u : BitUnpacker) : ℕ := 8 * u.byteIndex + u.byteBitUsed

theorem unpackBytes_of_lt {bits : ℕ} (h : bits < 8) (bytes : List ℕ) (i value : ℕ) :
    unpackBytes bytes bits i value = .ok (value, i, bits) := by
  rw [unpackBytes]
  omega

/-- The loop over whole bytes reads all but the last bits. -/
theorem unpackBytes_spec {bytes : List ℕ} (hbytes : ∀ b ∈ bytes, b < 256) {r : ℕ} (hr : r < 8)
    (n : ℕ) {p k i value : ℕ} (hpos : 8 * i = p + k) (hroom : i + n ≤ bytes.length)
    (h : Holds bytes p k value) (hlt : value < 2 ^ k) :
    ∃ value', unpackBytes bytes (8 * n + r) i value = .ok (value', i + n, r) ∧
      Holds bytes p (k + 8 * n) value' ∧ value' < 2 ^ (k + 8 * n) := by
  induction n generalizing k i value with
  | zero =>
      rw [Nat.mul_zero, Nat.zero_add]
      exact ⟨value, unpackBytes_of_lt hr bytes i value, h, hlt⟩
  | succ n ih =>
      have hi : i < bytes.length := by omega
      have hb : bytes.getD i 0 < 2 ^ 8 := by
        rw [List.getD_eq_getElem _ _ hi]
        exact hbytes _ (List.getElem_mem hi)
      have hbyte : Holds bytes (p + k) 8 (bytes.getD i 0) := by
        rw [← hpos]
        exact holds_byte (show 0 + 8 ≤ 8 from le_refl 8)
      obtain ⟨value', hok, hholds, hlt'⟩ := ih (show 8 * (i + 1) = p + (k + 8) by omega) (by omega)
        (h.append hbyte hb) (shiftLeft_or_lt hlt hb)
      refine ⟨value', ?_, ?_⟩
      · rw [show 8 * (n + 1) + r = 8 * n + r + 8 by omega, unpackBytes, byteAt_of_lt hi,
          show i + (n + 1) = i + 1 + n by omega]
        exact hok
      · rw [show k + 8 * (n + 1) = k + 8 + 8 * n by omega]
        exact ⟨hholds, hlt'⟩

/-- The part of a byte that `unpackValue` reads first. -/
theorem holds_chunk {bytes : List ℕ} {i used bits : ℕ} (hbits : used + bits ≤ 8) :
    Holds bytes (8 * i + used) bits
        ((bytes.getD i 0 >>> (8 - used - bits)) &&& lowBitToByteMask bits) ∧
      (bytes.getD i 0 >>> (8 - used - bits)) &&& lowBitToByteMask bits < 2 ^ bits := by
  constructor
  · refine (holds_byte hbits).congr fun s hs ↦ ?_
    rw [Nat.testBit_land, testBit_lowBitToByteMask (by omega), decide_eq_true hs, Bool.and_true]
  · refine Nat.lt_pow_two_of_testBit _ fun s hs ↦ ?_
    rw [Nat.testBit_land, testBit_lowBitToByteMask (by omega), decide_eq_false (not_lt.mpr hs),
      Bool.and_false]

/-- Unpacking a value reads its bits. -/
theorem unpackValue_spec {u : BitUnpacker} (hbytes : ∀ b ∈ u.bytes, b < 256)
    (hused : u.byteBitUsed < 8) {bits : ℕ} (hroom : u.pos + bits ≤ 8 * u.bytes.length) :
    ∃ value u', u.unpackValue bits = .ok (value, u') ∧ u'.bytes = u.bytes ∧ u'.byteBitUsed < 8 ∧
      u'.pos = u.pos + bits ∧ Holds u.bytes u.pos bits value ∧ value < 2 ^ bits := by
  have hu : u.pos = 8 * u.byteIndex + u.byteBitUsed := rfl
  by_cases hzero : bits = 0
  · subst hzero
    exact ⟨0, u, by simp [unpackValue], rfl, hused, rfl, holds_zero _ _ _, Nat.one_pos⟩
  obtain ⟨chunk, hchunk⟩ : ∃ chunk, chunk = min (8 - u.byteBitUsed) bits := ⟨_, rfl⟩
  have hi : u.byteIndex < u.bytes.length := by omega
  obtain ⟨hholds, hlt⟩ := @holds_chunk u.bytes u.byteIndex u.byteBitUsed chunk (by omega)
  have hand : (u.byteBitUsed + chunk) &&& 7 = (u.byteBitUsed + chunk) % 8 :=
    Nat.and_two_pow_sub_one_eq_mod _ 3
  by_cases hall : chunk = 8 - u.byteBitUsed
  · -- The rest of the byte is read, and the loop goes on at a byte boundary.
    obtain ⟨value, hok, hholds', hlt'⟩ := unpackBytes_spec hbytes (Nat.mod_lt (bits - chunk)
      (Nat.zero_lt_succ 7)) ((bits - chunk) / 8) (show 8 * (u.byteIndex + 1) = u.pos + chunk by omega)
      (by omega) hholds hlt
    rw [Nat.div_add_mod] at hok
    by_cases hlast : (bits - chunk) % 8 > 0
    · have hi' : u.byteIndex + 1 + (bits - chunk) / 8 < u.bytes.length := by omega
      have hb : u.bytes.getD (u.byteIndex + 1 + (bits - chunk) / 8) 0 >>> (8 - (bits - chunk) % 8) <
          2 ^ ((bits - chunk) % 8) := by
        rw [List.getD_eq_getElem _ _ hi', Nat.shiftRight_eq_div_pow,
          Nat.div_lt_iff_lt_mul (Nat.two_pow_pos _), ← pow_add,
          Nat.add_sub_cancel' (Nat.mod_lt _ (Nat.zero_lt_succ 7)).le]
        exact hbytes _ (List.getElem_mem hi')
      have hpart := @holds_byte u.bytes ((bits - chunk) % 8)
        (u.byteIndex + 1 + (bits - chunk) / 8) 0 (by omega)
      rw [Nat.add_zero, Nat.sub_zero, show 8 * (u.byteIndex + 1 + (bits - chunk) / 8) =
        u.pos + (chunk + 8 * ((bits - chunk) / 8)) by omega] at hpart
      have hbits : chunk + 8 * ((bits - chunk) / 8) + (bits - chunk) % 8 = bits := by omega
      have hfull := hholds'.append hpart hb
      have hfulllt := shiftLeft_or_lt hlt' hb
      rw [hbits] at hfull hfulllt
      refine ⟨_, ⟨u.bytes, u.byteIndex + 1 + (bits - chunk) / 8, (bits - chunk) % 8⟩, ?_, rfl,
        by dsimp only; omega, ?_, hfull, hfulllt⟩
      · simp only [unpackValue, if_neg hzero, ← hchunk, byteAt_of_lt hi, ok_bind, if_pos hall, hok,
          if_pos hlast, byteAt_of_lt hi', pure_eq_ok]
      · change 8 * (u.byteIndex + 1 + (bits - chunk) / 8) + (bits - chunk) % 8 = _
        omega
    · have hbits : chunk + 8 * ((bits - chunk) / 8) = bits := by omega
      rw [hbits] at hholds' hlt'
      refine ⟨value, ⟨u.bytes, u.byteIndex + 1 + (bits - chunk) / 8,
        (u.byteBitUsed + chunk) &&& 7⟩, ?_, rfl, ?_, ?_, hholds', hlt'⟩
      · simp only [unpackValue, if_neg hzero, ← hchunk, byteAt_of_lt hi, ok_bind, if_pos hall, hok,
          if_neg hlast, pure_eq_ok]
      · dsimp only
        omega
      · change 8 * (u.byteIndex + 1 + (bits - chunk) / 8) + ((u.byteBitUsed + chunk) &&& 7) = _
        omega
  · have hbits : chunk = bits := by omega
    rw [hbits] at hholds hlt hand
    refine ⟨_, ⟨u.bytes, u.byteIndex, (u.byteBitUsed + bits) &&& 7⟩, ?_, rfl, ?_, ?_, hholds, hlt⟩
    · rw [hbits] at hall hchunk
      simp only [unpackValue, if_neg hzero, ← hchunk, byteAt_of_lt hi, ok_bind, if_neg hall,
        Nat.sub_self, unpackBytes_of_lt (Nat.zero_lt_succ 7), pure_eq_ok]
      rfl
    · dsimp only
      omega
    · change 8 * u.byteIndex + ((u.byteBitUsed + bits) &&& 7) = _
      omega

end BitUnpacker

end BitPack

end DataSketches
