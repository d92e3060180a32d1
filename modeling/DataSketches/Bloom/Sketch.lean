import DataSketches.Common.Codec
import DataSketches.Hash.XxHash
import DataSketches.Lib.BitArray

/-!
# Bloom filters

A filter keeps an array of bits and the number of bits that are set.  The count
is maintained by every operation on its own, and `contains` relies on it: a filter
that counts no bit contains nothing.
-/

namespace DataSketches

open Runs BitArray

/-- A Bloom filter for probabilistic set membership testing. -/
structure BloomFilter where
  /-- Hash seed for all hash functions. -/
  seed : UInt64
  /-- Number of hash functions to use (k). -/
  numHashes : ℕ
  /-- Count of bits set to 1. -/
  numBitsSet : ℕ
  /-- Bit array packed into u64 words. -/
  bitArray : List (BitVec 64)
deriving DecidableEq, Repr

namespace BloomFilter

/-! ## Building -/

def minNumBits : ℕ := 1

def maxNumBits : ℕ := (2 ^ 31 - 1 - Family.bloomfilter.maxPreLongs) * 64

def minNumHashes : ℕ := 1

def maxNumHashes : ℕ := 2 ^ 15 - 1

/-- `BloomFilterBuilder::with_size(num_bits, num_hashes).seed(seed).build()`.  The sizes that
`with_accuracy` suggests are clamped to the same ranges. -/
def build (numBits numHashes : ℕ) (seed : UInt64) : Checked BloomFilter := do
  assert (minNumBits ≤ numBits ∧ numBits ≤ maxNumBits) "num_bits must be between 1 and MAX_NUM_BITS"
  assert (minNumHashes ≤ numHashes ∧ numHashes ≤ maxNumHashes)
    "num_hashes must be between 1 and 32767"
  let numWords := (numBits + 63) / 64
  return ⟨seed, numHashes, 0, List.replicate numWords 0⟩

/-! ## Queries and updates -/

/-- Returns whether no bits are set in the filter. -/
def isEmpty (f : BloomFilter) : Bool := f.numBitsSet = 0

/-- Returns the total number of bits in the filter. -/
def capacity (f : BloomFilter) : ℕ := f.bitArray.length * 64

/-- Returns `true` if two filters are compatible for merging. -/
def isCompatible (f other : BloomFilter) : Bool :=
  f.bitArray.length = other.bitArray.length ∧ f.numHashes = other.numHashes ∧ f.seed = other.seed

/-- Computes the two base hash values using XXHash64. -/
def computeHash {T : Type} [Hash T] (seed : UInt64) (item : T) : Checked (UInt64 × UInt64) := do
  let h0 ← (← (XxHash64.withSeed seed).hash item).finish64
  let h1 ← (← (XxHash64.withSeed h0).hash item).finish64
  return (h0, h1)

/-- Double hashing: `((h0 + i * h1) >> 1) % capacity_bits`. -/
def bitIndex (capacity : ℕ) (h0 h1 : UInt64) (i : ℕ) : ℕ :=
  ((h0 + UInt64.ofNat i * h1).toNat >>> 1) % capacity

def computeBitIndex (f : BloomFilter) (h0 h1 : UInt64) (i : ℕ) : Checked ℕ := do
  assert (f.capacity ≠ 0) "attempt to calculate the remainder with a divisor of zero"
  return bitIndex f.capacity h0 h1 i

/-- Gets the value of a single bit. -/
def getBit (f : BloomFilter) (bitIndex : ℕ) : Checked Bool :=
  match f.bitArray[bitIndex >>> 6]? with
  | none => .error .outOfBounds
  | some word => .ok (word &&& (1#64 <<< (bitIndex &&& 63)) ≠ 0)

/-- Sets a single bit and updates the count if it was not already set. -/
def setBit (f : BloomFilter) (bitIndex : ℕ) : Checked BloomFilter :=
  match f.bitArray[bitIndex >>> 6]? with
  | none => .error .outOfBounds
  | some word => do
      let mask := 1#64 <<< (bitIndex &&& 63)
      if word &&& mask = 0 then
        return { f with
          bitArray := f.bitArray.set (bitIndex >>> 6) (word ||| mask)
          numBitsSet := ← checkedAdd 64 f.numBitsSet 1 }
      else return f

/-- The loop of `checkBits` over the last `n` hash functions. -/
def checkBitsFrom (f : BloomFilter) (h0 h1 : UInt64) : ℕ → ℕ → Checked Bool
  | _, 0 => return true
  | i, n + 1 => do
      if !(← f.getBit (← f.computeBitIndex h0 h1 i)) then return false
      else checkBitsFrom f h0 h1 (i + 1) n

/-- Checks if all k bits are set for the given hash values. -/
def checkBits (f : BloomFilter) (h0 h1 : UInt64) : Checked Bool :=
  f.checkBitsFrom h0 h1 1 f.numHashes

/-- The loop of `setBits` over the last `n` hash functions. -/
def setBitsFrom (h0 h1 : UInt64) : ℕ → ℕ → BloomFilter → Checked BloomFilter
  | _, 0, f => return f
  | i, n + 1, f => do setBitsFrom h0 h1 (i + 1) n (← f.setBit (← f.computeBitIndex h0 h1 i))

/-- Sets all k bits for the given hash values. -/
def setBits (f : BloomFilter) (h0 h1 : UInt64) : Checked BloomFilter :=
  setBitsFrom h0 h1 1 f.numHashes f

section Items

variable {T : Type} [Hash T]

/-- Returns `true` if an item is possibly in the set. -/
def contains (f : BloomFilter) (item : T) : Checked Bool :=
  if f.isEmpty then .ok false
  else do
    let (h0, h1) ← computeHash f.seed item
    f.checkBits h0 h1

/-- Returns `true` if an item was possibly present before inserting it. -/
def containsAndInsert (f : BloomFilter) (item : T) : Checked (Bool × BloomFilter) := do
  let (h0, h1) ← computeHash f.seed item
  let wasPresent ← f.checkBits h0 h1
  let f ← f.setBits h0 h1
  return (wasPresent, f)

/-- Inserts an item into the filter. -/
def insert (f : BloomFilter) (item : T) : Checked BloomFilter := do
  let (h0, h1) ← computeHash f.seed item
  f.setBits h0 h1

end Items

/-- Resets the filter to its initial empty state. -/
def reset (f : BloomFilter) : BloomFilter :=
  { f with bitArray := f.bitArray.map fun _ ↦ 0, numBitsSet := 0 }

/-- Merges another filter into this one via bitwise OR. -/
def union (f other : BloomFilter) : Checked BloomFilter := do
  assert (f.isCompatible other = true) "Cannot union incompatible Bloom filters"
  let bitArray := List.zipWith (· ||| ·) f.bitArray other.bitArray
  return { f with bitArray := bitArray, numBitsSet := popcount bitArray }

/-- Intersects this filter with another via bitwise AND. -/
def intersect (f other : BloomFilter) : Checked BloomFilter := do
  assert (f.isCompatible other = true) "Cannot intersect incompatible Bloom filters"
  let bitArray := List.zipWith (· &&& ·) f.bitArray other.bitArray
  return { f with bitArray := bitArray, numBitsSet := popcount bitArray }

/-- Inverts all bits in the filter. -/
def invert (f : BloomFilter) : Checked BloomFilter := do
  let numBitsSet ← checkedSub f.capacity f.numBitsSet
  return { f with bitArray := f.bitArray.map (~~~ ·), numBitsSet := numBitsSet }

/-! ## The invariant -/

/-- What holds of every filter: the count is right, and the sizes are those of a builder. -/
structure Inv (f : BloomFilter) : Prop where
  numBitsSet_eq : f.numBitsSet = popcount f.bitArray
  length_range : 0 < f.bitArray.length ∧ f.bitArray.length < 2 ^ 31
  numHashes_range : minNumHashes ≤ f.numHashes ∧ f.numHashes ≤ maxNumHashes

/-- Two filters of one shape. -/
structure SameShape (f g : BloomFilter) : Prop where
  length_eq : f.bitArray.length = g.bitArray.length
  numHashes_eq : f.numHashes = g.numHashes
  seed_eq : f.seed = g.seed

theorem SameShape.refl (f : BloomFilter) : SameShape f f := ⟨rfl, rfl, rfl⟩

theorem SameShape.trans {f g h : BloomFilter} (hfg : SameShape f g) (hgh : SameShape g h) :
    SameShape f h :=
  ⟨hfg.1.trans hgh.1, hfg.2.trans hgh.2, hfg.3.trans hgh.3⟩

theorem SameShape.symm {f g : BloomFilter} (h : SameShape f g) : SameShape g f :=
  ⟨h.1.symm, h.2.symm, h.3.symm⟩

theorem SameShape.isCompatible {f g : BloomFilter} (h : SameShape f g) :
    f.isCompatible g = true := decide_eq_true ⟨h.1, h.2, h.3⟩

variable {f g : BloomFilter}

theorem SameShape.capacity_eq (h : SameShape f g) : f.capacity = g.capacity := by
  rw [capacity, h.length_eq, capacity]

theorem Inv.capacity_pos (h : f.Inv) : 0 < f.capacity :=
  Nat.mul_pos h.length_range.1 (by decide)

/-- The positions of the bits of an item. -/
def Bits (f : BloomFilter) (h0 h1 : UInt64) (p : ℕ) : Prop :=
  ∃ i, 1 ≤ i ∧ i ≤ f.numHashes ∧ p = bitIndex f.capacity h0 h1 i

theorem bits_lt (h : f.Inv) {h0 h1 : UInt64} {p : ℕ} (hp : f.Bits h0 h1 p) : p < f.capacity := by
  obtain ⟨i, -, -, rfl⟩ := hp
  exact Nat.mod_lt _ h.capacity_pos

theorem SameShape.bits_iff (h : SameShape f g) {h0 h1 : UInt64} {p : ℕ} :
    f.Bits h0 h1 p ↔ g.Bits h0 h1 p := by
  unfold Bits
  rw [h.numHashes_eq, h.capacity_eq]

/-- Hashing an item never fails. -/
theorem computeHash_total {T : Type} [Hash T] (seed : UInt64) (item : T) :
    ∃ h0 h1, computeHash seed item = .ok (h0, h1) := by
  obtain ⟨s, hs, hbuf⟩ := XxHash64.hash_total (XxHash64.buffered_withSeed seed) item
  obtain ⟨h0, hh0⟩ := XxHash64.finish64_total hbuf
  obtain ⟨s', hs', hbuf'⟩ := XxHash64.hash_total (XxHash64.buffered_withSeed h0) item
  obtain ⟨h1, hh1⟩ := XxHash64.finish64_total hbuf'
  refine ⟨h0, h1, ?_⟩
  rw [computeHash, hs, ok_bind, hh0, ok_bind, hs', ok_bind, hh1]
  rfl

theorem computeBitIndex_eq (h : f.Inv) (h0 h1 : UInt64) (i : ℕ) :
    f.computeBitIndex h0 h1 i = .ok (bitIndex f.capacity h0 h1 i) := by
  rw [computeBitIndex, assert_pos h.capacity_pos.ne']
  rfl

/-- The word and the offset of a bit. -/
theorem shift_and_63 (p : ℕ) : p >>> 6 = p / 64 ∧ p &&& 63 = p % 64 :=
  ⟨Nat.shiftRight_eq_div_pow p 6, Nat.and_two_pow_sub_one_eq_mod p 6⟩

theorem getBit_eq {p : ℕ} (hp : p < f.capacity) : f.getBit p = .ok (get f.bitArray p) := by
  have hlt : p / 64 < f.bitArray.length := by
    unfold capacity at hp
    omega
  rw [getBit, (shift_and_63 p).1, (shift_and_63 p).2, List.getElem?_eq_getElem hlt]
  simp only [and_mask_ne_zero (Nat.mod_lt p (show 64 > 0 by decide)), Bool.decide_eq_true, BitArray.get,
    List.getD_eq_getElem _ _ hlt]

/-- Setting a bit sets this bit, and keeps the count right. -/
theorem setBit_spec (h : f.Inv) {p : ℕ} (hp : p < f.capacity) :
    ∃ f', f.setBit p = .ok f' ∧ f'.Inv ∧ SameShape f f' ∧
      ∀ q, get f'.bitArray q = (get f.bitArray q || decide (q = p)) := by
  have hlt : p / 64 < f.bitArray.length := by
    unfold capacity at hp
    omega
  have hmod : p % 64 < 64 := Nat.mod_lt p (by decide)
  have hget : get f.bitArray p = f.bitArray[p / 64].getLsbD (p % 64) := by
    rw [BitArray.get, List.getD_eq_getElem _ _ hlt]
  simp only [setBit, (shift_and_63 p).1, (shift_and_63 p).2, List.getElem?_eq_getElem hlt]
  by_cases hset : f.bitArray[p / 64].getLsbD (p % 64) = true
  · rw [if_neg ((and_mask_ne_zero hmod).mpr hset)]
    refine ⟨f, rfl, h, SameShape.refl f, fun q ↦ ?_⟩
    by_cases hq : q = p
    · rw [hq, hget, hset, Bool.true_or]
    · rw [decide_eq_false hq, Bool.or_false]
  · have hzero := not_not.mp (mt (and_mask_ne_zero hmod).mp hset)
    have hcount := popcount_set hlt hmod (eq_false_of_ne_true hset)
    have hle := popcount_le (f.bitArray.set (p / 64) (f.bitArray[p / 64] ||| 1#64 <<< (p % 64)))
    rw [hcount, List.length_set] at hle
    have hbound := h.length_range.2
    have hnum := h.numBitsSet_eq
    rw [if_pos hzero, checkedAdd_of_lt (by omega)]
    have hlen : (f.bitArray.set (p / 64) (f.bitArray[p / 64] ||| 1#64 <<< (p % 64))).length =
        f.bitArray.length := List.length_set
    have hget' := get_set hlt hmod
    rw [Nat.div_add_mod] at hget'
    refine ⟨_, rfl, ⟨?_, ?_, h.numHashes_range⟩, ⟨hlen.symm, rfl, rfl⟩, hget'⟩
    · exact (congrArg (· + 1) hnum).trans hcount.symm
    · exact hlen.symm ▸ h.length_range

/-- All bits are checked. -/
theorem checkBitsFrom_spec (h : f.Inv) (h0 h1 : UInt64) (i n : ℕ) :
    ∃ b, f.checkBitsFrom h0 h1 i n = .ok b ∧ (b = true ↔ ∀ j, i ≤ j → j < i + n →
      get f.bitArray (bitIndex f.capacity h0 h1 j) = true) := by
  induction n generalizing i with
  | zero => exact ⟨true, rfl, iff_of_true rfl fun j hj hlt ↦ by omega⟩
  | succ n ih =>
      obtain ⟨b, hok, hb⟩ := ih (i + 1)
      have hbit := getBit_eq (Nat.mod_lt ((h0 + UInt64.ofNat i * h1).toNat >>> 1) h.capacity_pos)
      rw [checkBitsFrom, computeBitIndex_eq h, ok_bind, bitIndex, hbit, ok_bind]
      cases hget : get f.bitArray ((h0 + UInt64.ofNat i * h1).toNat >>> 1 % f.capacity) with
      | false =>
          refine ⟨false, rfl, iff_of_false Bool.false_ne_true fun hall ↦ ?_⟩
          have hi := hall i le_rfl (by omega)
          rw [bitIndex, hget] at hi
          exact Bool.false_ne_true hi
      | true =>
          refine ⟨b, hok, hb.trans ⟨fun hall j hj hlt ↦ ?_, fun hall j hj hlt ↦ ?_⟩⟩
          · rcases Nat.eq_or_lt_of_le hj with rfl | hj
            · exact hget
            · exact hall j hj (by omega)
          · exact hall j (by omega) (by omega)

theorem checkBits_spec (h : f.Inv) (h0 h1 : UInt64) :
    ∃ b, f.checkBits h0 h1 = .ok b ∧
      (b = true ↔ ∀ p, f.Bits h0 h1 p → get f.bitArray p = true) := by
  obtain ⟨b, hok, hb⟩ := checkBitsFrom_spec h h0 h1 1 f.numHashes
  refine ⟨b, hok, hb.trans ⟨?_, fun hall j hj hlt ↦ hall _ ⟨j, hj, by omega, rfl⟩⟩⟩
  rintro hall p ⟨i, hi, hle, rfl⟩
  exact hall i hi (by omega)

/-- All bits are set. -/
theorem setBitsFrom_spec (h : f.Inv) (h0 h1 : UInt64) (i n : ℕ) :
    ∃ f', setBitsFrom h0 h1 i n f = .ok f' ∧ f'.Inv ∧ SameShape f f' ∧
      ∀ q, get f'.bitArray q = true ↔ get f.bitArray q = true ∨
        ∃ j, i ≤ j ∧ j < i + n ∧ q = bitIndex f.capacity h0 h1 j := by
  induction n generalizing i f with
  | zero =>
      refine ⟨f, rfl, h, SameShape.refl f, fun q ↦ (or_iff_left ?_).symm⟩
      rintro ⟨j, hj, hlt, -⟩
      omega
  | succ n ih =>
      obtain ⟨f₁, hok₁, hinv₁, hshape₁, hget₁⟩ :=
        setBit_spec h (Nat.mod_lt ((h0 + UInt64.ofNat i * h1).toNat >>> 1) h.capacity_pos)
      obtain ⟨f₂, hok₂, hinv₂, hshape₂, hget₂⟩ := ih hinv₁ (i + 1)
      refine ⟨f₂, ?_, hinv₂, hshape₁.trans hshape₂, fun q ↦ ?_⟩
      · rw [setBitsFrom, computeBitIndex_eq h, ok_bind, bitIndex, hok₁]
        exact hok₂
      · rw [hget₂, hget₁, Bool.or_eq_true, decide_eq_true_eq, ← hshape₁.capacity_eq, or_assoc]
        refine or_congr_right ⟨?_, ?_⟩
        · rintro (rfl | ⟨j, hj, hlt, rfl⟩)
          · exact ⟨i, le_rfl, by omega, rfl⟩
          · exact ⟨j, by omega, by omega, rfl⟩
        · rintro ⟨j, hj, hlt, rfl⟩
          rcases Nat.eq_or_lt_of_le hj with rfl | hj
          · exact .inl rfl
          · exact .inr ⟨j, hj, by omega, rfl⟩

theorem setBits_spec (h : f.Inv) (h0 h1 : UInt64) :
    ∃ f', f.setBits h0 h1 = .ok f' ∧ f'.Inv ∧ SameShape f f' ∧
      ∀ q, get f'.bitArray q = true ↔ get f.bitArray q = true ∨ f.Bits h0 h1 q := by
  obtain ⟨f', hok, hinv, hshape, hget⟩ := setBitsFrom_spec h h0 h1 1 f.numHashes
  refine ⟨f', hok, hinv, hshape, fun q ↦ (hget q).trans (or_congr_right ?_)⟩
  exact exists_congr fun j ↦ and_congr_right fun _ ↦ and_congr_left fun _ ↦ by omega

end BloomFilter

end DataSketches
