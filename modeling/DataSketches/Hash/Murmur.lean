import DataSketches.Common.Panic
import DataSketches.Lib.LittleEndian
import DataSketches.Lib.Runs

/-!
# MurmurHash3 and the seed hash

The streaming MurmurHash3 of the crate, and the 16-bit seed hash that every
serialized sketch of the Theta and CPC families carries.  Slices are taken with
their bounds checked, so a slice out of range is a panic of the model too.
-/

namespace DataSketches

open LittleEndian Runs

/-- `&bytes[lo..hi]` -/
def slice {α : Type} (bytes : List α) (lo hi : ℕ) : Checked (List α) :=
  if lo ≤ hi ∧ hi ≤ bytes.length then .ok ((bytes.drop lo).take (hi - lo)) else .error .outOfBounds

/-- `bytes[lo..hi].copy_from_slice(src)` -/
def copyFromSlice {α : Type} (bytes : List α) (lo hi : ℕ) (src : List α) : Checked (List α) :=
  if lo ≤ hi ∧ hi ≤ bytes.length ∧ src.length = hi - lo then
    .ok (bytes.take lo ++ src ++ bytes.drop hi)
  else .error .outOfBounds

/-- Reads an u64 from at most eight bytes in little-endian order. -/
def readU64Le (bytes : List UInt8) : Checked UInt64 :=
  if bytes.length ≤ 8 then .ok (UInt64.ofNat (leNat bytes)) else .error .outOfBounds

/-- Types whose values can be hashed. -/
class Hash (T : Type) where
  /-- The byte strings that hashing a value writes to the hasher, one after the other. -/
  writes : T → List (List UInt8)

/-- A `u64` writes its eight bytes. -/
instance : Hash UInt64 where
  writes n := [LittleEndian.leBytes 8 n.toNat]

def rotateLeft (x : UInt64) (n : UInt64) : UInt64 := (x <<< n) ||| (x >>> (64 - n))

def defaultUpdateSeed : UInt64 := 9001

namespace Murmur

def c1 : UInt64 := 0x87c37b91114253d5
def c2 : UInt64 := 0x4cf5ad432745937f

/-- Finalization mix: force all bits of a hash block to avalanche. -/
def fmix64 (k : UInt64) : UInt64 :=
  let k := k ^^^ (k >>> 33)
  let k := k * 0xff51afd7ed558ccd
  let k := k ^^^ (k >>> 33)
  let k := k * 0xc4ceb9fe1a85ec53
  k ^^^ (k >>> 33)

end Murmur

open Murmur

structure MurmurHash3X64128 where
  h1 : UInt64
  h2 : UInt64
  total : UInt64
  buf : List UInt8
  bufLen : ℕ
deriving DecidableEq, Repr

namespace MurmurHash3X64128

def withSeed (seed : UInt64) : MurmurHash3X64128 :=
  { h1 := seed, h2 := seed, total := 0, buf := List.replicate 16 0, bufLen := 0 }

def finish128 (s : MurmurHash3X64128) : Checked (UInt64 × UInt64) := do
  let total := s.total + UInt64.ofNat s.bufLen
  let rem := s.bufLen
  let mut h1 := s.h1
  let mut h2 := s.h2
  -- tail
  if rem > 0 then
    if rem > 8 then
      let k2 ← readU64Le (← slice s.buf 8 rem)
      h2 := h2 ^^^ (rotateLeft (k2 * c2) 33 * c1)
    let k1 ← readU64Le (← slice s.buf 0 (min rem 8))
    h1 := h1 ^^^ (rotateLeft (k1 * c1) 31 * c2)
  h1 := h1 ^^^ total
  h2 := h2 ^^^ total
  h1 := h1 + h2
  h2 := h2 + h1
  h1 := fmix64 h1
  h2 := fmix64 h2
  h1 := h1 + h2
  h2 := h2 + h1
  return (h1, h2)

def update (s : MurmurHash3X64128) (k1 k2 : UInt64) : MurmurHash3X64128 :=
  let h1 := s.h1 ^^^ (rotateLeft (k1 * c1) 31 * c2)
  let h1 := (rotateLeft h1 27 + s.h2) * 5 + 0x52dce729
  let h2 := s.h2 ^^^ (rotateLeft (k2 * c2) 33 * c1)
  let h2 := (rotateLeft h2 31 + h1) * 5 + 0x38495ab5
  { s with h1 := h1, h2 := h2, total := s.total + 16 }

/-- The body: hash the `n` full blocks of `bytes` from block `i` on. -/
def updateBlocks (bytes : List UInt8) : ℕ → ℕ → MurmurHash3X64128 → Checked MurmurHash3X64128
  | 0, _, s => .ok s
  | n + 1, i, s => do
      let lo := i <<< 4
      let mi := lo + 8
      let hi := mi + 8
      let k1 ← readU64Le (← slice bytes lo mi)
      let k2 ← readU64Le (← slice bytes mi hi)
      updateBlocks bytes n (i + 1) (s.update k1 k2)

def write (s : MurmurHash3X64128) (bytes : List UInt8) : Checked MurmurHash3X64128 := do
  if s.bufLen + bytes.length < 16 then
    let buf ← copyFromSlice s.buf s.bufLen (s.bufLen + bytes.length) bytes
    return { s with buf := buf, bufLen := s.bufLen + bytes.length }
  let mut s := s
  let mut bytes := bytes
  if s.bufLen ≠ 0 then
    let wanted := 16 - s.bufLen
    let buf ← copyFromSlice s.buf s.bufLen 16 (← slice bytes 0 wanted)
    let k1 ← readU64Le (← slice buf 0 8)
    let k2 ← readU64Le (← slice buf 8 16)
    s := { ({ s with buf := buf }).update k1 k2 with bufLen := 0 }
    bytes ← slice bytes wanted bytes.length
  let blocks := bytes.length >>> 4
  s ← updateBlocks bytes blocks 0 s
  -- remaining bytes
  let len := bytes.length % 16
  if len > 0 then
    let buf ← copyFromSlice s.buf 0 len (← slice bytes (blocks <<< 4) bytes.length)
    s := { s with buf := buf, bufLen := len }
  return s

/-- `item.hash(&mut hasher)` -/
def hash {T : Type} [Hash T] (s : MurmurHash3X64128) (item : T) : Checked MurmurHash3X64128 :=
  (Hash.writes item).foldlM write s

end MurmurHash3X64128

open MurmurHash3X64128

/-- Computes and checks the 16-bit seed hash from the given long seed. -/
def computeSeedHash (seed : UInt64) : Checked ℕ := do
  let hasher ← (withSeed 0).write (leBytes 8 seed.toNat)
  let (h1, _) ← hasher.finish128
  let seedHash := (h1 &&& 0xffff).toNat
  assert (seedHash ≠ 0) "seed hash must not be zero"
  return seedHash

/-- Checks that an actual seed hash matches the expected seed hash. -/
def checkSeedHash (expected actual : ℕ) (name : String) (kind : ErrorKind) : Except Error Unit :=
  if actual ≠ expected then
    .error ⟨kind, s!"incompatible seed hash of {name}: expected {expected}, got {actual}"⟩
  else .ok ()

@[simp] theorem checkSeedHash_self (h : ℕ) (name : String) (kind : ErrorKind) :
    checkSeedHash h h name kind = .ok () := if_neg (not_not.mpr rfl)

theorem checkSeedHash_eq_ok {expected actual : ℕ} {name : String} {kind : ErrorKind} :
    checkSeedHash expected actual name kind = .ok () ↔ actual = expected := by
  unfold checkSeedHash
  split_ifs with h <;> simp_all

/-- A seed hash is a nonzero 16-bit number. -/
theorem computeSeedHash_range {seed : UInt64} {h : ℕ} (hs : computeSeedHash seed = .ok h) :
    0 < h ∧ h < 2 ^ 16 := by
  unfold computeSeedHash at hs
  obtain ⟨hasher, -, hs⟩ := bind_eq_ok.mp hs
  obtain ⟨⟨h1, h2⟩, -, hs⟩ := bind_eq_ok.mp hs
  obtain ⟨u, hu, hs⟩ := bind_eq_ok.mp hs
  cases hs
  have hne : (h1 &&& 0xffff).toNat ≠ 0 := by
    by_contra hzero
    simp [hzero] at hu
  have hlt : (h1 &&& 0xffff).toNat ≤ 0xffff := by
    rw [UInt64.toNat_and]
    exact Nat.and_le_right
  exact ⟨Nat.pos_of_ne_zero hne, by omega⟩

example : computeSeedHash defaultUpdateSeed = .ok 37836 := by decide +kernel

/-! ## No slice is out of range -/

theorem slice_ok {α : Type} {bytes : List α} {lo hi : ℕ} (hle : lo ≤ hi) (hhi : hi ≤ bytes.length) :
    slice bytes lo hi = .ok ((bytes.drop lo).take (hi - lo)) := if_pos ⟨hle, hhi⟩

theorem copyFromSlice_ok {α : Type} {bytes src : List α} {lo hi : ℕ} (hle : lo ≤ hi)
    (hhi : hi ≤ bytes.length) (hsrc : src.length = hi - lo) :
    ∃ bs, copyFromSlice bytes lo hi src = .ok bs ∧ bs.length = bytes.length := by
  refine ⟨_, if_pos ⟨hle, hhi, hsrc⟩, ?_⟩
  simp only [List.length_append, List.length_take, List.length_drop, hsrc]
  omega

theorem readU64Le_slice {bytes : List UInt8} {lo hi : ℕ} (hle : lo ≤ hi) (hhi : hi ≤ bytes.length)
    (height : hi - lo ≤ 8) : ∃ x, (slice bytes lo hi >>= readU64Le) = .ok x := by
  rw [slice_ok hle hhi, ok_bind]
  refine ⟨_, if_pos ?_⟩
  rw [List.length_take]
  exact (min_le_left _ _).trans height

namespace MurmurHash3X64128

/-- The buffer has its full size and is never full. -/
structure Buffered (s : MurmurHash3X64128) : Prop where
  length_buf : s.buf.length = 16
  bufLen_lt : s.bufLen < 16

theorem buffered_withSeed (seed : UInt64) : (withSeed seed).Buffered :=
  ⟨List.length_replicate, Nat.zero_lt_succ 15⟩

@[simp] theorem update_buf (s : MurmurHash3X64128) (k1 k2 : UInt64) :
    (s.update k1 k2).buf = s.buf := by rw [update]

@[simp] theorem update_bufLen (s : MurmurHash3X64128) (k1 k2 : UInt64) :
    (s.update k1 k2).bufLen = s.bufLen := by rw [update]

theorem updateBlocks_total {bytes : List UInt8} {n i : ℕ} (h : 16 * (i + n) ≤ bytes.length)
    (s : MurmurHash3X64128) :
    ∃ s', updateBlocks bytes n i s = .ok s' ∧ s'.buf = s.buf ∧ s'.bufLen = s.bufLen := by
  induction n generalizing i s with
  | zero => exact ⟨s, rfl, rfl, rfl⟩
  | succ n ih =>
      have hlo : i <<< 4 = 16 * i := by
        rw [Nat.shiftLeft_eq]
        ring
      obtain ⟨k1, h1⟩ := readU64Le_slice (Nat.le_add_right (i <<< 4) 8)
        (show i <<< 4 + 8 ≤ bytes.length by omega) (by omega)
      obtain ⟨k2, h2⟩ := readU64Le_slice (Nat.le_add_right (i <<< 4 + 8) 8)
        (show i <<< 4 + 8 + 8 ≤ bytes.length by omega) (by omega)
      have hnext : 16 * (i + 1 + n) ≤ bytes.length := by omega
      obtain ⟨s', hok, hbuf, hlen⟩ := ih hnext (s.update k1 k2)
      rw [update_buf] at hbuf
      rw [update_bufLen] at hlen
      refine ⟨s', ?_, hbuf, hlen⟩
      simp only [updateBlocks, ← bind_assoc, h1, h2, ok_bind, hok]

/-- What `write` does once the buffer is empty. -/
def absorb (s : MurmurHash3X64128) (bytes : List UInt8) : Checked MurmurHash3X64128 := do
  let s ← updateBlocks bytes (bytes.length >>> 4) 0 s
  if bytes.length % 16 > 0 then
    let rest ← slice bytes ((bytes.length >>> 4) <<< 4) bytes.length
    let buf ← copyFromSlice s.buf 0 (bytes.length % 16) rest
    return { s with buf := buf, bufLen := bytes.length % 16 }
  else return s

theorem absorb_total {s : MurmurHash3X64128} (hbuf : s.buf.length = 16) (hzero : s.bufLen = 0)
    (bytes : List UInt8) : ∃ s', s.absorb bytes = .ok s' ∧ s'.Buffered := by
  have hblocks : (bytes.length >>> 4) <<< 4 = 16 * (bytes.length / 16) := by
    rw [Nat.shiftLeft_eq, Nat.shiftRight_eq_div_pow]
    ring
  have hdiv : bytes.length >>> 4 = bytes.length / 16 := Nat.shiftRight_eq_div_pow _ 4
  have hroom : 16 * (0 + bytes.length >>> 4) ≤ bytes.length := by omega
  obtain ⟨s₁, h₁, hbuf₁, hlen₁⟩ := updateBlocks_total hroom s
  have hmod := Nat.mod_lt bytes.length (show 16 > 0 by decide)
  unfold absorb
  rw [h₁, ok_bind]
  split_ifs with hrest
  · have hslice : slice bytes ((bytes.length >>> 4) <<< 4) bytes.length = _ :=
      slice_ok (by omega) le_rfl
    obtain ⟨buf, hcopy, hlen⟩ := copyFromSlice_ok (Nat.zero_le (bytes.length % 16))
      (show bytes.length % 16 ≤ s₁.buf.length by rw [hbuf₁, hbuf]; exact hmod.le)
      (show ((bytes.drop ((bytes.length >>> 4) <<< 4)).take
          (bytes.length - (bytes.length >>> 4) <<< 4)).length = bytes.length % 16 - 0 by
        rw [List.length_take, List.length_drop]
        omega)
    rw [hbuf₁, hbuf] at hlen
    refine ⟨{ s₁ with buf := buf, bufLen := bytes.length % 16 }, ?_, hlen, hmod⟩
    rw [hslice, ok_bind, hcopy]
    rfl
  · exact ⟨s₁, rfl, by rw [hbuf₁, hbuf], by rw [hlen₁, hzero]; decide⟩

/-- Writing never fails. -/
theorem write_total {s : MurmurHash3X64128} (h : s.Buffered) (bytes : List UInt8) :
    ∃ s', s.write bytes = .ok s' ∧ s'.Buffered := by
  unfold write
  by_cases hshort : s.bufLen + bytes.length < 16
  · obtain ⟨buf, hcopy, hlen⟩ := copyFromSlice_ok (Nat.le_add_right s.bufLen bytes.length)
      (h.length_buf.ge.trans' hshort.le) (Nat.add_sub_cancel_left s.bufLen bytes.length).symm
    refine ⟨{ s with buf := buf, bufLen := s.bufLen + bytes.length }, ?_,
      hlen.trans h.length_buf, hshort⟩
    simp only [if_pos hshort, hcopy, ok_bind, pure_eq_ok]
  simp only [if_neg hshort]
  by_cases hne : s.bufLen ≠ 0
  · have hlt := h.bufLen_lt
    have hfst : slice bytes 0 (16 - s.bufLen) = _ := slice_ok (Nat.zero_le _) (by omega)
    have hsnd : slice bytes (16 - s.bufLen) bytes.length = _ := slice_ok (by omega) le_rfl
    obtain ⟨buf, hcopy, hlen⟩ := copyFromSlice_ok hlt.le h.length_buf.ge
      (show ((bytes.drop 0).take (16 - s.bufLen - 0)).length = 16 - s.bufLen by
        rw [List.drop_zero, List.length_take]
        omega)
    rw [h.length_buf] at hlen
    obtain ⟨k1, hk1⟩ := readU64Le_slice (show 0 ≤ 8 by decide) (show 8 ≤ buf.length by omega)
      (by decide)
    obtain ⟨k2, hk2⟩ := readU64Le_slice (show 8 ≤ 16 by decide) (show 16 ≤ buf.length by omega)
      (by decide)
    obtain ⟨lo, hlo, hk1⟩ := bind_eq_ok.mp hk1
    obtain ⟨hi, hhi, hk2⟩ := bind_eq_ok.mp hk2
    rw [if_pos hne]
    simp only [hfst, ok_bind, hcopy, hsnd, hlo, hhi, hk1, hk2]
    exact @absorb_total { update { s with buf := buf } k1 k2 with bufLen := 0 }
      (by simpa only [update_buf] using hlen) rfl _
  · rw [if_neg hne]
    exact absorb_total h.length_buf (not_not.mp hne) bytes

/-- Finishing never fails. -/
theorem finish128_total {s : MurmurHash3X64128} (h : s.Buffered) : ∃ x, s.finish128 = .ok x := by
  have hlt := h.bufLen_lt
  have hlen := h.length_buf
  unfold finish128
  by_cases hpos : s.bufLen > 0
  swap
  · simp only [if_neg hpos]
    exact ⟨_, rfl⟩
  simp only [if_pos hpos]
  by_cases hlong : s.bufLen > 8
  · obtain ⟨k2, hk2⟩ := readU64Le_slice (show 8 ≤ s.bufLen by omega)
      (show s.bufLen ≤ s.buf.length by omega) (by omega)
    obtain ⟨k1, hk1⟩ := readU64Le_slice (Nat.zero_le (min s.bufLen 8))
      (show min s.bufLen 8 ≤ s.buf.length by omega) (by omega)
    simp only [if_pos hlong, ← bind_assoc, hk1, hk2, ok_bind]
    exact ⟨_, rfl⟩
  · obtain ⟨k1, hk1⟩ := readU64Le_slice (Nat.zero_le (min s.bufLen 8))
      (show min s.bufLen 8 ≤ s.buf.length by omega) (by omega)
    simp only [if_neg hlong, ← bind_assoc, hk1, ok_bind]
    exact ⟨_, rfl⟩

/-- Hashing an item never fails. -/
theorem hash_total {T : Type} [Hash T] {s : MurmurHash3X64128} (h : s.Buffered) (item : T) :
    ∃ s', s.hash item = .ok s' ∧ s'.Buffered := by
  unfold hash
  generalize Hash.writes item = ws
  induction ws generalizing s with
  | nil => exact ⟨s, rfl, h⟩
  | cons w ws ih =>
      obtain ⟨s₁, h₁, hbuf⟩ := write_total h w
      obtain ⟨s₂, h₂, hbuf₂⟩ := ih hbuf
      exact ⟨s₂, by rw [List.foldlM_cons, h₁]; exact h₂, hbuf₂⟩

end MurmurHash3X64128

end DataSketches
