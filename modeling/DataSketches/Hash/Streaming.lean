import DataSketches.Hash.XxHash
import DataSketches.Lib.Blocks

/-!
# Hashing in pieces

A hasher receives its input by any number of writes.  What it computes is the
hash of the whole input by the one-shot algorithm, which is written down here for
both hash functions (`Murmur.hash128`, `XxHash.hash64`); no slice index of the
streaming code is ever out of range.
-/

namespace DataSketches

open LittleEndian Runs Blocks

/-- A call on a hasher. -/
inductive HasherCall where
  | write (bytes : List UInt8)
  | finish

namespace HasherCall

/-- What a call adds to the input. -/
def bytes : HasherCall → List UInt8
  | write bs => bs
  | finish => []

end HasherCall

/-! ## The reference algorithms -/

/-- The word in at most eight bytes, least significant first. -/
def word (bytes : List UInt8) : UInt64 := UInt64.ofNat (leNat bytes)

namespace Murmur

def mixK1 (k : UInt64) : UInt64 := rotateLeft (k * c1) 31 * c2

def mixK2 (k : UInt64) : UInt64 := rotateLeft (k * c2) 33 * c1

/-- Mixes in a block of sixteen bytes. -/
def mixBlock (h : UInt64 × UInt64) (block : List UInt8) : UInt64 × UInt64 :=
  let h1 := (rotateLeft (h.1 ^^^ mixK1 (word (block.take 8))) 27 + h.2) * 5 + 0x52dce729
  let h2 := (rotateLeft (h.2 ^^^ mixK2 (word (block.drop 8))) 31 + h1) * 5 + 0x38495ab5
  (h1, h2)

/-- Mixes in the last, partial block. -/
def mixTail (h : UInt64 × UInt64) (tail : List UInt8) : UInt64 × UInt64 :=
  (if 0 < tail.length then h.1 ^^^ mixK1 (word (tail.take 8)) else h.1,
    if 8 < tail.length then h.2 ^^^ mixK2 (word (tail.drop 8)) else h.2)

/-- The finalization, with the length of the input. -/
def avalanche (h : UInt64 × UInt64) (length : UInt64) : UInt64 × UInt64 :=
  let h1 := h.1 ^^^ length
  let h2 := h.2 ^^^ length
  let h1 := h1 + h2
  let h2 := h2 + h1
  let h1 := fmix64 h1
  let h2 := fmix64 h2
  let h1 := h1 + h2
  (h1, h2 + h1)

/-- MurmurHash3_x64_128 of a byte string. -/
def hash128 (seed : UInt64) (data : List UInt8) : UInt64 × UInt64 :=
  avalanche (mixTail (body 16 mixBlock data (seed, seed)) (rest 16 data)) (UInt64.ofNat data.length)

/-- "The quick brown fox jumps over the lazy1", with eight bytes in the last block. -/
example : hash128 0 [84, 104, 101, 32, 113, 117, 105, 99, 107, 32, 98, 114, 111, 119, 110, 32, 102,
    111, 120, 32, 106, 117, 109, 112, 115, 32, 111, 118, 101, 114, 32, 116, 104, 101, 32, 108, 97,
    122, 121, 49] = (0xe3301a827e5cdfe3, 0xbdbf05f8da0f0392) := by decide +kernel

end Murmur

namespace XxHash

/-- The four accumulators. -/
structure Lanes where
  v1 : UInt64
  v2 : UInt64
  v3 : UInt64
  v4 : UInt64

def lanes (seed : UInt64) : Lanes := ⟨seed + p1 + p2, seed + p2, seed, seed - p1⟩

/-- Mixes in a stripe of 32 bytes. -/
def mixStripe (l : Lanes) (stripe : List UInt8) : Lanes where
  v1 := round l.v1 (word (stripe.take 8))
  v2 := round l.v2 (word ((stripe.drop 8).take 8))
  v3 := round l.v3 (word ((stripe.drop 16).take 8))
  v4 := round l.v4 (word ((stripe.drop 24).take 8))

/-- The four accumulators become one. -/
def converge (l : Lanes) : UInt64 :=
  let acc := rotateLeft l.v1 1 + rotateLeft l.v2 7 + rotateLeft l.v3 12 + rotateLeft l.v4 18
  mergeRound (mergeRound (mergeRound (mergeRound acc l.v1) l.v2) l.v3) l.v4

def mixWord (hash : UInt64) (bytes : List UInt8) : UInt64 :=
  rotateLeft (hash ^^^ (rotateLeft (word bytes * p2) 31 * p1)) 27 * p1 + p4

/-- Mixes in what no eight-byte word covers: a half word if there is one, then single bytes. -/
def mixRest (hash : UInt64) (bytes : List UInt8) : UInt64 :=
  if 4 ≤ bytes.length then
    (bytes.drop 4).foldl XxHash64.mixByte
      (rotateLeft (hash ^^^ (word (bytes.take 4) * p1)) 23 * p2 + p3)
  else bytes.foldl XxHash64.mixByte hash

/-- Mixes in what follows the last stripe. -/
def mixTail (hash : UInt64) (tail : List UInt8) : UInt64 :=
  mixRest (body 8 mixWord tail hash) (rest 8 tail)

/-- XXH64 of a byte string. -/
def hash64 (seed : UInt64) (data : List UInt8) : UInt64 :=
  let hash := if 32 ≤ data.length then converge (body 32 mixStripe data (lanes seed)) else seed + p5
  finalize (mixTail (hash + UInt64.ofNat data.length) (rest 32 data))

example : hash64 0 [] = 0xEF46DB3751D8E999 := by decide +kernel

end XxHash

/-! ## Slices in range -/

theorem readU64Le_eq {bytes : List UInt8} (h : bytes.length ≤ 8) : readU64Le bytes = .ok (word bytes) :=
  if_pos h

theorem readU64Le_slice_eq {bytes : List UInt8} {lo hi : ℕ} (hle : lo ≤ hi) (hhi : hi ≤ bytes.length)
    (height : hi - lo ≤ 8) :
    (slice bytes lo hi >>= readU64Le) = .ok (word ((bytes.drop lo).take (hi - lo))) := by
  rw [slice_ok hle hhi, ok_bind, readU64Le_eq]
  rw [List.length_take]
  exact (min_le_left _ _).trans height

theorem copyFromSlice_eq {α : Type} {bytes src : List α} {lo hi : ℕ} (hle : lo ≤ hi)
    (hhi : hi ≤ bytes.length) (hsrc : src.length = hi - lo) :
    copyFromSlice bytes lo hi src = .ok (bytes.take lo ++ src ++ bytes.drop hi) :=
  if_pos ⟨hle, hhi, hsrc⟩

/-- What is copied into a buffer follows what the buffer held before. -/
theorem take_copied {α : Type} {bytes : List α} (src : List α) {lo : ℕ} (h : lo ≤ bytes.length)
    (hi : ℕ) :
    (bytes.take lo ++ src ++ bytes.drop hi).take (lo + src.length) = bytes.take lo ++ src := by
  refine List.take_left' ?_
  rw [List.length_append, List.length_take, Nat.min_eq_left h]

theorem length_copied {α : Type} {bytes src : List α} {lo hi : ℕ} (hle : lo ≤ hi)
    (hhi : hi ≤ bytes.length) (hsrc : src.length = hi - lo) :
    (bytes.take lo ++ src ++ bytes.drop hi).length = bytes.length := by
  rw [List.length_append, List.length_append, List.length_take, List.length_drop, hsrc]
  omega

/-! ## MurmurHash3 -/

namespace MurmurHash3X64128

/-- One block of the stream: the hash, and the number of bytes. -/
def absorbBlock (st : (UInt64 × UInt64) × UInt64) (block : List UInt8) : (UInt64 × UInt64) × UInt64 :=
  (Murmur.mixBlock st.1 block, st.2 + 16)

/-- What the blocks go into. -/
def state (s : MurmurHash3X64128) : (UInt64 × UInt64) × UInt64 := ((s.h1, s.h2), s.total)

/-- The hasher was fed `data`. -/
abbrev Streamed (seed : UInt64) (s : MurmurHash3X64128) (data : List UInt8) : Prop :=
  Fed 16 absorbBlock ((seed, seed), 0) data s.state s.buf s.bufLen

theorem state_update (s : MurmurHash3X64128) (block : List UInt8) :
    (s.update (word (block.take 8)) (word (block.drop 8))).state = absorbBlock s.state block := rfl

theorem updateBlocks_eq {bytes : List UInt8} {n i : ℕ} (h : 16 * (i + n) ≤ bytes.length)
    (s : MurmurHash3X64128) : ∃ s', updateBlocks bytes n i s = .ok s' ∧
      s'.state = foldBlocks 16 absorbBlock n (bytes.drop (16 * i)) s.state ∧
      s'.buf = s.buf ∧ s'.bufLen = s.bufLen := by
  induction n generalizing i s with
  | zero => exact ⟨s, rfl, rfl, rfl, rfl⟩
  | succ n ih =>
      have hlo : i <<< 4 = 16 * i := by
        rw [Nat.shiftLeft_eq]
        ring
      have h1 := readU64Le_slice_eq (Nat.le_add_right (16 * i) 8)
        (show 16 * i + 8 ≤ bytes.length by omega) (by omega)
      have h2 := readU64Le_slice_eq (Nat.le_add_right (16 * i + 8) 8)
        (show 16 * i + 8 + 8 ≤ bytes.length by omega) (by omega)
      have hk1 : (bytes.drop (16 * i)).take (16 * i + 8 - 16 * i) =
          ((bytes.drop (16 * i)).take 16).take 8 := by
        rw [List.take_take, Nat.add_sub_cancel_left]
        rfl
      have hk2 : (bytes.drop (16 * i + 8)).take (16 * i + 8 + 8 - (16 * i + 8)) =
          ((bytes.drop (16 * i)).take 16).drop 8 := by
        rw [List.drop_take, List.drop_drop, Nat.add_sub_cancel_left]
      rw [hk1] at h1
      rw [hk2] at h2
      have hnext : 16 * (i + 1 + n) ≤ bytes.length := by omega
      have hstep := state_update s ((bytes.drop (16 * i)).take 16)
      generalize word (((bytes.drop (16 * i)).take 16).take 8) = k1 at h1 hstep
      generalize word (((bytes.drop (16 * i)).take 16).drop 8) = k2 at h2 hstep
      obtain ⟨s', hok, hstate, hbuf, hlen⟩ := ih hnext (s.update k1 k2)
      rw [update_buf] at hbuf
      rw [update_bufLen] at hlen
      refine ⟨s', ?_, ?_, hbuf, hlen⟩
      · simp only [updateBlocks, hlo, ← bind_assoc, h1, h2, ok_bind, hok]
      · rw [hstate, hstep, foldBlocks, List.drop_drop, Nat.mul_succ]

/-- What `write` does once the buffer is empty. -/
theorem absorb_eq {s : MurmurHash3X64128} (hbuf : s.buf.length = 16) (hzero : s.bufLen = 0)
    (bytes : List UInt8) : ∃ s', s.absorb bytes = .ok s' ∧
      Fed 16 absorbBlock s.state bytes s'.state s'.buf s'.bufLen := by
  have hblocks : (bytes.length >>> 4) <<< 4 = 16 * (bytes.length / 16) := by
    rw [Nat.shiftLeft_eq, Nat.shiftRight_eq_div_pow]
    ring
  have hdiv : bytes.length >>> 4 = bytes.length / 16 := Nat.shiftRight_eq_div_pow _ 4
  have hroom : 16 * (0 + bytes.length / 16) ≤ bytes.length := by omega
  obtain ⟨s₁, h₁, hstate, hbuf₁, hlen₁⟩ := updateBlocks_eq hroom s
  have hbody : s₁.state = body 16 absorbBlock bytes s.state := hstate
  have hrest := length_rest 16 bytes
  unfold absorb
  rw [hblocks, hdiv, h₁, ok_bind]
  split_ifs with hpos
  · have hslice := slice_ok (Nat.mul_div_le bytes.length 16) (le_refl bytes.length)
    have htake : (bytes.drop (16 * (bytes.length / 16))).take
        (bytes.length - 16 * (bytes.length / 16)) = rest 16 bytes := by
      rw [rest, List.take_of_length_le (List.length_drop).le]
    rw [htake] at hslice
    have hmod := Nat.mod_lt bytes.length (show 16 > 0 by decide)
    have hhi : bytes.length % 16 ≤ s₁.buf.length := by rw [hbuf₁, hbuf]; exact hmod.le
    have hcopy := copyFromSlice_eq (Nat.zero_le _) hhi (hrest.trans (Nat.sub_zero _).symm)
    rw [hslice, ok_bind, hcopy, ok_bind]
    refine ⟨_, rfl, ?_⟩
    have hfull := length_copied (Nat.zero_le _) hhi (hrest.trans (Nat.sub_zero _).symm)
    have hcopied := take_copied (rest 16 bytes) (Nat.zero_le s₁.buf.length)
      (bytes.length % 16)
    rw [Nat.zero_add, List.take_zero, List.nil_append] at hcopied
    rw [← hrest] at hcopied hfull ⊢
    exact ⟨hbody, hfull.trans (hbuf₁ ▸ hbuf), rfl, hcopied⟩
  · have hnil : rest 16 bytes = [] := List.eq_nil_of_length_eq_zero (hrest.trans (by omega))
    refine ⟨s₁, rfl, hbody, hbuf₁ ▸ hbuf, ?_, ?_⟩
    · rw [hnil, hlen₁, hzero, List.length_nil]
    · rw [hnil, hlen₁, hzero, List.take_zero]

/-- A write continues the stream. -/
theorem Streamed.write {seed : UInt64} {s : MurmurHash3X64128} {data : List UInt8}
    (h : Streamed seed s data) (bytes : List UInt8) :
    ∃ s', s.write bytes = .ok s' ∧ Streamed seed s' (data ++ bytes) := by
  have hb : 0 < 16 := Nat.zero_lt_succ 15
  have hlt := h.len_lt hb
  have hlen := h.length_buf
  unfold MurmurHash3X64128.write
  by_cases hshort : s.bufLen + bytes.length < 16
  · have hhi : s.bufLen + bytes.length ≤ s.buf.length := hlen ▸ hshort.le
    have hsrc : bytes.length = s.bufLen + bytes.length - s.bufLen :=
      (Nat.add_sub_cancel_left s.bufLen bytes.length).symm
    have hcopy := copyFromSlice_eq (Nat.le_add_right s.bufLen bytes.length) hhi hsrc
    simp only [if_pos hshort, hcopy, ok_bind]
    refine ⟨_, rfl, h.short hb hshort ?_ ?_⟩
    · exact (length_copied (Nat.le_add_right _ _) hhi hsrc).trans hlen
    · exact take_copied _ ((Nat.le_add_right _ _).trans hhi) _
  simp only [if_neg hshort]
  have hle : 16 ≤ s.bufLen + bytes.length := not_lt.mp hshort
  by_cases hne : s.bufLen ≠ 0
  · have hfst : slice bytes 0 (16 - s.bufLen) = .ok (bytes.take (16 - s.bufLen)) :=
      slice_ok (Nat.zero_le _) (by omega)
    have hsnd : slice bytes (16 - s.bufLen) bytes.length = .ok (bytes.drop (16 - s.bufLen)) := by
      rw [slice_ok (by omega) (le_refl _), List.take_of_length_le (List.length_drop).le]
    have hsrc : (bytes.take (16 - s.bufLen)).length = 16 - s.bufLen := by
      rw [List.length_take]
      omega
    have hcopy := copyFromSlice_eq hlt.le hlen.ge hsrc
    rw [List.drop_of_length_le hlen.le, List.append_nil] at hcopy
    have hblock := h.length_block hb hle
    have hk1 : (slice (s.buf.take s.bufLen ++ bytes.take (16 - s.bufLen)) 0 8 >>= readU64Le) = _ :=
      readU64Le_slice_eq (by decide) (by omega) (by decide)
    have hk2 : (slice (s.buf.take s.bufLen ++ bytes.take (16 - s.bufLen)) 8 16 >>= readU64Le) = _ :=
      readU64Le_slice_eq (by decide) (by omega) (by decide)
    obtain ⟨block, hdef⟩ : ∃ block, block = s.buf.take s.bufLen ++ bytes.take (16 - s.bufLen) :=
      ⟨_, rfl⟩
    rw [← hdef] at hcopy hblock hk1 hk2
    rw [List.take_of_length_le (by rw [List.length_drop]; omega)] at hk2
    have hstep : (update { s with buf := block } (word (block.take 8)) (word (block.drop 8))).state =
        absorbBlock s.state block := rfl
    have hbuf := update_buf { s with buf := block } (word (block.take 8)) (word (block.drop 8))
    rw [List.drop_zero] at hk1
    obtain ⟨lo, hlo, hk1⟩ := bind_eq_ok.mp hk1
    obtain ⟨hi, hhi, hk2⟩ := bind_eq_ok.mp hk2
    change readU64Le lo = .ok (word (block.take 8)) at hk1
    generalize word (block.take 8) = k1 at hk1 hstep hbuf
    generalize word (block.drop 8) = k2 at hk2 hstep hbuf
    obtain ⟨s', hok, hfed⟩ := @absorb_eq { update { s with buf := block } k1 k2 with bufLen := 0 }
      (hbuf ▸ hblock) rfl (bytes.drop (16 - s.bufLen))
    refine ⟨s', ?_, h.flush hb hle ?_⟩
    · rw [if_pos hne]
      simp only [hfst, ok_bind, hcopy, hsnd, hlo, hhi, hk1, hk2]
      exact hok
    · rw [← hdef, ← hstep]
      exact hfed
  · rw [not_not] at hne
    obtain ⟨s', hok, hfed⟩ := absorb_eq hlen hne bytes
    refine ⟨s', ?_, (show Fed _ _ _ _ _ s.buf 0 from hne ▸ h).pass hb hfed⟩
    rw [if_neg (not_not.mpr hne)]
    exact hok

theorem foldBlocks_absorbBlock (n : ℕ) (xs : List UInt8) (st : (UInt64 × UInt64) × UInt64) :
    foldBlocks 16 absorbBlock n xs st =
      (foldBlocks 16 Murmur.mixBlock n xs st.1, st.2 + UInt64.ofNat (16 * n)) := by
  induction n generalizing xs st with
  | zero => exact Prod.ext rfl (UInt64.add_zero st.2).symm
  | succ n ih =>
      have hsum : st.2 + 16 + UInt64.ofNat (16 * n) = st.2 + UInt64.ofNat (16 * (n + 1)) := by
        rw [Nat.mul_succ, Nat.add_comm (16 * n), UInt64.ofNat_add, UInt64.add_assoc]
        rfl
      rw [foldBlocks, ih, foldBlocks]
      exact Prod.ext rfl hsum

theorem Streamed.hash_eq {seed : UInt64} {s : MurmurHash3X64128} {data : List UInt8}
    (h : Streamed seed s data) : (s.h1, s.h2) = body 16 Murmur.mixBlock data (seed, seed) :=
  congrArg Prod.fst (h.state_eq.trans (foldBlocks_absorbBlock _ _ _))

theorem Streamed.total_eq {seed : UInt64} {s : MurmurHash3X64128} {data : List UInt8}
    (h : Streamed seed s data) : s.total = UInt64.ofNat (16 * (data.length / 16)) := by
  have htotal : s.total = 0 + UInt64.ofNat (16 * (data.length / 16)) :=
    congrArg Prod.snd (h.state_eq.trans (foldBlocks_absorbBlock _ _ _))
  rw [htotal, UInt64.zero_add]

/-- The length is split between the blocks and the buffer. -/
theorem Streamed.length_eq {seed : UInt64} {s : MurmurHash3X64128} {data : List UInt8}
    (h : Streamed seed s data) : s.total + UInt64.ofNat s.bufLen = UInt64.ofNat data.length := by
  rw [h.total_eq, h.len_eq, length_rest, ← UInt64.ofNat_add, Nat.div_add_mod]

/-- Finishing gives the hash of everything that was written. -/
theorem Streamed.finish128 {seed : UInt64} {s : MurmurHash3X64128} {data : List UInt8}
    (h : Streamed seed s data) : s.finish128 = .ok (Murmur.hash128 seed data) := by
  have hlt := h.len_lt (Nat.zero_lt_succ 15)
  have hlen := h.length_buf
  have htake : (rest 16 data).length = s.bufLen := h.len_eq.symm
  have hk1 : (slice s.buf 0 (min s.bufLen 8) >>= readU64Le) =
      .ok (word ((rest 16 data).take 8)) := by
    rw [readU64Le_slice_eq (Nat.zero_le _) (by omega) (by omega), List.drop_zero, Nat.sub_zero,
      ← h.take_eq, List.take_take, Nat.min_comm]
  have hk2 : 8 < s.bufLen → (slice s.buf 8 s.bufLen >>= readU64Le) =
      .ok (word ((rest 16 data).drop 8)) := by
    intro hlong
    rw [readU64Le_slice_eq hlong.le (by omega) (by omega), ← List.drop_take, h.take_eq]
  unfold MurmurHash3X64128.finish128 Murmur.hash128
  rw [← h.hash_eq, ← h.length_eq, Murmur.mixTail, htake]
  by_cases hpos : s.bufLen > 0
  swap
  · simp only [if_neg hpos, if_neg (show ¬ 8 < s.bufLen by omega)]
    rfl
  simp only [if_pos hpos]
  by_cases hlong : s.bufLen > 8
  · simp only [if_pos hlong, ← bind_assoc, hk1, hk2 hlong, ok_bind]
    rfl
  · simp only [if_neg hlong, ← bind_assoc, hk1, ok_bind]
    rfl

/-- A call on the hasher; finishing leaves it as it is. -/
def call (s : MurmurHash3X64128) : HasherCall → Checked MurmurHash3X64128
  | .write bytes => s.write bytes
  | .finish => do
      let _ ← s.finish128
      return s

/-- Any sequence of calls feeds the hasher. -/
theorem streamed_run (seed : UInt64) (calls : List HasherCall) :
    ∃ s, run call (withSeed seed) calls = .ok s ∧ Streamed seed s (calls.flatMap HasherCall.bytes) := by
  refine run_total (I := fun calls s ↦ Streamed seed s (calls.flatMap HasherCall.bytes)) ?_ ?_ calls
  · exact Fed.nil (Nat.zero_lt_succ 15) List.length_replicate
  · intro xs x s h
    rw [List.flatMap_append, List.flatMap_singleton]
    cases x with
    | write bytes => exact h.write bytes
    | finish => exact ⟨s, by rw [call, h.finish128]; rfl, by rw [HasherCall.bytes, List.append_nil]; exact h⟩

end MurmurHash3X64128

/-! ## XXH64 -/

namespace XxHash64

/-- What the stripes go into. -/
def lanes (s : XxHash64) : XxHash.Lanes := ⟨s.v1, s.v2, s.v3, s.v4⟩

/-- The hasher was fed `data`. -/
structure Streamed (seed : UInt64) (s : XxHash64) (data : List UInt8) : Prop where
  fed : Fed 32 XxHash.mixStripe (XxHash.lanes seed) data s.lanes s.buffer s.bufferLen
  seed_eq : s.seed = seed
  totalLen_eq : s.totalLen = UInt64.ofNat data.length

theorem update_eq (s : XxHash64) {stripe : List UInt8} (h : stripe.length = 32) :
    ∃ s', s.update stripe = .ok s' ∧ s'.lanes = XxHash.mixStripe s.lanes stripe ∧
      s'.buffer = s.buffer ∧ s'.bufferLen = s.bufferLen ∧ s'.seed = s.seed ∧
      s'.totalLen = s.totalLen := by
  have h₁ := readU64Le_slice_eq (show 0 ≤ 8 by decide) (show 8 ≤ stripe.length by omega) (by decide)
  have h₂ := readU64Le_slice_eq (show 8 ≤ 16 by decide) (show 16 ≤ stripe.length by omega) (by decide)
  have h₃ := readU64Le_slice_eq (show 16 ≤ 24 by decide) (show 24 ≤ stripe.length by omega)
    (by decide)
  have h₄ := readU64Le_slice_eq (show 24 ≤ 32 by decide) (show 32 ≤ stripe.length by omega)
    (by decide)
  refine ⟨{ s with
    v1 := XxHash.round s.v1 (word (stripe.take 8))
    v2 := XxHash.round s.v2 (word ((stripe.drop 8).take 8))
    v3 := XxHash.round s.v3 (word ((stripe.drop 16).take 8))
    v4 := XxHash.round s.v4 (word ((stripe.drop 24).take 8)) }, ?_, rfl, rfl, rfl, rfl, rfl⟩
  simp only [update, ← bind_assoc, h₁, h₂, h₃, h₄, ok_bind]
  rfl

theorem updateChunks_eq {n : ℕ} {bytes : List UInt8} (h : 32 * n ≤ bytes.length) (s : XxHash64) :
    ∃ s', updateChunks n bytes s = .ok s' ∧
      s'.lanes = foldBlocks 32 XxHash.mixStripe n bytes s.lanes ∧ s'.buffer = s.buffer ∧
      s'.bufferLen = s.bufferLen ∧ s'.seed = s.seed ∧ s'.totalLen = s.totalLen := by
  induction n generalizing bytes s with
  | zero => exact ⟨s, rfl, rfl, rfl, rfl, rfl, rfl⟩
  | succ n ih =>
      have htake : (bytes.take 32).length = 32 := by
        rw [List.length_take]
        omega
      obtain ⟨s₁, h₁, hlanes, hbuf, hlen, hseed, htotal⟩ := s.update_eq htake
      have hdrop : 32 * n ≤ (bytes.drop 32).length := by
        rw [List.length_drop]
        omega
      obtain ⟨s₂, h₂, hlanes', hbuf', hlen', hseed', htotal'⟩ := ih hdrop s₁
      refine ⟨s₂, ?_, ?_, hbuf'.trans hbuf, hlen'.trans hlen, hseed'.trans hseed,
        htotal'.trans htotal⟩
      · rw [updateChunks, h₁, ok_bind, h₂]
      · rw [hlanes', hlanes, foldBlocks]

/-- What `write` does once the buffer is empty. -/
def absorb (s : XxHash64) (bytes : List UInt8) : Checked XxHash64 := do
  let s ← updateChunks (bytes.length / 32) bytes s
  let remainder := bytes.drop (32 * (bytes.length / 32))
  if remainder ≠ [] then
    let buffer ← copyFromSlice s.buffer 0 remainder.length remainder
    return { s with buffer := buffer, bufferLen := remainder.length }
  else return s

theorem absorb_eq {s : XxHash64} (hbuf : s.buffer.length = 32) (hzero : s.bufferLen = 0)
    (bytes : List UInt8) : ∃ s', s.absorb bytes = .ok s' ∧
      Fed 32 XxHash.mixStripe s.lanes bytes s'.lanes s'.buffer s'.bufferLen ∧
      s'.seed = s.seed ∧ s'.totalLen = s.totalLen := by
  obtain ⟨s₁, h₁, hlanes, hbuf₁, hlen₁, hseed, htotal⟩ :=
    updateChunks_eq (Nat.mul_div_le bytes.length 32) s
  have hbody : s₁.lanes = body 32 XxHash.mixStripe bytes s.lanes := hlanes
  have hlt := length_rest_lt (show 0 < 32 by decide) bytes
  rw [← hbuf₁] at hbuf
  unfold absorb
  rw [h₁, ok_bind]
  change ∃ s', (if rest 32 bytes ≠ [] then _ else _ : Checked XxHash64) = .ok s' ∧ _
  split_ifs with hne
  · have hhi : (rest 32 bytes).length ≤ s₁.buffer.length := hbuf ▸ hlt.le
    have hcopy := copyFromSlice_eq (Nat.zero_le _) hhi (Nat.sub_zero (rest 32 bytes).length).symm
    have hfull := length_copied (Nat.zero_le _) hhi (Nat.sub_zero (rest 32 bytes).length).symm
    have hcopied := take_copied (rest 32 bytes) (Nat.zero_le s₁.buffer.length)
      (rest 32 bytes).length
    rw [Nat.zero_add, List.take_zero, List.nil_append] at hcopied
    unfold rest at hcopy
    rw [hcopy]
    refine ⟨_, rfl, ⟨hbody, ?_, rfl, ?_⟩, hseed, htotal⟩
    · exact hfull.trans hbuf
    · exact hcopied
  · rw [not_not] at hne
    refine ⟨s₁, rfl, ⟨hbody, hbuf, ?_, ?_⟩, hseed, htotal⟩
    · rw [hne, hlen₁, hzero, List.length_nil]
    · rw [hne, hlen₁, hzero, List.take_zero]

/-- A write continues the stream. -/
theorem Streamed.write {seed : UInt64} {s : XxHash64} {data : List UInt8}
    (h : Streamed seed s data) (bytes : List UInt8) :
    ∃ s', s.write bytes = .ok s' ∧ Streamed seed s' (data ++ bytes) := by
  have hb : 0 < 32 := Nat.zero_lt_succ 31
  have hlt := h.fed.len_lt hb
  have hlen := h.fed.length_buf
  have htotal : s.totalLen + UInt64.ofNat bytes.length = UInt64.ofNat (data ++ bytes).length := by
    rw [h.totalLen_eq, ← UInt64.ofNat_add, List.length_append]
  unfold XxHash64.write
  by_cases hshort : s.bufferLen + bytes.length < 32
  · have hhi : s.bufferLen + bytes.length ≤ s.buffer.length := hlen ▸ hshort.le
    have hsrc : bytes.length = s.bufferLen + bytes.length - s.bufferLen :=
      (Nat.add_sub_cancel_left s.bufferLen bytes.length).symm
    have hcopy := copyFromSlice_eq (Nat.le_add_right s.bufferLen bytes.length) hhi hsrc
    simp only [if_pos hshort, hcopy, ok_bind]
    refine ⟨_, rfl, h.fed.short hb hshort ?_ ?_, h.seed_eq, htotal⟩
    · exact (length_copied (Nat.le_add_right _ _) hhi hsrc).trans hlen
    · exact take_copied _ ((Nat.le_add_right _ _).trans hhi) _
  simp only [if_neg hshort]
  have hle : 32 ≤ s.bufferLen + bytes.length := not_lt.mp hshort
  unfold flush
  by_cases hne : s.bufferLen ≠ 0
  · have hfst : slice bytes 0 (32 - s.bufferLen) = .ok (bytes.take (32 - s.bufferLen)) :=
      slice_ok (Nat.zero_le _) (by omega)
    have hsnd : slice bytes (32 - s.bufferLen) bytes.length =
        .ok (bytes.drop (32 - s.bufferLen)) := by
      rw [slice_ok (by omega) (le_refl _), List.take_of_length_le (List.length_drop).le]
    have hsrc : (bytes.take (32 - s.bufferLen)).length = 32 - s.bufferLen := by
      rw [List.length_take]
      omega
    have hcopy := copyFromSlice_eq hlt.le hlen.ge hsrc
    rw [List.drop_of_length_le hlen.le, List.append_nil] at hcopy
    have hblock := h.fed.length_block hb hle
    obtain ⟨s₁, h₁, hlanes, hbuf₁, -, hseed₁, htotal₁⟩ := update_eq { s with
      totalLen := s.totalLen + UInt64.ofNat bytes.length
      buffer := s.buffer.take s.bufferLen ++ bytes.take (32 - s.bufferLen) } hblock
    obtain ⟨s₂, h₂, hfed, hseed₂, htotal₂⟩ := @absorb_eq { s₁ with bufferLen := 0 }
      ((congrArg List.length hbuf₁).trans hblock) rfl (bytes.drop (32 - s.bufferLen))
    refine ⟨s₂, ?_, h.fed.flush hb hle ?_, ?_, ?_⟩
    · simp only [if_pos hne, hfst, ok_bind, hcopy, h₁, hsnd]
      exact h₂
    · have hstate : ({ s₁ with bufferLen := 0 } : XxHash64).lanes =
        XxHash.mixStripe s.lanes (s.buffer.take s.bufferLen ++ bytes.take (32 - s.bufferLen)) := hlanes
      rw [← hstate]
      exact hfed
    · exact hseed₂.trans (hseed₁.trans h.seed_eq)
    · exact htotal₂.trans (htotal₁.trans htotal)
  · rw [not_not] at hne
    obtain ⟨s', hok, hfed, hseed, htotal'⟩ := @absorb_eq { s with
      totalLen := s.totalLen + UInt64.ofNat bytes.length } hlen hne bytes
    refine ⟨s', ?_, (show Fed _ _ _ _ _ s.buffer 0 from hne ▸ h.fed).pass hb hfed,
      hseed.trans h.seed_eq, htotal'.trans htotal⟩
    simp only [if_neg (not_not.mpr hne)]
    exact hok

theorem mixWords_eq {buf : List UInt8} {n idx : ℕ} (h : idx + 8 * n ≤ buf.length) (hash : UInt64) :
    mixWords buf n idx hash = .ok (foldBlocks 8 XxHash.mixWord n (buf.drop idx) hash) := by
  induction n generalizing idx hash with
  | zero => rfl
  | succ n ih =>
      have hk := readU64Le_slice_eq (Nat.le_add_right idx 8) (show idx + 8 ≤ buf.length by omega)
        (by omega)
      have hnext : (idx + 8) + 8 * n ≤ buf.length := by omega
      rw [Nat.add_sub_cancel_left] at hk
      rw [mixWords, ← bind_assoc, hk, ok_bind, ih hnext, foldBlocks, List.drop_drop]
      rfl

/-- The half word and the single bytes, from an index on. -/
theorem mixHalf_eq {buf : List UInt8} {idx : ℕ} (h : idx ≤ buf.length) (hash : UInt64) :
    ∃ hash' idx', mixHalf buf idx hash = .ok (hash', idx') ∧
      (buf.drop idx').foldl mixByte hash' = XxHash.mixRest hash (buf.drop idx) := by
  unfold mixHalf XxHash.mixRest
  rw [List.length_drop]
  by_cases hhalf : idx + 4 ≤ buf.length
  · have hk := readU64Le_slice_eq (Nat.le_add_right idx 4) hhalf (by omega)
    rw [Nat.add_sub_cancel_left] at hk
    rw [if_pos hhalf, if_pos (Nat.le_sub_of_add_le' hhalf), ← bind_assoc, hk, ok_bind]
    exact ⟨_, _, rfl, by rw [List.drop_drop]⟩
  · rw [if_neg hhalf, if_neg (by omega)]
    exact ⟨_, _, rfl, rfl⟩

/-- Finishing gives the hash of everything that was written. -/
theorem Streamed.finish64 {seed : UInt64} {s : XxHash64} {data : List UInt8}
    (h : Streamed seed s data) (hlen : data.length < 2 ^ 64) :
    s.finish64 = .ok (XxHash.hash64 seed data) := by
  have hslice := slice_ok (Nat.zero_le s.bufferLen)
    (h.fed.length_buf.ge.trans' (h.fed.len_lt (show 0 < 32 by decide)).le)
  rw [List.drop_zero, Nat.sub_zero, h.fed.take_eq] at hslice
  have hlong : UInt64.ofNat data.length ≥ 32 ↔ 32 ≤ data.length := by
    rw [ge_iff_le, UInt64.le_iff_toNat_le, UInt64.toNat_ofNat', Nat.mod_eq_of_lt hlen]
    exact Iff.rfl
  have hlanes : s.lanes = body 32 XxHash.mixStripe data (XxHash.lanes seed) := h.fed.state_eq
  obtain ⟨hash, hdef⟩ : ∃ hash, hash = (if 32 ≤ data.length then XxHash.converge s.lanes
    else seed + XxHash.p5) + UInt64.ofNat data.length := ⟨_, rfl⟩
  obtain ⟨hash', idx', hhalf, hrest⟩ := mixHalf_eq (Nat.mul_div_le (rest 32 data).length 8)
    (foldBlocks 8 XxHash.mixWord ((rest 32 data).length / 8) (rest 32 data) hash)
  have hwords := mixWords_eq
    (show 0 + 8 * ((rest 32 data).length / 8) ≤ (rest 32 data).length by omega) hash
  rw [List.drop_zero] at hwords
  simp only [XxHash64.finish64, hslice, ok_bind, h.seed_eq, h.totalLen_eq, hlong]
  rw [XxHash.hash64, ← hlanes, ← hdef]
  change (mixWords _ _ 0 ((if 32 ≤ data.length then XxHash.converge s.lanes
    else seed + XxHash.p5) + UInt64.ofNat data.length) >>= _) = _
  rw [← hdef, hwords, ok_bind, hhalf]
  exact congrArg (fun hash ↦ Except.ok (XxHash.finalize hash)) hrest

/-- A call on the hasher; finishing leaves it as it is. -/
def call (s : XxHash64) : HasherCall → Checked XxHash64
  | .write bytes => s.write bytes
  | .finish => do
      let _ ← s.finish64
      return s

/-- Any sequence of calls feeds the hasher. -/
theorem streamed_run (seed : UInt64) {calls : List HasherCall}
    (hlen : (calls.flatMap HasherCall.bytes).length < 2 ^ 64) :
    ∃ s, run call (withSeed seed) calls = .ok s ∧ Streamed seed s (calls.flatMap HasherCall.bytes) := by
  induction calls using List.reverseRecOn with
  | nil => exact ⟨withSeed seed, rfl, Fed.nil (Nat.zero_lt_succ 31) List.length_replicate, rfl, rfl⟩
  | append_singleton calls c ih =>
      rw [List.flatMap_append, List.flatMap_singleton] at hlen ⊢
      have hshort : (calls.flatMap HasherCall.bytes).length < 2 ^ 64 := by
        rw [List.length_append] at hlen
        exact (Nat.le_add_right _ _).trans_lt hlen
      obtain ⟨s, hs, h⟩ := ih hshort
      rw [run_concat, hs, ok_bind]
      cases c with
      | write bytes => exact h.write bytes
      | finish =>
          exact ⟨s, by rw [call, h.finish64 hshort]; rfl, by rw [HasherCall.bytes, List.append_nil]; exact h⟩

end XxHash64

end DataSketches
