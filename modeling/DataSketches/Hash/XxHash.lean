import DataSketches.Hash.Murmur

/-!
# XxHash64

The streaming XxHash64 of the crate, and how an item is hashed with it.  As with
`MurmurHash3X64128`, slices are taken with their bounds checked; none is ever out
of range.
-/

namespace DataSketches

open LittleEndian Runs

namespace XxHash

def p1 : UInt64 := 0x9E3779B185EBCA87
def p2 : UInt64 := 0xC2B2AE3D27D4EB4F
def p3 : UInt64 := 0x165667B19E3779F9
def p4 : UInt64 := 0x85EBCA77C2B2AE63
def p5 : UInt64 := 0x27D4EB2F165667C5

def round (acc input : UInt64) : UInt64 := rotateLeft (acc + input * p2) 31 * p1

def mergeRound (acc val : UInt64) : UInt64 := (acc ^^^ (rotateLeft (val * p2) 31 * p1)) * p1 + p4

def finalize (hash : UInt64) : UInt64 :=
  let hash := hash ^^^ (hash >>> 33)
  let hash := hash * p2
  let hash := hash ^^^ (hash >>> 29)
  let hash := hash * p3
  hash ^^^ (hash >>> 32)

end XxHash

open XxHash

structure XxHash64 where
  seed : UInt64
  totalLen : UInt64
  v1 : UInt64
  v2 : UInt64
  v3 : UInt64
  v4 : UInt64
  buffer : List UInt8
  bufferLen : ℕ
deriving DecidableEq, Repr

namespace XxHash64

def withSeed (seed : UInt64) : XxHash64 where
  seed := seed
  totalLen := 0
  v1 := seed + p1 + p2
  v2 := seed + p2
  v3 := seed
  v4 := seed - p1
  buffer := List.replicate 32 0
  bufferLen := 0

/-- The loop of `finish64` over whole words: `n` of them from `idx` on. -/
def mixWords (buf : List UInt8) : ℕ → ℕ → UInt64 → Checked UInt64
  | 0, _, hash => .ok hash
  | n + 1, idx, hash => do
      let k1 ← readU64Le (← slice buf idx (idx + 8))
      let hash := hash ^^^ (rotateLeft (k1 * p2) 31 * p1)
      mixWords buf n (idx + 8) (rotateLeft hash 27 * p1 + p4)

/-- The half word after the whole words, if there is one, and where it ends. -/
def mixHalf (buf : List UInt8) (idx : ℕ) (hash : UInt64) : Checked (UInt64 × ℕ) :=
  if idx + 4 ≤ buf.length then do
    let k1 ← readU64Le (← slice buf idx (idx + 4))
    let hash := hash ^^^ (k1 * p1)
    return (rotateLeft hash 23 * p2 + p3, idx + 4)
  else return (hash, idx)

def mixByte (hash : UInt64) (b : UInt8) : UInt64 :=
  rotateLeft (hash ^^^ (b.toUInt64 * p5)) 11 * p1

def finish64 (s : XxHash64) : Checked UInt64 := do
  let hash :=
    if s.totalLen ≥ 32 then
      let acc := rotateLeft s.v1 1 + rotateLeft s.v2 7 + rotateLeft s.v3 12 + rotateLeft s.v4 18
      let acc := mergeRound acc s.v1
      let acc := mergeRound acc s.v2
      let acc := mergeRound acc s.v3
      mergeRound acc s.v4
    else s.seed + p5
  let hash := hash + s.totalLen
  let buf ← slice s.buffer 0 s.bufferLen
  let hash ← mixWords buf (buf.length / 8) 0 hash
  let (hash, idx) ← mixHalf buf (8 * (buf.length / 8)) hash
  return finalize ((buf.drop idx).foldl mixByte hash)

def update (s : XxHash64) (chunk : List UInt8) : Checked XxHash64 := do
  let v1 := round s.v1 (← readU64Le (← slice chunk 0 8))
  let v2 := round s.v2 (← readU64Le (← slice chunk 8 16))
  let v3 := round s.v3 (← readU64Le (← slice chunk 16 24))
  let v4 := round s.v4 (← readU64Le (← slice chunk 24 32))
  return { s with v1 := v1, v2 := v2, v3 := v3, v4 := v4 }

/-- The body: hash `n` full chunks. -/
def updateChunks : ℕ → List UInt8 → XxHash64 → Checked XxHash64
  | 0, _, s => .ok s
  | n + 1, bytes, s => do updateChunks n (bytes.drop 32) (← s.update (bytes.take 32))

/-- Completes and hashes a buffer that holds something. -/
def flush (s : XxHash64) (bytes : List UInt8) : Checked (XxHash64 × List UInt8) :=
  if s.bufferLen ≠ 0 then do
    let needed := 32 - s.bufferLen
    let buffer ← copyFromSlice s.buffer s.bufferLen 32 (← slice bytes 0 needed)
    let s ← update { s with buffer := buffer } buffer
    return ({ s with bufferLen := 0 }, ← slice bytes needed bytes.length)
  else return (s, bytes)

def write (s : XxHash64) (bytes : List UInt8) : Checked XxHash64 := do
  let s := { s with totalLen := s.totalLen + UInt64.ofNat bytes.length }
  if s.bufferLen + bytes.length < 32 then
    let buffer ← copyFromSlice s.buffer s.bufferLen (s.bufferLen + bytes.length) bytes
    return { s with buffer := buffer, bufferLen := s.bufferLen + bytes.length }
  else
    let (s, bytes) ← s.flush bytes
    let s ← updateChunks (bytes.length / 32) bytes s
    let remainder := bytes.drop (32 * (bytes.length / 32))
    if remainder ≠ [] then
      let buffer ← copyFromSlice s.buffer 0 remainder.length remainder
      return { s with buffer := buffer, bufferLen := remainder.length }
    else return s

/-- `item.hash(&mut hasher)` -/
def hash {T : Type} [Hash T] (s : XxHash64) (item : T) : Checked XxHash64 :=
  (Hash.writes item).foldlM write s

/-! ## No slice is out of range -/

/-- The buffer has its full size and is never full. -/
structure Buffered (s : XxHash64) : Prop where
  length_buffer : s.buffer.length = 32
  bufferLen_lt : s.bufferLen < 32

theorem buffered_withSeed (seed : UInt64) : (withSeed seed).Buffered :=
  ⟨List.length_replicate, Nat.zero_lt_succ 31⟩

theorem update_total (s : XxHash64) {chunk : List UInt8} (h : chunk.length = 32) :
    ∃ s', s.update chunk = .ok s' ∧ s'.buffer = s.buffer ∧ s'.bufferLen = s.bufferLen := by
  obtain ⟨x₁, h₁⟩ := readU64Le_slice (show 0 ≤ 8 by decide) (show 8 ≤ chunk.length by omega)
    (by decide)
  obtain ⟨x₂, h₂⟩ := readU64Le_slice (show 8 ≤ 16 by decide) (show 16 ≤ chunk.length by omega)
    (by decide)
  obtain ⟨x₃, h₃⟩ := readU64Le_slice (show 16 ≤ 24 by decide) (show 24 ≤ chunk.length by omega)
    (by decide)
  obtain ⟨x₄, h₄⟩ := readU64Le_slice (show 24 ≤ 32 by decide) (show 32 ≤ chunk.length by omega)
    (by decide)
  refine ⟨{ s with
    v1 := round s.v1 x₁, v2 := round s.v2 x₂, v3 := round s.v3 x₃, v4 := round s.v4 x₄ }, ?_, rfl, rfl⟩
  simp only [update, ← bind_assoc, h₁, h₂, h₃, h₄, ok_bind]
  rfl

theorem updateChunks_total {n : ℕ} {bytes : List UInt8} (h : 32 * n ≤ bytes.length)
    (s : XxHash64) :
    ∃ s', updateChunks n bytes s = .ok s' ∧ s'.buffer = s.buffer ∧ s'.bufferLen = s.bufferLen := by
  induction n generalizing bytes s with
  | zero => exact ⟨s, rfl, rfl, rfl⟩
  | succ n ih =>
      have htake : (bytes.take 32).length = 32 := by
        rw [List.length_take]
        omega
      obtain ⟨s₁, h₁, hbuf, hlen⟩ := s.update_total htake
      have hdrop : 32 * n ≤ (bytes.drop 32).length := by
        rw [List.length_drop]
        omega
      obtain ⟨s₂, h₂, hbuf', hlen'⟩ := ih hdrop s₁
      refine ⟨s₂, ?_, hbuf'.trans hbuf, hlen'.trans hlen⟩
      rw [updateChunks, h₁, ok_bind, h₂]

theorem flush_total {s : XxHash64} (h : s.Buffered) {bytes : List UInt8}
    (hroom : 32 ≤ s.bufferLen + bytes.length) :
    ∃ s' rest, s.flush bytes = .ok (s', rest) ∧ s'.buffer.length = 32 ∧ s'.bufferLen = 0 := by
  unfold flush
  split_ifs with hzero
  · obtain ⟨buffer, hbuf, hlen⟩ := copyFromSlice_ok h.bufferLen_lt.le
      (h.length_buffer.ge.trans' le_rfl)
      (show ((bytes.drop 0).take (32 - s.bufferLen - 0)).length = 32 - s.bufferLen by
        rw [List.drop_zero, List.length_take]
        omega)
    obtain ⟨s', hup, hsame, -⟩ :=
      update_total { s with buffer := buffer } (hlen.trans h.length_buffer)
    refine ⟨{ s' with bufferLen := 0 }, (bytes.drop (32 - s.bufferLen)).take
      (bytes.length - (32 - s.bufferLen)), ?_, ?_, rfl⟩
    · have hfst : slice bytes 0 (32 - s.bufferLen) = _ := slice_ok (Nat.zero_le _) (by omega)
      have hsnd : slice bytes (32 - s.bufferLen) bytes.length = _ := slice_ok (by omega) le_rfl
      simp only [hfst, ok_bind, hbuf, hup, hsnd]
      rfl
    · exact (congrArg List.length hsame).trans (hlen.trans h.length_buffer)
  · exact ⟨s, bytes, rfl, h.length_buffer, not_not.mp hzero⟩

/-- Writing never fails. -/
theorem write_total {s : XxHash64} (h : s.Buffered) (bytes : List UInt8) :
    ∃ s', s.write bytes = .ok s' ∧ s'.Buffered := by
  unfold write
  by_cases hshort : s.bufferLen + bytes.length < 32
  · obtain ⟨buffer, hbuf, hlen⟩ := copyFromSlice_ok (Nat.le_add_right s.bufferLen bytes.length)
      (h.length_buffer.ge.trans' hshort.le) (Nat.add_sub_cancel_left s.bufferLen bytes.length).symm
    refine ⟨{ s with
      totalLen := s.totalLen + UInt64.ofNat bytes.length
      buffer := buffer, bufferLen := s.bufferLen + bytes.length }, ?_,
      hlen.trans h.length_buffer, hshort⟩
    simp only [if_pos hshort, hbuf, ok_bind]
    rfl
  · have h' : Buffered { s with totalLen := s.totalLen + UInt64.ofNat bytes.length } := ⟨h.1, h.2⟩
    obtain ⟨s₁, rest, h₁, hlen, hzero⟩ := flush_total h' (not_lt.mp hshort)
    obtain ⟨s₂, h₂, hbuf, hblen⟩ :=
      updateChunks_total (Nat.mul_div_le rest.length 32) s₁
    simp only [if_neg hshort, h₁, ok_bind, h₂]
    have hlen₂ : s₂.buffer.length = 32 := (congrArg List.length hbuf).trans hlen
    have hrem : (rest.drop (32 * (rest.length / 32))).length < 32 := by
      rw [List.length_drop]
      omega
    split_ifs with hne
    · obtain ⟨buffer, hcopy, hblen'⟩ := copyFromSlice_ok (Nat.zero_le _)
        (hlen₂.ge.trans' hrem.le) (Nat.sub_zero _).symm
      refine ⟨{ s₂ with
        buffer := buffer, bufferLen := (rest.drop (32 * (rest.length / 32))).length }, ?_,
        hblen'.trans hlen₂, hrem⟩
      rw [hcopy]
      rfl
    · exact ⟨s₂, rfl, hlen₂, by rw [hblen, hzero]; decide⟩

theorem mixWords_total {buf : List UInt8} {n idx : ℕ} (h : idx + 8 * n ≤ buf.length)
    (hash : UInt64) : ∃ x, mixWords buf n idx hash = .ok x := by
  induction n generalizing idx hash with
  | zero => exact ⟨hash, rfl⟩
  | succ n ih =>
      obtain ⟨k1, hk⟩ := readU64Le_slice (Nat.le_add_right idx 8)
        (show idx + 8 ≤ buf.length by omega) (by omega)
      have hnext : (idx + 8) + 8 * n ≤ buf.length := by omega
      obtain ⟨x, hx⟩ := ih hnext (rotateLeft (hash ^^^ (rotateLeft (k1 * p2) 31 * p1)) 27 * p1 + p4)
      refine ⟨x, ?_⟩
      rw [mixWords, ← bind_assoc, hk, ok_bind]
      exact hx

/-- Finishing never fails. -/
theorem finish64_total {s : XxHash64} (h : s.Buffered) : ∃ x, s.finish64 = .ok x := by
  have hslice := slice_ok (Nat.zero_le s.bufferLen) (h.length_buffer.ge.trans' h.bufferLen_lt.le)
  simp only [finish64, hslice, ok_bind]
  generalize ((s.buffer.drop 0).take (s.bufferLen - 0)) = buf
  generalize ((if s.totalLen ≥ 32 then _ else _ : UInt64) + s.totalLen) = hash
  obtain ⟨x, hx⟩ := mixWords_total (show 0 + 8 * (buf.length / 8) ≤ buf.length by omega) hash
  rw [hx, ok_bind]
  unfold mixHalf
  split_ifs with hhalf
  · obtain ⟨k1, hk⟩ := readU64Le_slice (Nat.le_add_right (8 * (buf.length / 8)) 4) hhalf (by omega)
    rw [← bind_assoc, hk]
    exact ⟨_, rfl⟩
  · exact ⟨_, rfl⟩

/-- Hashing an item never fails. -/
theorem hash_total {T : Type} [Hash T] {s : XxHash64} (h : s.Buffered) (item : T) :
    ∃ s', s.hash item = .ok s' ∧ s'.Buffered := by
  unfold hash
  generalize Hash.writes item = ws
  induction ws generalizing s with
  | nil => exact ⟨s, rfl, h⟩
  | cons w ws ih =>
      obtain ⟨s₁, h₁, hbuf⟩ := write_total h w
      obtain ⟨s₂, h₂, hbuf₂⟩ := ih hbuf
      exact ⟨s₂, by rw [List.foldlM_cons, h₁]; exact h₂, hbuf₂⟩

/-- The bytes `0` to `7`, written in two parts. -/
example : (do
    let s ← (withSeed 0).write [0, 1, 2]
    let s ← s.write [3, 4, 5, 6, 7]
    s.finish64) = ((withSeed 0).write [0, 1, 2, 3, 4, 5, 6, 7] >>= finish64) := by decide +kernel

end XxHash64

end DataSketches
