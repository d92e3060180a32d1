import DataSketches.Cpc.Compression

/-!
# The bit buffers of the CPC codec

Both buffers are described by the stream of bits, as a number: what a writer has
written so far, and what a reader has still to read.  The buffer of a writer has
fewer than 32 bits between two calls, and the shifts lose no bit.

## Main definitions

* `BitWriter.Wrote`: the stream that has been written, and its number of bits.
* `BitReader.Holds`: the stream that is left, and the number of bits that can be read.
-/

namespace DataSketches

namespace Cpc

open Runs BitFields LittleEndian SketchBytes

theorem pow_words (n : ℕ) : 256 ^ (4 * n) = 2 ^ (32 * n) := by
  rw [show 256 = 2 ^ 8 from rfl, ← pow_mul, ← Nat.mul_assoc]

theorem checkedShl_of_lt {bits value count width : ℕ} (hvalue : value < 2 ^ width)
    (hcount : count < bits) (hfits : width + count ≤ bits) :
    checkedShl bits value count = .ok (2 ^ count * value) := by
  have hlt : value <<< count < 2 ^ bits := by
    rw [Nat.shiftLeft_eq]
    refine ((Nat.mul_lt_mul_right (Nat.two_pow_pos count)).mpr hvalue).trans_le ?_
    rw [← pow_add]
    exact Nat.pow_le_pow_right Nat.two_pos hfits
  rw [checkedShl, if_pos ⟨hcount, hlt⟩, Nat.shiftLeft_eq, Nat.mul_comm]
  rfl

/-! ## Writing -/

namespace BitWriter

variable {output : List UInt8} {w : BitWriter} {stream bits value count : ℕ}

/-- The writer was given `bits` bits of `stream` after what the output held before. -/
structure Wrote (output : List UInt8) (w : BitWriter) (stream bits : ℕ) : Prop where
  output_eq : w.output = output ++ leBytes (4 * w.wordsWritten) stream
  buffer_eq : w.buffer = stream / 2 ^ (32 * w.wordsWritten)
  bits_eq : 32 * w.wordsWritten + w.bufferedBits = bits
  bufferedBits_lt : w.bufferedBits < 32
  stream_lt : stream < 2 ^ bits

theorem wrote_new (output : List UInt8) : Wrote output (new output) 0 0 :=
  ⟨(List.append_nil _).symm, (Nat.zero_div _).symm, rfl, Nat.succ_pos 31, Nat.one_pos⟩

/-- The word that leaves the buffer is the next one of the stream. -/
theorem writeU32Le_buffer (hbuffer : w.buffer = stream / 2 ^ (32 * w.wordsWritten)) :
    leBytes (4 * w.wordsWritten) stream ++ writeU32Le w.buffer =
      leBytes (4 * (w.wordsWritten + 1)) stream := by
  rw [Nat.mul_succ, leBytes_add, pow_words, hbuffer, writeU32Le]

theorem wrote_flushFullWord (houtput : w.output = output ++ leBytes (4 * w.wordsWritten) stream)
    (hbuffer : w.buffer = stream / 2 ^ (32 * w.wordsWritten))
    (hbits : 32 * w.wordsWritten + w.bufferedBits = bits) (hlt : w.bufferedBits < 64)
    (hstream : stream < 2 ^ bits) : Wrote output w.flushFullWord stream bits := by
  rw [flushFullWord]
  split_ifs with hfull
  · constructor
    · dsimp only
      rw [houtput, List.append_assoc, writeU32Le_buffer hbuffer]
    · dsimp only
      rw [hbuffer, Nat.shiftRight_eq_div_pow, Nat.div_div_eq_div_mul, ← pow_add, Nat.mul_succ]
    · dsimp only
      omega
    · dsimp only
      omega
    · exact hstream
  · exact ⟨houtput, hbuffer, hbits, not_le.mp hfull, hstream⟩

namespace Wrote

/-- The stream below the next bit. -/
theorem buffer_lt (h : Wrote output w stream bits) : w.buffer < 2 ^ w.bufferedBits := by
  rw [h.buffer_eq, Nat.div_lt_iff_lt_mul (Nat.two_pow_pos _), ← pow_add, Nat.add_comm, h.bits_eq]
  exact h.stream_lt

/-- `write` puts the value above what was written before. -/
theorem write (h : Wrote output w stream bits) (hvalue : value < 2 ^ count) (hcount : count ≤ 32) :
    ∃ w', w.write value count = .ok w' ∧
      Wrote output w' (stream + 2 ^ bits * value) (bits + count) := by
  have hlt := h.bufferedBits_lt
  have hsplit : 2 ^ bits * value = 2 ^ (32 * w.wordsWritten) * (2 ^ w.bufferedBits * value) := by
    rw [← Nat.mul_assoc, ← pow_add, h.bits_eq]
  refine ⟨_, ?_, wrote_flushFullWord (w := { w with
    buffer := w.buffer ||| 2 ^ w.bufferedBits * value, bufferedBits := w.bufferedBits + count })
    ?_ ?_ ?_ ?_ ?_⟩
  · rw [BitWriter.write, checkedShl_of_lt hvalue (by omega) (by omega), ok_bind,
      checkedAdd_of_lt (by omega), ok_bind]
    rfl
  · dsimp only
    rw [h.output_eq, hsplit, ← pow_words, leBytes_add_mul]
  · dsimp only
    rw [hsplit, Nat.add_mul_div_left _ _ (Nat.two_pow_pos _), ← h.buffer_eq, Nat.or_comm,
      ← Nat.two_pow_add_eq_or_of_lt h.buffer_lt, Nat.add_comm]
  · dsimp only
    rw [← Nat.add_assoc, h.bits_eq]
  · dsimp only
    omega
  · rw [pow_add]
    calc stream + 2 ^ bits * value
        < 2 ^ bits + 2 ^ bits * value := Nat.add_lt_add_right h.stream_lt _
      _ = 2 ^ bits * (value + 1) := by rw [Nat.mul_add, Nat.mul_one, Nat.add_comm]
      _ ≤ 2 ^ bits * 2 ^ count := Nat.mul_le_mul_left _ hvalue

/-- `pad` puts zeros above what was written before. -/
theorem pad (h : Wrote output w stream bits) (hcount : count ≤ 32) :
    ∃ w', w.pad count = .ok w' ∧ Wrote output w' stream (bits + count) := by
  have hlt := h.bufferedBits_lt
  refine ⟨_, ?_, wrote_flushFullWord (w := { w with bufferedBits := w.bufferedBits + count })
    h.output_eq h.buffer_eq ?_ ?_ ?_⟩
  · rw [BitWriter.pad, checkedAdd_of_lt (by omega), ok_bind]
    rfl
  · dsimp only
    rw [← Nat.add_assoc, h.bits_eq]
  · dsimp only
    omega
  · exact h.stream_lt.trans_le (Nat.pow_le_pow_right Nat.two_pos (Nat.le_add_right _ _))

theorem writeUnaryFrom {fuel remaining : ℕ} (h : Wrote output w stream bits)
    (hfuel : remaining < 16 * fuel) :
    ∃ w', BitWriter.writeUnaryFrom fuel remaining w = .ok w' ∧
      Wrote output w' (stream + 2 ^ bits * 2 ^ remaining) (bits + (remaining + 1)) := by
  induction fuel generalizing w bits remaining with
  | zero => exact absurd hfuel (Nat.not_lt_zero _)
  | succ fuel ih =>
      rw [BitWriter.writeUnaryFrom]
      split_ifs with hlong
      · obtain ⟨w₁, hok, h₁⟩ := h.pad (show 16 ≤ 32 by omega)
        obtain ⟨w', hok', h'⟩ := ih h₁ (show remaining - 16 < 16 * fuel by omega)
        rw [hok, ok_bind]
        refine ⟨w', hok', ?_⟩
        rwa [← pow_add, show bits + 16 + (remaining - 16) = bits + remaining by omega, pow_add,
          show bits + 16 + (remaining - 16 + 1) = bits + (remaining + 1) by omega] at h'
      · rw [Nat.one_shiftLeft]
        exact h.write (Nat.pow_lt_pow_right Nat.one_lt_two (Nat.lt_succ_self _)) (by omega)

/-- `write_unary` writes that many zeros and a one. -/
theorem writeUnary (h : Wrote output w stream bits) (value : ℕ) :
    ∃ w', w.writeUnary value = .ok w' ∧
      Wrote output w' (stream + 2 ^ bits * 2 ^ value) (bits + (value + 1)) :=
  h.writeUnaryFrom (by omega)

/-- The words that are written in the end hold the whole stream. -/
theorem finish (h : Wrote output w stream bits) :
    ∃ words, w.finish = .ok (output ++ leBytes (4 * words) stream, words) ∧ bits ≤ 32 * words := by
  have hbits := h.bits_eq
  have hlt := h.bufferedBits_lt
  rw [BitWriter.finish]
  split_ifs with hpos
  · refine ⟨w.wordsWritten + 1, ?_, by omega⟩
    rw [assert_pos hlt, ok_bind, h.output_eq, List.append_assoc, writeU32Le_buffer h.buffer_eq]
    rfl
  · refine ⟨w.wordsWritten, ?_, by omega⟩
    rw [h.output_eq]
    rfl

end Wrote

end BitWriter

/-! ## Reading -/

/-- The lowest one bit of a byte that begins with a unary code. -/
theorem trailingZeros_unary {y : ℕ} (hy : y < 8) (t : ℕ) :
    trailingZeros ((2 ^ y + 2 ^ (y + 1) * t) % 2 ^ 8) = y := by
  have hsplit : 2 ^ y + 2 ^ (y + 1) * t = 2 ^ y * (1 + 2 * t) := by ring
  have hfind : (List.range 64).find? (((2 ^ y + 2 ^ (y + 1) * t) % 2 ^ 8).testBit ·) = some y := by
    rw [List.find?_range_eq_some, hsplit]
    refine ⟨?_, List.mem_range.mpr (by omega), fun j hj ↦ ?_⟩
    · rw [Nat.testBit_mod_two_pow, Nat.testBit_two_pow_mul, Nat.sub_self, decide_eq_true hy,
        decide_eq_true (le_refl y), Bool.true_and, Bool.true_and, Nat.testBit_zero]
      exact decide_eq_true (by omega)
    · rw [Nat.testBit_mod_two_pow, Nat.testBit_two_pow_mul, decide_eq_false (not_le.mpr hj),
        Bool.false_and, Bool.and_false]
      rfl
  rw [trailingZeros, hfind]
  rfl

namespace BitReader

variable {r : BitReader} {stream bits count needed : ℕ}

/-- `stream` is left, and at least `bits` bits of it can be read. -/
structure Holds (r : BitReader) (stream bits : ℕ) : Prop where
  stream_eq : r.buffer + 2 ^ r.bufferedBits * leNat (r.bytes.drop r.nextByte) = stream
  buffer_lt : r.buffer < 2 ^ r.bufferedBits
  bufferedBits_le : r.bufferedBits ≤ 8 * r.nextByte
  words : ∃ words, r.nextByte + 4 * words ≤ r.bytes.length ∧ bits ≤ r.bufferedBits + 32 * words

theorem holds_new {bytes : List UInt8} {words : ℕ} (hwords : 4 * words ≤ bytes.length)
    (hbits : bits ≤ 32 * words) : Holds (new bytes) (leNat bytes) bits := by
  refine ⟨?_, Nat.one_pos, le_rfl, words, ?_, ?_⟩
  · rw [new, List.drop_zero, pow_zero, Nat.one_mul, Nat.zero_add]
  · rwa [new, Nat.zero_add]
  · rwa [new, Nat.zero_add]

namespace Holds

theorem mono (h : r.Holds stream bits) {bits' : ℕ} (hle : bits' ≤ bits) : r.Holds stream bits' := by
  obtain ⟨words, hwords, hbits⟩ := h.words
  exact ⟨h.stream_eq, h.buffer_lt, h.bufferedBits_le, words, hwords, hle.trans hbits⟩

/-- No more bits can be read than the bytes have. -/
theorem bits_le (h : r.Holds stream bits) : bits ≤ 8 * r.bytes.length := by
  obtain ⟨words, hwords, hbits⟩ := h.words
  have hle := h.bufferedBits_le
  omega

/-- `fill` takes one word if the buffer has too few bits. -/
theorem fill (h : r.Holds stream bits) (hneeded : needed ≤ bits) (hle : needed ≤ 32) :
    ∃ r', r.fill needed = .ok r' ∧ r'.Holds stream bits ∧ needed ≤ r'.bufferedBits ∧
      r'.bytes = r.bytes := by
  rcases Nat.lt_or_ge r.bufferedBits needed with hshort | hshort
  · obtain ⟨words, hwords, hbits⟩ := h.words
    have hpos : 1 ≤ words := by omega
    have hnext : r.nextByte + 4 ≤ r.bytes.length := by omega
    have hlength : ((r.bytes.drop r.nextByte).take 4).length = 4 := by
      rw [List.length_take, List.length_drop]
      omega
    have hword : leNat ((r.bytes.drop r.nextByte).take 4) < 2 ^ 32 := by
      have hlt := leNat_lt ((r.bytes.drop r.nextByte).take 4)
      rwa [hlength] at hlt
    refine ⟨{ r with
      buffer := r.buffer ||| 2 ^ r.bufferedBits * leNat ((r.bytes.drop r.nextByte).take 4)
      nextByte := r.nextByte + 4
      bufferedBits := r.bufferedBits + 32 }, ?_, ⟨?_, ?_, ?_, words - 1, ?_, ?_⟩, ?_, rfl⟩
    · rw [BitReader.fill, if_pos hshort, if_pos hnext]
      dsimp only
      rw [checkedShl_of_lt hword (by omega) (by omega), ok_mapError, ok_bind,
        checkedAdd_of_lt (by omega), ok_mapError, ok_bind]
      rfl
    · dsimp only
      rw [Nat.or_comm, ← Nat.two_pow_add_eq_or_of_lt h.buffer_lt, ← h.stream_eq]
      conv_rhs => rw [← List.take_append_drop 4 (r.bytes.drop r.nextByte), leNat_append, hlength,
        List.drop_drop]
      rw [pow_add]
      ring
    · dsimp only
      rw [Nat.or_comm, ← Nat.two_pow_add_eq_or_of_lt h.buffer_lt, pow_add]
      calc 2 ^ r.bufferedBits * leNat ((r.bytes.drop r.nextByte).take 4) + r.buffer
          < 2 ^ r.bufferedBits * leNat ((r.bytes.drop r.nextByte).take 4) + 2 ^ r.bufferedBits :=
            Nat.add_lt_add_left h.buffer_lt _
        _ = 2 ^ r.bufferedBits * (leNat ((r.bytes.drop r.nextByte).take 4) + 1) := by
            rw [Nat.mul_add, Nat.mul_one]
        _ ≤ 2 ^ r.bufferedBits * 2 ^ 32 := Nat.mul_le_mul_left _ hword
    · have hbuffered := h.bufferedBits_le
      dsimp only
      omega
    · dsimp only
      omega
    · dsimp only
      omega
    · dsimp only
      omega
  · refine ⟨r, ?_, h, hshort, rfl⟩
    rw [BitReader.fill, if_neg (not_lt.mpr hshort)]
    rfl

/-- `peek` returns the low bits of the stream. -/
theorem peek (h : r.Holds stream bits) (hcount : count ≤ bits) (hle : count ≤ 32) :
    ∃ r', r.peek count = .ok (stream % 2 ^ count, r') ∧ r'.Holds stream bits ∧
      count ≤ r'.bufferedBits ∧ r'.bytes = r.bytes := by
  obtain ⟨r', hok, h', hbuffered, hbytes⟩ := h.fill hcount hle
  refine ⟨r', ?_, h', hbuffered, hbytes⟩
  have hdvd : 2 ^ count ∣ 2 ^ r'.bufferedBits * leNat (r'.bytes.drop r'.nextByte) :=
    (pow_dvd_pow 2 hbuffered).mul_right _
  rw [BitReader.peek, hok, ok_bind, Nat.one_shiftLeft, Nat.and_two_pow_sub_one_eq_mod,
    ← h'.stream_eq, Nat.add_mod, Nat.mod_eq_zero_of_dvd hdvd, Nat.add_zero, Nat.mod_mod]
  rfl

/-- `consume` drops the low bits of the stream. -/
theorem consume (h : r.Holds stream bits) (hcount : count ≤ r.bufferedBits) :
    ∃ r', r.consume count = .ok r' ∧ r'.Holds (stream / 2 ^ count) (bits - count) ∧
      r'.bytes = r.bytes := by
  obtain ⟨words, hwords, hbits⟩ := h.words
  refine ⟨{ r with buffer := r.buffer >>> count, bufferedBits := r.bufferedBits - count }, ?_,
    ⟨?_, ?_, ?_, words, hwords, ?_⟩, rfl⟩
  · rw [BitReader.consume, assert_pos hcount, ok_mapError, ok_bind]
    rfl
  · dsimp only
    rw [← h.stream_eq, Nat.shiftRight_eq_div_pow]
    obtain ⟨d, hd⟩ := Nat.exists_eq_add_of_le hcount
    rw [hd, Nat.add_sub_cancel_left, pow_add, Nat.mul_assoc, Nat.add_mul_div_left _ _ (Nat.two_pow_pos _)]
  · dsimp only
    rw [Nat.shiftRight_eq_div_pow, Nat.div_lt_iff_lt_mul (Nat.two_pow_pos _), ← pow_add,
      Nat.sub_add_cancel hcount]
    exact h.buffer_lt
  · have hle := h.bufferedBits_le
    dsimp only
    omega
  · dsimp only
    omega

theorem read (h : r.Holds stream bits) (hcount : count ≤ bits) (hle : count ≤ 32) :
    ∃ r', r.read count = .ok (stream % 2 ^ count, r') ∧
      r'.Holds (stream / 2 ^ count) (bits - count) ∧ r'.bytes = r.bytes := by
  rw [BitReader.read]
  split_ifs with hzero
  · refine ⟨r, ?_, ?_, rfl⟩
    · rw [hzero, pow_zero, Nat.mod_one]
      rfl
    · rwa [hzero, pow_zero, Nat.div_one, Nat.sub_zero]
  · obtain ⟨r₁, hok₁, h₁, hbuffered, hbytes₁⟩ := h.peek hcount hle
    obtain ⟨r₂, hok₂, h₂, hbytes₂⟩ := h₁.consume hbuffered
    refine ⟨r₂, ?_, h₂, hbytes₂.trans hbytes₁⟩
    rw [hok₁, ok_bind]
    dsimp only
    rw [hok₂, ok_bind]
    rfl

theorem readUnaryFrom {fuel value y t : ℕ} (h : r.Holds (2 ^ y + 2 ^ (y + 1) * t) bits)
    (hbits : y + 8 ≤ bits) (hfuel : y < 8 * fuel) (hvalue : value + y < 2 ^ 64) :
    ∃ r', BitReader.readUnaryFrom fuel value r = .ok (value + y, r') ∧
      r'.Holds t (bits - (y + 1)) ∧ r'.bytes = r.bytes := by
  induction fuel generalizing r value y bits with
  | zero => exact absurd hfuel (Nat.not_lt_zero _)
  | succ fuel ih =>
      obtain ⟨r₁, hok₁, h₁, hbuffered, hbytes₁⟩ := h.peek (show 8 ≤ bits by omega) (by omega)
      rw [BitReader.readUnaryFrom, hok₁, ok_bind]
      dsimp only
      rcases Nat.lt_or_ge y 8 with hy | hy
      · obtain ⟨r₂, hok₂, h₂, hbytes₂⟩ := h₁.consume (show y + 1 ≤ r₁.bufferedBits by omega)
        rw [trailingZeros_unary hy, if_pos hy, hok₂, ok_bind, if_pos hvalue]
        refine ⟨r₂, rfl, ?_, hbytes₂.trans hbytes₁⟩
        rwa [Nat.add_mul_div_left _ _ (Nat.two_pow_pos _),
          Nat.div_eq_of_lt (Nat.pow_lt_pow_right Nat.one_lt_two (Nat.lt_succ_self y)),
          Nat.zero_add] at h₂
      · obtain ⟨z, rfl⟩ := Nat.exists_eq_add_of_le hy
        have hsplit : 2 ^ (8 + z) + 2 ^ (8 + z + 1) * t = 2 ^ 8 * (2 ^ z + 2 ^ (z + 1) * t) := by ring
        have hzeros : trailingZeros ((2 ^ (8 + z) + 2 ^ (8 + z + 1) * t) % 2 ^ 8) = 64 := by
          rw [hsplit, Nat.mul_mod_right]
          decide
        obtain ⟨r₂, hok₂, h₂, hbytes₂⟩ := h₁.consume hbuffered
        rw [hsplit, Nat.mul_div_cancel_left _ (Nat.two_pow_pos _)] at h₂
        obtain ⟨r₃, hok₃, h₃, hbytes₃⟩ := ih h₂ (by omega) (by omega)
          (show value + 8 + z < 2 ^ 64 by omega)
        rw [hzeros, if_neg (by omega), if_pos (by omega), hok₂, ok_bind, hok₃]
        refine ⟨r₃, by rw [Nat.add_assoc], ?_, (hbytes₃.trans hbytes₂).trans hbytes₁⟩
        rwa [show bits - 8 - (z + 1) = bits - (8 + z + 1) by omega] at h₃

/-- `read_unary` returns the number of zeros before the first one. -/
theorem readUnary {y t : ℕ} (h : r.Holds (2 ^ y + 2 ^ (y + 1) * t) bits) (hbits : y + 8 ≤ bits)
    (hy : y < 2 ^ 64) :
    ∃ r', r.readUnary = .ok (y, r') ∧ r'.Holds t (bits - (y + 1)) ∧ r'.bytes = r.bytes := by
  have hle := h.bits_le
  obtain ⟨r', hok, h', hbytes⟩ := @readUnaryFrom _ _ (r.bytes.length + 1) 0 _ _ h hbits
    (by omega) (by omega)
  exact ⟨r', by rw [BitReader.readUnary, hok, Nat.zero_add], h', hbytes⟩

end Holds

end BitReader

end Cpc

end DataSketches
