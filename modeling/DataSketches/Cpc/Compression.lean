import DataSketches.Common.Arithmetic
import DataSketches.Common.Codec
import DataSketches.Lib.BitFields
import DataSketches.Lib.Runs

/-!
# Compression of CPC pairs and windows

Pairs are written as the difference of their columns in a length-limited unary
code, and the difference of their rows in a Golomb code; the bytes of a window
are written in a Huffman code that is chosen by the number of coupons.  The bits
pass through a buffer of 64 bits, lowest bit first, and leave it in words of 32.

The code tables are a parameter, with what the test `decoding_tables` checks of
them.
-/

namespace DataSketches

open Runs BitFields LittleEndian SketchBytes

namespace Cpc

/-! ## Code tables -/

/-- An entry of an encoding table: the length in the high 4 bits, the code in the low 12 bits. -/
def codeWord (codeInfo : ℕ) : Field := ⟨codeInfo &&& 0xfff, codeInfo >>> 12⟩

/-- `validate_decoding_table`: an entry has a symbol in the low 8 bits and its length above. -/
def validateDecodingTable (decodingTable encodingTable : List ℕ) : Prop :=
  ∀ v < 4096, ∃ lookup, decodingTable[v]? = some lookup ∧
    ∃ codeInfo, encodingTable[lookup &&& 0xff]? = some codeInfo ∧
      lookup >>> 8 = (codeWord codeInfo).width ∧ Starts (codeWord codeInfo) v

/-- A prefix code of at most 12 bits, and the decoding table that inverts it. -/
structure PrefixCode (n : ℕ) where
  encodingTable : List ℕ
  decodingTable : List ℕ
  length_eq : encodingTable.length = n
  width_le : ∀ codeInfo ∈ encodingTable, (codeWord codeInfo).width ≤ 12
  fits : ∀ codeInfo ∈ encodingTable, (codeWord codeInfo).Fits
  prefixFree : PrefixFree fun s : Fin encodingTable.length ↦ codeWord (encodingTable.get s)
  validated : validateDecodingTable decodingTable encodingTable

/-- The tables of `compression_data`. -/
structure CompressionData where
  lengthLimitedUnary : PrefixCode 65
  highEntropyByte : List (PrefixCode 256)
  length_eq : highEntropyByte.length = 22

/-- `table[i]` -/
def entryAt {α : Type} (table : List α) (i : ℕ) : Checked α :=
  match table[i]? with
  | none => throw .outOfBounds
  | some entry => return entry

/-- `value << count` on an unsigned type.  Unlike the source it also fails when a bit is lost. -/
def checkedShl (bits value count : ℕ) : Checked ℕ :=
  if count < bits ∧ value <<< count < 2 ^ bits then return value <<< count else throw .overflow

/-! ## Parameters of the codes -/

def determinePseudoPhase (lgK numCoupons : ℕ) : Checked ℕ := do
  let k ← checkedShl 64 1 lgK
  if 1000 * numCoupons < 2375 * k then
    if 4 * numCoupons < 3 * k then return 16
    else if 10 * numCoupons < 11 * k then return 16 + 1
    else if 100 * numCoupons < 132 * k then return 16 + 2
    else if 3 * numCoupons < 5 * k then return 16 + 3
    else if 1000 * numCoupons < 1965 * k then return 16 + 4
    else if 1000 * numCoupons < 2275 * k then return 16 + 5
    -- steady-state table employed before its actual phase
    else return 6
  else
    assert (lgK ≥ 4) "assertion failed: lg_k >= 4"
    return (numCoupons >>> (lgK - 4)) &&& 15

/-- The loop of `floor_log2_of_long`, on a `u8` and a `u64`. -/
def floorLog2From (x : ℕ) : ℕ → ℕ → ℕ → Checked ℕ
  | 0, _, _ => throw .diverges
  | fuel + 1, p, y =>
      if y = x then return p
      else if y > x then checkedSub p 1
      else do floorLog2From x fuel (← checkedAdd 8 p 1) ((y <<< 1) % 2 ^ 64)

def floorLog2OfLong (x : ℕ) : Checked ℕ := do
  assert (x > 0) "assertion failed: x > 0"
  floorLog2From x 256 0 1

def golombChooseNumberOfBaseBits (k count : ℕ) : Checked ℕ := do
  assert (k > 0) "assertion failed: k > 0"
  assert (count > 0) "assertion failed: count > 0"
  let quotient := (← checkedSub k count) / count
  if quotient = 0 then return 0 else floorLog2OfLong quotient

/-! ## Encoding -/

structure BitWriter where
  output : List UInt8
  buffer : ℕ
  bufferedBits : ℕ
  wordsWritten : ℕ

namespace BitWriter

def new (output : List UInt8) : BitWriter := ⟨output, 0, 0, 0⟩

/-- Writing the low word keeps the low 32 bits of the buffer. -/
def flushFullWord (w : BitWriter) : BitWriter :=
  if w.bufferedBits ≥ 32 then
    { output := w.output ++ writeU32Le w.buffer
      buffer := w.buffer >>> 32
      bufferedBits := w.bufferedBits - 32
      wordsWritten := w.wordsWritten + 1 }
  else w

def write (w : BitWriter) (value count : ℕ) : Checked BitWriter := do
  let shifted ← checkedShl 64 value w.bufferedBits
  let bufferedBits ← checkedAdd 8 w.bufferedBits count
  return flushFullWord { w with buffer := w.buffer ||| shifted, bufferedBits := bufferedBits }

def pad (w : BitWriter) (count : ℕ) : Checked BitWriter := do
  let bufferedBits ← checkedAdd 8 w.bufferedBits count
  return flushFullWord { w with bufferedBits := bufferedBits }

/-- The loop of `write_unary`, which ends with the last bits of the code. -/
def writeUnaryFrom : ℕ → ℕ → BitWriter → Checked BitWriter
  | 0, _, _ => throw .diverges
  | fuel + 1, remaining, w =>
      if remaining ≥ 16 then w.pad 16 >>= writeUnaryFrom fuel (remaining - 16)
      else w.write (1 <<< remaining) (remaining + 1)

/-- The loop goes round once for every 16 zeros. -/
def writeUnary (w : BitWriter) (value : ℕ) : Checked BitWriter :=
  writeUnaryFrom (value / 16 + 1) value w

def finish (w : BitWriter) : Checked (List UInt8 × ℕ) := do
  if w.bufferedBits > 0 then
    assert (w.bufferedBits < 32) "assertion failed: self.buffered_bits < 32"
    return (w.output ++ writeU32Le w.buffer, w.wordsWritten + 1)
  else return (w.output, w.wordsWritten)

end BitWriter

/-- The variables of the loop of `encode_pairs`. -/
structure PairEncoder where
  bits : BitWriter
  predictedRowIndex : ℕ
  predictedColIndex : ℕ

namespace PairEncoder

/-- The body of the loop of `encode_pairs`. -/
def encode (T : CompressionData) (numBaseBits : ℕ) (s : PairEncoder) (rowCol : ℕ) :
    Checked PairEncoder := do
  let rowIndex := rowCol >>> 6
  let colIndex := rowCol &&& 63
  let predictedColIndex := if rowIndex ≠ s.predictedRowIndex then 0 else s.predictedColIndex
  assert (rowIndex ≥ s.predictedRowIndex) "assertion failed: row_index >= predicted_row_index"
  assert (colIndex ≥ predictedColIndex) "assertion failed: col_index >= predicted_col_index"
  let yDelta := rowIndex - s.predictedRowIndex
  let xDelta := colIndex - predictedColIndex
  let golombLoMask := 1 <<< numBaseBits - 1
  let codeInfo ← entryAt T.lengthLimitedUnary.encodingTable xDelta
  let bits ← s.bits.write (codeWord codeInfo).value (codeWord codeInfo).width
  let bits ← bits.writeUnary (yDelta >>> numBaseBits)
  let bits ← bits.write (yDelta &&& golombLoMask) numBaseBits
  return ⟨bits, rowIndex, colIndex + 1⟩

end PairEncoder

/-- The number of base bits is chosen from `u32` numbers. -/
def numBaseBitsFor (numPairs lgK : ℕ) : Checked ℕ := do
  golombChooseNumberOfBaseBits (← checkedAdd 32 (← checkedShl 32 1 lgK) numPairs) numPairs

/-- The output with the words appended, and their number. -/
def encodePairs (T : CompressionData) (pairs : List ℕ) (lgK : ℕ) (output : List UInt8) :
    Checked (List UInt8 × ℕ) := do
  let numBaseBits ← numBaseBitsFor (pairs.length % 2 ^ 32) lgK
  let s ← run (PairEncoder.encode T numBaseBits) ⟨.new output, 0, 0⟩ pairs
  let bits ← s.bits.pad (10 - numBaseBits)
  bits.finish

/-- The body of the loop of `encode_window`. -/
def encodeByte (code : PrefixCode 256) (bits : BitWriter) (byte : UInt8) : Checked BitWriter := do
  let codeInfo ← entryAt code.encodingTable byte.toNat
  bits.write (codeWord codeInfo).value (codeWord codeInfo).width

/-- The output with the words appended, and their number. -/
def encodeWindow (T : CompressionData) (window : List UInt8) (lgK numCoupons : ℕ)
    (output : List UInt8) : Checked (List UInt8 × ℕ) := do
  let pseudoPhase ← determinePseudoPhase lgK numCoupons
  let code ← entryAt T.highEntropyByte pseudoPhase
  let bits ← run (encodeByte code) (.new output) window
  let bits ← bits.pad 11
  bits.finish

/-! ## Decoding -/

structure BitReader where
  bytes : List UInt8
  nextByte : ℕ
  buffer : ℕ
  bufferedBits : ℕ

/-- The position of the lowest one bit of a `u64`. -/
def trailingZeros (x : ℕ) : ℕ := ((List.range 64).find? (x.testBit ·)).getD 64

namespace BitReader

def new (bytes : List UInt8) : BitReader := ⟨bytes, 0, 0, 0⟩

def fill (r : BitReader) (needed : ℕ) : Except Fault BitReader := do
  if r.bufferedBits < needed then
    if r.nextByte + 4 ≤ r.bytes.length then
      let word := leNat ((r.bytes.drop r.nextByte).take 4)
      let shifted ← (checkedShl 64 word r.bufferedBits).mapError .panic
      let bufferedBits ← (checkedAdd 8 r.bufferedBits 32).mapError .panic
      return { r with
        buffer := r.buffer ||| shifted, nextByte := r.nextByte + 4, bufferedBits := bufferedBits }
    else throw (.error (.deserial "CPC compressed stream is truncated"))
  else return r

def peek (r : BitReader) (count : ℕ) : Except Fault (ℕ × BitReader) := do
  let r ← r.fill count
  return (r.buffer &&& (1 <<< count - 1), r)

def consume (r : BitReader) (count : ℕ) : Except Fault BitReader := do
  (assert (count ≤ r.bufferedBits) "assertion failed: count <= self.buffered_bits").mapError .panic
  return { r with buffer := r.buffer >>> count, bufferedBits := r.bufferedBits - count }

def read (r : BitReader) (count : ℕ) : Except Fault (ℕ × BitReader) := do
  if count = 0 then return (0, r)
  let (value, r) ← r.peek count
  let r ← r.consume count
  return (value, r)

/-- The loop of `read_unary`. -/
def readUnaryFrom : ℕ → ℕ → BitReader → Except Fault (ℕ × BitReader)
  | 0, _, _ => throw (.panic .diverges)
  | fuel + 1, value, r => do
      let (byte, r) ← r.peek 8
      let zeros := trailingZeros byte
      if zeros < 8 then
        let r ← r.consume (zeros + 1)
        if value + zeros < 2 ^ 64 then return (value + zeros, r)
        else throw (.error (.deserial "CPC unary value overflows"))
      else if value + 8 < 2 ^ 64 then
        let r ← r.consume 8
        readUnaryFrom fuel (value + 8) r
      else throw (.error (.deserial "CPC unary value overflows"))

/-- A round of the loop takes 8 bits, so it goes round at most once for every byte. -/
def readUnary (r : BitReader) : Except Fault (ℕ × BitReader) :=
  readUnaryFrom (r.bytes.length + 1) 0 r

end BitReader

/-- The variables of the loop of `decode_pairs`. -/
structure PairDecoder where
  bits : BitReader
  predictedRowIndex : ℕ
  predictedColIndex : ℕ

/-- The entry for the next 12 bits, which include an entire code word. -/
def lookupWord (decodingTable : List ℕ) (r : BitReader) : Except Fault (ℕ × BitReader) := do
  let (peek12, r) ← r.peek 12
  let lookup ← (entryAt decodingTable peek12).mapError .panic
  let r ← r.consume (lookup >>> 8 % 2 ^ 8)
  return (lookup &&& 0xff, r)

/-- `checked_shl`, `checked_add` and the conversion to `u32`. -/
def rowDelta (golombHi golombLo numBaseBits : ℕ) : Except Fault ℕ :=
  let delta := (golombHi <<< numBaseBits) % 2 ^ 64 + golombLo
  if numBaseBits < 64 ∧ delta < 2 ^ 32 then return delta
  else throw (.error (.deserial "CPC pair row delta overflows"))

namespace PairDecoder

/-- The body of the loop of `decode_pairs`, which also gives the pair. -/
def decode (T : CompressionData) (k numBaseBits : ℕ) (s : PairDecoder) :
    Except Fault (ℕ × PairDecoder) := do
  let golombLoMask := 1 <<< numBaseBits - 1
  let (xDelta, bits) ← lookupWord T.lengthLimitedUnary.decodingTable s.bits
  let (golombHi, bits) ← bits.readUnary
  let (golombLo, bits) ← bits.read numBaseBits
  let yDelta ← rowDelta golombHi (golombLo &&& golombLoMask) numBaseBits
  let predictedColIndex := if yDelta > 0 then 0 else s.predictedColIndex
  let rowIndex := s.predictedRowIndex + yDelta
  if ¬ rowIndex < k then throw (.error (.deserial "CPC pair row index is out of range"))
  let colIndex := predictedColIndex + xDelta
  if ¬ colIndex < 64 then throw (.error (.deserial "CPC pair column index is out of range"))
  let rowCol := (rowIndex <<< 6) % 2 ^ 32 ||| colIndex
  if rowCol = 2 ^ 32 - 1 then
    throw (.error (.deserial "CPC pair uses the reserved empty-table sentinel"))
  return (rowCol, ⟨bits, rowIndex, colIndex + 1⟩)

end PairDecoder

/-- The loop of `decode_pairs`. -/
def decodePairsFrom (T : CompressionData) (k numBaseBits : ℕ) :
    ℕ → PairDecoder → Except Fault (List ℕ)
  | 0, _ => return []
  | n + 1, s => do
      let (rowCol, s) ← s.decode T k numBaseBits
      return rowCol :: (← decodePairsFrom T k numBaseBits n s)

def decodePairs (T : CompressionData) (data : List UInt8) (numPairs lgK : ℕ) :
    Except Fault (List ℕ) := do
  if numPairs = 0 then return []
  let k ← (checkedShl 32 1 lgK).mapError .panic
  let numBaseBits ← (numBaseBitsFor numPairs lgK).mapError .panic
  decodePairsFrom T k numBaseBits numPairs ⟨.new data, 0, 0⟩

/-- The loop of `decode_window`. -/
def decodeWindowFrom (code : PrefixCode 256) : ℕ → BitReader → Except Fault (List UInt8)
  | 0, _ => return []
  | n + 1, bits => do
      let (byte, bits) ← lookupWord code.decodingTable bits
      return UInt8.ofNat byte :: (← decodeWindowFrom code n bits)

def decodeWindow (T : CompressionData) (data : List UInt8) (lgK numCoupons : ℕ) :
    Except Fault (List UInt8) := do
  let size ← (checkedShl 64 1 lgK).mapError .panic
  let pseudoPhase ← (determinePseudoPhase lgK numCoupons).mapError .panic
  let code ← (entryAt T.highEntropyByte pseudoPhase).mapError .panic
  decodeWindowFrom code size (.new data)

end Cpc

end DataSketches
