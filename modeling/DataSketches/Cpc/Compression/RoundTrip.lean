import DataSketches.Cpc.Compression.Buffers
import DataSketches.Cpc.Compression.Tables

/-!
# Decoding what was encoded

The words of `encode_pairs` and `encode_window` are described as packed fields.
A pair takes three of them: the code word of the column difference, the high part
of the row difference in unary, and its low bits.  The padding gives the last
pair at least 12 bits, and its unary code at least 8 bits after the zeros.
-/

namespace DataSketches

namespace Cpc

open Runs BitFields LittleEndian

/-! ## Code words -/

theorem entryAt_eq_ok {α : Type} {table : List α} {i : ℕ} {a : α} (h : table[i]? = some a) :
    entryAt table i = .ok a := by
  rw [entryAt, h]
  rfl

namespace PrefixCode

variable {n i : ℕ} (code : PrefixCode n)

/-- The entry of the encoding table for a symbol. -/
def codeInfo (symbol : ℕ) : ℕ := code.encodingTable.getD symbol 0

/-- The code word of a symbol. -/
def word (symbol : ℕ) : Field := codeWord (code.codeInfo symbol)

theorem getElem?_eq (hi : i < n) : code.encodingTable[i]? = some (code.codeInfo i) := by
  have hlt : i < code.encodingTable.length := hi.trans_eq code.length_eq.symm
  rw [PrefixCode.codeInfo, List.getD_eq_getElem?_getD, List.getElem?_eq_getElem hlt,
    Option.getD_some]

theorem codeInfo_mem (hi : i < n) : code.codeInfo i ∈ code.encodingTable :=
  List.mem_of_getElem? (code.getElem?_eq hi)

theorem word_width_le (hi : i < n) : (code.word i).width ≤ 12 :=
  code.width_le _ (code.codeInfo_mem hi)

theorem word_fits (hi : i < n) : (code.word i).Fits := code.fits _ (code.codeInfo_mem hi)

theorem get_eq (s : Fin code.encodingTable.length) :
    codeWord (code.encodingTable.get s) = code.word s := by
  rw [word, PrefixCode.codeInfo, List.getD_eq_getElem?_getD, List.getElem?_eq_getElem s.isLt,
    Option.getD_some, List.get_eq_getElem]

theorem eq_of_starts {j v : ℕ} (hi : i < n) (hj : j < n) (hsi : Starts (code.word i) v)
    (hsj : Starts (code.word j) v) : i = j := by
  have hlt : i < code.encodingTable.length := hi.trans_eq code.length_eq.symm
  have hlt' : j < code.encodingTable.length := hj.trans_eq code.length_eq.symm
  have heq := code.prefixFree.eq (s := ⟨i, hlt⟩) (t := ⟨j, hlt'⟩) (v := v)
    (by rw [get_eq]; exact hsi) (by rw [get_eq]; exact hsj)
  exact Fin.mk.inj heq

theorem word_width_pos (hn : 2 ≤ n) (hi : i < n) : 0 < (code.word i).width := by
  have hlt : i < code.encodingTable.length := hi.trans_eq code.length_eq.symm
  obtain ⟨j, hj, hne⟩ : ∃ j < code.encodingTable.length, i ≠ j := by
    rw [code.length_eq]
    rcases Nat.eq_zero_or_pos i with rfl | hpos
    · exact ⟨1, by omega, by omega⟩
    · exact ⟨0, by omega, by omega⟩
  have hpos := code.prefixFree.width_pos (s := ⟨i, hlt⟩) (t := ⟨j, hj⟩)
    (by rw [get_eq]; exact code.word_fits hi) fun heq ↦ hne (Fin.mk.inj heq)
  rwa [get_eq] at hpos

/-- The decoding table has the symbol whose code word comes first. -/
theorem lookup_eq {v : ℕ} (hi : i < n) (hv : v < 4096) (hstarts : Starts (code.word i) v) :
    ∃ lookup, code.decodingTable[v]? = some lookup ∧ lookup &&& 0xff = i ∧
      lookup >>> 8 = (code.word i).width := by
  obtain ⟨lookup, hlookup, codeInfo, hinfo, hwidth, hother⟩ := code.validated v hv
  refine ⟨lookup, hlookup, ?_⟩
  have hlt : lookup &&& 0xff < n := by
    obtain ⟨hlt, -⟩ := List.getElem?_eq_some_iff.mp hinfo
    exact hlt.trans_eq code.length_eq
  have hentry : codeInfo = code.codeInfo (lookup &&& 0xff) :=
    Option.some.inj (hinfo.symm.trans (code.getElem?_eq hlt))
  have heq := code.eq_of_starts hlt hi (by rw [word, ← hentry]; exact hother) hstarts
  refine ⟨heq, ?_⟩
  rw [hwidth, hentry, heq]
  rfl

/-- A code word is decoded if 12 bits can be read. -/
theorem lookupWord_eq {r : BitReader} {fs : List Field} {tail bits : ℕ} (hi : i < n)
    (h : r.Holds (pack (code.word i :: fs) tail) bits) (hbits : 12 ≤ bits) :
    ∃ r', lookupWord code.decodingTable r = .ok (i, r') ∧
      r'.Holds (pack fs tail) (bits - (code.word i).width) := by
  obtain ⟨r₁, hok₁, h₁, hbuffered, -⟩ := h.peek hbits (by omega)
  have hstarts := (@starts_pack _ fs tail (code.word_fits hi)).mod (code.word_width_le hi)
  have hv : pack (code.word i :: fs) tail % 2 ^ 12 < 4096 := Nat.mod_lt _ (Nat.two_pow_pos 12)
  obtain ⟨lookup, hlookup, hsymbol, hwidth⟩ := code.lookup_eq hi hv hstarts
  have hle := code.word_width_le hi
  obtain ⟨r₂, hok₂, h₂, -⟩ := h₁.consume (hle.trans hbuffered)
  rw [pack_div (code.word_fits hi)] at h₂
  refine ⟨r₂, ?_, h₂⟩
  rw [lookupWord, hok₁, ok_bind]
  dsimp only
  rw [entryAt_eq_ok hlookup, ok_mapError, ok_bind, hwidth, Nat.mod_eq_of_lt (by omega), hok₂,
    ok_bind, hsymbol]
  rfl

end PrefixCode

/-- A code word is written. -/
theorem BitWriter.Wrote.writeWord {n i stream bits : ℕ} {output : List UInt8} {w : BitWriter}
    (h : w.Wrote output stream bits) (code : PrefixCode n) (hi : i < n) :
    ∃ w', w.write (code.word i).value (code.word i).width = .ok w' ∧
      w'.Wrote output (stream + 2 ^ bits * (code.word i).value) (bits + (code.word i).width) := by
  have hle := code.word_width_le hi
  exact h.write (code.word_fits hi) (by omega)

/-- A reader of the finished words begins with the fields that were written. -/
theorem BitWriter.Wrote.holds_finished {output : List UInt8} {w : BitWriter} {fields : List Field}
    {count words : ℕ} (h : w.Wrote output (pack fields 0) (width fields + count))
    (hwords : width fields + count ≤ 32 * words) (rest : List UInt8) :
    (BitReader.new (leBytes (4 * words) (pack fields 0) ++ rest)).Holds
      (pack fields (2 ^ (32 * words - width fields) * leNat rest)) (width fields + count) := by
  have hlt : pack fields 0 < 256 ^ (4 * words) := by
    rw [pow_words]
    exact h.stream_lt.trans_le (Nat.pow_le_pow_right Nat.two_pos hwords)
  have hlength : (leBytes (4 * words) (pack fields 0)).length = 4 * words := length_leBytes _ _
  have hstream : leNat (leBytes (4 * words) (pack fields 0) ++ rest) =
      pack fields (2 ^ (32 * words - width fields) * leNat rest) := by
    rw [leNat_append, leNat_leBytes_of_lt hlt, hlength, pow_words]
    conv_rhs => rw [pack_eq_add, ← Nat.mul_assoc, ← pow_add, Nat.add_sub_cancel' (by omega)]
  rw [← hstream]
  exact BitReader.holds_new (by rw [List.length_append, hlength]; omega) hwords

/-! ## The number of base bits -/

theorem floorLog2From_eq {x fuel p : ℕ} (hpos : 0 < x) (hlt : x < 2 ^ 63) (hp : 2 ^ p ≤ 2 * x)
    (hfuel : 64 < p + fuel) : floorLog2From x fuel p (2 ^ p) = .ok (Nat.log 2 x) := by
  have hp64 : p < 65 := by
    refine (Nat.pow_lt_pow_iff_right Nat.one_lt_two).mp (hp.trans_lt ?_)
    omega
  induction fuel generalizing p with
  | zero => omega
  | succ fuel ih =>
      rw [floorLog2From]
      split_ifs with heq hgt
      · rw [← heq, Nat.log_pow Nat.one_lt_two]
        rfl
      · obtain ⟨q, rfl⟩ : ∃ q, p = q + 1 := by
          refine Nat.exists_eq_succ_of_ne_zero ?_
          rintro rfl
          rw [pow_zero] at hgt
          omega
        rw [pow_succ] at hp
        rw [checkedSub_of_le (Nat.le_add_left 1 q), Nat.add_sub_cancel,
          (Nat.log_eq_iff (Or.inr ⟨Nat.one_lt_two, hpos.ne'⟩)).mpr ⟨by omega, hgt⟩]
      · have hle : 2 ^ p < x := by omega
        have hp' : p < 63 := (Nat.pow_lt_pow_iff_right Nat.one_lt_two).mp (hle.trans hlt)
        have hpow : 2 ^ (p + 1) < 2 ^ 64 := Nat.pow_lt_pow_right Nat.one_lt_two (by omega)
        rw [checkedAdd_of_lt (by omega), ok_bind, Nat.shiftLeft_eq, pow_one, ← pow_succ,
          Nat.mod_eq_of_lt hpow]
        exact ih (by rw [pow_succ]; omega) (by omega) (by omega)

/-- `floor_log2_of_long` is the binary logarithm. -/
theorem floorLog2OfLong_eq {x : ℕ} (hpos : 0 < x) (hlt : x < 2 ^ 63) :
    floorLog2OfLong x = .ok (Nat.log 2 x) := by
  rw [floorLog2OfLong, assert_pos hpos, ok_bind]
  exact floorLog2From_eq (p := 0) hpos hlt (by rw [pow_zero]; omega) (by omega)

theorem checkedShl_one {bits lgK : ℕ} (h : lgK < bits) : checkedShl bits 1 lgK = .ok (2 ^ lgK) := by
  have hok := @checkedShl_of_lt bits 1 lgK 1 Nat.one_lt_two h (by omega)
  rwa [Nat.mul_one] at hok

/-- The base bits are at most as many as those of a row. -/
theorem numBaseBitsFor_spec {numPairs lgK : ℕ} (hlg : lgK ≤ 26) (hpos : 0 < numPairs)
    (hsum : 2 ^ lgK + numPairs < 2 ^ 32) :
    ∃ numBaseBits ≤ 26, numBaseBitsFor numPairs lgK = .ok numBaseBits := by
  have hle : 2 ^ lgK / numPairs ≤ 2 ^ 26 :=
    (Nat.div_le_self _ _).trans (Nat.pow_le_pow_right Nat.two_pos hlg)
  rw [numBaseBitsFor, checkedShl_one (by omega), ok_bind, checkedAdd_of_lt hsum, ok_bind,
    golombChooseNumberOfBaseBits, assert_pos (Nat.add_pos_right _ hpos), ok_bind, assert_pos hpos, ok_bind,
    checkedSub_of_le (Nat.le_add_left _ _), ok_bind, Nat.add_sub_cancel]
  dsimp only
  split_ifs with hzero
  · exact ⟨0, Nat.zero_le _, rfl⟩
  · refine ⟨Nat.log 2 (2 ^ lgK / numPairs), ?_, ?_⟩
    · calc Nat.log 2 (2 ^ lgK / numPairs) ≤ Nat.log 2 (2 ^ 26) := Nat.log_mono_right hle
        _ = 26 := Nat.log_pow Nat.one_lt_two 26
    · exact floorLog2OfLong_eq (Nat.pos_of_ne_zero hzero) (hle.trans_lt (by norm_num))

/-! ## Windows -/

section Window

variable {code : PrefixCode 256} {window : List UInt8} {output : List UInt8}

/-- The fields of a window. -/
def windowFields (code : PrefixCode 256) (window : List UInt8) : List Field :=
  window.map fun byte ↦ code.word byte.toNat

theorem encodeWindow_fields (code : PrefixCode 256) (window : List UInt8) {w : BitWriter}
    {stream bits : ℕ} (h : w.Wrote output stream bits) :
    ∃ w', run (encodeByte code) w window = .ok w' ∧
      w'.Wrote output (stream + 2 ^ bits * pack (windowFields code window) 0)
        (bits + width (windowFields code window)) := by
  induction window generalizing w stream bits with
  | nil => exact ⟨w, rfl, h⟩
  | cons byte window ih =>
      have hlt := byte.toNat_lt
      obtain ⟨w₁, hok₁, h₁⟩ := h.writeWord code hlt
      obtain ⟨w', hok, h'⟩ := ih h₁
      refine ⟨w', ?_, ?_⟩
      · rw [run_cons, encodeByte, entryAt_eq_ok (code.getElem?_eq hlt), ok_bind]
        exact (congrArg (· >>= _) hok₁).trans hok
      · rw [windowFields, List.map_cons, ← windowFields, pack_cons, width_cons, Nat.mul_add,
          ← Nat.mul_assoc, ← pow_add, ← Nat.add_assoc, ← Nat.add_assoc]
        exact h'

theorem decodeWindow_fields {r : BitReader} {tail left : ℕ}
    (h : r.Holds (pack (windowFields code window) tail) (width (windowFields code window) + left))
    (hleft : 11 ≤ left) : decodeWindowFrom code window.length r = .ok window := by
  induction window generalizing r with
  | nil => rfl
  | cons byte window ih =>
      have hlt := byte.toNat_lt
      have hpos := code.word_width_pos (by omega) hlt
      rw [windowFields, List.map_cons, ← windowFields, width_cons] at h
      obtain ⟨r', hok, h'⟩ := code.lookupWord_eq hlt h (by omega)
      rw [Nat.add_assoc, Nat.add_sub_cancel_left] at h'
      rw [List.length_cons, decodeWindowFrom, hok, ok_bind]
      dsimp only
      rw [ih h', ok_bind, UInt8.ofNat_toNat]
      rfl

end Window

/-! ## Pairs -/

section Pairs

variable {T : CompressionData} {numBaseBits row col rowCol : ℕ} {output : List UInt8}

/-- The pair is not before the predicted one. -/
def Follows (row col rowCol : ℕ) : Prop :=
  row ≤ rowCol >>> 6 ∧ (rowCol >>> 6 = row → col ≤ rowCol &&& 63)

theorem rowCol_eq (rowCol : ℕ) : rowCol = 64 * (rowCol >>> 6) + (rowCol &&& 63) := by
  rw [Nat.shiftRight_eq_div_pow, show 63 = 2 ^ 6 - 1 from rfl, Nat.and_two_pow_sub_one_eq_mod]
  exact (Nat.div_add_mod rowCol 64).symm

theorem and_lt (rowCol : ℕ) : rowCol &&& 63 < 64 := Nat.and_lt_two_pow (n := 6) _ (by decide)

/-- A greater pair follows the prediction that a pair leaves. -/
theorem follows_of_lt {next : ℕ} (h : rowCol < next) :
    Follows (rowCol >>> 6) ((rowCol &&& 63) + 1) next := by
  have hpair := rowCol_eq rowCol
  have hnext := rowCol_eq next
  have hlt := and_lt rowCol
  have hlt' := and_lt next
  constructor
  · omega
  · intro heq
    omega

/-- The column from which a pair is predicted. -/
def predictedFrom (row col rowCol : ℕ) : ℕ := if rowCol >>> 6 ≠ row then 0 else col

/-- The fields of a pair. -/
def pairFields (T : CompressionData) (numBaseBits row col rowCol : ℕ) : List Field :=
  [T.lengthLimitedUnary.word ((rowCol &&& 63) - predictedFrom row col rowCol),
    ⟨2 ^ ((rowCol >>> 6 - row) >>> numBaseBits), (rowCol >>> 6 - row) >>> numBaseBits + 1⟩,
    ⟨(rowCol >>> 6 - row) % 2 ^ numBaseBits, numBaseBits⟩]

theorem Follows.predictedFrom_le (h : Follows row col rowCol) :
    predictedFrom row col rowCol ≤ rowCol &&& 63 := by
  rw [predictedFrom]
  split_ifs with hrow
  · exact Nat.zero_le _
  · exact h.2 (not_not.mp hrow)

theorem symbol_lt (row col rowCol : ℕ) : (rowCol &&& 63) - predictedFrom row col rowCol < 65 := by
  have hlt := and_lt rowCol
  omega

theorem encode_fields {s : PairEncoder} {stream bits : ℕ} (hbase : numBaseBits ≤ 26)
    (h : s.bits.Wrote output stream bits)
    (hfollows : Follows s.predictedRowIndex s.predictedColIndex rowCol) :
    ∃ s', s.encode T numBaseBits rowCol = .ok s' ∧
      s'.bits.Wrote output (stream + 2 ^ bits *
        pack (pairFields T numBaseBits s.predictedRowIndex s.predictedColIndex rowCol) 0)
        (bits + width (pairFields T numBaseBits s.predictedRowIndex s.predictedColIndex rowCol)) ∧
      s'.predictedRowIndex = rowCol >>> 6 ∧ s'.predictedColIndex = (rowCol &&& 63) + 1 := by
  have hlt := symbol_lt s.predictedRowIndex s.predictedColIndex rowCol
  obtain ⟨w₁, hok₁, h₁⟩ := h.writeWord T.lengthLimitedUnary hlt
  obtain ⟨w₂, hok₂, h₂⟩ := h₁.writeUnary ((rowCol >>> 6 - s.predictedRowIndex) >>> numBaseBits)
  obtain ⟨w₃, hok₃, h₃⟩ := h₂.write
    (Nat.mod_lt (rowCol >>> 6 - s.predictedRowIndex) (Nat.two_pow_pos numBaseBits)) (by omega)
  refine ⟨⟨w₃, rowCol >>> 6, (rowCol &&& 63) + 1⟩, ?_, ?_, rfl, rfl⟩
  · rw [PairEncoder.encode]
    dsimp only
    rw [assert_pos hfollows.1, ok_bind, ← predictedFrom, assert_pos hfollows.predictedFrom_le,
      ok_bind, entryAt_eq_ok (T.lengthLimitedUnary.getElem?_eq hlt), ok_bind]
    refine (congrArg (· >>= _) hok₁).trans ?_
    rw [ok_bind, hok₂, ok_bind, Nat.one_shiftLeft, Nat.and_two_pow_sub_one_eq_mod, hok₃, ok_bind]
    rfl
  · rw [pairFields, pack_cons, pack_cons, pack_cons, pack_nil, Nat.mul_zero, Nat.add_zero,
      width_cons, width_cons, width_cons, width_nil, Nat.add_zero]
    dsimp only
    refine (congrArg₂ (BitWriter.Wrote output w₃) ?_ ?_).mp h₃
    · rw [pow_add, pow_add]
      ring
    · omega

/-- The pairs that a list given to `encode_pairs` may have. -/
structure PairList (lgK : ℕ) (pairs : List ℕ) : Prop where
  ascending : pairs.Pairwise (· < ·)
  row_lt : ∀ rowCol ∈ pairs, rowCol >>> 6 < 2 ^ lgK
  ne_max : ∀ rowCol ∈ pairs, rowCol ≠ 2 ^ 32 - 1

/-- The row difference is put together again. -/
theorem rowDelta_eq {delta : ℕ} (hbase : numBaseBits ≤ 26) (hdelta : delta < 2 ^ 32) :
    rowDelta (delta >>> numBaseBits) (delta % 2 ^ numBaseBits) numBaseBits = .ok delta := by
  have hsplit : (delta >>> numBaseBits) <<< numBaseBits + delta % 2 ^ numBaseBits = delta := by
    rw [Nat.shiftRight_eq_div_pow, Nat.shiftLeft_eq, Nat.mul_comm]
    exact Nat.div_add_mod _ _
  have hhigh : (delta >>> numBaseBits) <<< numBaseBits < 2 ^ 64 := by omega
  rw [rowDelta, Nat.mod_eq_of_lt hhigh, hsplit]
  exact if_pos ⟨by omega, hdelta⟩

theorem decode_fields {s : PairDecoder} {fs : List Field} {tail left k : ℕ}
    (hbase : numBaseBits ≤ 26) (hleft : 10 ≤ left + numBaseBits)
    (h : s.bits.Holds (pack (pairFields T numBaseBits s.predictedRowIndex s.predictedColIndex rowCol
      ++ fs) tail) (width (pairFields T numBaseBits s.predictedRowIndex s.predictedColIndex rowCol)
        + left))
    (hfollows : Follows s.predictedRowIndex s.predictedColIndex rowCol) (hrow : rowCol >>> 6 < k)
    (hk : k ≤ 2 ^ 26) (hmax : rowCol ≠ 2 ^ 32 - 1) :
    ∃ s', s.decode T k numBaseBits = .ok (rowCol, s') ∧ s'.bits.Holds (pack fs tail) left ∧
      s'.predictedRowIndex = rowCol >>> 6 ∧ s'.predictedColIndex = (rowCol &&& 63) + 1 := by
  have hlt := symbol_lt s.predictedRowIndex s.predictedColIndex rowCol
  have hpos := T.lengthLimitedUnary.word_width_pos (by omega) hlt
  have hcol := and_lt rowCol
  have hle := hfollows.predictedFrom_le
  obtain ⟨delta, hdelta⟩ : ∃ delta, delta = rowCol >>> 6 - s.predictedRowIndex := ⟨_, rfl⟩
  have hrows : s.predictedRowIndex + delta = rowCol >>> 6 := by
    have hge := hfollows.1
    omega
  rw [pairFields, ← hdelta, List.cons_append, List.cons_append, List.cons_append, List.nil_append,
    width_cons, width_cons, width_cons, width_nil, Nat.add_zero] at h
  dsimp only at h
  obtain ⟨high, hhigh⟩ : ∃ high, high = delta >>> numBaseBits := ⟨_, rfl⟩
  have hjoin := rowDelta_eq hbase (show delta < 2 ^ 32 by omega)
  rw [← hhigh] at h hjoin
  obtain ⟨r₁, hok₁, h₁⟩ := T.lengthLimitedUnary.lookupWord_eq hlt h (by omega)
  rw [pack_cons] at h₁
  obtain ⟨r₂, hok₂, h₂, -⟩ := h₁.readUnary (by omega) (by
    rw [hhigh, Nat.shiftRight_eq_div_pow]
    exact (Nat.div_le_self _ _).trans_lt (by omega))
  obtain ⟨r₃, hok₃, h₃, -⟩ := h₂.read (by omega) (show numBaseBits ≤ 32 by omega)
  have hfits : (⟨delta % 2 ^ numBaseBits, numBaseBits⟩ : Field).Fits :=
    Nat.mod_lt _ (Nat.two_pow_pos _)
  rw [pack_mod (f := ⟨delta % 2 ^ numBaseBits, numBaseBits⟩) hfits] at hok₃
  rw [pack_div (f := ⟨delta % 2 ^ numBaseBits, numBaseBits⟩) hfits] at h₃
  have hpredicted : (if delta > 0 then 0 else s.predictedColIndex) =
      predictedFrom s.predictedRowIndex s.predictedColIndex rowCol := by
    rw [predictedFrom]
    split_ifs with hd hne hne
    · rfl
    · omega
    · omega
    · rfl
  have hsum : predictedFrom s.predictedRowIndex s.predictedColIndex rowCol +
      ((rowCol &&& 63) - predictedFrom s.predictedRowIndex s.predictedColIndex rowCol) =
        rowCol &&& 63 := by omega
  have hor : (rowCol >>> 6) <<< 6 % 2 ^ 32 ||| (rowCol &&& 63) = rowCol := by
    rw [Nat.mod_eq_of_lt (by rw [Nat.shiftLeft_eq]; omega), ← Nat.shiftLeft_add_eq_or_of_lt hcol,
      Nat.shiftLeft_eq, Nat.mul_comm]
    exact (rowCol_eq rowCol).symm
  refine ⟨⟨r₃, rowCol >>> 6, (rowCol &&& 63) + 1⟩, ?_, h₃.mono (by omega), rfl, rfl⟩
  rw [PairDecoder.decode]
  dsimp only
  rw [hok₁, ok_bind]
  dsimp only
  rw [hok₂, ok_bind]
  dsimp only
  rw [hok₃, ok_bind]
  dsimp only
  rw [Nat.one_shiftLeft, Nat.and_two_pow_sub_one_eq_mod, Nat.mod_mod, hjoin, ok_bind, hpredicted, hrows, hsum, if_neg (not_not.mpr hrow), if_neg (not_not.mpr hcol), hor,
    if_neg hmax]
  rfl

/-- The fields of a list of pairs. -/
def listFields (T : CompressionData) (numBaseBits : ℕ) : ℕ → ℕ → List ℕ → List Field
  | _, _, [] => []
  | row, col, rowCol :: pairs =>
      pairFields T numBaseBits row col rowCol ++
        listFields T numBaseBits (rowCol >>> 6) ((rowCol &&& 63) + 1) pairs

theorem encodePairs_fields {s : PairEncoder} {pairs : List ℕ} {stream bits : ℕ}
    (hbase : numBaseBits ≤ 26) (h : s.bits.Wrote output stream bits)
    (hascending : pairs.Pairwise (· < ·))
    (hfollows : ∀ rowCol ∈ pairs, Follows s.predictedRowIndex s.predictedColIndex rowCol) :
    ∃ s', run (PairEncoder.encode T numBaseBits) s pairs = .ok s' ∧
      s'.bits.Wrote output (stream + 2 ^ bits *
        pack (listFields T numBaseBits s.predictedRowIndex s.predictedColIndex pairs) 0)
        (bits + width (listFields T numBaseBits s.predictedRowIndex s.predictedColIndex pairs)) := by
  induction pairs generalizing s stream bits with
  | nil => exact ⟨s, rfl, h⟩
  | cons rowCol pairs ih =>
      obtain ⟨hlt, hascending'⟩ := List.pairwise_cons.mp hascending
      obtain ⟨s₁, hok₁, h₁, hrow, hcol⟩ := encode_fields (T := T) hbase h
        (hfollows rowCol List.mem_cons_self)
      obtain ⟨s', hok, h'⟩ := ih h₁ hascending' (by
        rw [hrow, hcol]
        exact fun next hnext ↦ follows_of_lt (hlt next hnext))
      refine ⟨s', ?_, ?_⟩
      · rw [run_cons, hok₁, ok_bind, hok]
      · rw [hrow, hcol] at h'
        rw [listFields, pack_append, pack_eq_add, width_append, Nat.mul_add, ← Nat.mul_assoc,
          ← pow_add, ← Nat.add_assoc, ← Nat.add_assoc]
        exact h'

theorem decodePairs_fields {s : PairDecoder} {pairs : List ℕ} {tail left lgK : ℕ}
    (hbase : numBaseBits ≤ 26) (hleft : 10 ≤ left + numBaseBits) (hlg : lgK ≤ 26)
    (h : s.bits.Holds
      (pack (listFields T numBaseBits s.predictedRowIndex s.predictedColIndex pairs) tail)
      (width (listFields T numBaseBits s.predictedRowIndex s.predictedColIndex pairs) + left))
    (hpairs : PairList lgK pairs)
    (hfollows : ∀ rowCol ∈ pairs, Follows s.predictedRowIndex s.predictedColIndex rowCol) :
    decodePairsFrom T (2 ^ lgK) numBaseBits pairs.length s = .ok pairs := by
  induction pairs generalizing s with
  | nil => rfl
  | cons rowCol pairs ih =>
      obtain ⟨hlt, hascending⟩ := List.pairwise_cons.mp hpairs.ascending
      rw [listFields, width_append, Nat.add_assoc] at h
      obtain ⟨s₁, hok₁, h₁, hrow, hcol⟩ := decode_fields hbase (by omega) h
        (hfollows rowCol List.mem_cons_self) (hpairs.row_lt rowCol List.mem_cons_self)
        (Nat.pow_le_pow_right Nat.two_pos hlg) (hpairs.ne_max rowCol List.mem_cons_self)
      have hok := ih (by rwa [hrow, hcol])
        ⟨hascending, fun p hp ↦ hpairs.row_lt p (List.mem_cons_of_mem _ hp),
          fun p hp ↦ hpairs.ne_max p (List.mem_cons_of_mem _ hp)⟩ (by
        rw [hrow, hcol]
        exact fun next hnext ↦ follows_of_lt (hlt next hnext))
      rw [List.length_cons, decodePairsFrom, hok₁, ok_bind]
      dsimp only
      rw [hok]
      rfl

end Pairs

/-! ## The round trip -/

theorem encodePairs_spec (T : CompressionData) {lgK : ℕ} (hlg : lgK ≤ 26) {pairs : List ℕ}
    (hpairs : PairList lgK pairs) (hne : pairs ≠ []) (hsum : 2 ^ lgK + pairs.length < 2 ^ 32)
    (output rest : List UInt8) :
    ∃ data words, encodePairs T pairs lgK output = .ok (output ++ data, words) ∧
      data.length = 4 * words ∧ decodePairs T (data ++ rest) pairs.length lgK = .ok pairs := by
  have hpos : 0 < pairs.length := List.length_pos_iff.mpr hne
  have hfollows : ∀ rowCol ∈ pairs, Follows 0 0 rowCol :=
    fun _ _ ↦ ⟨Nat.zero_le _, fun _ ↦ Nat.zero_le _⟩
  obtain ⟨numBaseBits, hbase, hok⟩ := numBaseBitsFor_spec hlg hpos hsum
  obtain ⟨s, hrun, hs⟩ := encodePairs_fields (T := T) (s := ⟨.new output, 0, 0⟩) hbase
    (BitWriter.wrote_new output) hpairs.ascending hfollows
  rw [pow_zero, Nat.one_mul, Nat.zero_add, Nat.zero_add] at hs
  obtain ⟨w, hpad, hw⟩ := hs.pad (show 10 - numBaseBits ≤ 32 by omega)
  obtain ⟨words, hfinish, hwords⟩ := hw.finish
  refine ⟨leBytes (4 * words) (pack (listFields T numBaseBits 0 0 pairs) 0), words, ?_,
    length_leBytes _ _, ?_⟩
  · rw [encodePairs, Nat.mod_eq_of_lt ((Nat.le_add_left _ _).trans_lt hsum), hok, ok_bind, hrun, ok_bind, hpad, ok_bind, hfinish]
  · rw [decodePairs, if_neg hpos.ne', checkedShl_one (by omega), ok_mapError, ok_bind, hok,
      ok_mapError, ok_bind]
    exact decodePairs_fields (s := ⟨_, 0, 0⟩) hbase (by omega) hlg (hw.holds_finished hwords rest)
      hpairs hfollows

/-- The pseudo phase is the index of a table. -/
theorem determinePseudoPhase_spec {lgK : ℕ} (hlg : 4 ≤ lgK ∧ lgK ≤ 26) (numCoupons : ℕ) :
    ∃ phase < 22, determinePseudoPhase lgK numCoupons = .ok phase := by
  rw [determinePseudoPhase, checkedShl_one (by omega), ok_bind]
  split_ifs
  · exact ⟨16, by omega, rfl⟩
  · exact ⟨17, by omega, rfl⟩
  · exact ⟨18, by omega, rfl⟩
  · exact ⟨19, by omega, rfl⟩
  · exact ⟨20, by omega, rfl⟩
  · exact ⟨21, by omega, rfl⟩
  · exact ⟨6, by omega, rfl⟩
  · refine ⟨numCoupons >>> (lgK - 4) &&& 15, ?_, ?_⟩
    · exact (Nat.and_lt_two_pow (n := 4) _ (by decide)).trans (by decide)
    · rw [assert_pos hlg.1, ok_bind]
      rfl

theorem encodeWindow_spec (T : CompressionData) {lgK : ℕ} (hlg : 4 ≤ lgK ∧ lgK ≤ 26)
    {window : List UInt8} (hlength : window.length = 2 ^ lgK) (numCoupons : ℕ)
    (output rest : List UInt8) :
    ∃ data words, encodeWindow T window lgK numCoupons output = .ok (output ++ data, words) ∧
      data.length = 4 * words ∧ decodeWindow T (data ++ rest) lgK numCoupons = .ok window := by
  obtain ⟨phase, hphase, hok⟩ := determinePseudoPhase_spec hlg numCoupons
  obtain ⟨code, hcode⟩ : ∃ code, T.highEntropyByte[phase]? = some code :=
    ⟨_, List.getElem?_eq_getElem (hphase.trans_eq T.length_eq.symm)⟩
  obtain ⟨w, hrun, hw⟩ := encodeWindow_fields code window
    (BitWriter.wrote_new output)
  rw [pow_zero, Nat.one_mul, Nat.zero_add, Nat.zero_add] at hw
  obtain ⟨w', hpad, hw'⟩ := hw.pad (show 11 ≤ 32 by omega)
  obtain ⟨words, hfinish, hwords⟩ := hw'.finish
  refine ⟨leBytes (4 * words) (pack (windowFields code window) 0), words, ?_, length_leBytes _ _, ?_⟩
  · rw [encodeWindow, hok, ok_bind, entryAt_eq_ok hcode, ok_bind, hrun, ok_bind, hpad, ok_bind,
      hfinish]
  · rw [decodeWindow, checkedShl_one (by omega), ok_mapError, ok_bind, hok, ok_mapError, ok_bind,
      entryAt_eq_ok hcode, ok_mapError, ok_bind, ← hlength]
    exact decodeWindow_fields (hw'.holds_finished hwords rest) le_rfl

/-- What was encoded is decoded, whatever follows it, without a panic on either side. -/
theorem decode_encode (T : CompressionData) {lgK : ℕ} (hlg : 4 ≤ lgK ∧ lgK ≤ 26)
    (output rest : List UInt8) :
    (∀ pairs, PairList lgK pairs → pairs ≠ [] → 2 ^ lgK + pairs.length < 2 ^ 32 →
      ∃ data words, encodePairs T pairs lgK output = .ok (output ++ data, words) ∧
        data.length = 4 * words ∧ decodePairs T (data ++ rest) pairs.length lgK = .ok pairs) ∧
    (∀ window numCoupons, window.length = 2 ^ lgK → numCoupons < 2 ^ 32 →
      ∃ data words, encodeWindow T window lgK numCoupons output = .ok (output ++ data, words) ∧
        data.length = 4 * words ∧
          decodeWindow T (data ++ rest) lgK numCoupons = .ok window) :=
  ⟨fun _ hpairs hne hsum ↦ encodePairs_spec T hlg.2 hpairs hne hsum output rest,
    fun _ numCoupons hlength _ ↦ encodeWindow_spec T hlg hlength numCoupons output rest⟩

theorem decode_encode_small :
    (∃ data words, encodePairs tablesForPhase16 [0, 65, 130, 131, 1000] 4 [] = .ok ([] ++ data, words) ∧
      data.length = 4 * words ∧
        decodePairs tablesForPhase16 (data ++ [1]) 5 4 = .ok [0, 65, 130, 131, 1000]) ∧
    (∃ data words, encodeWindow tablesForPhase16 (7 :: List.replicate 15 0) 4 11 [] =
      .ok ([] ++ data, words) ∧ data.length = 4 * words ∧
        decodeWindow tablesForPhase16 (data ++ [1]) 4 11 = .ok (7 :: List.replicate 15 0)) := by
  obtain ⟨hpairs, hwindow⟩ := @decode_encode tablesForPhase16 4 (by decide) [] [1]
  exact ⟨hpairs [0, 65, 130, 131, 1000] ⟨by decide, by decide, by decide⟩ (by decide) (by decide),
    hwindow (7 :: List.replicate 15 0) 11 (by decide) (by decide)⟩

/-- Neither the empty list nor a list that is too long is encoded. -/
theorem encodePairs_panics :
    PairList 4 [] ∧
      encodePairs tablesForPhase16 [] 4 [] = .error (.assertion "assertion failed: count > 0") ∧
        PairList 26 (List.range (2 ^ 32 - 1)) ∧
          encodePairs tablesForPhase16 (List.range (2 ^ 32 - 1)) 26 [] = .error .overflow := by
  refine ⟨⟨List.Pairwise.nil, by simp, by simp⟩, rfl, ⟨List.pairwise_lt_range, ?_, ?_⟩, ?_⟩
  · intro rowCol hmem
    rw [Nat.shiftRight_eq_div_pow]
    have hlt := List.mem_range.mp hmem
    omega
  · intro rowCol hmem
    exact (List.mem_range.mp hmem).ne
  · rw [encodePairs, List.length_range]
    rfl

end Cpc

end DataSketches
