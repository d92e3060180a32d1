import DataSketches.ThetaFamily.Theta.Compression

/-!
# Blocks and the packer agree

The unrolled block functions write what the packer writes into a zeroed buffer, and
read what the unpacker reads.  Fields of any widths are read back from any buffer:
what it held before does not matter.
-/

namespace DataSketches

namespace BitPack

open BitStream Runs CompactThetaSketch

/-! ## Buffers with the same front -/

/-- The first `n` bytes are the same. -/
def SameFront (n : ℕ) (bytes bytes' : List ℕ) : Prop :=
  bytes'.length = bytes.length ∧ ∀ i < n, bytes'.getD i 0 = bytes.getD i 0

variable {n i : ℕ} {bytes bytes' : List ℕ}

theorem SameFront.set (h : SameFront i bytes bytes') (b : ℕ) :
    SameFront (i + 1) (bytes.set i b) (bytes'.set i b) := by
  obtain ⟨hlen, hfront⟩ := h
  refine ⟨by rw [List.length_set, List.length_set, hlen], fun j hj ↦ ?_⟩
  simp only [List.getD_eq_getElem?_getD, List.getElem?_set, hlen] at hfront ⊢
  split_ifs with heq
  · rfl
  · rfl
  · exact hfront j (by omega)

/-- Assigning a byte whose old value is the same. -/
theorem SameFront.modifyByte (h : SameFront i bytes bytes') {f : ℕ → ℕ}
    (hf : f (bytes.getD i 0) = f (bytes'.getD i 0)) {out : List ℕ}
    (hok : modifyByte bytes i f = .ok out) :
    ∃ out', BitPack.modifyByte bytes' i f = .ok out' ∧ SameFront (i + 1) out out' := by
  have hi : i < bytes.length := by
    by_contra hi
    rw [BitPack.modifyByte, List.getElem?_eq_none (not_lt.mp hi)] at hok
    cases hok
  rw [modifyByte_of_lt hi] at hok
  cases hok
  refine ⟨_, modifyByte_of_lt (h.1 ▸ hi) f, ?_⟩
  rw [hf]
  exact h.set _

/-- The same packer over another buffer: the bytes that were begun are the same. -/
structure Alike (p p' : BitPacker) : Prop where
  byteIndex_eq : p'.byteIndex = p.byteIndex
  byteBitUsed_eq : p'.byteBitUsed = p.byteBitUsed
  front : SameFront p.bytesUsed p.bytes p'.bytes

theorem packBytes_alike (value bits : ℕ) (h : SameFront i bytes bytes') {out : List ℕ} {j r : ℕ}
    (hok : BitPacker.packBytes value bits bytes i = .ok (out, j, r)) :
    ∃ out', BitPacker.packBytes value bits bytes' i = .ok (out', j, r) ∧ SameFront j out out' := by
  induction bits, bytes, i using BitPacker.packBytes.induct generalizing bytes' out with
  | case1 bits bytes i ih =>
      obtain ⟨mid, hmid, hok⟩ := bind_eq_ok.mp hok
      obtain ⟨mid', hmid', hfront⟩ := h.modifyByte rfl hmid
      obtain ⟨out', hok', hfront'⟩ := ih mid hfront hok
      exact ⟨out', by rw [BitPacker.packBytes, hmid', ok_bind, hok'], hfront'⟩
  | case2 bits bytes i hshort =>
      have hlt : bits < 8 := by
        by_contra hlt
        exact hshort (bits - 8) (by omega)
      rw [BitPacker.packBytes_of_lt hlt] at hok
      cases hok
      exact ⟨bytes', BitPacker.packBytes_of_lt hlt bytes' _, h⟩

theorem packAligned_alike (value bits : ℕ) {i : ℕ} (h : SameFront i bytes bytes') {p : BitPacker}
    (hok : BitPacker.packAligned value bits bytes i = .ok p) :
    ∃ p', BitPacker.packAligned value bits bytes' i = .ok p' ∧ Alike p p' := by
  obtain ⟨⟨out, j, r⟩, hbytes, hok⟩ := bind_eq_ok.mp hok
  obtain ⟨out', hbytes', hfront⟩ := packBytes_alike value bits h hbytes
  rw [BitPacker.packAligned, hbytes', ok_bind]
  dsimp only at hok ⊢
  split_ifs at hok ⊢ with hr
  · obtain ⟨last, hlast, hok⟩ := bind_eq_ok.mp hok
    cases hok
    obtain ⟨last', hlast', hfront'⟩ := hfront.modifyByte rfl hlast
    refine ⟨⟨last', j, r⟩, by rw [hlast']; rfl, rfl, rfl, ?_⟩
    rw [BitPacker.bytesUsed, if_neg hr.ne']
    exact hfront'
  · cases hok
    exact ⟨⟨out', j, 0⟩, rfl, rfl, rfl, hfront⟩

/-- A value is packed alike into any buffer. -/
theorem packValue_alike {p p' q : BitPacker} (h : Alike p p') (value bits : ℕ)
    (hok : p.packValue value bits = .ok q) :
    ∃ q', p'.packValue value bits = .ok q' ∧ Alike q q' := by
  obtain ⟨hlt, hok⟩ := assert_bind_eq_ok.mp hok
  obtain ⟨bytes, i, used⟩ := p
  obtain ⟨bytes', i', used'⟩ := p'
  obtain ⟨hi, hused, hfront⟩ := h
  cases (show i' = i from hi)
  cases (show used' = used from hused)
  rw [BitPacker.packValue, assert_pos hlt, ok_bind]
  dsimp only at hok ⊢
  rw [BitPacker.bytesUsed] at hfront
  by_cases hzero : used > 0
  · rw [if_pos hzero] at hok ⊢
    rw [if_neg hzero.ne'] at hfront
    have hbyte : bytes'.getD i 0 = bytes.getD i 0 := hfront.2 i (Nat.lt_succ_self i)
    have hbefore : SameFront i bytes bytes' := ⟨hfront.1, fun j hj ↦ hfront.2 j (Nat.lt_succ_of_lt hj)⟩
    split_ifs at hok ⊢ with hfast
    · obtain ⟨out, hout, hok⟩ := bind_eq_ok.mp hok
      cases hok
      obtain ⟨out', hout', hfront'⟩ := hbefore.modifyByte (by rw [hbyte]) hout
      refine ⟨⟨out', i, used + bits⟩, by rw [hout']; rfl, rfl, rfl, ?_⟩
      rw [BitPacker.bytesUsed, if_neg (show used + bits ≠ 0 by omega)]
      exact hfront'
    · obtain ⟨out, hout, hok⟩ := bind_eq_ok.mp hok
      obtain ⟨out', hout', hfront'⟩ := hbefore.modifyByte (by rw [hbyte]) hout
      obtain ⟨q', hq', halike⟩ := packAligned_alike value _ hfront' hok
      exact ⟨q', by rw [hout', ok_bind, hq'], halike⟩
  · rw [if_neg hzero] at hok ⊢
    rw [if_pos (Nat.eq_zero_of_not_pos hzero)] at hfront
    exact packAligned_alike value bits hfront hok

/-! ## Bytes stay bytes -/

theorem modifyByte_lt {f : ℕ → ℕ} (hbytes : ∀ b ∈ bytes, b < 256) (hf : ∀ b < 256, f b < 256)
    {out : List ℕ} (hok : modifyByte bytes i f = .ok out) : ∀ b ∈ out, b < 256 := by
  rw [modifyByte] at hok
  cases hget : bytes[i]? with
  | none =>
      rw [hget] at hok
      cases hok
  | some b =>
      rw [hget] at hok
      cases hok
      intro b' hb'
      rcases List.mem_or_eq_of_mem_set hb' with hb' | rfl
      · exact hbytes b' hb'
      · exact hf b (hbytes b (List.mem_of_getElem? hget))

theorem packAligned_lt {value bits : ℕ} {i : ℕ} (hbytes : ∀ b ∈ bytes, b < 256) {p : BitPacker}
    (hok : BitPacker.packAligned value bits bytes i = .ok p) : ∀ b ∈ p.bytes, b < 256 := by
  have hloop : ∀ {bits : ℕ} {bytes : List ℕ} {i : ℕ} {out : List ℕ} {j r : ℕ},
      (∀ b ∈ bytes, b < 256) → BitPacker.packBytes value bits bytes i = .ok (out, j, r) →
        ∀ b ∈ out, b < 256 := by
    intro bits bytes i out j r hbytes hok
    induction bits, bytes, i using BitPacker.packBytes.induct generalizing out with
    | case1 bits bytes i ih =>
        obtain ⟨mid, hmid, hok⟩ := bind_eq_ok.mp hok
        exact ih mid (modifyByte_lt hbytes (fun _ _ ↦ Nat.mod_lt _ (by decide)) hmid) hok
    | case2 bits bytes i hshort =>
        have hlt : bits < 8 := by
          by_contra hlt
          exact hshort (bits - 8) (by omega)
        rw [BitPacker.packBytes_of_lt hlt] at hok
        cases hok
        exact hbytes
  obtain ⟨⟨out, j, r⟩, hout, hok⟩ := bind_eq_ok.mp hok
  have hbytes' := hloop hbytes hout
  dsimp only at hok
  split_ifs at hok
  · obtain ⟨last, hlast, hok⟩ := bind_eq_ok.mp hok
    cases hok
    exact modifyByte_lt hbytes' (fun _ _ ↦ Nat.mod_lt _ (by decide)) hlast
  · cases hok
    exact hbytes'

theorem packValue_lt {p q : BitPacker} {value bits : ℕ} (hbytes : ∀ b ∈ p.bytes, b < 256)
    (hok : p.packValue value bits = .ok q) : ∀ b ∈ q.bytes, b < 256 := by
  obtain ⟨-, hok⟩ := assert_bind_eq_ok.mp hok
  have hor : ∀ x m : ℕ, ∀ b < 256, b ||| (x % 256 &&& m) < 256 := fun x m b hb ↦
    Nat.or_lt_two_pow (n := 8) hb (Nat.and_le_left.trans_lt (Nat.mod_lt x (by decide)))
  dsimp only at hok
  split_ifs at hok
  · obtain ⟨out, hout, hok⟩ := bind_eq_ok.mp hok
    cases hok
    exact modifyByte_lt hbytes (hor _ _) hout
  · obtain ⟨out, hout, hok⟩ := bind_eq_ok.mp hok
    exact packAligned_lt (modifyByte_lt hbytes (hor _ _) hout) hok
  · exact packAligned_lt hbytes hok

/-! ## Fields of any widths -/

/-- Packs each value in its width. -/
def packAll : List (ℕ × ℕ) → BitPacker → Checked BitPacker
  | [], packer => .ok packer
  | field :: rest, packer => do packAll rest (← packer.packValue field.1 field.2)

/-- Unpacks a value of each width. -/
def unpackAll : List ℕ → BitUnpacker → Checked (List ℕ)
  | [], _ => .ok []
  | width :: rest, unpacker => do
      let (value, unpacker) ← unpacker.unpackValue width
      return value :: (← unpackAll rest unpacker)

/-- The fields stand one after the other. -/
def HoldsFields (bytes : List ℕ) : ℕ → List (ℕ × ℕ) → Prop
  | _, [] => True
  | p, field :: rest => Holds bytes p field.2 field.1 ∧ HoldsFields bytes (p + field.2) rest

/-- The number of bits of all fields. -/
def totalBits (fields : List (ℕ × ℕ)) : ℕ := (fields.map Prod.snd).sum

variable {fields : List (ℕ × ℕ)}

@[simp] theorem totalBits_cons (field : ℕ × ℕ) (fields : List (ℕ × ℕ)) :
    totalBits (field :: fields) = field.2 + totalBits fields := List.sum_cons

theorem HoldsFields.of_bits {p : ℕ} (h : HoldsFields bytes p fields)
    (hbits : ∀ q, p ≤ q → q < p + totalBits fields → bit bytes' q = bit bytes q) :
    HoldsFields bytes' p fields := by
  induction fields generalizing p with
  | nil => trivial
  | cons field fields ih =>
      rw [totalBits_cons] at hbits
      exact ⟨h.1.of_bits fun q hq hlt ↦ hbits q hq (by omega),
        ih h.2 fun q hq hlt ↦ hbits q (by omega) (by omega)⟩

theorem packAll_alike {p p' q : BitPacker} (h : Alike p p') (hok : packAll fields p = .ok q) :
    ∃ q', packAll fields p' = .ok q' ∧ Alike q q' := by
  induction fields generalizing p p' with
  | nil =>
      cases hok
      exact ⟨p', rfl, h⟩
  | cons field fields ih =>
      obtain ⟨mid, hmid, hok⟩ := bind_eq_ok.mp hok
      obtain ⟨mid', hmid', halike⟩ := packValue_alike h field.1 field.2 hmid
      obtain ⟨q', hq', halike'⟩ := ih halike hok
      exact ⟨q', by rw [packAll, hmid', ok_bind, hq'], halike'⟩

theorem packAll_lt {p q : BitPacker} (hbytes : ∀ b ∈ p.bytes, b < 256)
    (hok : packAll fields p = .ok q) : ∀ b ∈ q.bytes, b < 256 := by
  induction fields generalizing p with
  | nil =>
      cases hok
      exact hbytes
  | cons field fields ih =>
      obtain ⟨mid, hmid, hok⟩ := bind_eq_ok.mp hok
      exact ih (packValue_lt hbytes hmid) hok

/-- Packing fields appends their bits. -/
theorem packAll_spec {p : BitPacker} (h : p.Ready)
    (hroom : p.pos + totalBits fields ≤ 8 * p.bytes.length) :
    ∃ q, packAll fields p = .ok q ∧ q.Ready ∧ q.pos = p.pos + totalBits fields ∧
      q.bytes.length = p.bytes.length ∧ (∀ r < p.pos, bit q.bytes r = bit p.bytes r) ∧
      HoldsFields q.bytes p.pos fields := by
  induction fields generalizing p with
  | nil => exact ⟨p, rfl, h, rfl, rfl, fun _ _ ↦ rfl, trivial⟩
  | cons field fields ih =>
      rw [totalBits_cons] at hroom
      obtain ⟨p₁, hok, hpacks⟩ := BitPacker.packValue_spec h field.1 field.2 (by omega)
      have hpos := hpacks.pos_eq
      obtain ⟨q, hok', hready, hpos', hlen, hbefore, hholds⟩ :=
        ih hpacks.toReady (by rw [hpos, hpacks.length_eq]; omega)
      refine ⟨q, ?_, hready, ?_, hlen.trans hpacks.length_eq, fun r hr ↦ ?_, ?_, hpos ▸ hholds⟩
      · rw [packAll, hok, ok_bind, hok']
      · rw [hpos', hpos, totalBits_cons, Nat.add_assoc]
      · rw [hbefore r (by omega), hpacks.before r hr]
      · exact hpacks.holds.of_bits fun r _ hr ↦ hbefore r (by omega)

/-- Unpacking reads what the bytes hold. -/
theorem unpackAll_spec {u : BitUnpacker} (hbytes : ∀ b ∈ u.bytes, b < 256)
    (hused : u.byteBitUsed < 8) (hroom : u.pos + totalBits fields ≤ 8 * u.bytes.length)
    (hholds : HoldsFields u.bytes u.pos fields) (hfit : ∀ field ∈ fields, field.1 < 2 ^ field.2) :
    unpackAll (fields.map Prod.snd) u = .ok (fields.map Prod.fst) := by
  induction fields generalizing u with
  | nil => rfl
  | cons field fields ih =>
      rw [totalBits_cons] at hroom
      obtain ⟨value, u', hok, hsame, hused', hpos, hvalue, hlt⟩ :=
        BitUnpacker.unpackValue_spec hbytes hused (show u.pos + field.2 ≤ _ by omega)
      have hrest : unpackAll (fields.map Prod.snd) u' = .ok (fields.map Prod.fst) := by
        refine ih (hsame ▸ hbytes) hused' (by rw [hsame, hpos]; omega) ?_
          fun f hf ↦ hfit f (List.mem_cons_of_mem _ hf)
        rw [hsame, hpos]
        exact hholds.2
      rw [List.map_cons, List.map_cons, unpackAll, hok, ok_bind]
      dsimp only
      rw [hrest, hvalue.unique hholds.1 hlt (hfit field List.mem_cons_self)]
      rfl

/-! ## One width -/

theorem packTail_eq_packAll (bits : ℕ) (ds : List ℕ) (p : BitPacker) :
    packTail bits ds p = packAll (ds.map (·, bits)) p := by
  induction ds generalizing p with
  | nil => rfl
  | cons d ds ih =>
      rw [packTail, List.map_cons, packAll]
      exact congrArg _ (funext ih)

theorem unpackTail_eq_unpackAll (bits n : ℕ) (u : BitUnpacker) :
    unpackTail bits n u = unpackAll (List.replicate n bits) u := by
  induction n generalizing u with
  | zero => rfl
  | succ n ih =>
      rw [unpackTail, List.replicate_succ, unpackAll]
      simp only [ih]

/-- Bytes with the same bits are the same. -/
theorem eq_of_bits (hlen : bytes'.length = bytes.length) (hlt : ∀ b ∈ bytes, b < 256)
    (hlt' : ∀ b ∈ bytes', b < 256) (hbits : ∀ q < 8 * bytes.length, bit bytes' q = bit bytes q) :
    bytes' = bytes := by
  refine List.ext_getElem hlen fun i hi' hi ↦ Nat.eq_of_testBit_eq fun s ↦ ?_
  by_cases hs : s < 8
  · have hbit := hbits (8 * i + (7 - s)) (by omega)
    rw [bit, bit, show (8 * i + (7 - s)) / 8 = i by omega,
      show 7 - (8 * i + (7 - s)) % 8 = s by omega, List.getD_eq_getElem _ _ hi,
      List.getD_eq_getElem _ _ hi'] at hbit
    exact hbit
  · have hpow : 256 ≤ 2 ^ s := Nat.pow_le_pow_right (n := 2) two_pos (not_lt.mp hs)
    rw [Nat.testBit_lt_two_pow ((hlt _ (List.getElem_mem hi)).trans_le hpow),
      Nat.testBit_lt_two_pow ((hlt' _ (List.getElem_mem hi')).trans_le hpow)]

/-- Bits that are held are the same. -/
theorem bit_eq_of_holdsAll {k p : ℕ} {xs : List ℕ} (h : HoldsAll bytes k p xs)
    (h' : HoldsAll bytes' k p xs) {q : ℕ} (hq : p ≤ q) (hlt : q < p + xs.length * k) :
    bit bytes' q = bit bytes q := by
  induction xs generalizing p with
  | nil =>
      rw [List.length_nil, Nat.zero_mul] at hlt
      omega
  | cons x xs ih =>
      rw [List.length_cons, Nat.succ_mul] at hlt
      by_cases hqk : q < p + k
      · have hfirst := h.1 (q - p) (by omega)
        have hfirst' := h'.1 (q - p) (by omega)
        rw [Nat.add_sub_cancel' hq] at hfirst hfirst'
        rw [hfirst, hfirst']
      · exact ih h.2 h'.2 (not_lt.mp hqk) (by omega)

/-! ## Agreement -/

/-- A block is what the packer writes into a zeroed buffer. -/
theorem packBitsBlock_eq {bits : ℕ} (hbits : 1 ≤ bits ∧ bits ≤ 63) {values out : List ℕ}
    (hlen : values.length = 8) (hout : bits ≤ out.length) :
    ∃ p, packAll (values.map (·, bits)) (.new (List.replicate bits 0)) = .ok p ∧
      packBitsBlock values out bits = .ok (p.bytes ++ out.drop bits) := by
  have htable : packTables[bits - 1]? = some (packLayout bits) := by
    rw [packTables_eq, List.getElem?_map, List.getElem?_range (by omega)]
    simp only [Option.map_some, Nat.sub_add_cancel hbits.1]
  obtain ⟨block, hblock⟩ : ∃ block, block = (packLayout bits).map (joinTerms values · % 256) :=
    ⟨_, rfl⟩
  have hok : ∀ out : List ℕ, bits ≤ out.length →
      packBitsBlock values out bits = .ok (block ++ out.drop bits) := by
    intro out hout
    simp [packBitsBlock, blockWidth, hlen, hbits, htable, hout, hblock]
  obtain ⟨block', hok', hblocklen, hholds⟩ := packBitsBlock_spec hbits hlen
  rw [hok _ (List.length_replicate.ge), List.drop_eq_nil_of_le (List.length_replicate.le),
    List.append_nil] at hok'
  cases hok'
  obtain ⟨p, hp, -, -, hplen, -, hpholds⟩ := @packTail_spec bits values _ (ready_replicate bits) (by
    rw [BitPacker.pos, BitPacker.new, hlen, List.length_replicate]
    dsimp only
    omega)
  rw [packTail_eq_packAll] at hp
  rw [BitPacker.new, List.length_replicate] at hplen
  refine ⟨p, hp, ?_⟩
  have hzeros : ∀ b ∈ (BitPacker.new (List.replicate bits 0)).bytes, b < 256 := fun b hb ↦ by
    rw [List.eq_of_mem_replicate hb]
    decide
  have heq : p.bytes = block := by
    refine eq_of_bits (hplen.trans hblocklen.symm) (fun b hb ↦ ?_) (packAll_lt hzeros hp)
      fun q hq ↦ bit_eq_of_holdsAll hholds hpholds (Nat.zero_le q) ?_
    · rw [hblock] at hb
      obtain ⟨terms, -, rfl⟩ := List.mem_map.mp hb
      exact Nat.mod_lt _ (by decide)
    · rw [hlen]
      omega
  rw [heq, hok out hout]

/-- A block is unpacked as the unpacker reads it. -/
theorem unpackBitsBlock_eq {bits : ℕ} (hbits : 1 ≤ bits ∧ bits ≤ 63) {block : List ℕ}
    (hlen : block.length = bits) (hbytes : ∀ b ∈ block, b < 256) :
    ∃ values, unpackBitsBlock block bits = .ok values ∧
      unpackAll (List.replicate 8 bits) (.new block) = .ok values := by
  obtain ⟨values, hok, hlen₈, hholds, hlt⟩ := unpackBitsBlock_spec hbits hlen
  obtain ⟨values', hok', hlen', hholds', hlt'⟩ :=
    @unpackTail_spec bits 8 (.new block) hbytes (show 0 < 8 by decide) (by
      rw [BitUnpacker.pos, BitUnpacker.new]
      dsimp only
      omega)
  have heq : values' = values := hholds'.unique hholds (hlen'.trans hlen₈.symm) hlt' hlt
  rw [unpackTail_eq_unpackAll, heq] at hok'
  exact ⟨values, hok, hok'⟩

/-- Fields that fit are read back, whatever the buffer held before. -/
theorem unpackAll_packAll {out : List ℕ} (hout : ∀ b ∈ out, b < 256)
    (hroom : totalBits fields ≤ 8 * out.length) (hfit : ∀ field ∈ fields, field.1 < 2 ^ field.2) :
    ∃ p, packAll fields (.new out) = .ok p ∧
      unpackAll (fields.map Prod.snd) (.new p.bytes) = .ok (fields.map Prod.fst) := by
  obtain ⟨clean, hclean, hready, hpos, hcleanlen, -, hholds⟩ :=
    @packAll_spec fields _ (ready_replicate out.length) (by
      rw [BitPacker.pos, BitPacker.new, List.length_replicate]
      dsimp only
      omega)
  have hstart : Alike (.new (List.replicate out.length 0)) (.new out) :=
    ⟨rfl, rfl, List.length_replicate.symm, fun i hi ↦ absurd hi (Nat.not_lt_zero i)⟩
  obtain ⟨p, hp, halike⟩ := packAll_alike hstart hclean
  have hpos₀ : (BitPacker.new (List.replicate out.length 0)).pos = 0 := rfl
  rw [hpos₀, Nat.zero_add] at hpos
  rw [hpos₀] at hholds
  rw [BitPacker.new, List.length_replicate] at hcleanlen
  have hplen : p.bytes.length = out.length := halike.front.1.trans hcleanlen
  -- The bits of the fields are in bytes that were begun.
  have hpholds : HoldsFields p.bytes 0 fields := by
    refine hholds.of_bits fun q _ hq ↦ ?_
    have hbyte := halike.front.2 (q / 8) (by rw [bytesUsed_eq hready]; omega)
    rw [bit, bit, hbyte]
  refine ⟨p, hp, unpackAll_spec (u := .new p.bytes) (packAll_lt hout hp) (show 0 < 8 by decide) ?_
    hpholds hfit⟩
  rw [BitUnpacker.pos, BitUnpacker.new]
  dsimp only
  omega

/-- Both ways of packing write the same, both ways of unpacking read the same, and what is packed
is read back. -/
theorem blocks_agree_with_packer {bits : ℕ} (hbits : 1 ≤ bits ∧ bits ≤ 63)
    {values out block : List ℕ} (hvalues : values.length = 8) (hout : bits ≤ out.length)
    (hblock : block.length = bits) (hbytes : ∀ b ∈ block, b < 256)
    {fields : List (ℕ × ℕ)} {buffer : List ℕ} (hbuffer : ∀ b ∈ buffer, b < 256)
    (hroom : totalBits fields ≤ 8 * buffer.length)
    (hfit : ∀ field ∈ fields, field.2 ≤ 64 ∧ field.1 < 2 ^ field.2) :
    (∃ p, packAll (values.map (·, bits)) (.new (List.replicate bits 0)) = .ok p ∧
      packBitsBlock values out bits = .ok (p.bytes ++ out.drop bits)) ∧
    (∃ values', unpackBitsBlock block bits = .ok values' ∧
      unpackAll (List.replicate 8 bits) (.new block) = .ok values') ∧
    ∃ p, packAll fields (.new buffer) = .ok p ∧
      unpackAll (fields.map Prod.snd) (.new p.bytes) = .ok (fields.map Prod.fst) :=
  ⟨packBitsBlock_eq hbits hvalues hout, unpackBitsBlock_eq hbits hblock hbytes,
    unpackAll_packAll hbuffer hroom fun field hfield ↦ (hfit field hfield).2⟩

/-- Blocks of three bits, and fields in a buffer that was used before. -/
theorem blocks_agree_with_packer_three :
    (∃ p, packAll ([0, 1, 2, 3, 4, 5, 6, 7].map (·, 3)) (.new (List.replicate 3 0)) = .ok p ∧
      packBitsBlock [0, 1, 2, 3, 4, 5, 6, 7] [0, 0, 0] 3 = .ok (p.bytes ++ [0, 0, 0].drop 3)) ∧
    (∃ values', unpackBitsBlock [5, 57, 119] 3 = .ok values' ∧
      unpackAll (List.replicate 8 3) (.new [5, 57, 119]) = .ok values') ∧
    ∃ p, packAll [(5, 3), (1000, 11), (0, 0), (1, 2)] (.new [255, 255]) = .ok p ∧
      unpackAll [3, 11, 0, 2] (.new p.bytes) = .ok [5, 1000, 0, 1] :=
  blocks_agree_with_packer (by decide) (by decide) (by decide) (by decide) (by decide) (by decide)
    (by decide) (by decide)

end BitPack

end DataSketches
