import DataSketches.Common.Codec
import DataSketches.ThetaFamily.Theta.BitPack

/-!
# Packed deltas

The compressed format stores the differences of successive hashes, each in the
same number of bits.  Blocks of eight and the tail go through different code on
both sides; all of it writes and reads one bit string (`BitStream.HoldsAll`), so
that the blocks need not be matched with one another.
-/

namespace DataSketches

namespace CompactThetaSketch

open BitPack BitStream Runs ByteReader SketchSlice

/-! ## Writing -/

/-- The differences of successive entries, from `previous` on. -/
def deltas : ℕ → List ℕ → Checked (List ℕ)
  | _, [] => .ok []
  | previous, entry :: rest => do
      let delta ← checkedSub entry previous
      return delta :: (← deltas entry rest)

/-- The number of bits that hold every delta. -/
def computeEntryBits (entries : List ℕ) : Checked ℕ := do
  return ((← deltas 0 entries).foldl (· ||| ·) 0).size

/-- The number of bytes that hold the entry count. -/
def numEntriesBytes (numEntries : ℕ) : ℕ := ((numEntries % 2 ^ 32).size + 7) / 8

/-- The loop that packs the deltas of the tail. -/
def packTail (bits : ℕ) : List ℕ → BitPacker → Checked BitPacker
  | [], packer => .ok packer
  | delta :: rest, packer => do packTail bits rest (← packer.packValue delta bits)

/-- The loops that pack the deltas, blocks of eight first. -/
def packDeltas (bits : ℕ) : List ℕ → Checked (List ℕ)
  | d₀ :: d₁ :: d₂ :: d₃ :: d₄ :: d₅ :: d₆ :: d₇ :: rest => do
      let block ← packBitsBlock [d₀, d₁, d₂, d₃, d₄, d₅, d₆, d₇] (List.replicate bits 0) bits
      return block ++ (← packDeltas bits rest)
  | [] => .ok []
  | tail => do
      let packer ← packTail bits tail (.new (List.replicate bits 0))
      return packer.bytes.take packer.bytesUsed

/-! ## Reading -/

/-- The loop that unpacks the deltas of the tail. -/
def unpackTail (bits : ℕ) : ℕ → BitUnpacker → Checked (List ℕ)
  | 0, _ => .ok []
  | n + 1, unpacker => do
      let (delta, unpacker) ← unpacker.unpackValue bits
      return delta :: (← unpackTail bits n unpacker)

/-- The loops that unpack the deltas, blocks of eight first. -/
def readDeltas (bits : ℕ) : ℕ → SketchSlice (List ℕ)
  | n + 8 => do
      let block ← readExact (insufficientData "delta_block") bits
      let values ← liftChecked (unpackBitsBlock (block.map UInt8.toNat) bits)
      return values ++ (← readDeltas bits n)
  | 0 => return []
  | n => do
      let tail ← readExact (insufficientData "delta_tail") ((n * bits + 7) / 8)
      liftChecked (unpackTail bits n (.new (tail.map UInt8.toNat)))

/-- The loop that undoes the deltas and checks the hashes. -/
def undoDeltas (theta : ℕ) : ℕ → List ℕ → Except Error (List ℕ)
  | _, [] => .ok []
  | previous, delta :: rest =>
      if delta + previous ≥ 2 ^ 64 then .error (.deserial "Theta entry delta overflows")
      else
        let entry := delta + previous
        if entry = 0 ∨ entry ≥ theta then
          .error (.deserial "corrupted: invalid retained hash value")
        else do return entry :: (← undoDeltas theta entry rest)

/-! ## Blocks -/

variable {bits : ℕ}

/-- A packed block holds its values. -/
theorem packBitsBlock_spec (hbits : 1 ≤ bits ∧ bits ≤ 63) {values : List ℕ}
    (hlen : values.length = 8) :
    ∃ block, packBitsBlock values (List.replicate bits 0) bits = .ok block ∧
      block.length = bits ∧ HoldsAll block bits 0 values := by
  have htable : packTables[bits - 1]? = some (packLayout bits) := by
    rw [packTables_eq, List.getElem?_map, List.getElem?_range (by omega)]
    simp only [Option.map_some, Nat.sub_add_cancel hbits.1]
  refine ⟨(packLayout bits).map (joinTerms values · % 256), ?_, by simp [packLayout], ?_⟩
  · simp [packBitsBlock, blockWidth, hlen, hbits, htable]
  · rw [holdsAll_iff]
    intro i hi
    rw [Nat.zero_add]
    exact holds_packLayout values (hlen ▸ hi)

/-- An unpacked block is what the bytes hold. -/
theorem unpackBitsBlock_spec (hbits : 1 ≤ bits ∧ bits ≤ 63) {block : List ℕ}
    (hlen : block.length = bits) :
    ∃ values, unpackBitsBlock block bits = .ok values ∧ values.length = 8 ∧
      HoldsAll block bits 0 values ∧ ∀ x ∈ values, x < 2 ^ bits := by
  have htable : unpackTables[bits - 1]? = some (unpackLayout bits) := by
    rw [unpackTables_eq, List.getElem?_map, List.getElem?_range (by omega)]
    simp only [Option.map_some, Nat.sub_add_cancel hbits.1]
  have hlen₈ : ((unpackLayout bits).map (joinTerms block)).length = 8 := by simp [unpackLayout]
  refine ⟨(unpackLayout bits).map (joinTerms block), ?_, hlen₈, ?_, fun x hx ↦ ?_⟩
  · simp [unpackBitsBlock, hlen, hbits, htable]
  · rw [holdsAll_iff]
    intro i hi
    rw [Nat.zero_add]
    exact (holds_unpackLayout block (hlen₈ ▸ hi)).1
  · obtain ⟨i, hi, rfl⟩ := List.getElem_of_mem hx
    rw [← List.getD_eq_getElem _ 0 hi]
    exact (holds_unpackLayout block (hlen₈ ▸ hi)).2

/-! ## The tail -/

/-- The loop appends its values to what was packed. -/
theorem packTail_spec {ds : List ℕ} {p : BitPacker} (h : p.Ready)
    (hroom : p.pos + ds.length * bits ≤ 8 * p.bytes.length) :
    ∃ p', packTail bits ds p = .ok p' ∧ p'.Ready ∧ p'.pos = p.pos + ds.length * bits ∧
      p'.bytes.length = p.bytes.length ∧ (∀ q < p.pos, bit p'.bytes q = bit p.bytes q) ∧
      HoldsAll p'.bytes bits p.pos ds := by
  induction ds generalizing p with
  | nil => exact ⟨p, rfl, h, by simp, rfl, fun _ _ ↦ rfl, trivial⟩
  | cons d ds ih =>
      rw [List.length_cons, Nat.succ_mul] at hroom
      obtain ⟨p₁, hok, hpacks⟩ := BitPacker.packValue_spec h d bits (by omega)
      have hpos := hpacks.pos_eq
      have hlen := hpacks.length_eq
      obtain ⟨p', hok', hready, hpos', hlen', hbefore, hholds⟩ := ih hpacks.toReady (by omega)
      refine ⟨p', ?_, hready, ?_, hlen'.trans hlen, fun q hq ↦ ?_, ?_, hpos ▸ hholds⟩
      · rw [packTail, hok]
        exact hok'
      · rw [hpos', hpos, List.length_cons, Nat.succ_mul]
        omega
      · rw [hbefore q (by omega), hpacks.before q hq]
      · exact hpacks.holds.of_bits fun q _ hq ↦ hbefore q (by omega)

/-- The loop reads the values the bytes hold. -/
theorem unpackTail_spec {n : ℕ} {u : BitUnpacker} (hbytes : ∀ b ∈ u.bytes, b < 256)
    (hused : u.byteBitUsed < 8) (hroom : u.pos + n * bits ≤ 8 * u.bytes.length) :
    ∃ values, unpackTail bits n u = .ok values ∧ values.length = n ∧
      HoldsAll u.bytes bits u.pos values ∧ ∀ x ∈ values, x < 2 ^ bits := by
  induction n generalizing u with
  | zero => exact ⟨[], rfl, rfl, trivial, fun x hx ↦ absurd hx List.not_mem_nil⟩
  | succ n ih =>
      rw [Nat.succ_mul] at hroom
      obtain ⟨value, u', hok, hsame, hused', hpos, hholds, hlt⟩ :=
        BitUnpacker.unpackValue_spec hbytes hused (show u.pos + bits ≤ _ by omega)
      obtain ⟨values, hok', hlen, hholds', hlt'⟩ :=
        ih (u := u') (by rw [hsame]; exact hbytes) hused' (by rw [hsame, hpos]; omega)
      rw [hsame, hpos] at hholds'
      refine ⟨value :: values, ?_, by rw [List.length_cons, hlen], ⟨hholds, hholds'⟩, ?_⟩
      · simp only [unpackTail, hok, ok_bind, hok', pure_eq_ok]
      · intro x hx
        rcases List.mem_cons.mp hx with rfl | hx
        · exact hlt
        · exact hlt' x hx

/-! ## All deltas -/

theorem bytesUsed_eq {p : BitPacker} (h : p.Ready) : p.bytesUsed = (p.pos + 7) / 8 := by
  have hlt := h.used_lt
  unfold BitPacker.bytesUsed BitPacker.pos
  split_ifs with hzero <;> omega

/-- The bits of zeroed bytes. -/
theorem ready_replicate (n : ℕ) : (BitPacker.new (List.replicate n 0)).Ready := by
  refine ⟨Nat.zero_lt_succ 7, fun q _ ↦ ?_⟩
  have hzero : ∀ i, (List.replicate n 0).getD i 0 = 0 := by
    intro i
    rw [List.getD_eq_getElem?_getD, List.getElem?_replicate]
    split_ifs <;> rfl
  change bit (List.replicate n 0) q = false
  rw [bit, hzero, Nat.zero_testBit]

/-- Packing the tail into zeroed bytes. -/
theorem packTail_new (bits : ℕ) {ds : List ℕ} (hlen : ds.length ≤ 8) :
    ∃ p, packTail bits ds (.new (List.replicate bits 0)) = .ok p ∧
      (p.bytes.take p.bytesUsed).length = (ds.length * bits + 7) / 8 ∧
      HoldsAll (p.bytes.take p.bytesUsed) bits 0 ds := by
  have hroom : ds.length * bits ≤ 8 * bits := Nat.mul_le_mul_right bits hlen
  obtain ⟨p, hok, hready, hpos, hplen, -, hholds⟩ := packTail_spec (ready_replicate bits)
    (show (BitPacker.new (List.replicate bits 0)).pos + ds.length * bits ≤ _ by
      simpa [BitPacker.new, BitPacker.pos] using hroom)
  have hpos₀ : (BitPacker.new (List.replicate bits 0)).pos = 0 := rfl
  rw [hpos₀, Nat.zero_add] at hpos
  rw [hpos₀] at hholds
  have hused : p.bytesUsed = (ds.length * bits + 7) / 8 := by rw [bytesUsed_eq hready, hpos]
  have hle : p.bytesUsed ≤ p.bytes.length := by
    rw [hused, hplen, BitPacker.new, List.length_replicate]
    omega
  refine ⟨p, hok, by rw [List.length_take, hused]; omega, hholds.of_bits fun q _ hq ↦ ?_⟩
  conv_rhs => rw [← List.take_append_drop p.bytesUsed p.bytes]
  rw [bit_append, if_pos]
  rw [List.length_take, min_eq_left hle, hused]
  omega

theorem eq_block_append {ds : List ℕ} (h : 8 ≤ ds.length) :
    ∃ d₀ d₁ d₂ d₃ d₄ d₅ d₆ d₇ rest,
      ds = d₀ :: d₁ :: d₂ :: d₃ :: d₄ :: d₅ :: d₆ :: d₇ :: rest := by
  rcases ds with _ | ⟨d₀, _ | ⟨d₁, _ | ⟨d₂, _ | ⟨d₃, _ | ⟨d₄, _ | ⟨d₅, _ | ⟨d₆, _ | ⟨d₇, rest⟩⟩⟩⟩⟩⟩⟩⟩
  case cons.cons.cons.cons.cons.cons.cons.cons => exact ⟨d₀, d₁, d₂, d₃, d₄, d₅, d₆, d₇, rest, rfl⟩
  all_goals simp at h

/-- The packed deltas stand one after the other, in as many bytes as they need. -/
theorem packDeltas_spec (hbits : 1 ≤ bits ∧ bits ≤ 63) (ds : List ℕ) :
    ∃ bytes, packDeltas bits ds = .ok bytes ∧ bytes.length = (ds.length * bits + 7) / 8 ∧
      HoldsAll bytes bits 0 ds := by
  induction ds using packDeltas.induct with
  | case1 d₀ d₁ d₂ d₃ d₄ d₅ d₆ d₇ rest ih =>
      obtain ⟨block, hok, hlen, hholds⟩ :=
        packBitsBlock_spec hbits (show [d₀, d₁, d₂, d₃, d₄, d₅, d₆, d₇].length = 8 from rfl)
      obtain ⟨bytes, hok', hlen', hholds'⟩ := ih
      refine ⟨block ++ bytes, ?_, ?_, ?_⟩
      · simp only [packDeltas, hok, hok', ok_bind, pure_eq_ok]
      · simp only [List.length_append, List.length_cons, hlen, hlen', Nat.add_mul]
        omega
      · have hsplit : d₀ :: d₁ :: d₂ :: d₃ :: d₄ :: d₅ :: d₆ :: d₇ :: rest =
            [d₀, d₁, d₂, d₃, d₄, d₅, d₆, d₇] ++ rest := rfl
        rw [hsplit, holdsAll_append]
        constructor
        · refine holdsAll_append_left hholds ?_
          simp [hlen]
        · have h := (holdsAll_append_right block).mpr hholds'
          rwa [hlen, Nat.add_zero, Nat.mul_comm, ← Nat.zero_add (bits * 8), Nat.mul_comm] at h
  | case2 => exact ⟨[], rfl, by simp, trivial⟩
  | case3 ds hshort hne =>
      have hlen : ds.length ≤ 8 := by
        by_contra hlt
        obtain ⟨d₀, d₁, d₂, d₃, d₄, d₅, d₆, d₇, rest, rfl⟩ := eq_block_append (not_le.mp hlt).le
        exact hshort d₀ d₁ d₂ d₃ d₄ d₅ d₆ d₇ rest rfl
      obtain ⟨p, hok, hlen', hholds⟩ := packTail_new bits hlen
      refine ⟨_, ?_, hlen', hholds⟩
      rw [packDeltas, hok]
      · rfl
      · exact hshort
      · exact hne

/-- The deltas that are read are those that the bytes hold. -/
theorem readDeltas_spec (hbits : 1 ≤ bits ∧ bits ≤ 63) (n : ℕ) {bs : List UInt8}
    (hroom : (n * bits + 7) / 8 ≤ bs.length) :
    ∃ ds, readDeltas bits n bs = .ok (ds, bs.drop ((n * bits + 7) / 8)) ∧ ds.length = n ∧
      HoldsAll (bs.map UInt8.toNat) bits 0 ds ∧ ∀ d ∈ ds, d < 2 ^ bits := by
  induction n using readDeltas.induct generalizing bs with
  | case1 n ih =>
      have hsplit : ((n + 8) * bits + 7) / 8 = bits + (n * bits + 7) / 8 := by
        rw [Nat.add_mul]
        omega
      rw [hsplit] at hroom ⊢
      have hblock : (bs.take bits).length = bits := by rw [List.length_take]; omega
      obtain ⟨values, hok, hlen, hholds, hlt⟩ := unpackBitsBlock_spec hbits
        (show ((bs.take bits).map UInt8.toNat).length = bits by rw [List.length_map, hblock])
      obtain ⟨ds, hok', hlen', hholds', hlt'⟩ := @ih (bs.drop bits) (by rw [List.length_drop]; omega)
      have hbytes : bs.map UInt8.toNat =
          (bs.take bits).map UInt8.toNat ++ (bs.drop bits).map UInt8.toNat := by
        rw [← List.map_append, List.take_append_drop]
      have hfst : (List.map UInt8.toNat (bs.take bits)).length = bits := by
        rw [List.length_map, hblock]
      refine ⟨values ++ ds, ?_, by rw [List.length_append, hlen, hlen', Nat.add_comm], ?_, ?_⟩
      · have hread : readExact (insufficientData "delta_block") bits bs =
            .ok (bs.take bits, bs.drop bits) := if_pos (by omega)
        simp only [readDeltas, bind_apply, hread, ok_bind, hok, liftChecked_ok, hok', pure_apply,
          List.drop_drop]
      · rw [hbytes, holdsAll_append]
        constructor
        · refine holdsAll_append_left hholds ?_
          rw [hfst, hlen, Nat.zero_add]
        · have h := (holdsAll_append_right ((bs.take bits).map UInt8.toNat)).mpr hholds'
          rwa [hfst, Nat.add_zero, ← hlen, ← Nat.zero_add (values.length * bits)] at h
      · intro d hd
        rcases List.mem_append.mp hd with hd | hd
        · exact hlt d hd
        · exact hlt' d hd
  | case2 =>
      refine ⟨[], ?_, rfl, trivial, fun d hd ↦ absurd hd List.not_mem_nil⟩
      simp [readDeltas]
  | case3 n hshort hne =>
      have hread : readExact (insufficientData "delta_tail") ((n * bits + 7) / 8) bs =
          .ok (bs.take ((n * bits + 7) / 8), bs.drop ((n * bits + 7) / 8)) := if_pos hroom
      obtain ⟨ds, hok, hlen, hholds, hlt⟩ := @unpackTail_spec bits n
        (.new ((bs.take ((n * bits + 7) / 8)).map UInt8.toNat))
        (fun b hb ↦ by
          obtain ⟨b, -, rfl⟩ := List.mem_map.mp hb
          exact b.toNat_lt)
        (Nat.zero_lt_succ 7)
        (by
          simp only [BitUnpacker.new, BitUnpacker.pos, List.length_map, List.length_take]
          omega)
      refine ⟨ds, ?_, hlen, ?_, hlt⟩
      · rw [readDeltas]
        · simp only [bind_apply, hread, ok_bind, hok, liftChecked_ok]
        · exact hshort
        · exact hne
      · rw [← List.take_append_drop ((n * bits + 7) / 8) bs, List.map_append]
        refine holdsAll_append_left hholds ?_
        rw [hlen, List.length_map, List.length_take]
        omega

/-- The bytes of packed deltas are read back. -/
theorem readDeltas_packDeltas (hbits : 1 ≤ bits ∧ bits ≤ 63) {ds : List ℕ}
    (hlt : ∀ d ∈ ds, d < 2 ^ bits) (rest : List UInt8) :
    ∃ bytes, packDeltas bits ds = .ok bytes ∧ bytes.length = (ds.length * bits + 7) / 8 ∧
      readDeltas bits ds.length (bytes.map UInt8.ofNat ++ rest) = .ok (ds, rest) := by
  obtain ⟨bytes, hok, hlen, hholds⟩ := packDeltas_spec hbits ds
  obtain ⟨ds', hok', hlen', hholds', hlt'⟩ := readDeltas_spec hbits ds.length
    (show _ ≤ (bytes.map UInt8.ofNat ++ rest).length by simp [hlen])
  refine ⟨bytes, hok, hlen, ?_⟩
  have hdrop : (bytes.map UInt8.ofNat ++ rest).drop ((ds.length * bits + 7) / 8) = rest :=
    List.drop_left' (by rw [List.length_map, hlen])
  have hmod : (bytes.map UInt8.ofNat).map UInt8.toNat = bytes.map (· % 256) := by
    rw [List.map_map]
    exact List.map_congr_left fun b _ ↦ UInt8.toNat_ofNat'
  have hsame : HoldsAll ((bytes.map UInt8.ofNat ++ rest).map UInt8.toNat) bits 0 ds := by
    rw [List.map_append, hmod]
    refine holdsAll_append_left (hholds.of_bits fun q _ _ ↦ bit_map_mod bytes q) ?_
    rw [List.length_map, hlen]
    omega
  rw [hok', hdrop, hholds'.unique hsame hlen' hlt' hlt]

/-! ## Deltas -/

/-- Ascending entries have deltas, from which they are restored. -/
theorem deltas_spec {theta : ℕ} (htheta : theta ≤ 2 ^ 64) {es : List ℕ} {previous : ℕ}
    (hasc : (previous :: es).Pairwise (· < ·)) (hlt : ∀ e ∈ es, e < theta) :
    ∃ ds, deltas previous es = .ok ds ∧ ds.length = es.length ∧ (∀ d ∈ ds, 0 < d ∧ d < theta) ∧
      undoDeltas theta previous ds = .ok es := by
  induction es generalizing previous with
  | nil => exact ⟨[], rfl, rfl, fun d hd ↦ absurd hd List.not_mem_nil, rfl⟩
  | cons e es ih =>
      obtain ⟨hhead, htail⟩ := List.pairwise_cons.mp hasc
      have hprev : previous < e := hhead e List.mem_cons_self
      have he : e < theta := hlt e List.mem_cons_self
      obtain ⟨ds, hok, hlen, hds, hundo⟩ := ih htail fun e' he' ↦ hlt e' (List.mem_cons_of_mem _ he')
      refine ⟨(e - previous) :: ds, ?_, by rw [List.length_cons, hlen, List.length_cons], ?_, ?_⟩
      · simp only [deltas, checkedSub_of_le hprev.le, hok, ok_bind, pure_eq_ok]
      · intro d hd
        rcases List.mem_cons.mp hd with rfl | hd
        · omega
        · exact hds d hd
      · have hsum : e - previous + previous = e := Nat.sub_add_cancel hprev.le
        rw [undoDeltas, hsum, if_neg (by omega), if_neg (by omega), hundo]
        rfl

/-- The width is enough for every delta, and no more than that of a hash. -/
theorem computeEntryBits_spec {es ds : List ℕ} (hds : deltas 0 es = .ok ds) {w : ℕ}
    (hlt : ∀ d ∈ ds, d < 2 ^ w) :
    ∃ bits, computeEntryBits es = .ok bits ∧ bits ≤ w ∧ (∀ d ∈ ds, d < 2 ^ bits) ∧
      ((∃ d ∈ ds, 0 < d) → 1 ≤ bits) := by
  have hfold : ∀ (ds : List ℕ) (acc : ℕ), (acc ≤ ds.foldl (· ||| ·) acc ∧
      ∀ d ∈ ds, d ≤ ds.foldl (· ||| ·) acc) ∧
      (acc < 2 ^ w → (∀ d ∈ ds, d < 2 ^ w) → ds.foldl (· ||| ·) acc < 2 ^ w) := by
    intro ds
    induction ds with
    | nil => exact fun acc ↦ ⟨⟨le_refl _, fun d hd ↦ absurd hd List.not_mem_nil⟩, fun h _ ↦ h⟩
    | cons d ds ih =>
        intro acc
        obtain ⟨⟨hacc, hle⟩, hlt⟩ := ih (acc ||| d)
        refine ⟨⟨Nat.left_le_or.trans hacc, fun d' hd' ↦ ?_⟩, fun hacc hall ↦ hlt ?_ ?_⟩
        · rcases List.mem_cons.mp hd' with rfl | hd'
          · exact Nat.right_le_or.trans hacc
          · exact hle d' hd'
        · exact Nat.or_lt_two_pow hacc (hall d List.mem_cons_self)
        · exact fun d' hd' ↦ hall d' (List.mem_cons_of_mem _ hd')
  obtain ⟨⟨-, hle⟩, hsize⟩ := hfold ds 0
  refine ⟨(ds.foldl (· ||| ·) 0).size, by rw [computeEntryBits, hds]; rfl,
    Nat.size_le.mpr (hsize (Nat.two_pow_pos w) hlt), fun d hd ↦ ?_, ?_⟩
  · exact (hle d hd).trans_lt (Nat.lt_size_self _)
  · rintro ⟨d, hd, hpos⟩
    exact Nat.size_pos.mpr (hpos.trans_le (hle d hd))

/-- What the entries restored from deltas are: hashes in range, which ascend from `previous` on
exactly when no delta is zero. -/
theorem undoDeltas_eq_ok {theta : ℕ} {ds es : List ℕ} {previous : ℕ}
    (h : undoDeltas theta previous ds = .ok es) :
    es.length = ds.length ∧ (∀ e ∈ es, 0 < e ∧ e < theta) ∧ (∀ e ∈ es, previous ≤ e) ∧
      ((previous :: es).Pairwise (· < ·) ↔ ∀ d ∈ ds, d ≠ 0) := by
  induction ds generalizing previous es with
  | nil =>
      cases h
      simp
  | cons d ds ih =>
      simp only [undoDeltas] at h
      split_ifs at h with hover
      obtain ⟨es', hok, h⟩ := bind_eq_ok.mp h
      cases h
      obtain ⟨hlen, hin, hge, hasc⟩ := ih hok
      refine ⟨by rw [List.length_cons, hlen, List.length_cons], fun e he ↦ ?_, fun e he ↦ ?_, ?_⟩
      · rcases List.mem_cons.mp he with rfl | he
        · omega
        · exact hin e he
      · rcases List.mem_cons.mp he with rfl | he
        · exact Nat.le_add_left _ _
        · exact (Nat.le_add_left _ _).trans (hge e he)
      · rw [List.pairwise_cons, hasc, @List.forall_mem_cons _ _ d]
        refine and_congr_left fun _ ↦ ?_
        constructor
        · intro hlt
          have := hlt _ List.mem_cons_self
          omega
        · intro hd e he
          rcases List.mem_cons.mp he with rfl | he
          · omega
          · have := hge e he
            omega

end CompactThetaSketch

end DataSketches
