import DataSketches.ThetaFamily.BinomialBounds
import DataSketches.ThetaFamily.Reachable
import DataSketches.ThetaFamily.Theta.Serialization

/-!
# What the decoder accepts

The decoder of compact Theta sketches checks sizes and the range of the hashes
below theta, but neither theta itself nor the order of the hashes.  A decoded
sketch is fit for every later operation exactly if its image is `Honest`: the
theta field is in range, and an image whose entries pass for ordered has them in
order.
-/

namespace DataSketches

namespace CompactThetaSketch

open BitPack BitStream LittleEndian Runs ByteReader SketchSlice

/-! ## What later operations rely on -/

/-- Returns theta as a floating-point number. -/
def thetaF64 (c : CompactThetaSketch) : ℚ := f64OfNat c.theta / f64OfNat maxTheta

section Bounds

variable {F : Type} (arith : BoundArithmetic F)

def lowerBound (c : CompactThetaSketch) (numStdDev : NumStdDev) : Checked F := do
  if !c.isEstimationMode then
    return arith.ofNat c.numRetained
  match ← BinomialBounds.lowerBound arith c.numRetained c.thetaF64 numStdDev with
  | .ok x => return x
  | .error _ => throw (.expect "compact theta should always be valid")

def upperBound (c : CompactThetaSketch) (numStdDev : NumStdDev) : Checked F := do
  if !c.isEstimationMode then
    return arith.ofNat c.numRetained
  match ← BinomialBounds.upperBound arith c.numRetained c.thetaF64 numStdDev c.empty with
  | .ok x => return x
  | .error _ => throw (.expect "compact theta should always be valid")

end Bounds

/-- Theta and the hashes are what every later operation takes them to be. -/
structure Valid (c : CompactThetaSketch) : Prop where
  theta_range : 1 ≤ c.theta ∧ c.theta ≤ maxTheta
  range : ∀ x ∈ c.entries, 1 ≤ x ∧ x < c.theta
  ordered : c.ordered = true → c.entries.Pairwise (· < ·)

/-- No later operation panics on the sketch.  The set operations are in any state that calls lead
to; their own seed must have a hash, without which they take no sketch at all. -/
structure Safe (c : CompactThetaSketch) : Prop where
  union : ∀ (u : ThetaUnion) (sh : ℕ), UnionState.Reachable u →
    computeSeedHash u.table.seed = .ok sh → ∃ r, u.update (.compact c) = .ok r
  intersection : ∀ (i : ThetaIntersection) (sh : ℕ), IntersectionState.Reachable i →
    computeSeedHash i.table.seed = .ok sh → ∃ r, i.update (.compact c) = .ok r
  aNotB : ∀ (op : ThetaANotB) (v : ThetaSketchView) (s : EntrySketch ThetaEntry) (ordered : Bool),
    v.view = .ok s → (∃ r, op.compute (.compact c) v ordered = .ok r) ∧
      ∃ r, op.compute v (.compact c) ordered = .ok r
  lowerBound : ∀ (F : Type) (arith : BoundArithmetic F) (numStdDev : NumStdDev),
    ∃ x, c.lowerBound arith numStdDev = .ok x
  upperBound : ∀ (F : Type) (arith : BoundArithmetic F) (numStdDev : NumStdDev),
    ∃ x, c.upperBound arith numStdDev = .ok x

variable {c : CompactThetaSketch}

/-- A theta in range is a fraction in range. -/
theorem thetaF64_range (h : 1 ≤ c.theta ∧ c.theta ≤ maxTheta) : 0 < c.thetaF64 ∧ c.thetaF64 ≤ 1 :=
  f64OfNat_div_range ⟨h.1, h.2.trans_lt (by decide)⟩

/-- The sketch can be viewed, and its view handed to the set operations. -/
theorem view_usable (hrange : ∀ x ∈ c.entries, 1 ≤ x ∧ x < c.theta) :
    ∃ s, (ThetaSketchView.compact c).view = .ok s ∧ Usable s ∧ s.scalars.theta = c.theta := by
  obtain ⟨es, hok, hes⟩ := ThetaEntry.mapM_new fun x hx ↦ Nat.one_le_iff_ne_zero.mp (hrange x hx).1
  refine ⟨⟨⟨c.seedHash, c.theta, c.empty, c.ordered, c.numRetained⟩, es⟩, ?_, ⟨?_, ?_⟩, rfl⟩
  · simp only [ThetaSketchView.view, hok, ok_bind, pure_eq_ok]
  · intro e he
    have hmem : e.hash ∈ c.entries := by
      rw [← hes]
      exact List.mem_map_of_mem he
    exact hrange _ hmem
  · change c.entries.length = es.length
    rw [← hes, List.length_map]

/-- A valid sketch is safe. -/
theorem Valid.safe (h : c.Valid) : c.Safe := by
  obtain ⟨s, hview, husable, htheta⟩ := view_usable h.range
  constructor
  case union =>
    intro u sh hu hseed
    obtain ⟨u', r, hok⟩ := hu.update_total s hseed
    exact ⟨(u', r), by rw [ThetaUnion.update, hview]; exact hok⟩
  case intersection =>
    intro i sh hi hseed
    obtain ⟨i', r, hok⟩ := hi.update_total husable hseed (.inr (htheta ▸ h.theta_range.1))
    exact ⟨(i', r), by rw [ThetaIntersection.update, hview]; exact hok⟩
  case aNotB =>
    intro op v s' ordered hv
    constructor
    · exact ⟨_, by rw [ThetaANotB.compute, hview, hv]; rfl⟩
    · exact ⟨_, by rw [ThetaANotB.compute, hview, hv]; rfl⟩
  case lowerBound =>
    intro F arith numStdDev
    obtain ⟨x, hx⟩ := BinomialBounds.lowerBound_total arith c.numRetained
      (thetaF64_range h.theta_range) numStdDev
    unfold CompactThetaSketch.lowerBound
    cases c.isEstimationMode with
    | false => exact ⟨_, rfl⟩
    | true =>
        rw [hx]
        exact ⟨_, rfl⟩
  case upperBound =>
    intro F arith numStdDev
    obtain ⟨x, hx⟩ := BinomialBounds.upperBound_total arith c.numRetained
      (thetaF64_range h.theta_range) numStdDev c.empty
    unfold CompactThetaSketch.upperBound
    cases c.isEstimationMode with
    | false => exact ⟨_, rfl⟩
    | true =>
        rw [hx]
        exact ⟨_, rfl⟩

/-! ## Fields of an image -/

/-- The numbers in `n` words from offset `off`. -/
def wordsAt (bytes : List UInt8) (off : ℕ) : ℕ → List ℕ
  | 0 => []
  | n + 1 => fieldAt bytes off 8 :: wordsAt bytes (off + 8) n

/-- A layout of the preamble: what is stored where. -/
structure Layout where
  /-- The offset of theta, if it is stored. -/
  theta : Option ℕ
  ordered : Bool
  /-- The offset and the number of the hashes, if they are stored in full. -/
  words : ℕ × ℕ
  /-- The position of the first bit, the width and the number of the deltas, if deltas are
  stored. -/
  deltas : ℕ × ℕ × ℕ

/-- The layout of an image, by its preamble size, version and flags. -/
def layout (bytes : List UInt8) : Layout :=
  let preLongs := fieldAt bytes 0 1
  let flags := fieldAt bytes 5 1
  let empty := hasFlag flags flagsIsEmpty
  let ordered := hasFlag flags flagsIsOrdered
  match fieldAt bytes 1 1 with
  | 1 => ⟨some 16, true, (24, fieldAt bytes 8 4), (0, 0, 0)⟩
  | 2 =>
      if preLongs = 1 then ⟨none, true, (0, 0), (0, 0, 0)⟩
      else if preLongs = 2 then ⟨none, true, (16, fieldAt bytes 8 4), (0, 0, 0)⟩
      else ⟨some 16, true, (24, fieldAt bytes 8 4), (0, 0, 0)⟩
  | 3 =>
      if empty then ⟨none, ordered, (0, 0), (0, 0, 0)⟩
      else if preLongs = 1 then ⟨none, ordered, (8, 1), (0, 0, 0)⟩
      else if preLongs > 2 then ⟨some 16, ordered, (24, fieldAt bytes 8 4), (0, 0, 0)⟩
      else ⟨none, ordered, (16, fieldAt bytes 8 4), (0, 0, 0)⟩
  | _ =>
      let start := if preLongs > 1 then 16 else 8
      let countBytes := fieldAt bytes 4 1
      ⟨if preLongs > 1 then some 8 else none, ordered, (0, 0),
        (8 * (start + countBytes), fieldAt bytes 3 1, fieldAt bytes start countBytes)⟩

/-- The theta of an image. -/
def Layout.thetaOf (l : Layout) (bytes : List UInt8) : ℕ :=
  match l.theta with
  | some off => fieldAt bytes off 8
  | none => maxTheta

/-- The stored hashes ascend: those stored in full one after the other, and no delta between two
hashes is zero. -/
def Layout.Ascending (l : Layout) (bytes : List UInt8) : Prop :=
  (wordsAt bytes l.words.1 l.words.2).Pairwise (· < ·) ∧
    ∀ i < l.deltas.2.2, ∃ q < l.deltas.2.1,
      bit (bytes.map UInt8.toNat) (l.deltas.1 + i * l.deltas.2.1 + q) = true

/-- The image has a theta in range, and its hashes ascend if they pass for ordered. -/
def Honest (bytes : List UInt8) : Prop :=
  (1 ≤ (layout bytes).thetaOf bytes ∧ (layout bytes).thetaOf bytes ≤ maxTheta) ∧
    ((layout bytes).ordered = true → (layout bytes).Ascending bytes)

/-! ## What an accepted image holds -/

/-- What is read of an image, by its layout. -/
structure Describes (l : Layout) (bytes : List UInt8) (c : CompactThetaSketch) : Prop where
  theta_eq : c.theta = l.thetaOf bytes
  ordered_eq : c.ordered = l.ordered
  range : ∀ x ∈ c.entries, 1 ≤ x ∧ x < c.theta
  ascending_iff : c.entries.Pairwise (· < ·) ↔ l.Ascending bytes

variable {bytes : List UInt8} {seed : UInt64}

/-- The hashes stored in full are read as they are, if they are all in range. -/
theorem readHashes_drop {theta n off : ℕ} {es : List ℕ} {rest : List UInt8}
    (h : readHashes theta n (bytes.drop off) = .ok (es, rest)) :
    es = wordsAt bytes off n ∧ ∀ x ∈ es, 1 ≤ x ∧ x < theta := by
  induction n generalizing off es with
  | zero =>
      cases h
      exact ⟨rfl, fun x hx ↦ absurd hx List.not_mem_nil⟩
  | succ n ih =>
      replace h := of_readLe_drop h
      rw [if_apply] at h
      split_ifs at h with hbad
      · cases h
      · obtain ⟨es', mid, htail, h⟩ := bind_apply_eq_ok.mp h
        cases h
        obtain ⟨rfl, hin⟩ := ih htail
        refine ⟨rfl, List.forall_mem_cons.mpr ⟨?_, hin⟩⟩
        omega

theorem readEntries_drop {theta n off : ℕ} {es : List ℕ} {rest : List UInt8}
    (h : readEntries n theta (bytes.drop off) = .ok (es, rest)) :
    es = wordsAt bytes off n ∧ ∀ x ∈ es, 1 ≤ x ∧ x < theta := by
  simp only [readEntries, if_apply] at h
  split_ifs at h
  · cases h
  · obtain ⟨left, mid, hleft, h⟩ := bind_apply_eq_ok.mp h
    cases hleft
    rw [if_apply] at h
    split_ifs at h
    · cases h
    · exact readHashes_drop h

/-- An image that stores its hashes in full. -/
theorem describes_words {theta : Option ℕ} {ordered : Bool} {off n : ℕ}
    (htheta : c.theta = (Layout.mk theta ordered (off, n) (0, 0, 0)).thetaOf bytes)
    (hordered : c.ordered = ordered) (hentries : c.entries = wordsAt bytes off n)
    (hrange : ∀ x ∈ c.entries, 1 ≤ x ∧ x < c.theta) :
    Describes ⟨theta, ordered, (off, n), (0, 0, 0)⟩ bytes c where
  theta_eq := htheta
  ordered_eq := hordered
  range := hrange
  ascending_iff := by
    rw [hentries]
    exact (and_iff_left fun i hi ↦ absurd hi (Nat.not_lt_zero i)).symm

theorem deserializeV1_describes {rest : List UInt8}
    (h : deserializeV1 seed (bytes.drop 3) = .ok (c, rest)) :
    Describes ⟨some 16, true, (24, fieldAt bytes 8 4), (0, 0, 0)⟩ bytes c := by
  obtain ⟨sh, mid, hsh, h⟩ := bind_apply_eq_ok.mp h
  obtain ⟨-, rfl⟩ := liftChecked_eq_ok.mp hsh
  replace h := of_readLe_drop (of_readLe_drop (of_readLe_drop (of_readLe_drop (of_readLe_drop h))))
  rw [if_apply] at h
  split_ifs at h with hnone
  · cases h
    refine describes_words rfl rfl ?_ fun x hx ↦ absurd hx List.not_mem_nil
    rw [hnone.1]
    rfl
  · obtain ⟨es, mid, hread, h⟩ := bind_apply_eq_ok.mp h
    obtain ⟨rfl, hin⟩ := readEntries_drop hread
    cases h
    exact describes_words rfl rfl rfl hin

theorem checkSeed_drop {off : ℕ} {empty : Bool} {sh : ℕ} {name : String} {β : Type} {b : β}
    {f : Unit → SketchSlice β} {rest : List UInt8}
    (h : (checkSeed seed empty sh name >>= f) (bytes.drop off) = .ok (b, rest)) :
    f () (bytes.drop off) = .ok (b, rest) := by
  obtain ⟨_, mid, hcheck, h⟩ := bind_apply_eq_ok.mp h
  rw [checkSeed, if_apply] at hcheck
  split_ifs at hcheck
  · cases hcheck
    exact h
  · obtain ⟨_, mid', hsh, hcheck⟩ := bind_apply_eq_ok.mp hcheck
    obtain ⟨-, rfl⟩ := liftChecked_eq_ok.mp hsh
    obtain ⟨-, rfl⟩ := liftResult_eq_ok.mp hcheck
    exact h

theorem deserializeV2_describes {preLongs : ℕ} {rest : List UInt8}
    (h : deserializeV2 preLongs seed (bytes.drop 3) = .ok (c, rest)) :
    Describes (if preLongs = 1 then ⟨none, true, (0, 0), (0, 0, 0)⟩
      else if preLongs = 2 then ⟨none, true, (16, fieldAt bytes 8 4), (0, 0, 0)⟩
      else ⟨some 16, true, (24, fieldAt bytes 8 4), (0, 0, 0)⟩) bytes c := by
  replace h := checkSeed_drop (of_readLe_drop (of_readLe_drop (of_readLe_drop h)))
  match preLongs, h with
  | 1, h =>
      cases h
      exact describes_words rfl rfl rfl fun x hx ↦ absurd hx List.not_mem_nil
  | 2, h =>
      replace h := of_readLe_drop (of_readLe_drop h)
      obtain ⟨es, mid, hread, h⟩ := bind_apply_eq_ok.mp h
      obtain ⟨rfl, hin⟩ := readEntries_drop hread
      cases h
      exact describes_words rfl rfl rfl hin
  | 3, h =>
      replace h := of_readLe_drop (of_readLe_drop (of_readLe_drop h))
      obtain ⟨es, mid, hread, h⟩ := bind_apply_eq_ok.mp h
      obtain ⟨rfl, hin⟩ := readEntries_drop hread
      cases h
      exact describes_words rfl rfl rfl hin

theorem readTheta_drop {preLongs longs off : ℕ} {β : Type} {b : β} {f : ℕ → SketchSlice β}
    {rest : List UInt8} (h : (readTheta preLongs longs >>= f) (bytes.drop off) = .ok (b, rest)) :
    f (if preLongs > longs then fieldAt bytes off 8 else maxTheta)
      (bytes.drop (if preLongs > longs then off + 8 else off)) = .ok (b, rest) := by
  obtain ⟨_, mid, hread, h⟩ := bind_apply_eq_ok.mp h
  rw [readTheta, if_apply] at hread
  split_ifs at hread ⊢
  · obtain ⟨rfl, rfl⟩ := readLe_drop hread
    exact h
  · cases hread
    exact h

theorem deserializeV3_describes {preLongs : ℕ} {rest : List UInt8}
    (h : deserializeV3 preLongs seed (bytes.drop 3) = .ok (c, rest)) :
    Describes
      (if hasFlag (fieldAt bytes 5 1) flagsIsEmpty then
        ⟨none, hasFlag (fieldAt bytes 5 1) flagsIsOrdered, (0, 0), (0, 0, 0)⟩
      else if preLongs = 1 then
        ⟨none, hasFlag (fieldAt bytes 5 1) flagsIsOrdered, (8, 1), (0, 0, 0)⟩
      else if preLongs > 2 then
        ⟨some 16, hasFlag (fieldAt bytes 5 1) flagsIsOrdered, (24, fieldAt bytes 8 4), (0, 0, 0)⟩
      else
        ⟨none, hasFlag (fieldAt bytes 5 1) flagsIsOrdered, (16, fieldAt bytes 8 4), (0, 0, 0)⟩)
      bytes c := by
  replace h := checkSeed_drop (of_readLe_drop (of_readLe_drop (of_readLe_drop h)))
  rw [if_apply] at h
  split_ifs at h ⊢ with hempty hone hgt
  · cases h
    exact describes_words rfl rfl rfl fun x hx ↦ absurd hx List.not_mem_nil
  all_goals
    obtain ⟨⟨theta, es⟩, mid, hbody, h⟩ := bind_apply_eq_ok.mp h
    cases h
  · rw [readBodyV3, if_apply, if_pos hone] at hbody
    obtain ⟨es', mid', hread, hbody⟩ := bind_apply_eq_ok.mp hbody
    obtain ⟨rfl, hin⟩ := readEntries_drop hread
    cases hbody
    exact describes_words rfl rfl rfl hin
  · rw [readBodyV3, if_apply, if_neg hone] at hbody
    replace hbody := readTheta_drop (of_readLe_drop (of_readLe_drop hbody))
    rw [if_pos hgt, if_pos hgt] at hbody
    obtain ⟨es', mid', hread, hbody⟩ := bind_apply_eq_ok.mp hbody
    obtain ⟨rfl, hin⟩ := readEntries_drop hread
    cases hbody
    exact describes_words rfl rfl rfl hin
  · rw [readBodyV3, if_apply, if_neg hone] at hbody
    replace hbody := readTheta_drop (of_readLe_drop (of_readLe_drop hbody))
    rw [if_neg hgt, if_neg hgt] at hbody
    obtain ⟨es', mid', hread, hbody⟩ := bind_apply_eq_ok.mp hbody
    obtain ⟨rfl, hin⟩ := readEntries_drop hread
    cases hbody
    exact describes_words rfl rfl rfl hin

/-- The bits of a delta say whether it is zero. -/
theorem ne_zero_iff_bit {bs : List ℕ} {p k x : ℕ} (h : Holds bs p k x) (hlt : x < 2 ^ k) :
    x ≠ 0 ↔ ∃ q < k, bit bs (p + q) = true := by
  constructor
  · intro hx
    obtain ⟨s, hs⟩ := Nat.exists_testBit_of_ne_zero hx
    have hsk : s < k := by
      by_contra hge
      rw [Nat.testBit_lt_two_pow (hlt.trans_le (Nat.pow_le_pow_right two_pos (not_lt.mp hge)))] at hs
      exact Bool.false_ne_true hs
    refine ⟨k - 1 - s, by omega, ?_⟩
    rw [h _ (by omega), show k - 1 - (k - 1 - s) = s by omega, hs]
  · rintro ⟨q, hq, hbit⟩ rfl
    rw [h q hq, Nat.zero_testBit] at hbit
    exact Bool.false_ne_true hbit

/-- The deltas are read from the bits they are stored in. -/
theorem readDeltas_drop {bits n off : ℕ} {ds : List ℕ} {rest : List UInt8}
    (hbits : n > 0 → 1 ≤ bits ∧ bits ≤ 63) (hroom : (n * bits + 7) / 8 ≤ (bytes.drop off).length)
    (h : readDeltas bits n (bytes.drop off) = .ok (ds, rest)) :
    ds.length = n ∧ (∀ d ∈ ds, d < 2 ^ bits) ∧
      HoldsAll (bytes.map UInt8.toNat) bits (8 * off) ds := by
  rcases Nat.eq_zero_or_pos n with rfl | hpos
  · cases h
    exact ⟨rfl, fun d hd ↦ absurd hd List.not_mem_nil, trivial⟩
  · obtain ⟨ds', hok, hlen, hholds, hlt⟩ := readDeltas_spec (hbits hpos) n hroom
    rw [hok] at h
    cases h
    refine ⟨hlen, hlt, ?_⟩
    have hoff : off ≤ bytes.length := by
      by_contra hgt
      rw [List.length_drop] at hroom
      have hone := Nat.mul_le_mul hpos (hbits hpos).1
      omega
    have hsplit : bytes.map UInt8.toNat =
        (bytes.take off).map UInt8.toNat ++ (bytes.drop off).map UInt8.toNat := by
      rw [← List.map_append, List.take_append_drop]
    have hfst : ((bytes.take off).map UInt8.toNat).length = off := by
      rw [List.length_map, List.length_take, min_eq_left hoff]
    rw [hsplit]
    have hall := (holdsAll_append_right ((bytes.take off).map UInt8.toNat)).mpr hholds
    rwa [hfst, Nat.add_zero] at hall

/-- Hashes restored from deltas ascend exactly if no delta is zero. -/
theorem pairwise_undoDeltas {theta : ℕ} {ds es : List ℕ} (h : undoDeltas theta 0 ds = .ok es) :
    (∀ x ∈ es, 1 ≤ x ∧ x < theta) ∧ (es.Pairwise (· < ·) ↔ ∀ d ∈ ds, d ≠ 0) := by
  obtain ⟨-, hin, -, hasc⟩ := undoDeltas_eq_ok h
  refine ⟨hin, ?_⟩
  rw [← hasc, List.pairwise_cons]
  exact (and_iff_right fun e he ↦ (hin e he).1).symm

theorem readBodyV4_drop {bits n theta off : ℕ} {es : List ℕ} {rest : List UInt8}
    (h : readBodyV4 bits n theta (bytes.drop off) = .ok (es, rest)) :
    (∀ x ∈ es, 1 ≤ x ∧ x < theta) ∧ (es.Pairwise (· < ·) ↔
      ∀ i < n, ∃ q < bits, bit (bytes.map UInt8.toNat) (8 * off + i * bits + q) = true) := by
  simp only [readBodyV4, if_apply] at h
  split_ifs at h with hwidth hover
  · cases h
  · cases h
  · obtain ⟨left, mid, hleft, h⟩ := bind_apply_eq_ok.mp h
    cases hleft
    rw [if_apply] at h
    split_ifs at h with hroom
    · cases h
    · obtain ⟨ds, mid, hds, h⟩ := bind_apply_eq_ok.mp h
      obtain ⟨hundo, -⟩ := liftResult_eq_ok.mp h
      obtain ⟨hlen, hlt, hholds⟩ := readDeltas_drop
        (fun hpos ↦ not_not.mp fun hbits ↦ hwidth ⟨hpos, hbits⟩) (not_lt.mp hroom) hds
      obtain ⟨hin, hasc⟩ := pairwise_undoDeltas hundo
      refine ⟨hin, hasc.trans ?_⟩
      rw [holdsAll_iff] at hholds
      have hdelta : ∀ i (hi : i < ds.length), ds[i] ≠ 0 ↔
          ∃ q < bits, bit (bytes.map UInt8.toNat) (8 * off + i * bits + q) = true := by
        intro i hi
        have hget : ds.getD i 0 = ds[i] := List.getD_eq_getElem _ _ hi
        exact ne_zero_iff_bit (hget ▸ hholds i hi) (hlt _ (List.getElem_mem hi))
      rw [List.forall_mem_iff_forall_getElem, ← hlen]
      exact forall₂_congr hdelta

/-- An image that stores deltas. -/
theorem deserializeV4_describes {preLongs : ℕ} {rest : List UInt8}
    (h : deserializeV4 preLongs seed (bytes.drop 3) = .ok (c, rest)) :
    Describes
      ⟨if preLongs > 1 then some 8 else none, hasFlag (fieldAt bytes 5 1) flagsIsOrdered, (0, 0),
        (8 * ((if preLongs > 1 then 16 else 8) + fieldAt bytes 4 1), fieldAt bytes 3 1,
          fieldAt bytes (if preLongs > 1 then 16 else 8) (fieldAt bytes 4 1))⟩ bytes c := by
  replace h := of_readLe_drop (of_readLe_drop h)
  rw [if_apply] at h
  split_ifs at h
  · cases h
  · replace h := of_readLe_drop (readTheta_drop (checkSeed_drop (of_readLe_drop (of_readLe_drop h))))
    obtain ⟨es, mid, hbody, h⟩ := bind_apply_eq_ok.mp h
    obtain ⟨hin, hasc⟩ := readBodyV4_drop hbody
    cases h
    constructor
    case theta_eq =>
      unfold Layout.thetaOf
      split_ifs <;> rfl
    case ordered_eq => rfl
    case range => exact hin
    case ascending_iff => exact hasc.trans (and_iff_right List.Pairwise.nil).symm

/-- What an accepted image holds. -/
theorem deserializeWithSeed_describes (h : deserializeWithSeed bytes seed = .ok c) :
    Describes (layout bytes) bytes c := by
  obtain ⟨⟨c', rest⟩, hok, h⟩ : ∃ r, deserializer seed bytes = .ok r ∧ r.1 = c := by
    cases hd : deserializer seed bytes with
    | error e =>
        rw [deserializeWithSeed, hd] at h
        cases h
    | ok r =>
        rw [deserializeWithSeed, hd] at h
        cases h
        exact ⟨r, rfl, rfl⟩
  obtain rfl : c' = c := h
  have hdrop : deserializer seed (bytes.drop 0) = .ok (c', rest) := hok
  replace hdrop := of_readLe_drop (of_readLe_drop (of_readLe_drop hdrop))
  obtain ⟨_, mid, hfam, hdrop⟩ := bind_apply_eq_ok.mp hdrop
  obtain ⟨-, rfl⟩ := liftResult_eq_ok.mp hfam
  obtain ⟨_, mid, hlongs, hdrop⟩ := bind_apply_eq_ok.mp hdrop
  obtain ⟨-, rfl⟩ := liftResult_eq_ok.mp hlongs
  unfold layout
  generalize hver : fieldAt bytes 1 1 = serVer
  rw [show fieldAt bytes (0 + 1) 1 = serVer from hver] at hdrop
  split at hdrop
  · exact deserializeV1_describes hdrop
  · exact deserializeV2_describes hdrop
  · exact deserializeV3_describes hdrop
  · exact deserializeV4_describes hdrop
  · cases hdrop

/-! ## Exactly the honest images -/

/-- A decoded sketch is what later operations rely on, and none of them panics on it, exactly if
its image is honest. -/
theorem deserialize_valid (h : deserializeWithSeed bytes seed = .ok c) :
    (c.Valid ∧ c.Safe) ↔ Honest bytes := by
  have hdesc := deserializeWithSeed_describes h
  unfold Honest
  rw [← hdesc.theta_eq, ← hdesc.ordered_eq, ← hdesc.ascending_iff]
  constructor
  · rintro ⟨hvalid, -⟩
    exact ⟨hvalid.theta_range, hvalid.ordered⟩
  · rintro ⟨htheta, hord⟩
    have hvalid : c.Valid := ⟨htheta, hdesc.range, hord⟩
    exact ⟨hvalid, hvalid.safe⟩

/-- An ordered image of two hashes, in order. -/
theorem deserialize_valid_two :
    ∃ c, c = ⟨[7, 9], maxTheta, 37836, true, false⟩ ∧
      deserializeWithSeed c.serialize defaultUpdateSeed = .ok c ∧ c.Valid ∧ c.Safe := by
  have hread : deserializeWithSeed (serialize ⟨[7, 9], maxTheta, 37836, true, false⟩)
      defaultUpdateSeed = .ok ⟨[7, 9], maxTheta, 37836, true, false⟩ := by decide +kernel
  exact ⟨_, rfl, hread, (deserialize_valid hread).mpr
    ⟨by decide +kernel, fun _ ↦ ⟨by decide +kernel, fun i hi ↦ absurd hi (Nat.not_lt_zero i)⟩⟩⟩

/-- A preamble with a theta of zero and no hash.  The sketch is decoded, but the intersection and
the bounds panic on it. -/
theorem deserialize_theta_zero :
    ∃ (bytes : List UInt8) (c : CompactThetaSketch) (i : ThetaIntersection),
      bytes = [3, 3, 3, 0, 0, 26, 204, 147, 0, 0, 0, 0, 0, 0, 0, 0, 0, 0, 0, 0, 0, 0, 0, 0] ∧
      deserializeWithSeed bytes defaultUpdateSeed = .ok c ∧ ¬ c.Valid ∧
      ThetaIntersection.withSeed defaultUpdateSeed = .ok i ∧
      i.update (.compact c) = .error (.assertion "theta must be in [1, 9223372036854775807]") ∧
      ∀ (F : Type) (arith : BoundArithmetic F) (numStdDev : NumStdDev),
        c.lowerBound arith numStdDev =
          .error (.expect "compact theta should always be valid") := by
  refine ⟨_, ⟨[], 0, 37836, true, false⟩, _, rfl, by decide +kernel, ?_, rfl, ?_, ?_⟩
  · intro hvalid
    exact absurd hvalid.theta_range.1 (by decide)
  · have hpanic : (IntersectionState.new defaultUpdateSeed noopPolicy >>= fun i ↦
        (ThetaIntersection.update i (.compact ⟨[], 0, 37836, true, false⟩)).map fun _ ↦ ()) =
          .error (.assertion "theta must be in [1, 9223372036854775807]") := by decide +kernel
    exact map_eq_error.mp (show Except.map (fun _ ↦ ()) (ThetaIntersection.update _ _) = _ from hpanic)
  · intro F arith numStdDev
    have hzero : thetaF64 ⟨[], 0, 37836, true, false⟩ ≤ 0 := by
      have hround : f64OfNat 0 = 0 := by decide
      simp [thetaF64, hround]
    obtain ⟨e, he⟩ := BinomialBounds.lowerBound_error arith 0 hzero numStdDev
    have hest : isEstimationMode ⟨[], 0, 37836, true, false⟩ = true := rfl
    rw [lowerBound, hest]
    change (BinomialBounds.lowerBound arith 0 _ numStdDev >>= _) = _
    rw [he]
    rfl

end CompactThetaSketch

end DataSketches
