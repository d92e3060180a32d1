import DataSketches.ThetaFamily.BinomialBounds
import DataSketches.ThetaFamily.Reachable
import DataSketches.ThetaFamily.Tuple.Serialization

/-!
# What the decoder of Tuple sketches accepts

As for Theta sketches, neither theta itself nor the order of the hashes is
checked.  The hashes lie between summaries, which only their decoder can skip.
-/

namespace DataSketches

open Runs ByteReader SketchSlice
open CompactThetaSketch (flagsIsEmpty flagsIsOrdered hasFlag)

namespace CompactTupleSketch

variable {S : Type}

/-! ## What later operations rely on -/

/-- Returns theta as a fraction (0.0 to 1.0). -/
def thetaF64 (c : CompactTupleSketch S) : ℚ := f64OfNat c.theta / f64OfNat maxTheta

section Bounds

variable {F : Type} (arith : BoundArithmetic F)

/-- Returns the approximate lower error bound given the number of standard deviations. -/
def lowerBound (c : CompactTupleSketch S) (numStdDev : NumStdDev) : Checked F := do
  if !c.isEstimationMode then
    return arith.ofNat c.numRetained
  match ← BinomialBounds.lowerBound arith c.numRetained c.thetaF64 numStdDev with
  | .ok x => return x
  | .error _ => throw (.expect "compact theta should always be valid")

/-- Returns the approximate upper error bound given the number of standard deviations. -/
def upperBound (c : CompactTupleSketch S) (numStdDev : NumStdDev) : Checked F := do
  if !c.isEstimationMode then
    return arith.ofNat c.numRetained
  match ← BinomialBounds.upperBound arith c.numRetained c.thetaF64 numStdDev c.empty with
  | .ok x => return x
  | .error _ => throw (.expect "compact theta should always be valid")

end Bounds

/-- Theta and the hashes are what every later operation takes them to be. -/
structure Valid (c : CompactTupleSketch S) : Prop where
  theta_range : 1 ≤ c.theta ∧ c.theta ≤ maxTheta
  range : ∀ e ∈ c.entries, 1 ≤ e.hash ∧ e.hash < c.theta
  ordered : c.ordered = true → c.entries.Pairwise (·.hash < ·.hash)

/-- No later operation panics on the sketch.  The set operations are in any state that calls lead
to; their own seed must have a hash, without which they take no sketch at all. -/
structure Safe (c : CompactTupleSketch S) : Prop where
  union : ∀ (u : TupleUnion S) (sh : ℕ), UnionState.Reachable u →
    computeSeedHash u.table.seed = .ok sh → ∃ r, TupleUnion.update u (.compact c) = .ok r
  intersection : ∀ (i : TupleIntersection S) (sh : ℕ), IntersectionState.Reachable i →
    computeSeedHash i.table.seed = .ok sh → ∃ r, TupleIntersection.update i (.compact c) = .ok r
  aNotB : ∀ (T : Type) (op : TupleANotB) (v : TupleSketchView T) (s : EntrySketch (TupleEntry T))
    (ordered : Bool), v.view = .ok s → (∃ r, op.compute (.compact c) v ordered = .ok r) ∧
      ∃ r, op.compute v (.compact c) ordered = .ok r
  lowerBound : ∀ (F : Type) (arith : BoundArithmetic F) (numStdDev : NumStdDev),
    ∃ x, c.lowerBound arith numStdDev = .ok x
  upperBound : ∀ (F : Type) (arith : BoundArithmetic F) (numStdDev : NumStdDev),
    ∃ x, c.upperBound arith numStdDev = .ok x

variable {c : CompactTupleSketch S}

theorem thetaF64_range (h : 1 ≤ c.theta ∧ c.theta ≤ maxTheta) : 0 < c.thetaF64 ∧ c.thetaF64 ≤ 1 :=
  f64OfNat_div_range ⟨h.1, h.2.trans_lt (by decide)⟩

/-- A valid sketch is safe. -/
theorem Valid.safe (h : c.Valid) : c.Safe := by
  have husable : Usable c.asView := ⟨h.range, rfl⟩
  constructor
  case union =>
    intro u sh hu hseed
    obtain ⟨u', r, hok⟩ := hu.update_total c.asView hseed
    exact ⟨(u', r), hok⟩
  case intersection =>
    intro i sh hi hseed
    obtain ⟨i', r, hok⟩ := hi.update_total husable hseed (.inr h.theta_range.1)
    exact ⟨(i', r), hok⟩
  case aNotB =>
    intro T op v s ordered hv
    constructor
    · exact ⟨_, by rw [TupleANotB.compute, hv]; rfl⟩
    · exact ⟨_, by rw [TupleANotB.compute, hv]; rfl⟩
  case lowerBound =>
    intro F arith numStdDev
    obtain ⟨x, hx⟩ := BinomialBounds.lowerBound_total arith c.numRetained
      (thetaF64_range h.theta_range) numStdDev
    unfold CompactTupleSketch.lowerBound
    cases c.isEstimationMode with
    | false => exact ⟨_, rfl⟩
    | true =>
        rw [hx]
        exact ⟨_, rfl⟩
  case upperBound =>
    intro F arith numStdDev
    obtain ⟨x, hx⟩ := BinomialBounds.upperBound_total arith c.numRetained
      (thetaF64_range h.theta_range) numStdDev c.empty
    unfold CompactTupleSketch.upperBound
    cases c.isEstimationMode with
    | false => exact ⟨_, rfl⟩
    | true =>
        rw [hx]
        exact ⟨_, rfl⟩

/-! ## What an image holds -/

/-- The hashes of `n` entries: each is followed by a summary, which the decoder skips. -/
def hashesFrom (decode : SummaryDecoder S) : ℕ → List UInt8 → List ℕ
  | 0, _ => []
  | n + 1, bytes => fieldAt bytes 0 8 ::
      match decode (bytes.drop 8) with
      | .ok (_, rest) => hashesFrom decode n rest
      | .error _ => []

/-- The image is not flagged empty. -/
def storesEntries (bytes : List UInt8) : Bool := !hasFlag (fieldAt bytes 5 1) flagsIsEmpty

/-- The theta of an image. -/
def thetaOf (bytes : List UInt8) : ℕ :=
  if storesEntries bytes ∧ fieldAt bytes 0 1 > 2 then fieldAt bytes 16 8 else maxTheta

/-- The hashes of an image. -/
def hashesOf (decode : SummaryDecoder S) (bytes : List UInt8) : List ℕ :=
  if !storesEntries bytes then []
  else if fieldAt bytes 0 1 = 1 then hashesFrom decode 1 (bytes.drop 8)
  else hashesFrom decode (fieldAt bytes 8 4)
    (bytes.drop (if fieldAt bytes 0 1 > 2 then 24 else 16))

/-- The image has a theta in range, and its hashes ascend if they pass for ordered. -/
def Honest (decode : SummaryDecoder S) (bytes : List UInt8) : Prop :=
  (1 ≤ thetaOf bytes ∧ thetaOf bytes ≤ maxTheta) ∧
    (hasFlag (fieldAt bytes 5 1) flagsIsOrdered = true → (hashesOf decode bytes).Pairwise (· < ·))

variable {decode : SummaryDecoder S} {bytes rest : List UInt8} {seed : UInt64}

theorem readSummary_eq_ok {summary : S} (h : readSummary decode bytes = .ok (summary, rest)) :
    decode bytes = .ok (summary, rest) := by
  unfold readSummary at h
  cases hd : decode bytes with
  | error e =>
      rw [hd] at h
      cases h
  | ok r =>
      rw [hd] at h
      cases h
      rfl

/-- The hashes are read as they are stored, if they are all in range. -/
theorem readEntries_eq_ok {theta n : ℕ} {es : List (TupleEntry S)}
    (h : readEntries decode theta n bytes = .ok (es, rest)) :
    es.map TupleEntry.hash = hashesFrom decode n bytes ∧
      ∀ e ∈ es, 1 ≤ e.hash ∧ e.hash < theta := by
  induction n generalizing bytes es with
  | zero =>
      cases h
      exact ⟨rfl, fun e he ↦ absurd he List.not_mem_nil⟩
  | succ n ih =>
      have hdrop : readEntries decode theta (n + 1) (bytes.drop 0) = .ok (es, rest) := h
      replace hdrop := of_readLe_drop hdrop
      rw [if_apply] at hdrop
      split_ifs at hdrop with hbad
      · cases hdrop
      · obtain ⟨summary, mid, hsummary, hdrop⟩ := bind_apply_eq_ok.mp hdrop
        replace hsummary := readSummary_eq_ok hsummary
        obtain ⟨hne, hlt⟩ := not_or.mp hbad
        rw [TupleEntry.new_of_ne_zero hne, bind_of_ok (liftChecked_ok _ _)] at hdrop
        obtain ⟨es', mid', htail, hdrop⟩ := bind_apply_eq_ok.mp hdrop
        cases hdrop
        obtain ⟨hmap, hin⟩ := ih htail
        refine ⟨?_, List.forall_mem_cons.mpr ⟨⟨Nat.pos_of_ne_zero hne, not_le.mp hlt⟩, hin⟩⟩
        rw [Nat.zero_add] at hsummary
        rw [List.map_cons, hmap, hashesFrom, hsummary]

theorem readCounts_drop {preLongs n theta : ℕ}
    (h : readCounts preLongs (bytes.drop 8) = .ok ((n, theta), rest)) :
    n = (if preLongs = 1 then 1 else fieldAt bytes 8 4) ∧
      theta = (if preLongs > 2 then fieldAt bytes 16 8 else maxTheta) ∧
      rest = bytes.drop (if preLongs = 1 then 8 else if preLongs > 2 then 24 else 16) := by
  rw [readCounts, if_apply] at h
  by_cases hone : preLongs = 1
  · rw [if_pos hone] at h
    cases h
    refine ⟨(if_pos hone).symm, ?_, by rw [if_pos hone]⟩
    rw [if_neg (by omega)]
  · rw [if_neg hone] at h
    by_cases hgt : preLongs > 2
    · simp only [if_pos hgt] at h ⊢
      replace h := of_readLe_drop (of_readLe_drop (of_readLe_drop h))
      cases h
      exact ⟨(if_neg hone).symm, rfl, by rw [if_neg hone]⟩
    · simp only [if_neg hgt] at h ⊢
      replace h := of_readLe_drop (of_readLe_drop h)
      cases h
      exact ⟨(if_neg hone).symm, rfl, by rw [if_neg hone]⟩

theorem readBody_drop {preLongs theta : ℕ} {es : List (TupleEntry S)}
    (h : readBody decode preLongs (bytes.drop 8) = .ok ((theta, es), rest)) :
    theta = (if preLongs > 2 then fieldAt bytes 16 8 else maxTheta) ∧
      es.map TupleEntry.hash = (if preLongs = 1 then hashesFrom decode 1 (bytes.drop 8)
        else hashesFrom decode (fieldAt bytes 8 4)
          (bytes.drop (if preLongs > 2 then 24 else 16))) ∧
      ∀ e ∈ es, 1 ≤ e.hash ∧ e.hash < theta := by
  obtain ⟨⟨n, theta'⟩, mid, hcounts, h⟩ := bind_apply_eq_ok.mp h
  obtain ⟨hn, htheta, hmid⟩ := readCounts_drop hcounts
  have hread : theta' = theta ∧ readEntries decode theta' n mid = .ok (es, rest) := by
    dsimp only at h
    rw [if_apply] at h
    split_ifs at h
    · cases h
    · obtain ⟨left, mid', hleft, h⟩ := bind_apply_eq_ok.mp h
      cases hleft
      rw [if_apply] at h
      split_ifs at h
      · cases h
      · obtain ⟨es', mid', hes, h⟩ := bind_apply_eq_ok.mp h
        cases h
        exact ⟨rfl, hes⟩
  obtain ⟨rfl, hread⟩ := hread
  obtain ⟨hmap, hin⟩ := readEntries_eq_ok hread
  refine ⟨htheta, ?_, hin⟩
  rw [hmap, hn, hmid]
  by_cases hone : preLongs = 1
  · rw [if_pos hone, if_pos hone, if_pos hone]
  · rw [if_neg hone, if_neg hone, if_neg hone]

/-- What an accepted image holds. -/
theorem deserializeWithSeed_eq_ok (h : deserializeWithSeed decode bytes seed = .ok c) :
    c.theta = thetaOf bytes ∧ c.ordered = hasFlag (fieldAt bytes 5 1) flagsIsOrdered ∧
      c.entries.map TupleEntry.hash = hashesOf decode bytes ∧
      ∀ e ∈ c.entries, 1 ≤ e.hash ∧ e.hash < c.theta := by
  obtain ⟨⟨c', rest⟩, hok, h⟩ : ∃ r, deserializer decode seed bytes = .ok r ∧ r.1 = c := by
    cases hd : deserializer decode seed bytes with
    | error e =>
        rw [deserializeWithSeed, hd] at h
        cases h
    | ok r =>
        rw [deserializeWithSeed, hd] at h
        cases h
        exact ⟨r, rfl, rfl⟩
  obtain rfl : c' = c := h
  have hdrop : deserializer decode seed (bytes.drop 0) = .ok (c', rest) := hok
  replace hdrop := of_readLe_drop (of_readLe_drop (of_readLe_drop (of_readLe_drop
    (of_readLe_drop (of_readLe_drop (of_readLe_drop hdrop))))))
  obtain ⟨_, mid, hfam, hdrop⟩ := bind_apply_eq_ok.mp hdrop
  obtain ⟨-, rfl⟩ := liftResult_eq_ok.mp hfam
  obtain ⟨_, mid, hlongs, hdrop⟩ := bind_apply_eq_ok.mp hdrop
  obtain ⟨-, rfl⟩ := liftResult_eq_ok.mp hlongs
  simp only [if_apply, Nat.zero_add, Nat.reduceAdd] at hdrop
  unfold thetaOf hashesOf storesEntries
  split_ifs at hdrop with hver hkind hempty
  · cases hdrop
  · cases hdrop
  · cases hdrop
    simp only [hempty]
    exact ⟨rfl, trivial, rfl, fun e he ↦ absurd he List.not_mem_nil⟩
  · obtain ⟨_, mid, hsh, hdrop⟩ := bind_apply_eq_ok.mp hdrop
    obtain ⟨-, rfl⟩ := liftChecked_eq_ok.mp hsh
    obtain ⟨_, mid, hcheck, hdrop⟩ := bind_apply_eq_ok.mp hdrop
    obtain ⟨-, rfl⟩ := liftResult_eq_ok.mp hcheck
    obtain ⟨⟨theta, es⟩, mid, hbody, hdrop⟩ := bind_apply_eq_ok.mp hdrop
    cases hdrop
    obtain ⟨htheta, hmap, hin⟩ := readBody_drop hbody
    rw [Bool.not_eq_true] at hempty
    simp only [hempty, Bool.not_false, true_and, Bool.not_true, Bool.false_eq_true, if_false]
    exact ⟨htheta, hmap, hin⟩

/-! ## Exactly the honest images -/

/-- A decoded sketch is what later operations rely on, and none of them panics on it, exactly if
its image is honest. -/
theorem decoded_spec (h : deserializeWithSeed decode bytes seed = .ok c) :
    (c.Valid ∧ c.Safe) ↔ Honest decode bytes := by
  obtain ⟨htheta, hordered, hhashes, hrange⟩ := deserializeWithSeed_eq_ok h
  unfold Honest
  rw [← htheta, ← hordered, ← hhashes, List.pairwise_map]
  constructor
  · rintro ⟨hvalid, -⟩
    exact ⟨hvalid.theta_range, hvalid.ordered⟩
  · rintro ⟨hin, hord⟩
    have hvalid : c.Valid := ⟨hin, hrange, hord⟩
    exact ⟨hvalid, hvalid.safe⟩

/-- An ordered image of two hashes with their summaries. -/
theorem decoded_spec_two :
    ∃ c : CompactTupleSketch UInt64,
      c = ⟨[⟨7, by decide, 1⟩, ⟨9, by decide, 2⟩], maxTheta, 37836, true, false⟩ ∧
      deserializeWithSeed u64Summary.deserializeValue (c.serialize u64Summary) defaultUpdateSeed =
        .ok c ∧ c.Valid ∧ c.Safe := by
  have hread : deserializeWithSeed u64Summary.deserializeValue
      (serialize u64Summary ⟨[⟨7, by decide, 1⟩, ⟨9, by decide, 2⟩], maxTheta, 37836, true, false⟩)
      defaultUpdateSeed =
        .ok ⟨[⟨7, by decide, 1⟩, ⟨9, by decide, 2⟩], maxTheta, 37836, true, false⟩ := by
    decide +kernel
  exact ⟨_, rfl, hread, (decoded_spec hread).mpr ⟨by decide +kernel, fun _ ↦ by decide +kernel⟩⟩

/-- A preamble with a theta of zero and no entry.  The sketch is decoded, but the intersection and
the bounds panic on it. -/
theorem decoded_theta_zero :
    ∃ (bytes : List UInt8) (c : CompactTupleSketch UInt64) (i : TupleIntersection UInt64),
      bytes = [3, 3, 9, 1, 0, 26, 204, 147, 0, 0, 0, 0, 0, 0, 0, 0, 0, 0, 0, 0, 0, 0, 0, 0] ∧
      deserializeWithSeed u64Summary.deserializeValue bytes defaultUpdateSeed = .ok c ∧ ¬ c.Valid ∧
      TupleIntersection.withSeed (· + ·) defaultUpdateSeed = .ok i ∧
      TupleIntersection.update i (.compact c) =
        .error (.assertion "theta must be in [1, 9223372036854775807]") ∧
      ∀ (F : Type) (arith : BoundArithmetic F) (numStdDev : NumStdDev),
        c.lowerBound arith numStdDev =
          .error (.expect "compact theta should always be valid") := by
  refine ⟨_, ⟨[], 0, 37836, true, false⟩, _, rfl, by decide +kernel, ?_, rfl, ?_, ?_⟩
  · intro hvalid
    exact absurd hvalid.theta_range.1 (by decide)
  · have hpanic : (TupleIntersection.withSeed (· + ·) defaultUpdateSeed >>= fun i ↦
        (TupleIntersection.update i (.compact (⟨[], 0, 37836, true, false⟩ :
          CompactTupleSketch UInt64))).map fun _ ↦ ()) =
          .error (.assertion "theta must be in [1, 9223372036854775807]") := by decide +kernel
    exact map_eq_error.mp (show Except.map (fun _ ↦ ()) (TupleIntersection.update _ _) = _ from hpanic)
  · intro F arith numStdDev
    have hzero : thetaF64 (⟨[], 0, 37836, true, false⟩ : CompactTupleSketch UInt64) ≤ 0 := by
      have hround : f64OfNat 0 = 0 := by decide
      simp [thetaF64, hround]
    obtain ⟨e, he⟩ := BinomialBounds.lowerBound_error arith 0 hzero numStdDev
    have hest : isEstimationMode (⟨[], 0, 37836, true, false⟩ : CompactTupleSketch UInt64) = true :=
      rfl
    rw [lowerBound, hest]
    change (BinomialBounds.lowerBound arith 0 _ numStdDev >>= _) = _
    rw [he]
    rfl

end CompactTupleSketch

end DataSketches
