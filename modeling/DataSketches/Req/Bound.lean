import DataSketches.Req.Primitive
import DataSketches.Req.Run

/-!
# How much a sketch retains

When the levels hold as many items as their capacity, one of them is full.  A pass of
`compress` over it drops items, no pass adds any, and none lowers the capacity.
-/

namespace DataSketches

namespace Req

open Comparator Runs ReqValue

variable {T : Type}

/-- Levels that are full together have a full level. -/
theorem exists_full {cs : List (Compactor T)} (hne : cs ≠ []) (h : capacity cs ≤ itemCount cs) :
    ∃ (level : ℕ) (c : Compactor T), cs[level]? = some c ∧ c.nominalCapacity ≤ c.items.length := by
  by_contra hnone
  push Not at hnone
  refine absurd h (not_le.mpr (List.sum_lt_sum_of_ne_nil hne _ _ fun c hc ↦ ?_))
  obtain ⟨level, hlevel⟩ := List.mem_iff_getElem?.mp hc
  exact hnone level c hlevel

namespace ReqSketch

variable [ReqValue T] {S : UnstableSort} {s s' : ReqSketch T} {xs : List T}

/-- What an update adds to the retained items. -/
theorem Inv.update_retained (h : Inv s xs) {coins : ℕ → Bool} {item : T}
    (hok : s.update S coins item = .ok s') :
    s.maxNomSize ≤ s'.maxNomSize ∧
      (s'.numRetained < s'.maxNomSize ∨ s'.numRetained ≤ s.numRetained) := by
  cases hnan : isNan item with
  | true =>
      rw [update_of_nan hnan, Except.ok.injEq] at hok
      rw [← hok]
      exact ⟨le_rfl, .inr le_rfl⟩
  | false =>
      have hroom := lt_of_update h.levels.ne_nil hnan hok
      obtain ⟨s₁, h₁, -, -, -, hcount, hcapacity, heq⟩ := h.appended (S := S) hnan hroom
      rw [heq] at hok
      rw [← h.totals.numRetained_eq, ← h₁.totals.numRetained_eq] at hcount
      rw [← h.totals.maxNomSize_eq, ← h₁.totals.maxNomSize_eq] at hcapacity
      split_ifs at hok with hfull
      · obtain ⟨level, c, hc, hcfull⟩ := exists_full h₁.levels.ne_nil (by
          rw [← h₁.totals.numRetained_eq, ← h₁.totals.maxNomSize_eq]
          exact hfull)
        obtain ⟨s₂, hok₂, hpressed, hlt⟩ := run_compressLevel_lt (S := S) h₁.validK h₁.levels
          h₁.length_lt h₁.totals (fun _ hl ↦ List.mem_range.mp hl)
          (List.mem_range.mpr (List.getElem?_eq_some_iff.mp hc).1) hc hcfull coins
        rw [← Except.ok.inj (hok₂.symm.trans hok)]
        have hcapacity₂ := hpressed.capacity_le
        rw [← h₁.totals.maxNomSize_eq, ← hpressed.totals.maxNomSize_eq] at hcapacity₂
        rw [← h₁.totals.numRetained_eq, ← hpressed.totals.numRetained_eq] at hlt
        exact ⟨hcapacity ▸ hcapacity₂, .inr (by omega)⟩
      · rw [← Except.ok.inj hok]
        exact ⟨hcapacity.ge, .inl (not_le.mp hfull)⟩

theorem create_lt {k : ℕ} (hk : ValidK k) (rankAccuracy : RankAccuracy) :
    (create k rankAccuracy : ReqSketch T).numRetained <
      (create k rankAccuracy : ReqSketch T).maxNomSize := by
  have hinv : (Compactor.new 0 k rankAccuracy : Compactor T).Inv 0 rankAccuracy :=
    Compactor.inv_new hk
  have hsize := hinv.minK_le
  have hpos : 0 < (Compactor.new 0 k rankAccuracy : Compactor T).nominalCapacity := by
    rw [minK] at hsize
    exact Nat.mul_pos (Nat.mul_pos Nat.two_pos (by omega)) hinv.numSections_pos
  exact hpos

theorem Streamed.lt (h : Streamed S s xs) : s.numRetained < s.maxNomSize := by
  induction h with
  | new => exact create_lt (by decide) _
  | tryNew hnew =>
      obtain ⟨hk, rfl⟩ := tryNew_ok hnew
      exact create_lt hk _
  | update h hok ih =>
      obtain ⟨hcapacity, hlt | hle⟩ := h.reached.inv.update_retained hok
      · exact hlt
      · exact (hle.trans_lt ih).trans_le hcapacity
  | reset h _ => exact create_lt h.reached.inv.validK _
  | reload h hwrite hread ih =>
      obtain ⟨bytes, s₁, hok, -, hok₁, hrestored, -⟩ := h.reached.inv.deserialize_serialize
      rw [Except.ok.inj (hwrite.symm.trans hok)] at hread
      rw [← Except.ok.inj (hok₁.symm.trans hread), hrestored.numRetained_eq, hrestored.maxNomSize_eq]
      exact ih

/-- In every run without merges, with any coins, fewer items are retained than the levels have room
for, which is not more than the logarithm of the number of items times a multiple of `k`. -/
theorem stream_retains_few (h : Streamed S s xs) :
    s.numRetained < s.maxNomSize ∧ s.maxNomSize ≤ (Nat.log2 s.n + 1) * (192 * s.k) := by
  have hinv := h.reached.inv
  refine ⟨h.lt, ?_⟩
  rw [hinv.totals.maxNomSize_eq, hinv.n_eq]
  exact (capacity_le_mul hinv.validK hinv.levels.layout).trans
    (Nat.mul_le_mul_right _ hinv.levels.length_le)

theorem stream_retains_few_pair : ∃ s : ReqSketch UInt32, Streamed insertionSort s [7, 3] ∧
    s.numRetained < s.maxNomSize ∧ s.maxNomSize ≤ (Nat.log2 s.n + 1) * (192 * s.k) := by
  obtain ⟨s, hs⟩ := exists_streamed (S := insertionSort) ([7, 3] : List UInt32) (by decide)
    fun _ _ ↦ rfl
  exact ⟨s, hs, stream_retains_few hs⟩

end ReqSketch

end Req

end DataSketches
