import DataSketches.Frequencies.Serialization

/-!
# Runs of frequent items sketches

A script says how a sketch is made.  In every run the bounds of every item hold,
and the error was paid for by half of the smallest sample, so no run panics other
than by exceeding the drift limit.
-/

namespace DataSketches

open Runs Counters SketchSlice

namespace FrequentItemsSketch

/-- How a sketch is made. -/
inductive Script (T Q : Type) where
  | new (maxMapSize : ℕ)
  | update (s : Script T Q) (item : T) (count : ℕ)
  | updateRef (s : Script T Q) (item : Q) (count : ℕ)
  | merge (s s' : Script T Q)
  | reset (s : Script T Q)
  /-- Serialize, then deserialize. -/
  | reload (s : Script T Q)

/-- A call that may panic. -/
def checked {α : Type} (x : Checked α) : Except Fault α := x.mapError .panic

theorem outcome_checked {α : Type} {bad : Panic → Prop} {x : Checked α} {post : α → Prop}
    (h : Outcome bad x post) : Outcome (Panicked bad) (checked x) post := by
  cases x with
  | error p => exact ⟨p, rfl, h⟩
  | ok a => exact h

theorem checked_eq_ok {α : Type} {x : Checked α} {a : α} : checked x = .ok a ↔ x = .ok a := by
  cases x <;> simp [checked, Except.mapError]

namespace Script

variable {T Q : Type}

/-- The sketches are of supported sizes. -/
def Sized : Script T Q → Prop
  | new maxMapSize => maxMapSize.isPowerOfTwo ∧ maxMapSize ≤ maxMapSizeLimit
  | update s _ _ | updateRef s _ _ | reset s | reload s => s.Sized
  | merge s s' => s.Sized ∧ s'.Sized

/-- The sum of the counts since the last reset. -/
def weight : Script T Q → ℕ
  | new _ | reset _ => 0
  | update s _ count | updateRef s _ count => s.weight + count
  | merge s s' => s.weight + s'.weight
  | reload s => s.weight

/-- The total weight never exceeds 64 bits. -/
def Fits : Script T Q → Prop
  | new _ => True
  | update s _ count | updateRef s _ count => s.weight + count < 2 ^ 64 ∧ s.Fits
  | merge s s' => s.weight + s'.weight < 2 ^ 64 ∧ s.Fits ∧ s'.Fits
  | reset s | reload s => s.Fits

/-- The logarithm of the largest table. -/
def lgMax : Script T Q → ℕ
  | new maxMapSize => max maxMapSize.log2 lgMinMapSize
  | update s _ _ | updateRef s _ _ | merge s _ | reset s | reload s => s.lgMax

/-- The size of the sample of a purge. -/
def sampleSizeOf (lgMax : ℕ) : ℕ := min defaultSampleSize (2 ^ lgMax * 3 / 4)

/-- The smallest sample of the sketch and the sketches merged into it. -/
def least : Script T Q → ℕ
  | new maxMapSize => sampleSizeOf (max maxMapSize.log2 lgMinMapSize)
  | update s _ _ | updateRef s _ _ | reload s => s.least
  | merge s s' => min s.least s'.least
  | reset s => sampleSizeOf s.lgMax

/-- The sketch has seen updates only. -/
def UpdateOnly : Script T Q → Prop
  | new _ => True
  | update s _ _ | updateRef s _ _ => s.UpdateOnly
  | merge _ _ | reset _ | reload _ => False

section Keys

variable [DecidableEq T] [Hash T] [DecidableEq Q] [Hash Q] [Borrow T Q]

/-- Makes the sketch. -/
def eval (value : FrequentItemValue T) : Script T Q → Except Fault (FrequentItemsSketch T)
  | new maxMapSize => checked (FrequentItemsSketch.new maxMapSize)
  | update s item count => do checked ((← s.eval value).updateWithCount item count)
  | updateRef s item count => do checked ((← s.eval value).updateWithCountRef item count)
  | merge s s' => do checked ((← s.eval value).merge (← s'.eval value))
  | reset s => do checked (← s.eval value).reset
  | reload s => do deserialize value ((← s.eval value).serialize value)

/-- The count of an item since the last reset. -/
def truth : Script T Q → T → ℕ
  | new _, _ | reset _, _ => 0
  | update s item count, x => s.truth x + if x = item then count else 0
  | updateRef s item count, x => s.truth x + if x = Borrow.toOwned item then count else 0
  | merge s s', x => s.truth x + s'.truth x
  | reload s, x => s.truth x

/-- The items of an update-only sketch. -/
def items : Script T Q → Finset T
  | new _ => ∅
  | update s item _ => insert item s.items
  | updateRef s item _ => insert (Borrow.toOwned item) s.items
  | merge s s' => s.items ∪ s'.items
  | reset s | reload s => s.items

end Keys

theorem Fits.weight_lt {s : Script T Q} (h : s.Fits) : s.weight < 2 ^ 64 := by
  induction s with
  | new _ => exact Nat.two_pow_pos 64
  | update _ _ _ _ => exact h.1
  | updateRef _ _ _ _ => exact h.1
  | merge _ _ _ _ => exact h.1
  | reset _ _ => exact Nat.two_pow_pos 64
  | reload _ ih => exact ih h

theorem half_mono {m n : ℕ} (h : m ≤ n) : half m ≤ half n := by
  unfold half
  omega

theorem lgMax_range {s : Script T Q} (h : s.Sized) :
    lgMinMapSize ≤ s.lgMax ∧ s.lgMax ≤ lgMaxMapSizeLimit := by
  induction s with
  | new maxMapSize =>
      obtain ⟨⟨k, rfl⟩, hle⟩ := h
      have hk : 2 ^ k ≤ 2 ^ lgMaxMapSizeLimit := hle
      rw [lgMax, Nat.log2_two_pow]
      exact ⟨le_max_right _ _,
        max_le ((Nat.pow_le_pow_iff_right one_lt_two).mp hk) (by decide)⟩
  | update _ _ _ ih => exact ih h
  | updateRef _ _ _ ih => exact ih h
  | merge _ _ ih _ => exact ih h.1
  | reset _ ih => exact ih h
  | reload _ ih => exact ih h

theorem sampleSizeOf_pos {lg : ℕ} (h : lgMinMapSize ≤ lg) : 0 < sampleSizeOf lg := by
  have hsix := six_le_capacity h
  exact lt_min (by decide) (by omega)

theorem least_range {s : Script T Q} (h : s.Sized) : 0 < s.least ∧ s.least ≤ sampleSizeOf s.lgMax := by
  induction s with
  | new maxMapSize => exact ⟨sampleSizeOf_pos (le_max_right _ _), le_rfl⟩
  | update _ _ _ ih => exact ih h
  | updateRef _ _ _ ih => exact ih h
  | merge _ _ ih ih' =>
      exact ⟨lt_min (ih h.1).1 (ih' h.2).1, (min_le_left _ _).trans (ih h.1).2⟩
  | reset s => exact ⟨sampleSizeOf_pos (lgMax_range h).1, le_rfl⟩
  | reload _ ih => exact ih h

theorem least_updateOnly {s : Script T Q} (honly : s.UpdateOnly) : s.least = sampleSizeOf s.lgMax := by
  induction s with
  | new _ => rfl
  | update _ _ _ ih => exact ih honly
  | updateRef _ _ _ ih => exact ih honly
  | merge _ _ _ _ => exact honly.elim
  | reset _ _ => exact honly.elim
  | reload _ _ => exact honly.elim

end Script

variable {T Q : Type} [DecidableEq T] [Hash T] [DecidableEq Q] [Hash Q] [Borrow T Q]
variable {f : FrequentItemsSketch T} {truth : T → ℕ} {weight payers : ℕ}

omit [DecidableEq Q] [Hash Q] [Borrow T Q] in
theorem Summary.mono (h : f.Summary truth weight payers) {p : ℕ} (hp : p ≤ payers) :
    f.Summary truth weight p := ⟨h.inv, h.weight_eq, h.estimates, h.budget.mono hp⟩

/-- What holds of every sketch that was made. -/
structure Made (s : Script T Q) (f : FrequentItemsSketch T) : Prop where
  summary : f.Summary s.truth s.weight (half s.least)
  lgMax_eq : f.lgMaxMapSize = s.lgMax

omit [DecidableEq Q] in
/-- Every purge can be paid for. -/
theorem Made.half_least {s : Script T Q} (hf : Made s f) (hs : s.Sized) :
    0 < half s.least ∧ half s.least ≤ half f.sampleSize := by
  obtain ⟨hpos, hle⟩ := Script.least_range hs
  refine ⟨half_pos hpos, Script.half_mono ?_⟩
  rw [hf.summary.inv.sampleSize_eq, hf.lgMax_eq]
  exact hle

/-- Everything that a script makes, and the only way in which it can fail. -/
theorem Script.made (value : FrequentItemValue T) {s : Script T Q} (hsized : s.Sized) (hfit : s.Fits) :
    Outcome (Panicked Drifted) (s.eval value) (Made s) := by
  induction s with
  | new maxMapSize =>
      obtain ⟨⟨k, rfl⟩, hle⟩ := hsized
      have hrange := lgMax_range (s := (new (2 ^ k) : Script T Q)) ⟨⟨k, rfl⟩, hle⟩
      obtain ⟨f, hf, hsummary, hlg, -⟩ := withLgMapSizes_spec (T := T) (le_refl lgMinMapSize)
        (le_max_right (2 ^ k).log2 lgMinMapSize) hrange.2 (half (sampleSizeOf (max (2 ^ k).log2 lgMinMapSize)))
      refine outcome_checked (Outcome.of_eq_ok (a := f) ?_ ⟨hsummary, hlg⟩)
      rw [FrequentItemsSketch.new, assert_pos ⟨k, rfl⟩, ok_bind, assert_pos hle, ok_bind, hf]
  | update s item count ih =>
      refine (ih hsized hfit.2).bind fun f _ hf ↦ outcome_checked ?_
      obtain ⟨hpos, hle⟩ := hf.half_least hsized
      exact (hf.summary.updateWithCount_outcome hpos hle item hfit.1).mono
        fun f' _ h' ↦ ⟨h'.1, h'.2.trans hf.lgMax_eq⟩
  | updateRef s item count ih =>
      refine (ih hsized hfit.2).bind fun f _ hf ↦ outcome_checked ?_
      obtain ⟨hpos, hle⟩ := hf.half_least hsized
      rw [updateWithCountRef_eq]
      exact (hf.summary.updateWithCount_outcome hpos hle _ hfit.1).mono
        fun f' _ h' ↦ ⟨h'.1, h'.2.trans hf.lgMax_eq⟩
  | merge s s' ih ih' =>
      refine (ih hsized.1 hfit.2.1).bind fun f _ hf ↦ ?_
      refine (ih' hsized.2 hfit.2.2).bind fun f' _ hf' ↦ outcome_checked ?_
      obtain ⟨-, hle⟩ := hf.half_least hsized.1
      have hleast : half (min s.least s'.least) ≤ half s.least := half_mono (min_le_left _ _)
      have hleast' : half (min s.least s'.least) ≤ half s'.least := half_mono (min_le_right _ _)
      have hpos : 0 < half (min s.least s'.least) :=
        half_pos (lt_min (least_range hsized.1).1 (least_range hsized.2).1)
      exact ((hf.summary.mono hleast).merge_outcome hpos (hleast.trans hle)
        (hf'.summary.mono hleast') hfit.1).mono fun g _ hg ↦ ⟨hg.1, hg.2.trans hf.lgMax_eq⟩
  | reset s ih =>
      refine (ih hsized hfit).bind fun f _ hf ↦ outcome_checked ?_
      obtain ⟨hmin, hmax⟩ := lgMax_range hsized
      have heq : max s.lgMax lgMinMapSize = s.lgMax := max_eq_left hmin
      obtain ⟨g, hg, hsummary, hlg, -⟩ := withLgMapSizes_spec (T := T) (le_refl lgMinMapSize)
        (le_max_right s.lgMax lgMinMapSize) (heq.trans_le hmax) (half (sampleSizeOf s.lgMax))
      rw [FrequentItemsSketch.reset, hf.lgMax_eq, hg]
      exact Outcome.ok ⟨hsummary, hlg.trans heq⟩
  | reload s ih =>
      refine (ih hsized hfit).bind fun f _ hf ↦ ?_
      exact (hf.summary.deserialize_outcome (hf.half_least hsized).1 (Script.Fits.weight_lt hfit) value).mono
        fun g _ hg ↦ ⟨hg.summary, hg.lgMax_eq.trans hf.lgMax_eq⟩

/-! ## Bounds and frequent items -/

/-! ## Exact sketches -/

/-- An update of a sketch that has room for all its items does not raise the error. -/
theorem Summary.offset_of_update (h : f.Summary truth weight payers) {D : Finset T} {item : T}
    {count : ℕ} (hkeys : ∀ x ∈ f.hashMap.entries.map Prod.fst, x ∈ D) (hitem : item ∈ D)
    (hD : D.card ≤ 2 ^ f.lgMaxMapSize * 3 / 4) (hweight : weight + count < 2 ^ 64) (hpos : 0 < payers)
    {f' : FrequentItemsSketch T} (hok : f.updateWithCount item count = .ok f') :
    f'.offset = f.offset ∧ ∀ x ∈ f'.hashMap.entries.map Prod.fst, x ∈ D := by
  unfold updateWithCount at hok
  split_ifs at hok with hzero
  · cases hok
    exact ⟨rfl, hkeys⟩
  · obtain ⟨-, -, hok⟩ := bind_eq_ok.mp hok
    obtain ⟨streamWeight, -, hok⟩ := bind_eq_ok.mp hok
    obtain ⟨map, hmap, hok⟩ := bind_eq_ok.mp hok
    have hroom : f.hashMap.numActive < 2 ^ f.hashMap.lgLength := by
      have hactive := h.inv.active_le
      have hlt := capacity_lt h.inv.lg_min
      rw [h.inv.cap_eq] at hactive
      omega
    have hadjusted := (ReversePurgeItemHashMap.adjustOrPutValue_outcome h.inv.map hroom item
      (v := count) fun _ ↦ by
        have hle := count_le_total f.hashMap.entries item
        have hbudget := h.total_add_offset_le hpos
        omega).post_of_ok hmap
    have hkeys' : ∀ x ∈ map.entries.map Prod.fst, x ∈ D := by
      intro x hx
      rcases hadjusted.put with ⟨-, hput⟩ | ⟨v₀, F, hF, hput⟩
      · rw [hput, Multiset.map_cons] at hx
        rcases Multiset.mem_cons.mp hx with rfl | hx
        · exact hitem
        · exact hkeys x hx
      · rw [hput, Multiset.map_cons] at hx
        exact hkeys x (by rw [hF, Multiset.map_cons]; exact hx)
    have hactive : map.numActive ≤ D.card := by
      rw [hadjusted.inv.numActive_eq, ← Multiset.card_map Prod.fst,
        ← Multiset.toFinset_card_of_nodup hadjusted.inv.nodup]
      exact Finset.card_le_card fun x hx ↦ hkeys' x (Multiset.mem_toFinset.mp hx)
    unfold maybeResizeOrPurge at hok
    split_ifs at hok with hfull hgrow
    · obtain ⟨map', hresize, hok⟩ := bind_eq_ok.mp hok
      cases hok
      have hlen : map.slots.length * 2 = 2 ^ (map.lgLength + 1) := by
        rw [hadjusted.inv.length_eq, Nat.pow_succ]
      have hlt : map.numActive < 2 ^ (map.lgLength + 1) := by
        have hcard := hadjusted.put.card_le
        rw [← hadjusted.inv.numActive_eq, ← h.inv.map.numActive_eq] at hcard
        rw [hadjusted.lgLength_eq, Nat.pow_succ]
        omega
      rw [hlen] at hresize
      obtain ⟨-, -, hentries⟩ :=
        (ReversePurgeItemHashMap.resize_outcome hadjusted.inv hlt).post_of_ok hresize
      exact ⟨rfl, fun x hx ↦ hkeys' x (hentries ▸ hx)⟩
    · -- a full table of the largest size holds more keys than there are items
      have hlg : f.lgMaxMapSize ≤ map.lgLength := not_lt.mp hgrow
      have hfull' : f.curMapCap < map.numActive := hfull
      rw [h.inv.cap_eq, ← hadjusted.lgLength_eq,
        Nat.le_antisymm (hadjusted.lgLength_eq ▸ h.inv.lg_le) hlg] at hfull'
      exact absurd (hactive.trans hD) (not_le.mpr hfull')
    · cases hok
      exact ⟨rfl, hkeys'⟩

/-- A stream of updates with few enough items is counted exactly. -/
theorem Script.exact (value : FrequentItemValue T) {s : Script T Q} (hsized : s.Sized) (hfit : s.Fits)
    (honly : s.UpdateOnly) {D : Finset T} (hitems : s.items ⊆ D) (hD : D.card ≤ 2 ^ s.lgMax * 3 / 4)
    (hok : s.eval value = .ok f) :
    f.offset = 0 ∧ ∀ x ∈ f.hashMap.entries.map Prod.fst, x ∈ D := by
  induction s generalizing f with
  | new maxMapSize =>
      obtain ⟨-, hnew⟩ := assert_bind_eq_ok.mp (checked_eq_ok.mp hok)
      obtain ⟨-, hnew⟩ := assert_bind_eq_ok.mp hnew
      obtain ⟨g, hg, -, -, -, hoffset, hentries⟩ := withLgMapSizes_spec (T := T) (le_refl lgMinMapSize)
        (le_max_right maxMapSize.log2 lgMinMapSize) (lgMax_range hsized).2 0
      rw [hg] at hnew
      cases hnew
      refine ⟨hoffset, fun x hx ↦ ?_⟩
      rw [hentries, Multiset.map_zero] at hx
      exact absurd hx (Multiset.notMem_zero x)
  | update s item count ih =>
      obtain ⟨f₀, h₀, hok⟩ := bind_eq_ok.mp hok
      obtain ⟨hitem, hrest⟩ := Finset.insert_subset_iff.mp hitems
      obtain ⟨hoffset, hkeys⟩ := ih hsized hfit.2 honly hrest hD h₀
      have hf := (Script.made value (show s.Sized from hsized) hfit.2).post_of_ok h₀
      have hcap : D.card ≤ 2 ^ f₀.lgMaxMapSize * 3 / 4 := hf.lgMax_eq ▸ hD
      obtain ⟨heq, hkeys'⟩ := hf.summary.offset_of_update hkeys hitem hcap hfit.1
        (hf.half_least hsized).1 (checked_eq_ok.mp hok)
      exact ⟨heq.trans hoffset, hkeys'⟩
  | updateRef s item count ih =>
      obtain ⟨f₀, h₀, hok⟩ := bind_eq_ok.mp hok
      obtain ⟨hitem, hrest⟩ := Finset.insert_subset_iff.mp hitems
      obtain ⟨hoffset, hkeys⟩ := ih hsized hfit.2 honly hrest hD h₀
      have hf := (Script.made value (show s.Sized from hsized) hfit.2).post_of_ok h₀
      have hcap : D.card ≤ 2 ^ f₀.lgMaxMapSize * 3 / 4 := hf.lgMax_eq ▸ hD
      rw [checked_eq_ok, updateWithCountRef_eq] at hok
      obtain ⟨heq, hkeys'⟩ := hf.summary.offset_of_update hkeys hitem hcap hfit.1
        (hf.half_least hsized).1 hok
      exact ⟨heq.trans hoffset, hkeys'⟩
  | merge _ _ _ _ => exact honly.elim
  | reset _ _ => exact honly.elim
  | reload _ _ => exact honly.elim

/-! ## The error -/

/-- Three eighths of the table pay for every purge, which is more than two sevenths. -/
theorem error_le_of_budget {lg error rest weight : ℕ} (hmin : lgMinMapSize ≤ lg) (hmax : lg ≤ 10)
    (h : error * half (Script.sampleSizeOf lg) + rest ≤ weight) :
    (error : ℚ) ≤ 3.5 * weight / 2 ^ lg := by
  have hpow : ∃ k, 2 ^ lg = 8 * k ∧ k ≤ 128 := by
    refine ⟨2 ^ (lg - 3), ?_, ?_⟩
    · rw [show (8 : ℕ) = 2 ^ 3 from rfl, ← Nat.pow_add,
        Nat.add_sub_cancel' (show 3 ≤ lg from hmin)]
    · calc 2 ^ (lg - 3) ≤ 2 ^ 7 := Nat.pow_le_pow_right two_pos (by omega)
        _ = 128 := rfl
  obtain ⟨k, hk, hle⟩ := hpow
  have hsample : half (Script.sampleSizeOf lg) = 3 * k := by
    unfold Script.sampleSizeOf half defaultSampleSize
    rw [hk]
    omega
  rw [hsample] at h
  have hcast : ((2 : ℚ) ^ lg) = 8 * k := by exact_mod_cast hk
  have hk0 : (0 : ℚ) < 8 * k := hcast ▸ pow_pos two_pos lg
  have herror : (error : ℚ) * (3 * k) ≤ weight := by exact_mod_cast (Nat.le_add_right _ rest).trans h
  rw [hcast, le_div_iff₀ hk0]
  have hnonneg : (0 : ℚ) ≤ error * k := by positivity
  linarith

end FrequentItemsSketch

end DataSketches
