import DataSketches.Req.Compactor.Invariant
import DataSketches.Req.Sketch

/-!
# The levels of a sketch

One pass of `compress` over a level either leaves everything as it is or promotes
items from a full level to the next one, which is added if there is none.  Weighted
by level, the number of items stays the same; the number of items decreases.

## Main definitions

* `Levels`: the invariant of the compactors of a sketch.
* `Promotion`: what a pass of `compress` over a full level does.
-/

namespace DataSketches

namespace Req

open Comparator Runs ReqValue

/-- Replacing an element changes a sum by the difference of what it contributes. -/
theorem sum_map_set {α M : Type} [AddCommMonoid M] (f : α → M) {l : List α} {i : ℕ} {a : α}
    (h : l[i]? = some a) (b : α) : ((l.set i b).map f).sum + f a = (l.map f).sum + f b := by
  induction l generalizing i with
  | nil => cases h
  | cons x l ih =>
      cases i with
      | zero =>
          rw [List.getElem?_cons_zero, Option.some_inj] at h
          rw [List.set_cons_zero, List.map_cons, List.map_cons, List.sum_cons, List.sum_cons, h]
          abel
      | succ i =>
          rw [List.getElem?_cons_succ] at h
          rw [List.set_cons_succ, List.map_cons, List.map_cons, List.sum_cons, List.sum_cons,
            add_assoc, ih h, add_assoc]

/-- An element of a list with a replaced element is old or the new one. -/
theorem getElem?_set_cases {α : Type} {l : List α} {i j : ℕ} {a b : α} (h : (l.set i b)[j]? = some a) :
    (j = i ∧ a = b) ∨ (j ≠ i ∧ l[j]? = some a) := by
  rcases eq_or_ne i j with rfl | hne
  · have hlt : i < l.length := by
      obtain ⟨hlt, -⟩ := List.getElem?_eq_some_iff.mp h
      rwa [List.length_set] at hlt
    rw [List.getElem?_set_self hlt, Option.some_inj] at h
    exact .inl ⟨rfl, h.symm⟩
  · rw [List.getElem?_set_ne hne] at h
    exact .inr ⟨hne.symm, h⟩

/-- The bits of two numbers together are at most their sum. -/
theorem or_le_add (a b : ℕ) : a ||| b ≤ a + b := by
  induction a using Nat.strongRecOn generalizing b with
  | ind a ih =>
      rcases Nat.eq_zero_or_pos a with rfl | hpos
      · rw [Nat.zero_or, Nat.zero_add]
      · have hhalf := ih (a / 2) (by omega) (b / 2)
        have hdiv : (a ||| b) / 2 = a / 2 ||| b / 2 := Nat.or_div_two
        have hmod := @Nat.or_mod_two_eq_one a b
        omega

variable {T : Type}

/-- The number of items, weighted by level. -/
def weightedCount (cs : List (Compactor T)) : ℕ :=
  (cs.map fun c ↦ c.items.length * 2 ^ c.lgWeight).sum

/-- The number of items. -/
def itemCount (cs : List (Compactor T)) : ℕ := (cs.map Compactor.numItems).sum

/-- The items of all levels. -/
def retained (cs : List (Compactor T)) : Multiset T := (cs.map fun c ↦ (c.items : Multiset T)).sum

/-- The nominal capacity of all levels. -/
def capacity (cs : List (Compactor T)) : ℕ := (cs.map Compactor.nominalCapacity).sum

theorem weightedCount_append (cs ds : List (Compactor T)) :
    weightedCount (cs ++ ds) = weightedCount cs + weightedCount ds := by
  rw [weightedCount, List.map_append, List.sum_append]
  rfl

theorem weightedCount_take_add_drop (cs : List (Compactor T)) (i : ℕ) :
    weightedCount (cs.take i) + weightedCount (cs.drop i) = weightedCount cs := by
  rw [← weightedCount_append, List.take_append_drop]

theorem weightedCount_drop_le (cs : List (Compactor T)) (i : ℕ) :
    weightedCount (cs.drop i) ≤ weightedCount cs :=
  (Nat.le_add_left _ _).trans_eq (weightedCount_take_add_drop cs i)

/-- The weight of the levels when one of them is replaced. -/
theorem weightedCount_set {cs : List (Compactor T)} {i : ℕ} {c : Compactor T} (h : cs[i]? = some c)
    (c' : Compactor T) :
    weightedCount (cs.set i c') + c.items.length * 2 ^ c.lgWeight =
      weightedCount cs + c'.items.length * 2 ^ c'.lgWeight :=
  sum_map_set (fun c ↦ c.items.length * 2 ^ c.lgWeight) h c'

theorem itemCount_append (cs ds : List (Compactor T)) :
    itemCount (cs ++ ds) = itemCount cs + itemCount ds := by
  rw [itemCount, List.map_append, List.sum_append]
  rfl

theorem retained_append (cs ds : List (Compactor T)) :
    retained (cs ++ ds) = retained cs + retained ds := by
  rw [retained, List.map_append, List.sum_append]
  rfl

theorem card_retained (cs : List (Compactor T)) : (retained cs).card = itemCount cs := by
  induction cs with
  | nil => rfl
  | cons c cs ih =>
      rw [retained, List.map_cons, List.sum_cons, Multiset.card_add]
      exact (congrArg _ ih).trans List.sum_cons.symm

theorem le_retained {cs : List (Compactor T)} {c : Compactor T} (h : c ∈ cs) :
    (c.items : Multiset T) ≤ retained cs :=
  List.le_sum_of_mem (List.mem_map.mpr ⟨c, h, rfl⟩)

theorem capacity_append (cs ds : List (Compactor T)) :
    capacity (cs ++ ds) = capacity cs + capacity ds := by
  rw [capacity, List.map_append, List.sum_append]
  rfl

theorem itemCount_take_add_drop (cs : List (Compactor T)) (i : ℕ) :
    itemCount (cs.take i) + itemCount (cs.drop i) = itemCount cs := by
  rw [← itemCount_append, List.take_append_drop]

theorem capacity_take_le (cs : List (Compactor T)) (i : ℕ) : capacity (cs.take i) ≤ capacity cs := by
  conv_rhs => rw [← List.take_append_drop i cs, capacity_append]
  exact Nat.le_add_right _ _

theorem length_le_itemCount {cs : List (Compactor T)} {c : Compactor T} (h : c ∈ cs) :
    c.items.length ≤ itemCount cs := List.le_sum_of_mem (List.mem_map.mpr ⟨c, h, rfl⟩)

/-- The first levels have room. -/
def Roomy (count : ℕ) (cs : List (Compactor T)) : Prop :=
  ∀ i < count, ∀ c, cs[i]? = some c → c.items.length < c.nominalCapacity

theorem Roomy.itemCount_take_le {cs : List (Compactor T)} {count : ℕ} (h : Roomy count cs) :
    itemCount (cs.take count) ≤ capacity cs := by
  refine le_trans (List.sum_le_sum fun c hc ↦ ?_) (capacity_take_le cs count)
  obtain ⟨i, hi⟩ := List.mem_iff_getElem?.mp hc
  rw [List.getElem?_take] at hi
  split_ifs at hi with hlt
  exact (h i hlt c hi).le

/-- The capacity of a level is limited by `k`. -/
theorem nominalCapacity_le {k : ℕ} (hk : ValidK k) {c : Compactor T} (h : c.HasLayout k) :
    c.nominalCapacity ≤ 192 * k := by
  obtain ⟨doublings, hfew, -, hsize, hnum, -⟩ := h
  have hle := sectionSize_le hk (show doublings ≤ 6 by omega)
  have hpow : 2 ^ doublings ≤ 2 ^ 5 := Nat.pow_le_pow_right Nat.two_pos hfew
  rw [Compactor.nominalCapacity, hsize, hnum]
  calc 2 * sectionSize k doublings * (initialSectionsPerCompactor * 2 ^ doublings)
      ≤ 2 * k * (initialSectionsPerCompactor * 2 ^ 5) :=
        Nat.mul_le_mul (Nat.mul_le_mul_left 2 hle) (Nat.mul_le_mul_left _ hpow)
    _ = 192 * k := by rw [initialSectionsPerCompactor]; ring

theorem capacity_le_mul {k : ℕ} (hk : ValidK k) {cs : List (Compactor T)}
    (h : ∀ c ∈ cs, c.HasLayout k) : capacity cs ≤ cs.length * (192 * k) := by
  have hle := List.sum_le_card_nsmul (cs.map Compactor.nominalCapacity) (192 * k) fun w hw ↦ by
    obtain ⟨c, hc, rfl⟩ := List.mem_map.mp hw
    exact nominalCapacity_le hk (h c hc)
  rwa [List.length_map, smul_eq_mul] at hle

/-- More than all levels together have room for, whatever `k` is. -/
def levelBound : ℕ := 64 * (192 * maxK)

variable [ReqValue T] {S : UnstableSort} {k level : ℕ} {rankAccuracy : RankAccuracy}
  {cs cs' : List (Compactor T)} {xs : List T}

/-- The invariant of the compactors of a sketch that has seen the items `xs`.  The state of a
compactor counts its compactions, each of which has promoted an item, so it is bounded by what the
levels above weigh. -/
structure Levels (k : ℕ) (rankAccuracy : RankAccuracy) (xs : List T) (cs : List (Compactor T)) :
    Prop where
  inv : ∀ (i : ℕ) (c : Compactor T), cs[i]? = some c → c.Inv i rankAccuracy
  layout : ∀ c ∈ cs, c.HasLayout k
  flow : ∀ (i : ℕ) (c : Compactor T), cs[i]? = some c →
    c.state * 2 ^ (i + 1) ≤ weightedCount (cs.drop (i + 1))
  weight_eq : weightedCount cs = xs.length
  retained_le : retained cs ≤ (xs : Multiset T)
  ne_nil : cs ≠ []
  top : ∀ c, 1 < cs.length → cs[cs.length - 1]? = some c → c.items ≠ []

theorem Levels.mem (h : Levels k rankAccuracy xs cs) {c : Compactor T} (hc : c ∈ cs) {x : T}
    (hx : x ∈ c.items) : x ∈ xs :=
  Multiset.mem_coe.mp (Multiset.mem_of_le ((le_retained hc).trans h.retained_le)
    (Multiset.mem_coe.mpr hx))

/-- The states of the compactors do not wrap around. -/
theorem Levels.state_lt (h : Levels k rankAccuracy xs cs) (hroom : xs.length < 2 ^ 64) {i : ℕ}
    {c : Compactor T} (hc : cs[i]? = some c) : c.state + 1 < 2 ^ 64 := by
  have hflow := (h.flow i c hc).trans (weightedCount_drop_le cs (i + 1))
  rw [h.weight_eq, pow_succ] at hflow
  have hpos := Nat.two_pow_pos i
  have htwo : c.state * 2 ≤ c.state * (2 ^ i * 2) := Nat.mul_le_mul_left _ (by omega)
  omega

/-- The last level has items that count for many. -/
theorem Levels.length_le (h : Levels k rankAccuracy xs cs) : cs.length ≤ Nat.log2 xs.length + 1 := by
  rcases Nat.lt_or_ge 1 cs.length with hlong | hone
  · obtain ⟨d, hd⟩ : ∃ d, cs[cs.length - 1]? = some d :=
      ⟨_, List.getElem?_eq_getElem (by omega)⟩
    have hpos := List.length_pos_iff.mpr (h.top d hlong hd)
    have hle : d.items.length * 2 ^ d.lgWeight ≤ weightedCount cs :=
      List.le_sum_of_mem (List.mem_map.mpr ⟨d, List.mem_of_getElem? hd, rfl⟩)
    rw [(h.inv _ d hd).lgWeight_eq, h.weight_eq] at hle
    have hpow := (Nat.le_mul_of_pos_left (2 ^ (cs.length - 1)) hpos).trans hle
    have hne : xs.length ≠ 0 := by
      have := Nat.two_pow_pos (cs.length - 1)
      omega
    have hlog := (Nat.le_log2 hne).mpr hpow
    omega
  · omega

theorem Levels.length_le_64 (h : Levels k rankAccuracy xs cs) (hroom : xs.length < 2 ^ 64) :
    cs.length ≤ 64 := by
  rcases Nat.eq_zero_or_pos xs.length with hn | hn
  · have hle := h.length_le
    rw [hn, Nat.log2_zero] at hle
    omega
  · have hlog := (Nat.log2_lt (Nat.pos_iff_ne_zero.mp hn)).mpr hroom
    exact h.length_le.trans hlog

theorem Levels.capacity_le (h : Levels k rankAccuracy xs cs) (hk : ValidK k)
    (hroom : xs.length < 2 ^ 64) : capacity cs ≤ levelBound :=
  (capacity_le_mul hk h.layout).trans
    (Nat.mul_le_mul (h.length_le_64 hroom) (Nat.mul_le_mul_left 192 hk.2.1))

/-- The levels, with one more if a level is the last one. -/
inductive Grown (k level : ℕ) (rankAccuracy : RankAccuracy) (cs : List (Compactor T)) :
    List (Compactor T) → Prop where
  | same : level + 1 < cs.length → Grown k level rankAccuracy cs cs
  | grow : level + 1 = cs.length →
      Grown k level rankAccuracy cs (cs ++ [.new cs.length k rankAccuracy])

/-- A promotion from a level to the next one. -/
structure Promotion (rankAccuracy : RankAccuracy) (level : ℕ) (cs cs' : List (Compactor T))
    (c c' d d' : Compactor T) (promoted : List T) : Prop where
  level_eq : cs[level]? = some c
  next_eq : cs[level + 1]? = some d
  compacted : c.Compacted level rankAccuracy c' promoted
  promoted_ne : promoted ≠ []
  left_lt : c'.items.length < c.nominalCapacity
  inv : d'.Inv (level + 1) rankAccuracy
  lgWeight_eq : c.lgWeight = level
  next_lgWeight_eq : d.lgWeight = level + 1
  perm : d'.items.Perm (d.items ++ promoted)
  sections : d.SameSections d'
  result_eq : cs' = (cs.set level c').set (level + 1) d'

namespace Promotion

variable {c c' d d' : Compactor T} {promoted : List T}

theorem next_eq_set (h : Promotion rankAccuracy level cs cs' c c' d d' promoted) :
    (cs.set level c')[level + 1]? = some d := by
  rw [List.getElem?_set_ne (Nat.succ_ne_self level).symm]
  exact h.next_eq

/-- What a sum over the levels changes by. -/
theorem sum_eq {M : Type} [AddCommMonoid M]
    (h : Promotion rankAccuracy level cs cs' c c' d d' promoted) (f : Compactor T → M) :
    (cs'.map f).sum + f c + f d = (cs.map f).sum + f c' + f d' := by
  have h₁ := sum_map_set f h.level_eq c'
  have h₂ := sum_map_set f h.next_eq_set d'
  rw [← h.result_eq] at h₂
  rw [add_right_comm, h₂, add_right_comm, h₁]

/-- An item of the next level has twice the weight. -/
theorem weightedCount_eq (h : Promotion rankAccuracy level cs cs' c c' d d' promoted) :
    weightedCount cs' = weightedCount cs := by
  have hsum := h.sum_eq fun c ↦ c.items.length * 2 ^ c.lgWeight
  rw [h.lgWeight_eq, h.next_lgWeight_eq, h.compacted.inv.lgWeight_eq, h.inv.lgWeight_eq,
    h.perm.length_eq, List.length_append, ← h.compacted.weight_eq, pow_succ, Nat.add_mul] at hsum
  rw [weightedCount, weightedCount]
  linarith

/-- Half of the items of the range are dropped. -/
theorem itemCount_lt (h : Promotion rankAccuracy level cs cs' c c' d d' promoted) :
    itemCount cs' < itemCount cs := by
  have hsum := h.sum_eq Compactor.numItems
  have hpos := List.length_pos_iff.mpr h.promoted_ne
  have hweight := h.compacted.weight_eq
  have hperm := h.perm.length_eq
  rw [List.length_append] at hperm
  rw [Compactor.numItems, Compactor.numItems, Compactor.numItems, Compactor.numItems] at hsum
  rw [itemCount, itemCount]
  omega

theorem getElem?_cases (h : Promotion rankAccuracy level cs cs' c c' d d' promoted) {i : ℕ}
    {e : Compactor T} (he : cs'[i]? = some e) :
    (i = level ∧ e = c') ∨ (i = level + 1 ∧ e = d') ∨ (i ≠ level ∧ i ≠ level + 1 ∧ cs[i]? = some e) := by
  rw [h.result_eq] at he
  rcases getElem?_set_cases he with ⟨rfl, rfl⟩ | ⟨hne, he'⟩
  · exact .inr (.inl ⟨rfl, rfl⟩)
  · rcases getElem?_set_cases he' with ⟨rfl, rfl⟩ | ⟨hne', he''⟩
    · exact .inl ⟨rfl, rfl⟩
    · exact .inr (.inr ⟨hne', hne, he''⟩)

/-- No item is made up. -/
theorem retained_le (h : Promotion rankAccuracy level cs cs' c c' d d' promoted) :
    retained cs' ≤ retained cs := by
  have hsum := h.sum_eq fun c ↦ (c.items : Multiset T)
  have hnext : (d'.items : Multiset T) = d.items + promoted :=
    (Multiset.coe_eq_coe.mpr h.perm).trans (Multiset.coe_add _ _).symm
  have hleft : (c'.items : Multiset T) + promoted ≤ c.items :=
    (Multiset.coe_add _ _).trans_le (Multiset.coe_le.mpr h.compacted.subperm)
  refine le_of_add_le_add_right (a := (c.items : Multiset T) + d.items) ?_
  calc retained cs' + (c.items + d.items)
      = retained cs + c'.items + d'.items := (add_assoc _ _ _).symm.trans hsum
    _ = retained cs + (c'.items + promoted + d.items) := by rw [hnext]; abel
    _ ≤ retained cs + (c.items + d.items) := add_le_add_right (add_le_add_left hleft _) _

/-- The promoted level has room. -/
theorem roomy (h : Promotion rankAccuracy level cs cs' c c' d d' promoted) (hk : ValidK k)
    (hlayout : c.HasLayout k) (hstate : c.state + 1 < 2 ^ 64) (hbelow : Roomy level cs) :
    Roomy (level + 1) cs' := by
  intro i hi e he
  rcases h.getElem?_cases he with ⟨rfl, rfl⟩ | ⟨rfl, -⟩ | ⟨hne, -, he'⟩
  · exact h.left_lt.trans_le (h.compacted.layout k hk hlayout hstate).2
  · exact absurd hi (lt_irrefl _)
  · exact hbelow i (by omega) e he'

/-- No capacity is lost. -/
theorem capacity_le (h : Promotion rankAccuracy level cs cs' c c' d d' promoted) (hk : ValidK k)
    (hlayout : c.HasLayout k) (hstate : c.state + 1 < 2 ^ 64) : capacity cs ≤ capacity cs' := by
  have hsum := h.sum_eq Compactor.nominalCapacity
  have hle := (h.compacted.layout k hk hlayout hstate).2
  have heq := h.sections.nominalCapacity_eq
  rw [capacity, capacity]
  omega

theorem length_eq (h : Promotion rankAccuracy level cs cs' c c' d d' promoted) :
    cs'.length = cs.length := by
  rw [h.result_eq, List.length_set, List.length_set]

/-- The weight above the promoted level is what it was before and the promoted items. -/
theorem weightedCount_drop_eq (h : Promotion rankAccuracy level cs cs' c c' d d' promoted) :
    weightedCount (cs'.drop (level + 1)) =
      weightedCount (cs.drop (level + 1)) + promoted.length * 2 ^ (level + 1) := by
  have htake : cs'.take (level + 1) = (cs.take (level + 1)).set level c' := by
    rw [h.result_eq, List.take_set_of_le le_rfl, List.take_set]
  have hc : (cs.take (level + 1))[level]? = some c := by
    rw [List.getElem?_take_of_lt (Nat.lt_succ_self level)]
    exact h.level_eq
  have hset := weightedCount_set hc c'
  rw [← htake, h.lgWeight_eq, h.compacted.inv.lgWeight_eq, ← h.compacted.weight_eq, Nat.add_mul] at hset
  have htotal := weightedCount_take_add_drop cs (level + 1)
  have htotal' := weightedCount_take_add_drop cs' (level + 1)
  rw [h.weightedCount_eq] at htotal'
  rw [pow_succ]
  linarith

/-- A compaction adds to the state, but no more than what is promoted. -/
theorem flow (h : Promotion rankAccuracy level cs cs' c c' d d' promoted)
    (hflow : ∀ (i : ℕ) (c : Compactor T), cs[i]? = some c →
      c.state * 2 ^ (i + 1) ≤ weightedCount (cs.drop (i + 1))) (i : ℕ) (e : Compactor T)
    (he : cs'[i]? = some e) : e.state * 2 ^ (i + 1) ≤ weightedCount (cs'.drop (i + 1)) := by
  have habove : ∀ j, level + 1 < j → cs'.drop j = cs.drop j := by
    intro j hj
    rw [h.result_eq, List.drop_set_of_lt hj, List.drop_set_of_lt (by omega)]
  rcases h.getElem?_cases he with ⟨rfl, rfl⟩ | ⟨rfl, rfl⟩ | ⟨hne, hne', he'⟩
  · have hold := hflow i c h.level_eq
    have hpos := List.length_pos_iff.mpr h.promoted_ne
    have hstate := h.compacted.state_le
    rw [h.weightedCount_drop_eq]
    calc e.state * 2 ^ (i + 1) ≤ (c.state + promoted.length) * 2 ^ (i + 1) :=
          Nat.mul_le_mul_right _ (by omega)
      _ = c.state * 2 ^ (i + 1) + promoted.length * 2 ^ (i + 1) := Nat.add_mul _ _ _
      _ ≤ _ := Nat.add_le_add_right hold _
  · rw [habove _ (Nat.lt_succ_self _), h.sections.state_eq]
    exact hflow _ d h.next_eq
  · rcases Nat.lt_or_gt_of_ne hne with hlt | hgt
    · have htake : cs'.take (i + 1) = cs.take (i + 1) := by
        rw [h.result_eq, List.take_set_of_le (by omega), List.take_set_of_le (by omega)]
      have htotal := weightedCount_take_add_drop cs (i + 1)
      have htotal' := weightedCount_take_add_drop cs' (i + 1)
      rw [htake, h.weightedCount_eq] at htotal'
      exact (hflow i e he').trans_eq (by omega)
    · rw [habove _ (by omega)]
      exact hflow i e he'

/-- The invariant is kept, but for the condition on the last level. -/
theorem levels (h : Promotion rankAccuracy level cs cs' c c' d d' promoted) (hk : ValidK k)
    (hinv : ∀ (i : ℕ) (c : Compactor T), cs[i]? = some c → c.Inv i rankAccuracy)
    (hlayout : ∀ c ∈ cs, c.HasLayout k) (hstate : c.state + 1 < 2 ^ 64)
    (hflow : ∀ (i : ℕ) (c : Compactor T), cs[i]? = some c →
      c.state * 2 ^ (i + 1) ≤ weightedCount (cs.drop (i + 1)))
    (hweight : weightedCount cs = xs.length) (hretained : retained cs ≤ (xs : Multiset T))
    (htop : level + 2 < cs.length → ∀ c, cs[cs.length - 1]? = some c → c.items ≠ []) :
    Levels k rankAccuracy xs cs' := by
  have hlt : level + 1 < cs.length := (List.getElem?_eq_some_iff.mp h.next_eq).1
  refine ⟨?_, ?_, h.flow hflow, h.weightedCount_eq.trans hweight, h.retained_le.trans hretained, ?_,
    ?_⟩
  · intro i e he
    rcases h.getElem?_cases he with ⟨rfl, rfl⟩ | ⟨rfl, rfl⟩ | ⟨-, -, he'⟩
    · exact h.compacted.inv
    · exact h.inv
    · exact hinv i e he'
  · intro e he
    obtain ⟨i, hi⟩ := List.mem_iff_getElem?.mp he
    rcases h.getElem?_cases hi with ⟨rfl, rfl⟩ | ⟨rfl, rfl⟩ | ⟨-, -, he'⟩
    · exact (h.compacted.layout k hk (hlayout c (List.mem_of_getElem? h.level_eq)) hstate).1
    · exact (hlayout d (List.mem_of_getElem? h.next_eq)).of_sameSections h.sections
    · exact hlayout e (List.mem_of_getElem? he')
  · rw [← List.length_pos_iff, h.length_eq]
    omega
  · intro e _ he
    rw [h.length_eq] at he
    rcases h.getElem?_cases he with ⟨hlevel, -⟩ | ⟨-, rfl⟩ | ⟨hne, hne', he'⟩
    · omega
    · intro hnil
      have hperm := h.perm.length_eq
      rw [hnil, List.length_append, List.length_nil] at hperm
      exact h.promoted_ne (List.length_eq_zero_iff.mp (by omega))
    · exact htop (by omega) e he'

end Promotion

namespace Grown

variable {grown : List (Compactor T)}

theorem itemCount_eq (h : Grown k level rankAccuracy cs grown) : itemCount grown = itemCount cs := by
  cases h with
  | same => rfl
  | grow => rw [itemCount_append]; rfl

theorem weightedCount_eq (h : Grown k level rankAccuracy cs grown) :
    weightedCount grown = weightedCount cs := by
  cases h with
  | same => rfl
  | grow =>
      rw [weightedCount_append, weightedCount, weightedCount, List.map_singleton, List.sum_singleton]
      exact (congrArg _ (Nat.zero_mul _)).trans (Nat.add_zero _)

theorem capacity_le (h : Grown k level rankAccuracy cs grown) : capacity cs ≤ capacity grown := by
  cases h with
  | same => exact le_rfl
  | grow =>
      rw [capacity_append]
      exact Nat.le_add_right _ _

theorem length_le (h : Grown k level rankAccuracy cs grown) : cs.length ≤ grown.length := by
  cases h with
  | same => exact le_rfl
  | grow =>
      rw [List.length_append]
      exact Nat.le_add_right _ _

theorem lt_length (h : Grown k level rankAccuracy cs grown) : level + 1 < grown.length := by
  cases h with
  | same hlt => exact hlt
  | grow heq =>
      rw [List.length_append, List.length_singleton]
      omega

theorem getElem?_eq (h : Grown k level rankAccuracy cs grown) {i : ℕ} (hi : i < cs.length) :
    grown[i]? = cs[i]? := by
  cases h with
  | same => rfl
  | grow => exact List.getElem?_append_left hi

theorem roomy (h : Grown k level rankAccuracy cs grown) (hlt : level < cs.length)
    (hbelow : Roomy level cs) : Roomy level grown := by
  intro i hi c hc
  rw [h.getElem?_eq (hi.trans hlt)] at hc
  exact hbelow i hi c hc

/-- A level of the grown sketch is an old one or new. -/
theorem cases (h : Grown k level rankAccuracy cs grown) {i : ℕ} {c : Compactor T}
    (hc : grown[i]? = some c) : cs[i]? = some c ∨ i = cs.length ∧ c = .new i k rankAccuracy := by
  cases h with
  | same => exact .inl hc
  | grow heq =>
      rcases Nat.lt_or_ge i cs.length with hlt | hge
      · rw [List.getElem?_append_left hlt] at hc
        exact .inl hc
      · rw [List.getElem?_append_right hge, List.getElem?_singleton] at hc
        split_ifs at hc with hzero
        obtain rfl : i = cs.length := by omega
        exact .inr ⟨rfl, (Option.some_inj.mp hc).symm⟩

theorem inv (h : Grown k level rankAccuracy cs grown) (hk : ValidK k)
    (hinv : ∀ (i : ℕ) (c : Compactor T), cs[i]? = some c → c.Inv i rankAccuracy) (i : ℕ)
    (c : Compactor T) (hc : grown[i]? = some c) : c.Inv i rankAccuracy := by
  rcases h.cases hc with hc | ⟨-, rfl⟩
  · exact hinv i c hc
  · exact Compactor.inv_new hk

theorem layout (h : Grown k level rankAccuracy cs grown) (hlayout : ∀ c ∈ cs, c.HasLayout k) :
    ∀ c ∈ grown, c.HasLayout k := by
  intro c hc
  obtain ⟨i, hi⟩ := List.mem_iff_getElem?.mp hc
  rcases h.cases hi with hc | ⟨-, rfl⟩
  · exact hlayout c (List.mem_of_getElem? hc)
  · exact Compactor.hasLayout_new i k rankAccuracy

theorem flow (h : Grown k level rankAccuracy cs grown)
    (hflow : ∀ (i : ℕ) (c : Compactor T), cs[i]? = some c →
      c.state * 2 ^ (i + 1) ≤ weightedCount (cs.drop (i + 1))) (i : ℕ) (c : Compactor T)
    (hc : grown[i]? = some c) : c.state * 2 ^ (i + 1) ≤ weightedCount (grown.drop (i + 1)) := by
  rcases h.cases hc with hc | ⟨-, rfl⟩
  · have hlt := (List.getElem?_eq_some_iff.mp hc).1
    refine (hflow i c hc).trans ?_
    cases h with
    | same => exact le_rfl
    | grow =>
        rw [List.drop_append_of_le_length hlt, weightedCount_append]
        exact Nat.le_add_right _ _
  · exact (Nat.zero_mul _).trans_le (Nat.zero_le _)

theorem retained_eq (h : Grown k level rankAccuracy cs grown) : retained grown = retained cs := by
  cases h with
  | same => rfl
  | grow =>
      rw [retained_append]
      exact add_zero _

end Grown

end Req

end DataSketches
