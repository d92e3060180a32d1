import DataSketches.Req.Compress

/-!
# Updates and merges of REQ sketches

An update and a merge add items to the levels of a sketch and compress them when there
are too many.  The extreme items of a sketch are those of all items it has seen.

## Main definitions

* `Extreme`: the extreme item of the items seen, if there are any.
* `ReqSketch.Inv`: the invariant of a sketch that has seen some items.
-/

namespace DataSketches

namespace Req

open Comparator Runs ReqValue

variable {T : Type}

/-! ## Extreme items -/

/-- An item of the list that is before all others, none if the list is empty. -/
def Extreme (before : T → T → Prop) (m : Option T) (xs : List T) : Prop :=
  m = none ∧ xs = [] ∨ ∃ x ∈ xs, m = some x ∧ ∀ y ∈ xs, before x y

/-- A choice between two items that takes the one that is before the other. -/
structure Chooses (before : T → T → Prop) (choose : Option T → T → T) : Prop where
  refl : ∀ x, before x x
  trans : ∀ {x y z}, before x y → before y z → before x z
  none_eq : ∀ x, choose none x = x
  some_eq : ∀ c x, choose (some c) x = c ∧ before c x ∨ choose (some c) x = x ∧ before x c

theorem Extreme.nil (before : T → T → Prop) : Extreme before none [] := .inl ⟨rfl, rfl⟩

theorem Extreme.append {before : T → T → Prop} {choose : Option T → T → T}
    (h : Chooses before choose) {m : Option T} {x : T} {xs ys : List T} (hm : Extreme before m xs)
    (hx : Extreme before (some x) ys) : Extreme before (some (choose m x)) (xs ++ ys) := by
  rcases hx with ⟨hnone, -⟩ | ⟨x', hmem, hsome, hall⟩
  · cases hnone
  obtain rfl : x = x' := Option.some.inj hsome
  rcases hm with ⟨rfl, rfl⟩ | ⟨c, hc, rfl, hc'⟩
  · rw [List.nil_append, h.none_eq]
    exact .inr ⟨x, hmem, rfl, hall⟩
  · rcases h.some_eq c x with ⟨heq, hle⟩ | ⟨heq, hle⟩
    · refine .inr ⟨c, List.mem_append_left _ hc, by rw [heq], fun y hy ↦ ?_⟩
      rcases List.mem_append.mp hy with hy | hy
      · exact hc' y hy
      · exact h.trans hle (hall y hy)
    · refine .inr ⟨x, List.mem_append_right _ hmem, by rw [heq], fun y hy ↦ ?_⟩
      rcases List.mem_append.mp hy with hy | hy
      · exact h.trans hle (hc' y hy)
      · exact hall y hy

theorem Extreme.singleton {before : T → T → Prop} {choose : Option T → T → T}
    (h : Chooses before choose) (x : T) : Extreme before (some x) [x] := by
  refine .inr ⟨x, List.mem_singleton_self x, rfl, fun y hy ↦ ?_⟩
  rw [List.mem_singleton.mp hy]
  exact h.refl x

/-- The extreme item of a merged sketch. -/
theorem Extreme.mergeItem {before : T → T → Prop} {choose : Option T → T → T}
    (h : Chooses before choose) {m m' : Option T} {xs ys : List T}
    (hm : Extreme before m xs) (hm' : Extreme before m' ys) : Extreme before (ReqSketch.mergeItem choose m m') (xs ++ ys) := by
  rcases hm' with ⟨rfl, rfl⟩ | ⟨x, hx, rfl, hall⟩
  · rw [List.append_nil]
    exact hm
  · exact hm.append h (.inr ⟨x, hx, rfl, hall⟩)

theorem Extreme.of_mem {before : T → T → Prop} {m : Option T} {xs ys : List T}
    (h : Extreme before m xs) (hmem : ∀ x, x ∈ xs ↔ x ∈ ys) : Extreme before m ys := by
  rcases h with ⟨rfl, rfl⟩ | ⟨x, hx, rfl, hall⟩
  · exact .inl ⟨rfl, List.eq_nil_iff_forall_not_mem.mpr fun y hy ↦
      List.not_mem_nil ((hmem y).mpr hy)⟩
  · exact .inr ⟨x, (hmem x).mp hx, rfl, fun y hy ↦ hall y ((hmem y).mpr hy)⟩

section Order

variable [ReqValue T]

/-- `x` is at most `y`. -/
def AtMost (x y : T) : Prop := (totalCmp x y).isLE = true

/-- `x` is at least `y`. -/
def AtLeast (x y : T) : Prop := (totalCmp y x).isLE = true

theorem atMost_refl (x : T) : AtMost x x := by
  have h : totalCmp x x = .eq := Std.ReflCmp.compare_self
  rw [AtMost, h]
  rfl

theorem atMost_trans {x y z : T} (h : AtMost x y) (h' : AtMost y z) : AtMost x z :=
  Std.TransCmp.isLE_trans h h'

theorem chooses_lesser : Chooses AtMost (ReqSketch.lesser (T := T)) where
  refl := atMost_refl
  trans := atMost_trans
  none_eq _ := rfl
  some_eq c x := by
    rw [ReqSketch.lesser]
    split_ifs with hlt
    · exact .inr ⟨rfl, Ordering.isLE_of_eq_lt (Ordering.isLT_iff_eq_lt.mp hlt)⟩
    · refine .inl ⟨rfl, ?_⟩
      rw [AtMost, @Std.OrientedCmp.eq_swap _ totalCmp _ c x]
      cases hcmp : totalCmp x c with
      | lt => exact absurd (Ordering.isLT_iff_eq_lt.mpr hcmp) hlt
      | eq => rfl
      | gt => rfl

theorem chooses_greater : Chooses AtLeast (ReqSketch.greater (T := T)) where
  refl := atMost_refl
  trans h h' := atMost_trans h' h
  none_eq _ := rfl
  some_eq c x := by
    rw [ReqSketch.greater]
    split_ifs with hgt
    · refine .inr ⟨rfl, ?_⟩
      rw [AtLeast, @Std.OrientedCmp.eq_swap _ totalCmp _ c x, Ordering.isGT_iff_eq_gt.mp hgt]
      rfl
    · refine .inl ⟨rfl, ?_⟩
      rw [AtLeast]
      cases hcmp : totalCmp x c with
      | lt => rfl
      | eq => rfl
      | gt => exact absurd (Ordering.isGT_iff_eq_gt.mpr hcmp) hgt

/-- The items have the same place in the order. -/
def SameRank (x y : T) : Prop := totalCmp x y = .eq

theorem atMost_antisymm {x y : T} (h : AtMost x y) (h' : AtMost y x) : SameRank x y := by
  rw [AtMost, @Std.OrientedCmp.eq_swap _ totalCmp _ y x] at h'
  rw [AtMost] at h
  rw [SameRank]
  cases hcmp : totalCmp x y with
  | lt =>
      rw [hcmp] at h'
      cases h'
  | eq => rfl
  | gt =>
      rw [hcmp] at h
      cases h

/-- Extreme items of the same items have the same place in the order. -/
theorem Extreme.sameRank {before : T → T → Prop}
    (hanti : ∀ {x y}, before x y → before y x → SameRank x y) {m m' : Option T} {xs ys : List T}
    (h : Extreme before m xs) (h' : Extreme before m' ys) (hmem : ∀ x, x ∈ xs ↔ x ∈ ys) :
    Option.Rel SameRank m m' := by
  rcases h with ⟨rfl, rfl⟩ | ⟨x, hx, rfl, hall⟩
  · rcases h' with ⟨rfl, -⟩ | ⟨y, hy, -⟩
    · exact .none
    · cases (hmem y).mpr hy
  · rcases h' with ⟨-, rfl⟩ | ⟨y, hy, rfl, hall'⟩
    · cases (hmem x).mp hx
    · exact .some (hanti (hall y ((hmem y).mpr hy)) (hall' x ((hmem x).mp hx)))

end Order

namespace ReqSketch

variable [ReqValue T] {S : UnstableSort} {s s' other : ReqSketch T} {xs ys : List T}

/-- What a sketch that has seen the items `xs` accounts for, also while items are added to it. -/
structure Accounts (s : ReqSketch T) (xs : List T) : Prop where
  validK : ValidK s.k
  levels : Levels s.k s.rankAccuracy xs s.compactors
  totals : Totals s
  n_eq : s.n = xs.length
  n_lt : s.n < 2 ^ 64
  min : Extreme AtMost s.minItem xs
  max : Extreme AtLeast s.maxItem xs
  notNan : ∀ x ∈ xs, isNan x = false

/-- The invariant of a sketch that has seen the items `xs`. -/
structure Inv (s : ReqSketch T) (xs : List T) : Prop extends Accounts s xs where
  retained_le : itemCount s.compactors ≤ s.compactors.length * levelBound

theorem Accounts.length_lt (h : Accounts s xs) : xs.length < 2 ^ 64 := h.n_eq ▸ h.n_lt

theorem Accounts.of_pressed (h : Accounts s xs) (hpressed : Pressed xs s s') : Accounts s' xs := by
  obtain ⟨hk, hacc, hn, hmin, hmax⟩ := hpressed.sameStream
  exact ⟨hk ▸ h.validK, hpressed.levels', hpressed.totals, hn.trans h.n_eq, hn ▸ h.n_lt,
    hmin ▸ h.min, hmax ▸ h.max, h.notNan⟩

/-- The end of an update or a merge. -/
theorem Accounts.settle (h : Accounts s xs)
    (hle : itemCount s.compactors ≤ 2 * (s.compactors.length * levelBound)) (coins : ℕ → Bool) :
    ∃ s', (if s.numRetained ≥ s.maxNomSize then s.compress S coins else .ok s) = .ok s' ∧
      Inv s' xs ∧ SameStream s s' := by
  split_ifs with hfull
  · obtain ⟨s', hok, hpressed, hpassed⟩ :=
      compress_passed (S := S) h.validK h.levels h.length_lt h.totals coins
    exact ⟨s', hok, ⟨h.of_pressed hpressed, hpassed.itemCount_le hpressed h.validK h.length_lt hle⟩,
      hpressed.sameStream⟩
  · refine ⟨s, rfl, ⟨h, ?_⟩, SameStream.refl s⟩
    rw [h.totals.numRetained_eq, h.totals.maxNomSize_eq] at hfull
    have hcapacity := h.levels.capacity_le h.validK h.length_lt
    have hone := Nat.le_mul_of_pos_left levelBound (List.length_pos_iff.mpr h.levels.ne_nil)
    omega

/-! ## New sketches -/

theorem levels_new {k : ℕ} (hk : ValidK k) (rankAccuracy : RankAccuracy) :
    Levels k rankAccuracy [] [(Compactor.new 0 k rankAccuracy : Compactor T)] where
  inv i c hc := by
    rw [List.getElem?_singleton] at hc
    split_ifs at hc with hzero
    obtain rfl := Option.some.inj hc
    exact hzero ▸ Compactor.inv_new hk
  layout c hc := by
    rw [List.mem_singleton.mp hc]
    exact Compactor.hasLayout_new 0 k rankAccuracy
  flow i c hc := by
    rw [List.getElem?_singleton] at hc
    split_ifs at hc
    obtain rfl := Option.some.inj hc
    exact (Nat.zero_mul _).trans_le (Nat.zero_le _)
  weight_eq := rfl
  retained_le := le_rfl
  ne_nil := List.cons_ne_nil _ _
  top c hlt := absurd hlt (lt_irrefl 1)

theorem inv_create {k : ℕ} (hk : ValidK k) (rankAccuracy : RankAccuracy) :
    Inv (create k rankAccuracy : ReqSketch T) [] where
  retained_le := Nat.zero_le _
  validK := hk
  levels := levels_new hk rankAccuracy
  totals := ⟨rfl, rfl⟩
  n_eq := rfl
  n_lt := Nat.two_pow_pos 64
  min := Extreme.nil _
  max := Extreme.nil _
  notNan := nofun

theorem Inv.reset (h : Inv s xs) : Inv s.reset [] where
  retained_le := Nat.zero_le _
  validK := h.validK
  levels := levels_new h.validK s.rankAccuracy
  totals := ⟨rfl, rfl⟩
  n_eq := rfl
  n_lt := Nat.two_pow_pos 64
  min := Extreme.nil _
  max := Extreme.nil _
  notNan := nofun

/-! ## Updates -/

theorem Accounts.exists_first (h : Accounts s xs) : ∃ c, s.compactors[0]? = some c :=
  ⟨_, List.getElem?_eq_getElem (List.length_pos_iff.mpr h.levels.ne_nil)⟩

/-- An item that is appended to level 0 counts once. -/
theorem levels_append {k : ℕ} {rankAccuracy : RankAccuracy} {cs : List (Compactor T)}
    {c : Compactor T} (h : Levels k rankAccuracy xs cs) (hc : cs[0]? = some c) (item : T) :
    Levels k rankAccuracy (xs ++ [item]) (cs.set 0 (c.append item)) := by
  have hinv := h.inv 0 c hc
  refine ⟨fun i d hd ↦ ?_, fun d hd ↦ ?_, fun i d hd ↦ ?_, ?_, ?_, ?_, fun d hlong hd ↦ ?_⟩
  · rcases getElem?_set_cases hd with ⟨rfl, rfl⟩ | ⟨-, hd'⟩
    · exact hinv.append item
    · exact h.inv i d hd'
  · obtain ⟨i, hi⟩ := List.mem_iff_getElem?.mp hd
    rcases getElem?_set_cases hi with ⟨rfl, rfl⟩ | ⟨-, hd'⟩
    · exact (h.layout c (List.mem_of_getElem? hc)).of_sameSections ⟨rfl, rfl, rfl, rfl⟩
    · exact h.layout d (List.mem_of_getElem? hd')
  · rw [List.drop_set_of_lt (Nat.succ_pos i)]
    rcases getElem?_set_cases hd with ⟨rfl, rfl⟩ | ⟨-, hd'⟩
    · exact h.flow 0 c hc
    · exact h.flow i d hd'
  · have hset := weightedCount_set hc (c.append item)
    rw [show (c.append item).lgWeight = c.lgWeight from rfl, hinv.lgWeight_eq, pow_zero, Nat.mul_one,
      Nat.mul_one, show (c.append item).items = c.items ++ [item] from rfl, List.length_append,
      List.length_singleton, h.weight_eq] at hset
    rw [List.length_append, List.length_singleton]
    omega
  · have hset : retained (cs.set 0 (c.append item)) + c.items =
        retained cs + (c.append item).items :=
      sum_map_set (fun c ↦ (c.items : Multiset T)) hc (c.append item)
    have hitems : ((c.append item).items : Multiset T) = c.items + [item] := (Multiset.coe_add _ _).symm
    rw [hitems, ← add_assoc, add_right_comm] at hset
    rw [add_right_cancel hset, ← Multiset.coe_add]
    exact add_le_add_left h.retained_le _
  · rw [← List.length_pos_iff, List.length_set, List.length_pos_iff]
    exact h.ne_nil
  · rw [List.length_set] at hlong hd
    rcases getElem?_set_cases hd with ⟨hzero, -⟩ | ⟨-, hd'⟩
    · omega
    · exact h.top d hlong hd'

theorem itemCount_append_item {cs : List (Compactor T)} {c : Compactor T} (hc : cs[0]? = some c)
    (item : T) : itemCount (cs.set 0 (c.append item)) = itemCount cs + 1 := by
  have hsum := sum_map_set Compactor.numItems hc (c.append item)
  rw [show (c.append item).numItems = c.numItems + 1 from List.length_append] at hsum
  rw [itemCount, itemCount]
  omega

theorem capacity_append_item {cs : List (Compactor T)} {c : Compactor T} (hc : cs[0]? = some c)
    (item : T) : capacity (cs.set 0 (c.append item)) = capacity cs := by
  have hsum := sum_map_set Compactor.nominalCapacity hc (c.append item)
  rw [show (c.append item).nominalCapacity = c.nominalCapacity from rfl] at hsum
  rw [capacity, capacity]
  omega

theorem update_of_nan {item : T} (h : isNan item = true) (coins : ℕ → Bool) :
    s.update S coins item = .ok s := if_pos h

/-- The state of `update` before it compresses. -/
theorem Inv.appended (h : Inv s xs) {item : T} (hnan : isNan item = false)
    (hroom : s.n + 1 < 2 ^ 64) :
    ∃ s₁, Accounts s₁ (xs ++ [item]) ∧ s₁.k = s.k ∧ s₁.rankAccuracy = s.rankAccuracy ∧
      s₁.compactors.length = s.compactors.length ∧
      itemCount s₁.compactors = itemCount s.compactors + 1 ∧
        capacity s₁.compactors = capacity s.compactors ∧
          ∀ coins, s.update S coins item =
            if s₁.numRetained ≥ s₁.maxNomSize then s₁.compress S coins else .ok s₁ := by
  obtain ⟨c, hc⟩ := h.exists_first
  have hcount := itemCount_append_item hc item
  have hcapacity := capacity_append_item hc item
  refine ⟨{ s with
    n := s.n + 1
    numRetained := s.numRetained + 1
    compactors := s.compactors.set 0 (c.append item)
    minItem := some (lesser s.minItem item)
    maxItem := some (greater s.maxItem item) }, ⟨h.validK, levels_append h.levels hc item, ⟨?_, ?_⟩,
      ?_, hroom, h.min.append chooses_lesser (.singleton chooses_lesser item),
      h.max.append chooses_greater (.singleton chooses_greater item), ?_⟩, rfl, rfl, List.length_set, hcount, hcapacity,
      fun coins ↦ ?_⟩
  · exact h.totals.maxNomSize_eq.trans hcapacity.symm
  · exact (congrArg (· + 1) h.totals.numRetained_eq).trans hcount.symm
  · rw [List.length_append, List.length_singleton, ← h.n_eq]
  · intro x hx
    rcases List.mem_append.mp hx with hx | hx
    · exact h.notNan x hx
    · rw [List.mem_singleton.mp hx]
      exact hnan
  · rw [update, if_neg (by rw [hnan]; exact Bool.false_ne_true)]
    dsimp only
    rw [compactorAt, hc]
    dsimp only
    rw [pure_eq_ok, ok_bind, setCompactor]
    dsimp only
    rw [checkedAdd_of_lt hroom, ok_bind]
    rfl

/-- An item that is not NaN is seen. -/
theorem Inv.update (h : Inv s xs) {item : T} (hnan : isNan item = false) (hroom : s.n + 1 < 2 ^ 64)
    (coins : ℕ → Bool) :
    ∃ s', s.update S coins item = .ok s' ∧ Inv s' (xs ++ [item]) ∧ s'.k = s.k ∧
      s'.rankAccuracy = s.rankAccuracy := by
  obtain ⟨s₁, h₁, hk, hacc, hlength, hcount, -, hok⟩ := h.appended (S := S) hnan hroom
  have hle : itemCount s₁.compactors ≤ 2 * (s₁.compactors.length * levelBound) := by
    have hretained := h.retained_le
    have hpos := Nat.mul_pos (List.length_pos_iff.mpr h.levels.ne_nil) (show 0 < levelBound by decide)
    rw [hlength]
    omega
  obtain ⟨s', hok', h', hsame⟩ := h₁.settle (S := S) hle coins
  exact ⟨s', (hok coins).trans hok', h', hsame.k_eq.trans hk, hsame.rankAccuracy_eq.trans hacc⟩

/-! ## Merges -/

/-- The levels that `merge` adds. -/
theorem growTo_spec (s : ReqSketch T) (count : ℕ) :
    ∃ added, (s.growTo count).compactors = s.compactors ++ added ∧ added.length = count ∧
      SameStream s (s.growTo count) ∧
        ∀ (i : ℕ) (c : Compactor T), added[i]? = some c →
          c = .new (s.compactors.length + i) s.k s.rankAccuracy := by
  induction count generalizing s with
  | zero => exact ⟨[], (List.append_nil _).symm, rfl, SameStream.refl s, nofun⟩
  | succ count ih =>
      have hgrow : s.grow.compactors =
          s.compactors ++ [.new s.compactors.length s.k s.rankAccuracy] := rfl
      obtain ⟨added, hadded, hlength, hsame, hnew⟩ := ih s.grow
      rw [hgrow, List.append_assoc] at hadded
      refine ⟨_, hadded, ?_, ⟨hsame.k_eq, hsame.rankAccuracy_eq, hsame.n_eq, hsame.minItem_eq,
        hsame.maxItem_eq⟩, fun i c hc ↦ ?_⟩
      · rw [List.length_append, hlength, List.length_singleton, Nat.add_comm]
      · cases i with
        | zero => exact (Option.some.inj hc).symm
        | succ i =>
            rw [hnew i c hc, hgrow, List.length_append, List.length_singleton, Nat.add_assoc,
              Nat.add_comm 1 i]
            rfl

/-- The levels that `merge` adds are empty, so that nothing but the last level changes. -/
theorem grown_levels {added : List (Compactor T)} (hk : ValidK s.k)
    (h : Levels s.k s.rankAccuracy xs s.compactors)
    (hnew : ∀ (i : ℕ) (c : Compactor T), added[i]? = some c →
      c = .new (s.compactors.length + i) s.k s.rankAccuracy) :
    (∀ (i : ℕ) (c : Compactor T), (s.compactors ++ added)[i]? = some c → c.Inv i s.rankAccuracy) ∧
      (∀ c ∈ s.compactors ++ added, c.HasLayout s.k) ∧
      (∀ (i : ℕ) (c : Compactor T), (s.compactors ++ added)[i]? = some c →
        c.state * 2 ^ (i + 1) ≤ weightedCount ((s.compactors ++ added).drop (i + 1))) ∧
      weightedCount (s.compactors ++ added) = xs.length ∧
      retained (s.compactors ++ added) = retained s.compactors := by
  have hcases : ∀ (i : ℕ) (c : Compactor T), (s.compactors ++ added)[i]? = some c →
      s.compactors[i]? = some c ∨ c = .new i s.k s.rankAccuracy := by
    intro i c hc
    rcases Nat.lt_or_ge i s.compactors.length with hlt | hge
    · rw [List.getElem?_append_left hlt] at hc
      exact .inl hc
    · rw [List.getElem?_append_right hge] at hc
      rw [hnew _ c hc, Nat.add_sub_cancel' hge]
      exact .inr rfl
  have hzero : weightedCount added = 0 := by
    refine List.sum_eq_zero fun w hw ↦ ?_
    obtain ⟨c, hc, rfl⟩ := List.mem_map.mp hw
    obtain ⟨i, hi⟩ := List.mem_iff_getElem?.mp hc
    rw [hnew i c hi]
    exact Nat.zero_mul _
  have hnone : retained added = 0 := by
    refine List.sum_eq_zero fun w hw ↦ ?_
    obtain ⟨c, hc, rfl⟩ := List.mem_map.mp hw
    obtain ⟨i, hi⟩ := List.mem_iff_getElem?.mp hc
    rw [hnew i c hi]
    rfl
  refine ⟨fun i c hc ↦ ?_, fun c hc ↦ ?_, fun i c hc ↦ ?_, ?_, ?_⟩
  · rcases hcases i c hc with hc | rfl
    · exact h.inv i c hc
    · exact Compactor.inv_new hk
  · obtain ⟨i, hi⟩ := List.mem_iff_getElem?.mp hc
    rcases hcases i c hi with hc | rfl
    · exact h.layout c (List.mem_of_getElem? hc)
    · exact Compactor.hasLayout_new _ _ _
  · rcases hcases i c hc with hc | rfl
    · have hlt := (List.getElem?_eq_some_iff.mp hc).1
      rw [List.drop_append_of_le_length hlt, weightedCount_append]
      exact (h.flow i c hc).trans (Nat.le_add_right _ _)
    · exact (Nat.zero_mul _).trans_le (Nat.zero_le _)
  · rw [weightedCount_append, hzero, h.weight_eq, Nat.add_zero]
  · rw [retained_append, hnone, add_zero]

/-- A compactor of a merged sketch, from its own one and that of the other sketch, if any. -/
inductive Merged (S : UnstableSort) (c : Compactor T) : Option (Compactor T) → Compactor T → Prop where
  | none : Merged S c none c
  | some {d c' : Compactor T} : c.merge S d = .ok c' → Merged S c (some d) c'

/-- Each compactor is merged with the one of its level. -/
theorem mergeCompactors_spec {ds : List (Compactor T)} {i : ℕ} {rankAccuracy : RankAccuracy}
    (hinv : ∀ (j : ℕ) (c : Compactor T), s.compactors[j]? = some c → c.Inv j rankAccuracy)
    (hds : ∀ (j : ℕ) (d : Compactor T), ds[j]? = some d → d.Inv (i + j) rankAccuracy)
    (hlen : i + ds.length ≤ s.compactors.length) :
    ∃ cs, s.mergeCompactors S i ds = .ok { s with compactors := cs } ∧
      cs.length = s.compactors.length ∧
      (∀ (j : ℕ) (c' : Compactor T), cs[j]? = some c' → ∃ c, s.compactors[j]? = some c ∧
        Merged S c (if i ≤ j then ds[j - i]? else none) c') ∧
      retained cs = retained s.compactors + retained ds ∧
        ∀ m, weightedCount (cs.drop m) =
          weightedCount (s.compactors.drop m) + weightedCount (ds.drop (m - i)) := by
  induction ds generalizing s i with
  | nil =>
      refine ⟨s.compactors, rfl, rfl, fun j c hc ↦ ⟨c, hc, ?_⟩, (add_zero _).symm, fun m ↦ ?_⟩
      · rw [List.getElem?_nil, ite_self]
        exact .none
      · rw [List.drop_nil]
        rfl
  | cons other ds ih =>
      rw [List.length_cons] at hlen
      obtain ⟨c, hc⟩ : ∃ c, s.compactors[i]? = some c :=
        ⟨_, List.getElem?_eq_getElem (show i < s.compactors.length by omega)⟩
      have hcinv := hinv i c hc
      have hoinv := hds 0 other rfl
      obtain ⟨c', hok, hperm, hinv', -, -⟩ := Compactor.merge_spec (S := S) hcinv hoinv
      have hset : ∀ (j : ℕ) (e : Compactor T), (s.compactors.set i c')[j]? = some e →
          e.Inv j rankAccuracy := by
        intro j e he
        rcases getElem?_set_cases he with ⟨rfl, rfl⟩ | ⟨-, he'⟩
        · exact hinv'
        · exact hinv j e he'
      obtain ⟨cs, hok', hlength, hmerged, hretained, hweight⟩ := ih (s := s.setCompactor i c')
        (i := i + 1) hset (fun j d hd ↦ by
          rw [Nat.add_assoc, Nat.add_comm 1 j]
          exact hds (j + 1) d hd) (by
          rw [setCompactor, List.length_set]
          omega)
      rw [setCompactor] at hlength hmerged hretained hweight
      dsimp only at hlength hmerged hretained hweight
      refine ⟨cs, ?_, hlength.trans List.length_set, fun j e he ↦ ?_, ?_, fun m ↦ ?_⟩
      · rw [mergeCompactors, compactorAt_eq hc, ok_bind, hok, ok_bind, hok']
        rfl
      · obtain ⟨d, hd, hde⟩ := hmerged j e he
        rcases getElem?_set_cases hd with ⟨rfl, rfl⟩ | ⟨hne, hd'⟩
        · rw [if_neg (Nat.not_succ_le_self j)] at hde
          cases hde
          refine ⟨c, hc, ?_⟩
          rw [if_pos le_rfl, Nat.sub_self, List.getElem?_cons_zero]
          exact .some hok
        · refine ⟨d, hd', ?_⟩
          rcases Nat.lt_or_gt_of_ne hne with hlt | hgt
          · rw [if_neg (by omega)] at hde ⊢
            exact hde
          · rw [if_pos (by omega)] at hde ⊢
            rw [show j - i = (j - (i + 1)) + 1 by omega, List.getElem?_cons_succ]
            exact hde
      · have hset : retained (s.compactors.set i c') + c.items = retained s.compactors + c'.items :=
          sum_map_set (fun c ↦ (c.items : Multiset T)) hc c'
        have hitems : (c'.items : Multiset T) = c.items + other.items :=
          (Multiset.coe_eq_coe.mpr hperm).trans (Multiset.coe_add _ _).symm
        have hcons : retained (other :: ds) = other.items + retained ds := List.sum_cons
        rw [hitems, ← add_assoc, add_right_comm] at hset
        rw [hretained, add_right_cancel hset, hcons, add_assoc]
      · rw [hweight]
        rcases Nat.lt_or_ge i m with hlt | hge
        · rw [List.drop_set_of_lt hlt, show m - i = (m - (i + 1)) + 1 by omega, List.drop_succ_cons]
        · have hdrop : (s.compactors.drop m)[i - m]? = some c := by
            rw [List.getElem?_drop, Nat.add_sub_cancel' hge]
            exact hc
          have hadd := weightedCount_set hdrop c'
          rw [hcinv.lgWeight_eq, hinv'.lgWeight_eq, hperm.length_eq, List.length_append,
            Nat.add_mul] at hadd
          have hother : weightedCount (other :: ds) = other.items.length * 2 ^ i + weightedCount ds := by
            rw [weightedCount, List.map_cons, List.sum_cons, hoinv.lgWeight_eq]
            rfl
          rw [List.drop_set, if_neg (by omega), show m - (i + 1) = 0 by omega,
            show m - i = 0 by omega, List.drop_zero, List.drop_zero, hother]
          omega

/-- Merging the compactors of two sketches gives the levels of all their items. -/
theorem levels_merge (hk : ValidK s.k) (h : Levels s.k s.rankAccuracy xs s.compactors) {k : ℕ}
    (hother : Levels k s.rankAccuracy ys other.compactors) :
    ∃ cs, (s.growTo (other.compactors.length - s.compactors.length)).mergeCompactors S 0
        other.compactors = .ok
          { s.growTo (other.compactors.length - s.compactors.length) with compactors := cs } ∧
      SameStream s (s.growTo (other.compactors.length - s.compactors.length)) ∧
        cs.length = max s.compactors.length other.compactors.length ∧
          retained cs = retained s.compactors + retained other.compactors ∧
            Levels s.k s.rankAccuracy (xs ++ ys) cs := by
  obtain ⟨added, hadded, hcount, hsame, hnew⟩ :=
    growTo_spec s (other.compactors.length - s.compactors.length)
  obtain ⟨grown, hgrown⟩ : ∃ grown, grown =
    s.growTo (other.compactors.length - s.compactors.length) := ⟨_, rfl⟩
  obtain ⟨hinv, hlayout, hflow, hweighted, hitems⟩ := grown_levels hk h hnew
  rw [← hgrown] at hadded hsame ⊢
  have hlength : grown.compactors.length = s.compactors.length + added.length := by
    rw [hadded, List.length_append]
  have hds : ∀ (j : ℕ) (d : Compactor T), other.compactors[j]? = some d →
      d.Inv (0 + j) s.rankAccuracy := by
    intro j d hd
    rw [Nat.zero_add]
    exact hother.inv j d hd
  obtain ⟨cs, hok, hlen, hmerged, hsum, hweight⟩ :=
    mergeCompactors_spec (S := S) (hadded ▸ hinv) hds (by omega)
  -- what is known of the compactor of a level
  have hcases : ∀ (j : ℕ) (c' : Compactor T), cs[j]? = some c' →
      ∃ c, (s.compactors ++ added)[j]? = some c ∧ Merged S c other.compactors[j]? c' := by
    intro j c' hc'
    obtain ⟨c, hc, hm⟩ := hmerged j c' hc'
    rw [if_pos (Nat.zero_le j), Nat.sub_zero] at hm
    exact ⟨c, hadded ▸ hc, hm⟩
  have hspec : ∀ (j : ℕ) (c c' : Compactor T), (s.compactors ++ added)[j]? = some c →
      Merged S c other.compactors[j]? c' → c'.Inv j s.rankAccuracy ∧ c'.HasLayout s.k ∧
        c.items ⊆ c'.items ∧ c'.state * 2 ^ (j + 1) ≤
          weightedCount ((s.compactors ++ added).drop (j + 1)) +
            weightedCount (other.compactors.drop (j + 1)) := by
    intro j c c' hc hm
    cases hd : other.compactors[j]? with
    | none =>
        rw [hd] at hm
        cases hm
        exact ⟨hinv j c hc, hlayout c (List.mem_of_getElem? hc), List.Subset.refl _,
          (hflow j c hc).trans (Nat.le_add_right _ _)⟩
    | some d =>
        rw [hd] at hm
        cases hm with
        | some hok =>
            obtain ⟨e, hok', hperm, heinv, hstate, helayout⟩ :=
              Compactor.merge_spec (S := S) (hinv j c hc) (hother.inv j d hd)
            rw [hok, Except.ok.injEq] at hok'
            subst hok'
            refine ⟨heinv, helayout _ (hlayout c (List.mem_of_getElem? hc)),
              fun x hx ↦ hperm.symm.subset (List.mem_append_left _ hx), ?_⟩
            rw [hstate]
            calc (c.state ||| d.state) * 2 ^ (j + 1)
                ≤ (c.state + d.state) * 2 ^ (j + 1) := Nat.mul_le_mul_right _ (or_le_add _ _)
              _ = c.state * 2 ^ (j + 1) + d.state * 2 ^ (j + 1) := Nat.add_mul _ _ _
              _ ≤ _ := Nat.add_le_add (hflow j c hc) (hother.flow j d hd)
  have hpos := List.length_pos_iff.mpr h.ne_nil
  have hall : retained cs = retained s.compactors + retained other.compactors := by
    rw [hsum, hadded, hitems]
  refine ⟨cs, hok, hsame, by omega, hall, fun j c' hc' ↦ ?_, fun c' hc' ↦ ?_, fun j c' hc' ↦ ?_, ?_,
    ?_, ?_, fun c' hlong hc' ↦ ?_⟩
  · obtain ⟨c, hc, hm⟩ := hcases j c' hc'
    exact (hspec j c c' hc hm).1
  · obtain ⟨j, hj⟩ := List.mem_iff_getElem?.mp hc'
    obtain ⟨c, hc, hm⟩ := hcases j c' hj
    exact (hspec j c c' hc hm).2.1
  · obtain ⟨c, hc, hm⟩ := hcases j c' hc'
    rw [hweight, hadded, Nat.sub_zero]
    exact (hspec j c c' hc hm).2.2.2
  · have hzero := hweight 0
    rw [List.drop_zero, List.drop_zero, List.drop_zero] at hzero
    rw [hzero, hadded, hweighted, hother.weight_eq, List.length_append]
  · rw [hall, ← Multiset.coe_add]
    exact add_le_add h.retained_le hother.retained_le
  · rw [← List.length_pos_iff]
    omega
  · -- the last level is the last one of the longer sketch
    obtain ⟨c, hc, hm⟩ := hcases _ c' hc'
    rcases Nat.lt_or_ge other.compactors.length s.compactors.length with hlt | hge
    · have hlast : cs.length - 1 = s.compactors.length - 1 := by omega
      rw [hlast] at hc hm
      have hsub := (hspec _ c c' hc hm).2.2.1
      rw [List.getElem?_append_left (by omega)] at hc
      exact fun hnil ↦ h.top c (by omega) hc (List.eq_nil_of_subset_nil (hnil ▸ hsub))
    · obtain ⟨d, hd⟩ : ∃ d, other.compactors[other.compactors.length - 1]? = some d :=
        ⟨_, List.getElem?_eq_getElem (by omega)⟩
      have hlast : cs.length - 1 = other.compactors.length - 1 := by omega
      rw [hlast] at hc hm
      rw [hd] at hm
      cases hm with
      | some hok =>
          obtain ⟨e, hok', hperm, -, -, -⟩ :=
            Compactor.merge_spec (S := S) (hinv _ c hc) (hother.inv _ d hd)
          rw [hok, Except.ok.injEq] at hok'
          subst hok'
          intro hnil
          rw [hnil] at hperm
          obtain ⟨-, hdnil⟩ := List.append_eq_nil_iff.mp hperm.symm.eq_nil
          exact hother.top d (by omega) hd hdnil

theorem Inv.isEmpty_iff (h : Inv s xs) : s.isEmpty = true ↔ xs = [] := by
  rw [isEmpty, decide_eq_true_iff, h.n_eq, List.length_eq_zero_iff]

/-- A merge has seen the items of both sketches. -/
theorem Inv.merge (h : Inv s xs) (hother : Inv other ys) (hacc : s.rankAccuracy = other.rankAccuracy)
    (hroom : s.n + other.n < 2 ^ 64) (coins : ℕ → Bool) :
    ∃ s', s.merge S coins other = .ok s' ∧ Inv s' (xs ++ ys) ∧ s'.k = s.k ∧
      s'.rankAccuracy = s.rankAccuracy := by
  rw [ReqSketch.merge, if_neg (not_not.mpr hacc)]
  dsimp only
  split_ifs with hempty
  · rw [hother.isEmpty_iff.mp hempty, List.append_nil]
    exact ⟨s, rfl, h, rfl, rfl⟩
  · obtain ⟨s₀, hs₀⟩ : ∃ s₀, s₀ = { s with
        n := s.n + other.n
        minItem := mergeItem lesser s.minItem other.minItem
        maxItem := mergeItem greater s.maxItem other.maxItem } := ⟨_, rfl⟩
    have hk₀ : ValidK s₀.k := by
      rw [hs₀]
      exact h.validK
    have hlevels₀ : Levels s₀.k s₀.rankAccuracy xs s₀.compactors := by
      rw [hs₀]
      exact h.levels
    have hlevels' : Levels other.k s₀.rankAccuracy ys other.compactors := by
      rw [hs₀]
      exact hacc ▸ hother.levels
    obtain ⟨cs, hok, hsame, hlength, hretained, hlevels⟩ :=
      levels_merge (S := S) hk₀ hlevels₀ hlevels'
    have hcompactors : s₀.compactors = s.compactors := by rw [hs₀]
    rw [hcompactors] at hok hsame hlength hretained
    obtain ⟨s₁, hs₁⟩ : ∃ s₁, s₁ =
      { s₀.growTo (other.compactors.length - s.compactors.length) with compactors := cs } := ⟨_, rfl⟩
    rw [← hs₁] at hok
    have hsame₁ : SameStream s₀ s₁.updateMaxNomSize.updateNumRetained := by
      rw [hs₁]
      exact ⟨hsame.k_eq, hsame.rankAccuracy_eq, hsame.n_eq, hsame.minItem_eq, hsame.maxItem_eq⟩
    have h₁ : Accounts s₁.updateMaxNomSize.updateNumRetained (xs ++ ys) := by
      refine ⟨hsame₁.k_eq ▸ hk₀, ?_, totals_update s₁, ?_, ?_, ?_, ?_, ?_⟩
      · rw [hsame₁.k_eq, hsame₁.rankAccuracy_eq, hs₁]
        exact hlevels
      · rw [hsame₁.n_eq, hs₀, List.length_append, ← h.n_eq, ← hother.n_eq]
      · rw [hsame₁.n_eq, hs₀]
        exact hroom
      · rw [hsame₁.minItem_eq, hs₀]
        exact h.min.mergeItem chooses_lesser hother.min
      · rw [hsame₁.maxItem_eq, hs₀]
        exact h.max.mergeItem chooses_greater hother.max
      · intro x hx
        rcases List.mem_append.mp hx with hx | hx
        · exact h.notNan x hx
        · exact hother.notNan x hx
    have hk₁ : s₁.updateMaxNomSize.updateNumRetained.k = s.k := by
      rw [hsame₁.k_eq, hs₀]
    have hacc₁ : s₁.updateMaxNomSize.updateNumRetained.rankAccuracy = s.rankAccuracy := by
      rw [hsame₁.rankAccuracy_eq, hs₀]
    have hle : itemCount s₁.updateMaxNomSize.updateNumRetained.compactors ≤
        2 * (s₁.updateMaxNomSize.updateNumRetained.compactors.length * levelBound) := by
      have hcs : s₁.updateMaxNomSize.updateNumRetained.compactors = cs := by
        rw [hs₁]
        rfl
      have hfirst := h.retained_le.trans (Nat.mul_le_mul_right levelBound
        (le_max_left s.compactors.length other.compactors.length))
      have hsecond := hother.retained_le.trans (Nat.mul_le_mul_right levelBound
        (le_max_right s.compactors.length other.compactors.length))
      rw [hcs, hlength, ← card_retained, hretained, Multiset.card_add, card_retained, card_retained]
      omega
    obtain ⟨s', hok', h', hsame'⟩ := h₁.settle (S := S) hle coins
    refine ⟨s', ?_, h', hsame'.k_eq.trans hk₁, hsame'.rankAccuracy_eq.trans hacc₁⟩
    rw [checkedAdd_of_lt hroom, ok_mapError, ok_bind, ← hs₀, hok, ok_mapError, ok_bind]
    rw [← ok_mapError Fault.panic s', ← hok']
    split_ifs <;> rfl

end ReqSketch

end Req

end DataSketches
