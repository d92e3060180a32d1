import Mathlib

/-!
# Frequent items by decremented counters

A stream of weighted items is summarised by counters for some of its items.
When there are too many, all counters are decremented by the same amount and
those that reach zero are dropped; the amounts decremented so far are the error
of the summary.

## Main definitions

* `Holds`: the counters as a finitely supported function.
* `Estimates`: every count is within the error of its counter.
* `Budget`: the error, times the number of counters that paid for it, is part of
  the weight of the stream that the counters no longer hold.
-/

universe u

namespace Counters

variable {κ : Type u} [DecidableEq κ]

/-- The counter of an item, which is zero if it has none. -/
def count (E : Multiset (κ × ℕ)) (x : κ) : ℕ := ((E.filter (·.1 = x)).map Prod.snd).sum

/-- The sum of all counters. -/
def total (E : Multiset (κ × ℕ)) : ℕ := (E.map Prod.snd).sum

/-- Decrements all counters and drops those that reach zero. -/
def decrement (E : Multiset (κ × ℕ)) (m : ℕ) : Multiset (κ × ℕ) :=
  (E.map fun p ↦ (p.1, p.2 - m)).filter (·.2 ≠ 0)

variable {E E' : Multiset (κ × ℕ)} {x y : κ} {v m : ℕ}

@[simp] theorem count_zero (x : κ) : count 0 x = 0 := rfl

theorem count_cons (p : κ × ℕ) (E : Multiset (κ × ℕ)) (x : κ) :
    count (p ::ₘ E) x = (if p.1 = x then p.2 else 0) + count E x := by
  unfold count
  split_ifs with h
  · rw [Multiset.filter_cons_of_pos (p := fun q : κ × ℕ ↦ q.1 = x) _ h, Multiset.map_cons, Multiset.sum_cons]
  · rw [Multiset.filter_cons_of_neg (p := fun q : κ × ℕ ↦ q.1 = x) _ h, Nat.zero_add]

omit [DecidableEq κ] in
@[simp] theorem total_zero : total (0 : Multiset (κ × ℕ)) = 0 := rfl

omit [DecidableEq κ] in
theorem total_cons (p : κ × ℕ) (E : Multiset (κ × ℕ)) : total (p ::ₘ E) = p.2 + total E := by
  rw [total, Multiset.map_cons, Multiset.sum_cons, total]

theorem count_eq_zero (h : x ∉ E.map Prod.fst) : count E x = 0 := by
  have hnone : E.filter (·.1 = x) = 0 := by
    refine Multiset.filter_eq_nil.mpr fun p hp heq ↦ h ?_
    exact Multiset.mem_map.mpr ⟨p, hp, heq⟩
  rw [count, hnone]
  rfl

/-- The counter of an item that has one. -/
theorem count_eq (hE : (E.map Prod.fst).Nodup) (h : (x, v) ∈ E) : count E x = v := by
  obtain ⟨E', rfl⟩ := Multiset.exists_cons_of_mem h
  rw [Multiset.map_cons, Multiset.nodup_cons] at hE
  rw [count_cons, if_pos rfl, count_eq_zero hE.1, Nat.add_zero]

theorem mem_of_count_pos (h : 0 < count E x) : ∃ v, (x, v) ∈ E := by
  by_contra hno
  refine h.ne' (count_eq_zero fun hmem ↦ hno ?_)
  obtain ⟨p, hp, rfl⟩ := Multiset.mem_map.mp hmem
  exact ⟨p.2, hp⟩

theorem count_le_total (E : Multiset (κ × ℕ)) (x : κ) : count E x ≤ total E := by
  have hsplit := Multiset.filter_add_not (fun p : κ × ℕ ↦ p.1 = x) E
  calc count E x ≤ count E x + ((E.filter fun p ↦ ¬ p.1 = x).map Prod.snd).sum := Nat.le_add_right _ _
    _ = total E := by rw [count, ← Multiset.sum_add, ← Multiset.map_add, hsplit, total]

/-! ## Decrementing -/

omit [DecidableEq κ] in
theorem decrement_cons_of_le (p : κ × ℕ) (E : Multiset (κ × ℕ)) (h : p.2 ≤ m) :
    decrement (p ::ₘ E) m = decrement E m := by
  rw [decrement, Multiset.map_cons,
    Multiset.filter_cons_of_neg (p := fun q : κ × ℕ ↦ q.2 ≠ 0) _ (not_not.mpr (Nat.sub_eq_zero_of_le h))]
  rfl

omit [DecidableEq κ] in
theorem decrement_cons_of_lt (p : κ × ℕ) (E : Multiset (κ × ℕ)) (h : m < p.2) :
    decrement (p ::ₘ E) m = (p.1, p.2 - m) ::ₘ decrement E m := by
  rw [decrement, Multiset.map_cons,
    Multiset.filter_cons_of_pos (p := fun q : κ × ℕ ↦ q.2 ≠ 0) _ (Nat.sub_ne_zero_of_lt h)]
  rfl

omit [DecidableEq κ] in
/-- No new item has a counter. -/
theorem keys_decrement_le (E : Multiset (κ × ℕ)) (m : ℕ) :
    (decrement E m).map Prod.fst ≤ E.map Prod.fst := by
  refine (Multiset.map_le_map (Multiset.filter_le _ _)).trans ?_
  rw [Multiset.map_map]
  rfl

omit [DecidableEq κ] in
theorem nodup_decrement (hE : (E.map Prod.fst).Nodup) (m : ℕ) :
    ((decrement E m).map Prod.fst).Nodup := Multiset.nodup_of_le (keys_decrement_le E m) hE

theorem count_decrement (hE : (E.map Prod.fst).Nodup) (m : ℕ) (x : κ) :
    count (decrement E m) x = count E x - m := by
  induction E using Multiset.induction with
  | empty => exact (Nat.zero_sub m).symm
  | cons p E ih =>
      rw [Multiset.map_cons, Multiset.nodup_cons] at hE
      have hrest := ih hE.2
      by_cases hx : p.1 = x
      · have hzero : count E x = 0 := count_eq_zero (hx ▸ hE.1)
        rcases Nat.lt_or_ge m p.2 with h | h
        · rw [decrement_cons_of_lt p E h, count_cons, count_cons, if_pos hx, if_pos hx, hrest, hzero,
            Nat.zero_sub, Nat.add_zero, Nat.add_zero]
        · rw [decrement_cons_of_le p E h, count_cons, if_pos hx, hrest, hzero, Nat.zero_sub,
            Nat.add_zero, Nat.sub_eq_zero_of_le h]
      · rcases Nat.lt_or_ge m p.2 with h | h
        · rw [decrement_cons_of_lt p E h, count_cons, count_cons, if_neg hx, if_neg hx, hrest,
            Nat.zero_add, Nat.zero_add]
        · rw [decrement_cons_of_le p E h, count_cons, if_neg hx, hrest, Nat.zero_add]

omit [DecidableEq κ] in
/-- Every counter that is large enough pays the whole decrement. -/
theorem total_decrement (E : Multiset (κ × ℕ)) (m : ℕ) :
    total (decrement E m) + (E.filter (m ≤ ·.2)).card * m ≤ total E := by
  induction E using Multiset.induction with
  | empty => exact (Nat.zero_add _).trans_le (Nat.zero_mul m).le
  | cons p E ih =>
      rw [total_cons]
      rcases Nat.lt_trichotomy m p.2 with h | h | h
      · rw [decrement_cons_of_lt p E h, total_cons, Multiset.filter_cons_of_pos (p := fun q : κ × ℕ ↦ m ≤ q.2) _ h.le,
          Multiset.card_cons, Nat.succ_mul]
        omega
      · rw [decrement_cons_of_le p E h.ge, Multiset.filter_cons_of_pos (p := fun q : κ × ℕ ↦ m ≤ q.2) _ h.le,
          Multiset.card_cons,
          Nat.succ_mul]
        omega
      · rw [decrement_cons_of_le p E h.le, Multiset.filter_cons_of_neg (p := fun q : κ × ℕ ↦ m ≤ q.2) _ (not_le.mpr h)]
        omega

omit [DecidableEq κ] in
theorem card_decrement_le (E : Multiset (κ × ℕ)) (m : ℕ) : (decrement E m).card ≤ E.card := by
  refine (Multiset.card_le_card (Multiset.filter_le _ _)).trans ?_
  rw [Multiset.card_map]

omit [DecidableEq κ] in
/-- A counter that is small enough is dropped. -/
theorem card_decrement_lt {p : κ × ℕ} (hp : p ∈ E) (h : p.2 ≤ m) :
    (decrement E m).card < E.card := by
  obtain ⟨E', rfl⟩ := Multiset.exists_cons_of_mem hp
  rw [decrement_cons_of_le p E' h, Multiset.card_cons]
  exact Nat.lt_succ_of_le (card_decrement_le E' m)

/-- Counters of distinct items are determined by the counts. -/
theorem eq_of_count_eq {F : Multiset (κ × ℕ)} (hE : (E.map Prod.fst).Nodup)
    (hF : (F.map Prod.fst).Nodup) (hpos : ∀ p ∈ E, 0 < p.2) (hpos' : ∀ p ∈ F, 0 < p.2)
    (h : ∀ x, count E x = count F x) : E = F := by
  refine (Multiset.Nodup.ext (hE.of_map _) (hF.of_map _)).mpr ?_
  rintro ⟨x, v⟩
  constructor
  · intro hx
    have hv := count_eq hE hx
    obtain ⟨w, hw⟩ := mem_of_count_pos (x := x) (E := F) (by rw [← h x, hv]; exact hpos _ hx)
    rw [h x, count_eq hF hw] at hv
    rwa [← hv]
  · intro hx
    have hv := count_eq hF hx
    obtain ⟨w, hw⟩ := mem_of_count_pos (x := x) (E := E) (by rw [h x, hv]; exact hpos' _ hx)
    rw [← h x, count_eq hE hw] at hv
    rwa [← hv]

/-! ## Adding to a counter -/

/-- The counter of `x`, which may be new, is raised by `v`. -/
def Put (x : κ) (v : ℕ) (E E' : Multiset (κ × ℕ)) : Prop :=
  (x ∉ E.map Prod.fst ∧ E' = (x, v) ::ₘ E) ∨
    ∃ v₀ F, E = (x, v₀) ::ₘ F ∧ E' = (x, v₀ + v) ::ₘ F

theorem Put.count (h : Put x v E E') (y : κ) :
    count E' y = count E y + if y = x then v else 0 := by
  rcases h with ⟨hx, rfl⟩ | ⟨v₀, F, rfl, rfl⟩
  · rw [count_cons, Nat.add_comm]
    exact congrArg _ (if_congr eq_comm rfl rfl)
  · rw [count_cons, count_cons]
    by_cases hxy : x = y
    · simp only [hxy, if_true]
      exact Nat.add_right_comm _ _ _
    · simp only [hxy, Ne.symm hxy, if_false]
      rfl

omit [DecidableEq κ] in
theorem Put.total (h : Put x v E E') : total E' = total E + v := by
  rcases h with ⟨hx, rfl⟩ | ⟨v₀, F, rfl, rfl⟩
  · rw [total_cons, Nat.add_comm]
  · rw [total_cons, total_cons]
    exact Nat.add_right_comm _ _ _

omit [DecidableEq κ] in
theorem Put.card_le (h : Put x v E E') : E'.card ≤ E.card + 1 := by
  rcases h with ⟨hx, rfl⟩ | ⟨v₀, F, rfl, rfl⟩
  · rw [Multiset.card_cons]
  · rw [Multiset.card_cons, Multiset.card_cons]
    exact Nat.le_succ _

omit [DecidableEq κ] in
theorem Put.pos (h : Put x v E E') (hv : 0 < v) (hE : ∀ p ∈ E, 0 < p.2) : ∀ p ∈ E', 0 < p.2 := by
  rcases h with ⟨hx, rfl⟩ | ⟨v₀, F, rfl, rfl⟩
  · intro p hp
    rcases Multiset.mem_cons.mp hp with rfl | hp
    · exact hv
    · exact hE p hp
  · intro p hp
    rcases Multiset.mem_cons.mp hp with rfl | hp
    · exact Nat.lt_of_lt_of_le hv (Nat.le_add_left v v₀)
    · exact hE p (Multiset.mem_cons_of_mem hp)

/-! ## Counters as a function -/

/-- The counters are those of `f`, and an item has one if it is not zero. -/
def Holds (E : Multiset (κ × ℕ)) (f : κ →₀ ℕ) : Prop := E = f.graph.val

variable {f : κ →₀ ℕ}

omit [DecidableEq κ] in
theorem holds_zero : Holds (0 : Multiset (κ × ℕ)) 0 := by
  rw [Holds, Finsupp.graph_zero]
  rfl

omit [DecidableEq κ] in
theorem Holds.mem_iff (h : Holds E f) {p : κ × ℕ} : p ∈ E ↔ 0 < p.2 ∧ f p.1 = p.2 := by
  rw [h, Finset.mem_val, Finsupp.mem_graph_iff, and_comm, Nat.pos_iff_ne_zero]

omit [DecidableEq κ] in
theorem Holds.nodup (h : Holds E f) : (E.map Prod.fst).Nodup := by
  rw [h]
  refine Multiset.Nodup.map_on ?_ f.graph.nodup
  rintro ⟨x, v⟩ hp ⟨y, w⟩ hq hxy
  obtain ⟨hv, -⟩ := Finsupp.mem_graph_iff.mp (Finset.mem_val.mp hp)
  obtain ⟨hw, -⟩ := Finsupp.mem_graph_iff.mp (Finset.mem_val.mp hq)
  dsimp only at hv hw hxy
  rw [← hv, ← hw, hxy]

omit [DecidableEq κ] in
theorem Holds.pos (h : Holds E f) : ∀ p ∈ E, 0 < p.2 := fun _ hp ↦ (h.mem_iff.mp hp).1

theorem Holds.count_eq (h : Holds E f) (x : κ) : count E x = f x := by
  rcases Nat.eq_zero_or_pos (f x) with hzero | hpos
  · rw [hzero]
    refine count_eq_zero fun hmem ↦ ?_
    obtain ⟨p, hp, rfl⟩ := Multiset.mem_map.mp hmem
    obtain ⟨hpos, hf⟩ := h.mem_iff.mp hp
    omega
  · exact Counters.count_eq h.nodup (h.mem_iff.mpr ⟨hpos, rfl⟩)

/-- Positive counters of distinct items are those of the function of their counts. -/
theorem holds_of_count_eq (hE : (E.map Prod.fst).Nodup) (hpos : ∀ p ∈ E, 0 < p.2)
    (hcount : ∀ x, count E x = f x) : Holds E f := by
  have hgraph : Holds f.graph.val f := rfl
  exact eq_of_count_eq hE hgraph.nodup hpos hgraph.pos fun x ↦
    (hcount x).trans (hgraph.count_eq x).symm

omit [DecidableEq κ] in
theorem Holds.card_eq (h : Holds E f) : E.card = f.support.card := by
  have hkeys : E.map Prod.fst = f.support.val := by
    refine (Multiset.Nodup.ext h.nodup f.support.nodup).mpr fun x ↦ ?_
    rw [Finset.mem_val, Finsupp.mem_support_iff, Multiset.mem_map]
    constructor
    · rintro ⟨p, hp, rfl⟩
      obtain ⟨hpos, hf⟩ := h.mem_iff.mp hp
      omega
    · intro hx
      exact ⟨(x, f x), h.mem_iff.mpr ⟨Nat.pos_of_ne_zero hx, rfl⟩, rfl⟩
  rw [← Multiset.card_map Prod.fst, hkeys]
  rfl

/-- Raising a positive amount. -/
theorem Holds.put (h : Holds E f) (hv : 0 < v) (hput : Put x v E E')
    (hE' : (E'.map Prod.fst).Nodup) : Holds E' (f + Finsupp.single x v) := by
  refine holds_of_count_eq hE' (hput.pos hv h.pos) fun y ↦ ?_
  rw [hput.count, h.count_eq, Finsupp.add_apply, Finsupp.single_apply]
  exact congrArg _ (if_congr eq_comm rfl rfl)

/-- The decremented function. -/
noncomputable def lower (f : κ →₀ ℕ) (m : ℕ) : κ →₀ ℕ := f.mapRange (· - m) (Nat.zero_sub m)

omit [DecidableEq κ] in
@[simp] theorem lower_apply (f : κ →₀ ℕ) (m : ℕ) (x : κ) : lower f m x = f x - m := rfl

theorem Holds.decrement (h : Holds E f) (m : ℕ) : Holds (decrement E m) (lower f m) := by
  refine holds_of_count_eq (nodup_decrement h.nodup m) (fun p hp ↦ ?_) fun x ↦ ?_
  · exact Nat.pos_of_ne_zero (Multiset.mem_filter.mp hp).2
  · rw [count_decrement h.nodup, h.count_eq, lower_apply]

/-! ## What a summary says -/

/-- Every true count is between its counter and its counter plus the error. -/
def Estimates (E : Multiset (κ × ℕ)) (error : ℕ) (truth : κ → ℕ) : Prop :=
  ∀ x, count E x ≤ truth x ∧ truth x ≤ count E x + error

/-- The error was paid for by at least `payers` counters each time. -/
def Budget (payers : ℕ) (E : Multiset (κ × ℕ)) (error weight : ℕ) : Prop :=
  error * payers + total E ≤ weight

variable {error error' weight weight' payers : ℕ} {truth truth' : κ → ℕ}

theorem Estimates.add (h : Estimates E error truth)
    (hcount : ∀ y, count E' y = count E y + if y = x then v else 0) :
    Estimates E' error fun y ↦ truth y + if y = x then v else 0 := by
  intro y
  rw [hcount, Nat.add_right_comm]
  exact ⟨Nat.add_le_add_right (h y).1 _, Nat.add_le_add_right (h y).2 _⟩

theorem Estimates.decrement (h : Estimates E error truth) (hE : (E.map Prod.fst).Nodup) (m : ℕ) :
    Estimates (decrement E m) (error + m) truth := by
  intro x
  rw [count_decrement hE]
  have hx := h x
  exact ⟨(Nat.sub_le _ _).trans hx.1, by omega⟩

/-- The counters of another stream were added. -/
theorem Estimates.merge {F : Multiset (κ × ℕ)} (h : Estimates E error fun x ↦ truth x + count F x)
    (hF : Estimates F error' truth') : Estimates E (error + error') fun x ↦ truth x + truth' x := by
  intro x
  refine ⟨(h x).1.trans (Nat.add_le_add_left (hF x).1 _), ?_⟩
  calc truth x + truth' x ≤ truth x + (count F x + error') := Nat.add_le_add_left (hF x).2 _
    _ = truth x + count F x + error' := (Nat.add_assoc _ _ _).symm
    _ ≤ count E x + error + error' := Nat.add_le_add_right (h x).2 _
    _ = count E x + (error + error') := Nat.add_assoc _ _ _

omit [DecidableEq κ] in
theorem Budget.add (h : Budget payers E error weight) (htotal : total E' = total E + v) :
    Budget payers E' error (weight + v) := by
  unfold Budget at h ⊢
  omega

omit [DecidableEq κ] in
theorem Budget.mono (h : Budget payers E error weight) {p : ℕ} (hp : p ≤ payers) :
    Budget p E error weight :=
  (Nat.add_le_add_right (Nat.mul_le_mul_left error hp) _).trans h

omit [DecidableEq κ] in
theorem Budget.decrement (h : Budget payers E error weight)
    (hp : payers ≤ (E.filter (m ≤ ·.2)).card) : Budget payers (decrement E m) (error + m) weight := by
  have hpaid := total_decrement E m
  have hle := Nat.mul_le_mul_right m hp
  unfold Budget at h ⊢
  rw [Nat.add_mul, Nat.mul_comm m payers]
  omega

omit [DecidableEq κ] in
/-- The counters of another stream were added. -/
theorem Budget.merge {F : Multiset (κ × ℕ)} (h : Budget payers E error (weight + total F))
    (hF : Budget payers F error' weight') : Budget payers E (error + error') (weight + weight') := by
  unfold Budget at h hF ⊢
  rw [Nat.add_mul]
  omega

end Counters
