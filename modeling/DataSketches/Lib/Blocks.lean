import Mathlib

/-!
# Folding over blocks

A hash consumes its input in blocks of a fixed size and keeps what does not fill
a block.  Feeding the input in pieces amounts to feeding the whole, as long as
the part kept is put in front of the next piece (`body_append`, `rest_append`).

## Main definitions

* `body b f xs s`: the fold of `f` over the full blocks of `xs`, from `s`.
* `rest b xs`: what follows the last full block.
* `Fed b f init data state buf len`: a state and a partly filled buffer after
  `data` was fed in some number of pieces.
-/

universe u v

namespace Blocks

variable {α : Type u} {σ : Type v}

/-- Folds `f` over the first `n` blocks of `b` elements. -/
def foldBlocks (b : ℕ) (f : σ → List α → σ) : ℕ → List α → σ → σ
  | 0, _, s => s
  | n + 1, xs, s => foldBlocks b f n (xs.drop b) (f s (xs.take b))

/-- Folds `f` over all full blocks. -/
def body (b : ℕ) (f : σ → List α → σ) (xs : List α) (s : σ) : σ :=
  foldBlocks b f (xs.length / b) xs s

/-- What follows the last full block. -/
def rest (b : ℕ) (xs : List α) : List α := xs.drop (b * (xs.length / b))

variable {b : ℕ} {f : σ → List α → σ} {s : σ} {xs ys : List α}

theorem length_rest (b : ℕ) (xs : List α) : (rest b xs).length = xs.length % b := by
  rw [rest, List.length_drop, Nat.mod_def]

theorem length_rest_lt (hb : 0 < b) (xs : List α) : (rest b xs).length < b := by
  rw [length_rest]
  exact Nat.mod_lt _ hb

theorem body_of_lt (h : xs.length < b) : body b f xs s = s := by
  rw [body, Nat.div_eq_of_lt h]
  rfl

theorem rest_of_lt (h : xs.length < b) : rest b xs = xs := by
  rw [rest, Nat.div_eq_of_lt h, Nat.mul_zero, List.drop_zero]

/-- Whatever comes after the blocks is not read. -/
theorem foldBlocks_append {n : ℕ} (h : b * n ≤ xs.length) (ys : List α) (s : σ) :
    foldBlocks b f n (xs ++ ys) s = foldBlocks b f n xs s := by
  induction n generalizing xs s with
  | zero => rfl
  | succ n ih =>
      rw [Nat.mul_succ] at h
      have hb : b ≤ xs.length := (Nat.le_add_left b (b * n)).trans h
      have hrest : b * n ≤ (xs.drop b).length := by
        rw [List.length_drop]
        exact Nat.le_sub_of_add_le h
      rw [foldBlocks, foldBlocks, List.take_append_of_le_length hb, List.drop_append_of_le_length hb,
        ih hrest]

theorem foldBlocks_add (m n : ℕ) (xs : List α) (s : σ) :
    foldBlocks b f (m + n) xs s = foldBlocks b f n (xs.drop (b * m)) (foldBlocks b f m xs s) := by
  induction m generalizing xs s with
  | zero => rw [Nat.zero_add, Nat.mul_zero, List.drop_zero, foldBlocks]
  | succ m ih =>
      rw [Nat.succ_add, foldBlocks, foldBlocks, ih, List.drop_drop, Nat.mul_succ, Nat.add_comm b]

/-- The number of blocks, counted with what an earlier piece has left. -/
theorem blocks_append (hb : 0 < b) (xs ys : List α) :
    (xs ++ ys).length / b = xs.length / b + (rest b xs ++ ys).length / b := by
  rw [List.length_append, List.length_append, length_rest, ← Nat.mul_add_div hb, ← Nat.add_assoc,
    Nat.div_add_mod]

theorem drop_blocks_append (b : ℕ) (xs ys : List α) :
    (xs ++ ys).drop (b * (xs.length / b)) = rest b xs ++ ys :=
  List.drop_append_of_le_length (Nat.mul_div_le xs.length b)

/-- A second piece continues the fold, after what the first has left. -/
theorem body_append (hb : 0 < b) (xs ys : List α) (s : σ) :
    body b f (xs ++ ys) s = body b f (rest b xs ++ ys) (body b f xs s) := by
  rw [body, blocks_append hb, foldBlocks_add, drop_blocks_append,
    foldBlocks_append (Nat.mul_div_le xs.length b), body, body]

theorem rest_append (hb : 0 < b) (xs ys : List α) : rest b (xs ++ ys) = rest b (rest b xs ++ ys) := by
  rw [rest, blocks_append hb, Nat.mul_add, ← List.drop_drop, drop_blocks_append]
  rfl

/-- A full block at the front is folded first. -/
theorem body_block_append (hb : 0 < b) (hxs : xs.length = b) (ys : List α) (s : σ) :
    body b f (xs ++ ys) s = body b f ys (f s xs) := by
  have hone : (xs ++ ys).length / b = ys.length / b + 1 := by
    rw [List.length_append, hxs, Nat.add_div_left _ hb]
  rw [body, hone, foldBlocks, List.take_left' hxs, List.drop_left' hxs]
  rfl

theorem rest_block_append (hb : 0 < b) (hxs : xs.length = b) (ys : List α) :
    rest b (xs ++ ys) = rest b ys := by
  have hone : (xs ++ ys).length / b = ys.length / b + 1 := by
    rw [List.length_append, hxs, Nat.add_div_left _ hb]
  rw [rest, hone, Nat.mul_succ, Nat.add_comm, ← List.drop_drop, List.drop_left' hxs]
  rfl

/-! ## Feeding in pieces -/

/-- The state and the buffer after all of `data`: the full blocks are folded, and the first
`len` elements of the buffer are what is left. -/
structure Fed (b : ℕ) (f : σ → List α → σ) (init : σ) (data : List α) (state : σ) (buf : List α)
    (len : ℕ) : Prop where
  state_eq : state = body b f data init
  length_buf : buf.length = b
  len_eq : len = (rest b data).length
  take_eq : buf.take len = rest b data

namespace Fed

variable {init state state' : σ} {data buf buf' : List α} {len len' : ℕ}

theorem nil (hb : 0 < b) (hbuf : buf.length = b) : Fed b f init [] init buf 0 where
  state_eq := (body_of_lt hb).symm
  length_buf := hbuf
  len_eq := by rw [rest_of_lt (show ([] : List α).length < b from hb), List.length_nil]
  take_eq := by rw [rest_of_lt (show ([] : List α).length < b from hb), List.take_zero]

/-- The buffer is never full. -/
theorem len_lt (h : Fed b f init data state buf len) (hb : 0 < b) : len < b := by
  rw [h.len_eq]
  exact length_rest_lt hb data

/-- Folding the full blocks and keeping the rest. -/
theorem absorb (hbuf : buf.length = b) (htake : buf.take (rest b data).length = rest b data) :
    Fed b f init data (body b f data init) buf (rest b data).length := ⟨rfl, hbuf, rfl, htake⟩

/-- Going on from what an earlier piece has left. -/
theorem of_rest (hb : 0 < b)
    (h : Fed b f (body b f xs init) (rest b xs ++ ys) state buf len) :
    Fed b f init (xs ++ ys) state buf len where
  state_eq := h.state_eq.trans (body_append hb xs ys init).symm
  length_buf := h.length_buf
  len_eq := h.len_eq.trans (congrArg List.length (rest_append hb xs ys).symm)
  take_eq := h.take_eq.trans (rest_append hb xs ys).symm

/-- A piece that does not fill the buffer. -/
theorem short (h : Fed b f init xs state buf len) (hb : 0 < b) (hlt : len + ys.length < b)
    (hbuf : buf'.length = b) (htake : buf'.take (len + ys.length) = buf.take len ++ ys) :
    Fed b f init (xs ++ ys) state buf' (len + ys.length) := by
  have hlen : (rest b xs ++ ys).length < b := by
    rw [List.length_append, ← h.len_eq]
    exact hlt
  refine of_rest hb ⟨?_, hbuf, ?_, ?_⟩
  · rw [body_of_lt hlen, h.state_eq]
  · rw [rest_of_lt hlen, List.length_append, h.len_eq]
  · rw [rest_of_lt hlen, htake, h.take_eq]

/-- The block that a piece completes. -/
theorem length_block (h : Fed b f init xs state buf len) (hb : 0 < b) (hle : b ≤ len + ys.length) :
    (buf.take len ++ ys.take (b - len)).length = b := by
  have hlen := h.len_lt hb
  rw [List.length_append, List.length_take, List.length_take, h.length_buf]
  omega

/-- A piece that completes a block. -/
theorem flush (h : Fed b f init xs state buf len) (hb : 0 < b) (hle : b ≤ len + ys.length)
    (h' : Fed b f (f state (buf.take len ++ ys.take (b - len))) (ys.drop (b - len)) state' buf' len') :
    Fed b f init (xs ++ ys) state' buf' len' := by
  have hblock := h.length_block hb hle
  have hsplit : rest b xs ++ ys = (buf.take len ++ ys.take (b - len)) ++ ys.drop (b - len) := by
    rw [List.append_assoc, List.take_append_drop, h.take_eq]
  refine of_rest hb ⟨?_, h'.length_buf, ?_, ?_⟩
  · rw [hsplit, body_block_append hb hblock, ← h.state_eq]
    exact h'.state_eq
  · rw [hsplit, rest_block_append hb hblock]
    exact h'.len_eq
  · rw [hsplit, rest_block_append hb hblock]
    exact h'.take_eq

/-- A piece after an empty buffer. -/
theorem pass (h : Fed b f init xs state buf 0) (hb : 0 < b)
    (h' : Fed b f state ys state' buf' len') : Fed b f init (xs ++ ys) state' buf' len' := by
  have hrest : rest b xs = [] := List.eq_nil_of_length_eq_zero h.len_eq.symm
  refine of_rest hb ?_
  rw [hrest, List.nil_append, ← h.state_eq]
  exact h'

end Fed

end Blocks
