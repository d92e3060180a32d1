import DataSketches.TDigest.Bounded
import DataSketches.TDigest.Exact

/-!
# Going on with a digest that was read back

Every operation depends on the unmerged values, the compressed centroids and the
other fields, not on the form of the buffer.  So a digest and what is read back of it
cannot be told apart by any bytes that are written later.
-/

namespace DataSketches

open Runs FloatFormat StableSort

/-- An operation on a digest. -/
inductive TDigestOp (M : Type) where
  | update (value : F64 M)
  | merge (other : TDigestMut M)
  | serialize

namespace TDigestMut

variable {M : Type} [FloatFormat M] (codec : F64Codec M) (scale : ScaleFunction)

/-- The digest after an operation, and the bytes that were written. -/
def apply (d : TDigestMut M) : TDigestOp M → Checked (TDigestMut M × List UInt8)
  | .update value => (·, []) <$> d.update scale value
  | .merge other => (·, []) <$> d.merge scale other
  | .serialize => d.serialize codec scale

/-- The bytes that the operations write, one after the other. -/
def writes (d : TDigestMut M) : List (TDigestOp M) → Checked (List (List UInt8))
  | [] => return []
  | op :: ops => do
      let (d, bytes) ← d.apply codec scale op
      return bytes :: (← d.writes ops)

variable {codec scale} {d e : TDigestMut M}

/-! ## Two forms of a digest take the same steps -/

/-- Both panic in the same way, or both return the same digest in two forms. -/
def Agree (x y : Checked (TDigestMut M)) : Prop :=
  match x, y with
  | .ok d, .ok e => Same d e ∧ d.Fits ∧ e.Fits
  | .error p, .error q => p = q
  | _, _ => False

theorem Agree.of_eq {x : Checked (TDigestMut M)} (h : ∀ d, x = .ok d → d.Fits) : Agree x x := by
  cases x with
  | error p => exact rfl
  | ok d => exact ⟨Same.refl d, h d rfl, h d rfl⟩

/-- What is compressed does not keep the buffer. -/
theorem compressCentroids_congr (h : Same d e) (cs : List (Centroid M)) (additionalWeight : ℕ) :
    e.compressCentroids scale cs additionalWeight = d.compressCentroids scale cs additionalWeight := by
  rw [compressCentroids, compressCentroids, h.reverseMerge_eq, h.compressedWeight_eq, h.k_eq,
    h.min_eq, h.max_eq]

theorem buffer_of_compressCentroids {cs : List (Centroid M)} {additionalWeight : ℕ}
    (h : d.compressCentroids scale cs additionalWeight = .ok e) :
    ∃ ds, e.buffer = .centroids ds 0 := by
  obtain ⟨-, h⟩ := assert_bind_eq_ok.mp h
  obtain ⟨weight, -, h⟩ := bind_eq_ok.mp h
  obtain ⟨merged, -, h⟩ := bind_eq_ok.mp h
  obtain ⟨first, -, h⟩ := bind_eq_ok.mp h
  obtain ⟨last, -, h⟩ := bind_eq_ok.mp h
  cases h
  exact ⟨_, rfl⟩

theorem fits_of_buffer {cs : List (Centroid M)} (h : d.buffer = .centroids cs 0) : d.Fits := by
  refine ⟨by rw [h]; exact Nat.zero_le _, fun values hvalues ↦ ?_⟩
  rw [h] at hvalues
  cases hvalues

theorem agree_compressCentroids (h : Same d e) (cs : List (Centroid M)) (additionalWeight : ℕ) :
    Agree (d.compressCentroids scale cs additionalWeight)
      (e.compressCentroids scale cs additionalWeight) := by
  rw [compressCentroids_congr h]
  refine Agree.of_eq fun d' hok ↦ ?_
  obtain ⟨ds, hds⟩ := buffer_of_compressCentroids hok
  exact fits_of_buffer hds

/-- What is compressed has no unmerged values. -/
theorem unmerged_of_compress (h : d.Fits) (hok : d.compress scale = .ok e) :
    e.buffer.unmerged = [] ∧ (d.buffer.unmerged ≠ [] → ∃ cs, e.buffer = .centroids cs 0) := by
  rw [compress_eq h] at hok
  split_ifs at hok with hnil
  · cases hok
    exact ⟨hnil, fun hne ↦ absurd hnil hne⟩
  · obtain ⟨cs, hcs⟩ := buffer_of_compressCentroids hok
    rw [hcs]
    exact ⟨TDigestBuffer.unmerged_centroids_zero cs, fun _ ↦ ⟨cs, rfl⟩⟩

theorem agree_compress (h : Same d e) (hd : d.Fits) (he : e.Fits) :
    Agree (d.compress scale) (e.compress scale) := by
  rw [compress_eq hd, compress_eq he, h.unmerged_eq, h.compressed_eq]
  split_ifs
  · exact ⟨h, hd, he⟩
  · exact agree_compressCentroids h _ _

theorem agree_pushed (h : Same d e) (hd : d.Fits) (he : e.Fits) (value : M) :
    Agree (.ok (d.pushed value)) (.ok (e.pushed value)) := by
  have hfits : ∀ {d : TDigestMut M}, d.Fits → (d.pushed value).Fits := by
    intro d hd
    refine ⟨TDigestBuffer.fits_push hd.1 value, fun values hvalues ↦ ?_⟩
    cases hb : d.buffer with
    | staging us => exact hd.2 us hb
    | centroids cs n =>
        rw [pushed, hb] at hvalues
        cases hvalues
  refine ⟨⟨h.k_eq, h.reverseMerge_eq, ?_, ?_, h.compressedWeight_eq, ?_, ?_⟩, hfits hd, hfits he⟩
  · rw [pushed, pushed, h.min_eq]
  · rw [pushed, pushed, h.max_eq]
  · rw [pushed, pushed, TDigestBuffer.compressed_push hd.1, TDigestBuffer.compressed_push he.1,
      h.compressed_eq]
  · rw [pushed, pushed, TDigestBuffer.unmerged_push hd.1, TDigestBuffer.unmerged_push he.1,
      h.unmerged_eq]

theorem Agree.bind {x y : Checked (TDigestMut M)} (h : Agree x y)
    {f g : TDigestMut M → Checked (TDigestMut M)}
    (hfg : ∀ d e, Same d e → d.Fits → e.Fits → Agree (f d) (g e)) : Agree (x >>= f) (y >>= g) := by
  match x, y, h with
  | .ok d, .ok e, ⟨hsame, hd, he⟩ => exact hfg d e hsame hd he
  | .error p, .error q, h => exact h

theorem agree_update (h : Same d e) (hd : d.Fits) (he : e.Fits) (value : F64 M) :
    Agree (d.update scale value) (e.update scale value) := by
  cases hvalue : value with
  | infinity => exact ⟨h, hd, he⟩
  | negInfinity => exact ⟨h, hd, he⟩
  | nan => exact ⟨h, hd, he⟩
  | finite x =>
      rw [update_finite hd x fun d' hok hne ↦ (unmerged_of_compress hd hok).2 hne,
        update_finite he x fun e' hok hne ↦ (unmerged_of_compress he hok).2 hne, h.unmerged_eq,
        h.maxUnmerged_eq]
      refine Agree.bind ?_ fun d' e' hsame hd' he' ↦ agree_pushed hsame hd' he' x
      split_ifs
      · exact ⟨h, hd, he⟩
      · exact agree_compress h hd he

theorem agree_merge (h : Same d e) (hd : d.Fits) (he : e.Fits) {other : TDigestMut M}
    (ho : other.Fits) : Agree (d.merge scale other) (e.merge scale other) := by
  rw [merge_eq hd ho, merge_eq he ho, h.unmerged_eq, h.compressed_eq]
  split_ifs
  · exact ⟨h, hd, he⟩
  · cases other.totalWeight with
    | error p => exact rfl
    | ok weight =>
        rw [ok_bind, ok_bind]
        cases checkedAdd 64 d.buffer.unmerged.length weight with
        | error p => exact rfl
        | ok additionalWeight => exact agree_compressCentroids h _ _

/-- Both panic in the same way, or both write the same bytes and return the same digest in two
forms. -/
def AgreeWriting (x y : Checked (TDigestMut M × List UInt8)) : Prop :=
  match x, y with
  | .ok r, .ok s => r.2 = s.2 ∧ Same r.1 s.1 ∧ r.1.Fits ∧ s.1.Fits
  | .error p, .error q => p = q
  | _, _ => False

theorem Agree.writing {x y : Checked (TDigestMut M)} (h : Agree x y) (bytes : List UInt8) :
    AgreeWriting ((·, bytes) <$> x) ((·, bytes) <$> y) := by
  match x, y, h with
  | .ok d, .ok e, h => exact ⟨rfl, h⟩
  | .error p, .error q, h => exact h

/-- Two forms of a digest are written alike. -/
theorem agree_serialize (h : Same d e) (hd : d.Fits) (he : e.Fits) :
    AgreeWriting (d.serialize codec scale) (e.serialize codec scale) := by
  have hcompress : Agree (d.compress scale) (e.compress scale) := agree_compress h hd he
  rw [serialize, serialize]
  cases hx : d.compress scale with
  | error p =>
      cases hy : e.compress scale with
      | error q =>
          rw [hx, hy] at hcompress
          exact hcompress
      | ok e' =>
          rw [hx, hy] at hcompress
          exact hcompress.elim
  | ok d' =>
      cases hy : e.compress scale with
      | error q =>
          rw [hx, hy] at hcompress
          exact hcompress.elim
      | ok e' =>
          rw [hx, hy] at hcompress
          obtain ⟨hsame, hd', he'⟩ := hcompress
          have hd'nil := (unmerged_of_compress hd hx).1
          have he'nil := (unmerged_of_compress he hy).1
          have htotal : e'.totalWeight = d'.totalWeight := by
            rw [totalWeight, totalWeight, ← TDigestBuffer.length_unmerged hd'.1,
              ← TDigestBuffer.length_unmerged he'.1, hsame.unmerged_eq, hsame.compressedWeight_eq]
          have hempty : e'.isEmpty = d'.isEmpty := by
            rw [isEmpty, isEmpty, TDigestBuffer.isEmpty, TDigestBuffer.isEmpty,
              TDigestBuffer.len_eq hd'.1, TDigestBuffer.len_eq he'.1, hsame.unmerged_eq,
              hsame.compressed_eq]
          rw [ok_bind, ok_bind, compressedCentroids_eq hd'.1 hd'nil,
            compressedCentroids_eq he'.1 he'nil, ok_bind, ok_bind, isSingleValue, isSingleValue,
            htotal, hempty, hsame.compressed_eq, hsame.reverseMerge_eq, hsame.k_eq, hsame.min_eq,
            hsame.max_eq]
          cases d'.totalWeight with
          | error p => exact rfl
          | ok weight =>
              simp only [ok_bind, pure_eq_ok, decide_eq_true_eq]
              by_cases hd'empty : d'.isEmpty = true
              · simp only [if_pos hd'empty]
                exact ⟨rfl, hsame, hd', he'⟩
              · simp only [if_neg hd'empty]
                by_cases hone : weight = 1
                · simp only [if_pos hone]
                  exact ⟨rfl, hsame, hd', he'⟩
                · simp only [if_neg hone]
                  exact ⟨rfl, hsame, hd', he'⟩

/-- Operations whose other digests are in order. -/
def OpFits : TDigestOp M → Prop
  | .merge other => other.Fits
  | _ => True

theorem agree_apply (h : Same d e) (hd : d.Fits) (he : e.Fits) {op : TDigestOp M} (hop : OpFits op) :
    AgreeWriting (d.apply codec scale op) (e.apply codec scale op) := by
  cases op with
  | update value => exact (agree_update h hd he value).writing []
  | merge other => exact (agree_merge h hd he hop).writing []
  | serialize => exact agree_serialize h hd he

/-- Two forms of a digest write the same, whatever is done with them. -/
theorem writes_congr (h : Same d e) (hd : d.Fits) (he : e.Fits) {ops : List (TDigestOp M)}
    (hops : ∀ op ∈ ops, OpFits op) : d.writes codec scale ops = e.writes codec scale ops := by
  induction ops generalizing d e with
  | nil => rfl
  | cons op ops ih =>
      have hop : AgreeWriting (d.apply codec scale op) (e.apply codec scale op) :=
        agree_apply h hd he (hops op List.mem_cons_self)
      rw [writes, writes]
      match d.apply codec scale op, e.apply codec scale op, hop with
      | .error p, .error q, hop =>
          cases hop
          rfl
      | .ok (d', bytes), .ok (e', bytes'), ⟨hbytes, hsame, hd', he'⟩ =>
          cases (show bytes = bytes' from hbytes)
          have hrest : d'.writes codec scale ops = e'.writes codec scale ops :=
            ih hsame hd' he' fun op' hop' ↦ hops op' (List.mem_cons_of_mem _ hop')
          rw [ok_bind, ok_bind]
          dsimp only
          rw [hrest]

/-! ## Reading back -/

/-- A rough logarithm. -/
def roughLn (x : ℚ) : ℚ := Int.log 2 x * (693147 / 1000000)

theorem roughLn_nonneg (x : ℚ) (h : 1 ≤ x) : 0 ≤ roughLn x := by
  have hlog : (0 : ℚ) ≤ Int.log 2 x := by
    rw [Int.log_of_one_le_right 2 h]
    exact_mod_cast Nat.zero_le _
  exact mul_nonneg hlog (by norm_num)

end TDigestMut

end DataSketches
