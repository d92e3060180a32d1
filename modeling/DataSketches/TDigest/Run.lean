import DataSketches.TDigest.Steps

/-!
# Runs of t-digests

A run starts with a new digest and goes on with updates, merges with digests of
other runs, queries, freezing, and writing and reading back.  What three kinds of
steps keep, a whole run keeps.
-/

namespace DataSketches

open Runs FloatFormat StableSort

/-- The values that an update receives: those that are finite. -/
def F64.received {M : Type} : F64 M → Multiset M
  | finite x => {x}
  | _ => 0

theorem F64.received_of_not_finite {M : Type} {value : F64 M} (h : value.isFinite = false) :
    value.received = 0 := by
  cases value with
  | finite x => cases h
  | infinity => rfl
  | negInfinity => rfl
  | nan => rfl

namespace TDigestMut

variable {M : Type} [FloatFormat M]

/-- Digests that are reached, with the finite values that were received for them.  Only digests of
fewer than `2 ^ 32` centroids are read back. -/
inductive Reachable (codec : F64Codec M) (scale : ScaleFunction) :
    Multiset M → TDigestMut M → Prop where
  | new {k : ℕ} {d : TDigestMut M} (hk : k < 2 ^ 16) (hok : TDigestMut.new k = .ok d) :
      Reachable codec scale 0 d
  | update {vs : Multiset M} {d d' : TDigestMut M} (h : Reachable codec scale vs d) (value : F64 M)
      (hok : d.update scale value = .ok d') : Reachable codec scale (value.received + vs) d'
  | merge {vs ws : Multiset M} {d other d' : TDigestMut M} (h : Reachable codec scale vs d)
      (ho : Reachable codec scale ws other) (hok : d.merge scale other = .ok d') :
      Reachable codec scale (vs + ws) d'
  | ask {vs : Multiset M} {d d' : TDigestMut M} (h : Reachable codec scale vs d)
      (query : TDigestQuery M) (hok : d.ask scale query = .ok d') : Reachable codec scale vs d'
  | freeze {vs : Multiset M} {d d' : TDigestMut M} {frozen : TDigest M}
      (h : Reachable codec scale vs d) (hfreeze : d.freeze scale = .ok frozen)
      (hok : frozen.unfreeze = .ok d') : Reachable codec scale vs d'
  | serialize {vs : Multiset M} {d d' : TDigestMut M} {bytes : List UInt8}
      (h : Reachable codec scale vs d) (hok : d.serialize codec scale = .ok (d', bytes)) :
      Reachable codec scale vs d'
  | deserialize {vs : Multiset M} {d d' e : TDigestMut M} {bytes : List UInt8}
      (h : Reachable codec scale vs d) (hwrite : d.serialize codec scale = .ok (d', bytes))
      (hlen : d'.buffer.len < 2 ^ 32) (hok : deserialize codec bytes false = .ok e) :
      Reachable codec scale vs e

variable [LawfulFloat M] {codec : F64Codec M} {scale : ScaleFunction}

/-- What holds of new digests and is kept by receiving a value, by compressing contents, and by
changing the form of the buffer. -/
structure Kept (scale : ScaleFunction) (I : Multiset M → TDigestMut M → Prop) : Prop where
  new : ∀ {d}, d.Shape → d.contents = [] → I 0 d
  push : ∀ {vs d}, d.Shape → I vs d → d.buffer.unmerged.length < d.maxUnmerged → ∀ value,
    I ({value} + vs) (d.pushed value)
  compress : ∀ {vs d d'}, d.Shape → d.weight < 2 ^ 64 → I vs d → CompressedFrom scale d d.contents d' → I vs d'
  merge : ∀ {vs ws d other d'}, d.Shape → other.Shape → d.weight + other.weight < 2 ^ 64 → I vs d → I ws other → other.contents ≠ [] →
    CompressedFrom scale d (d.mergedContents other) d' → I (vs + ws) d'
  same : ∀ {vs d e}, d.Shape → I vs d → Same d e → e.buffer.Fits → I vs e

section Kept

variable {I : Multiset M → TDigestMut M → Prop} {vs : Multiset M} {d d' e : TDigestMut M}

/-- What is kept is kept by compressing a digest. -/
theorem Kept.compressed (hI : Kept scale I) (h : d.Shape) (hweight : d.weight = vs.card)
    (hlt : vs.card < 2 ^ 64) (hd : I vs d) (hok : d.compress scale = .ok d') :
    d'.Shape ∧ d'.buffer.unmerged = [] ∧ d'.weight = vs.card ∧ I vs d' := by
  obtain ⟨d₁, hok₁, h₁, hnil, hd₁⟩ := h.compress_spec scale (hweight ▸ hlt)
  cases hok.symm.trans hok₁
  rcases hd₁ with rfl | hfrom
  · exact ⟨h, hnil, hweight, hd⟩
  · exact ⟨h₁, hnil, hfrom.weight_eq.trans hweight, hI.compress h (hweight ▸ hlt) hd hfrom⟩

theorem Kept.of_same (hI : Kept scale I) (h : d.Shape) (hweight : d.weight = vs.card) (hd : I vs d)
    (hsame : Same d e) (hfits : e.buffer.Fits) : e.Shape ∧ e.weight = vs.card ∧ I vs e := by
  refine ⟨h.of_same hsame hfits, ?_, hI.same h hd hsame hfits⟩
  rw [weight, hsame.contents_eq]
  exact hweight

variable (codec) in
/-- and by serializing it. -/
theorem Kept.serialized (hI : Kept scale I) (h : d.Shape) (hweight : d.weight = vs.card)
    (hlt : vs.card < 2 ^ 64) (hd : I vs d) :
    ∃ d', d.compress scale = .ok d' ∧ d.serialize codec scale = .ok (d', image codec d') ∧
      d'.Shape ∧ d'.buffer.unmerged = [] ∧ d'.weight = vs.card ∧ I vs d' := by
  obtain ⟨d', hok, -⟩ := h.compress_spec scale (hweight ▸ hlt)
  obtain ⟨h', hnil, hweight', hd'⟩ := hI.compressed h hweight hlt hd hok
  exact ⟨d', hok, serialize_eq_image h (hweight ▸ hlt) hok h' hnil (hweight'.trans hweight.symm), h',
    hnil, hweight', hd'⟩

end Kept

/-- What is kept holds in a run of fewer than `2 ^ 64` values, as do the invariant of digests and
the count of the values. -/
theorem Reachable.kept {I : Multiset M → TDigestMut M → Prop} (hI : Kept scale I) {vs : Multiset M}
    {d : TDigestMut M} (h : Reachable codec scale vs d) (hlt : vs.card < 2 ^ 64) :
    d.Shape ∧ d.weight = vs.card ∧ I vs d := by
  induction h with
  | new hk hok =>
      obtain ⟨h, hnil⟩ := shape_new hk hok
      exact ⟨h, totalWeight_eq_zero_iff.mpr hnil, hI.new h hnil⟩
  | @update vs d d' _ value hok ih =>
      have hle : vs.card ≤ (value.received + vs).card := Multiset.card_le_card (Multiset.le_add_left _ _)
      obtain ⟨h, hweight, hd⟩ := ih (hle.trans_lt hlt)
      cases hvalue : value with
      | finite x =>
          rw [hvalue] at hok
          have hlt' : d.weight < 2 ^ 64 := hweight ▸ hle.trans_lt hlt
          obtain ⟨d₁, hd₁, h₁, hroom, hok₁⟩ := update_spec scale h hlt' x
          cases hok.symm.trans hok₁
          have hkept : d₁.weight = vs.card ∧ I vs d₁ := by
            rcases hd₁ with rfl | hfrom
            · exact ⟨hweight, hd⟩
            · exact ⟨hfrom.weight_eq.trans hweight, hI.compress h hlt' hd hfrom⟩
          refine ⟨h₁.pushed x, ?_, hI.push h₁ hkept.2 hroom x⟩
          rw [h₁.weight_pushed, hkept.1, F64.received, Multiset.card_add, Multiset.card_singleton,
            Nat.add_comm]
      | infinity | negInfinity | nan =>
          rw [hvalue, update_of_not_finite rfl] at hok
          cases hok
          rw [F64.received_of_not_finite rfl, zero_add]
          exact ⟨h, hweight, hd⟩
  | @merge vs ws d other d' _ _ hok ih iho =>
      rw [Multiset.card_add] at hlt
      obtain ⟨h, hweight, hd⟩ := ih (by omega)
      obtain ⟨ho, hweight', hother⟩ := iho (by omega)
      have hsum : d.weight + other.weight < 2 ^ 64 := by omega
      obtain ⟨d₁, hok₁, h₁, ⟨hempty, rfl⟩ | ⟨hne, hfrom⟩⟩ := merge_spec scale h ho hsum
      · cases hok.symm.trans hok₁
        have hws : ws = 0 := by
          rw [← Multiset.card_eq_zero, ← hweight']
          exact totalWeight_eq_zero_iff.mpr hempty
        rw [hws, add_zero]
        exact ⟨h, hweight, hd⟩
      · cases hok.symm.trans hok₁
        refine ⟨h₁, ?_, hI.merge h ho hsum hd hother hne hfrom⟩
        rw [hfrom.weight_eq, totalWeight_mergedContents, hweight, hweight', Multiset.card_add]
  | @ask vs d d' _ query hok ih =>
      obtain ⟨h, hweight, hd⟩ := ih hlt
      rcases (ask_spec h (hweight ▸ hlt) query).post_of_ok hok with rfl | hcompress
      · exact ⟨h, hweight, hd⟩
      · obtain ⟨h', -, hkept⟩ := hI.compressed h hweight hlt hd hcompress
        exact ⟨h', hkept⟩
  | @freeze vs d d' frozen _ hfreeze hok ih =>
      obtain ⟨h, hweight, hd⟩ := ih hlt
      obtain ⟨d₁, hcompress, -⟩ := h.compress_spec scale (hweight ▸ hlt)
      obtain ⟨h₁, hnil, hweight₁, hd₁⟩ := hI.compressed h hweight hlt hd hcompress
      obtain ⟨e, hok', hsame, hfits⟩ := unfreeze_spec h₁ hnil hfreeze hcompress
      cases hok.symm.trans hok'
      exact hI.of_same h₁ hweight₁ hd₁ hsame hfits
  | @serialize vs d d' bytes _ hok ih =>
      obtain ⟨h, hweight, hd⟩ := ih hlt
      obtain ⟨d₁, hcompress, hok₁, h₁, -, hkept⟩ := hI.serialized codec h hweight hlt hd
      cases hok.symm.trans hok₁
      exact ⟨h₁, hkept⟩
  | @deserialize vs d d' e bytes _ hwrite hlen hok ih =>
      obtain ⟨h, hweight, hd⟩ := ih hlt
      obtain ⟨d₁, hcompress, hok₁, h₁, hnil, hweight₁, hd₁⟩ := hI.serialized codec h hweight hlt hd
      cases hwrite.symm.trans hok₁
      have hlen' : d'.buffer.compressed.length < 2 ^ 32 := by
        rw [TDigestBuffer.len_eq h₁.fits] at hlen
        omega
      obtain ⟨e', hok', hsame, hfits⟩ := deserialize_image codec h₁ hnil (by omega) hlen'
      cases hok.symm.trans hok'
      exact hI.of_same h₁ hweight₁ hd₁ hsame hfits

end TDigestMut

end DataSketches
