import DataSketches.TDigest.Sketch

/-!
# Compression

Compression keeps the total weight, and the first and the last of the sorted
centroids as they are, in whichever direction it goes.
-/

namespace DataSketches

open Runs FloatFormat StableSort

namespace TDigestMut

variable {M : Type} [FloatFormat M] {scale : ScaleFunction}

/-- What centroids are sorted by. -/
def meanVal (c : Centroid M) : ℚ := val c.mean

/-- The centroids in the order in which they are merged. -/
def mergingOrder (reverse : Bool) (cs : List (Centroid M)) : List (Centroid M) :=
  if reverse then (cs.insertionSort (meanVal · ≤ meanVal ·)).reverse
  else cs.insertionSort (meanVal · ≤ meanVal ·)

/-- How centroids become compressed ones. -/
structure Compresses (scale : ScaleFunction) (k : ℕ) (reverse : Bool)
    (cs compressed : List (Centroid M)) : Prop where
  head?_eq : compressed.head? = firstMin meanVal cs
  getLast?_eq : compressed.getLast? = lastMax meanVal cs
  totalWeight_eq : Centroid.totalWeight compressed = Centroid.totalWeight cs
  length_le : compressed.length ≤ cs.length
  /-- The compressed centroids come out of one pass of merging. -/
  merged : ∃ first rest merged, mergingOrder reverse cs = first :: rest ∧
    mergeFrom scale (scale.normalizer (2 * k) (Centroid.totalWeight cs)) (Centroid.totalWeight cs)
      true 0 first rest = .ok merged ∧ compressed = if reverse then merged.reverse else merged

/-- What compression does to a digest. -/
def compressedTo (d : TDigestMut M) (first last : M) (cs : List (Centroid M)) : TDigestMut M where
  k := d.k
  reverseMerge := !d.reverseMerge
  min := d.min.min (.finite first)
  max := d.max.max (.finite last)
  buffer := .centroids cs 0
  compressedWeight := Centroid.totalWeight cs

/-- One digest is what compressing the given centroids makes of another. -/
def CompressedFrom (scale : ScaleFunction) (d : TDigestMut M) (cs : List (Centroid M))
    (d' : TDigestMut M) : Prop :=
  ∃ first last compressed, firstMin meanVal cs = some first ∧ lastMax meanVal cs = some last ∧
    Compresses scale d.k d.reverseMerge cs compressed ∧
    d' = d.compressedTo first.mean last.mean compressed

variable {d : TDigestMut M} {cs : List (Centroid M)} {additionalWeight : ℕ}

theorem perm_mergingOrder (reverse : Bool) (cs : List (Centroid M)) :
    (mergingOrder reverse cs).Perm cs := by
  unfold mergingOrder
  split_ifs
  · exact (List.reverse_perm _).trans (List.perm_insertionSort _ cs)
  · exact List.perm_insertionSort _ cs

/-- The ends of the merging order, turned back. -/
theorem ends_mergingOrder {reverse : Bool} {merged : List (Centroid M)}
    (hhead : merged.head? = (mergingOrder reverse cs).head?)
    (hlast : merged.getLast? = (mergingOrder reverse cs).getLast?) :
    (if reverse then merged.reverse else merged).head? = firstMin meanVal cs ∧
      (if reverse then merged.reverse else merged).getLast? = lastMax meanVal cs := by
  unfold mergingOrder at hhead hlast
  cases reverse with
  | false => exact ⟨hhead.trans (head?_insertionSort meanVal cs),
      hlast.trans (getLast?_insertionSort meanVal cs)⟩
  | true =>
      rw [if_pos rfl] at hhead hlast
      rw [if_pos rfl, List.head?_reverse, List.getLast?_reverse, hhead, hlast,
        List.getLast?_reverse, List.head?_reverse]
      exact ⟨head?_insertionSort meanVal cs, getLast?_insertionSort meanVal cs⟩

/-- The first and the last centroid are read at their places. -/
theorem centroidAt_ends {first last : Centroid M} (hfirst : cs.head? = some first)
    (hlast : cs.getLast? = some last) :
    centroidAt cs 0 = .ok first ∧ centroidAt cs (cs.length - 1) = .ok last := by
  rw [List.head?_eq_getElem?] at hfirst
  rw [List.getLast?_eq_getElem?] at hlast
  rw [centroidAt, centroidAt, hfirst, hlast]
  exact ⟨rfl, rfl⟩

/-- Compressing all centroids of a digest, with some that were not counted yet. -/
theorem compressCentroids_spec [LawfulFloat M] (hne : cs ≠ [])
    (hweight : Centroid.totalWeight cs = d.compressedWeight + additionalWeight)
    (hlt : Centroid.totalWeight cs < 2 ^ 64) :
    ∃ d', d.compressCentroids scale cs additionalWeight = .ok d' ∧ CompressedFrom scale d cs d' := by
  have hperm := perm_mergingOrder d.reverseMerge cs
  obtain ⟨c, rest, horder⟩ : ∃ c rest, mergingOrder d.reverseMerge cs = c :: rest := by
    refine List.exists_cons_of_ne_nil fun hnil ↦ hne ?_
    rw [hnil] at hperm
    exact hperm.nil_eq.symm
  have htotal : Centroid.totalWeight (c :: rest) = Centroid.totalWeight cs := by
    rw [← horder]
    exact Centroid.totalWeight_perm hperm
  obtain ⟨merged, hmerged, hkept, hlast, hhead, hlen⟩ := mergeFrom_spec scale
    (scale.normalizer (2 * d.k) (Centroid.totalWeight cs)) (Centroid.totalWeight cs) true 0
    (htotal ▸ hlt)
  -- The loop starts with the first centroid in its place.
  have hloop : mergeLoop scale (scale.normalizer (2 * d.k) (Centroid.totalWeight cs))
      (Centroid.totalWeight cs) ((c :: rest).length - 1) 1 1 0 (c :: rest) = .ok merged := by
    obtain ⟨last, hget, heq⟩ := mergeLoop_eq scale
      (scale.normalizer (2 * d.k) (Centroid.totalWeight cs)) (Centroid.totalWeight cs) 0 (c :: rest)
      le_rfl le_rfl (List.length_cons.trans (Nat.add_comm _ _))
    cases hget
    change mergeLoop _ _ _ rest.length _ _ _ _ = _
    rw [heq]
    change _ <$> mergeFrom scale _ _ true 0 c rest = _
    rw [hmerged]
    rfl
  obtain ⟨hfirst, hlast⟩ := ends_mergingOrder
    (by rw [hhead (Or.inl rfl), horder, List.head?_cons]) (by rw [hlast, horder])
  obtain ⟨first, hmin⟩ : ∃ first, firstMin meanVal cs = some first :=
    Option.ne_none_iff_exists'.mp fun hnone ↦ hne (firstMin_eq_none_iff.mp hnone)
  obtain ⟨last, hmax⟩ : ∃ last, lastMax meanVal cs = some last :=
    Option.ne_none_iff_exists'.mp fun hnone ↦ hne (lastMax_eq_none_iff.mp hnone)
  obtain ⟨compressed, hcompressed⟩ : ∃ compressed,
    compressed = if d.reverseMerge then merged.reverse else merged := ⟨_, rfl⟩
  rw [← hcompressed] at hfirst hlast
  obtain ⟨hzero, hend⟩ := centroidAt_ends (hfirst.trans hmin) (hlast.trans hmax)
  have hcompressedPerm : compressed.Perm merged := by
    rw [hcompressed]
    split_ifs
    · exact List.reverse_perm merged
    · exact List.Perm.refl merged
  have hcompressedWeight : Centroid.totalWeight compressed = Centroid.totalWeight cs := by
    rw [Centroid.totalWeight_perm hcompressedPerm, hkept, htotal]
  refine ⟨d.compressedTo first.mean last.mean compressed, ?_, first, last, compressed, hmin, hmax,
    ⟨hfirst, hlast, hcompressedWeight, ?_, c, rest, merged, horder, hmerged, hcompressed⟩, rfl⟩
  · have hsorted : (if d.reverseMerge then (cs.insertionSort (val ·.mean ≤ val ·.mean)).reverse
        else cs.insertionSort (val ·.mean ≤ val ·.mean)) = c :: rest := horder
    have hcast : ((Centroid.totalWeight cs : ℕ) : ℚ) =
      ((d.compressedWeight + additionalWeight : ℕ) : ℚ) := by rw [hweight]
    have hnonempty : (!cs.isEmpty) = true := by
      rw [Bool.not_eq_true', List.isEmpty_eq_false_iff]
      exact hne
    rw [compressCentroids, assert_pos hnonempty, ok_bind, checkedAdd_of_lt (hweight ▸ hlt), ok_bind]
    simp only [hsorted]
    rw [← hcast, hloop, ok_bind, ← hcompressed, hzero, ok_bind, hend, ok_bind, ← hweight,
      ← hcompressedWeight]
    rfl
  · rw [hcompressedPerm.length_eq, ← hperm.length_eq, horder]
    exact hlen

end TDigestMut

end DataSketches
