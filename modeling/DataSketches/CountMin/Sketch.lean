import DataSketches.CountMin.Value
import DataSketches.Hash.Murmur

/-!
# The CountMin sketch

A sketch has a row of counters for each of its hash functions.  An update adds a
weight to one counter of every row, and the absolute weight to a total.  Whether
the sketch is empty is judged by the total alone.
-/

namespace DataSketches

open Runs

def maxTableEntries : ℕ := 1 <<< 30

/-- CountMin sketch for estimating item frequencies. -/
structure CountMinSketch (t : CountMinType) where
  numHashes : UInt8
  numBuckets : UInt32
  seed : UInt64
  seedHash : ℕ
  totalWeight : CountMinValue t
  counts : List (CountMinValue t)
  hashSeeds : List UInt64
deriving DecidableEq

namespace CountMinSketch

variable {t : CountMinType}

/-! ## Construction -/

/-- A hash of the items written to a fresh hasher. -/
def hash64 {T : Type} [Hash T] (seed : UInt64) (item : T) : Checked UInt64 := do
  let (h1, _) ← (← (MurmurHash3X64128.withSeed seed).hash item).finish128
  return h1

/-- The seeds of the rows `i`, …, `i + n - 1`. -/
def hashSeedsFrom (seed : UInt64) (i : ℕ) : ℕ → Checked (List UInt64)
  | 0 => return []
  | n + 1 => do
      let h1 ← hash64 seed (UInt64.ofNat i)
      return h1 :: (← hashSeedsFrom seed (i + 1) n)

def makeHashSeeds (seed : UInt64) (numHashes : UInt8) : Checked (List UInt64) :=
  hashSeedsFrom seed 0 numHashes.toNat

def make (numHashes : UInt8) (numBuckets : UInt32) (seed : UInt64) (entries : ℕ) :
    Checked (CountMinSketch t) := do
  let seedHash ← computeSeedHash seed
  let hashSeeds ← makeHashSeeds seed numHashes
  return ⟨numHashes, numBuckets, seed, seedHash, .zero, List.replicate entries .zero, hashSeeds⟩

def entriesForConfig (numHashes : UInt8) (numBuckets : UInt32) : Checked ℕ := do
  assert (numHashes > 0) "num_hashes must be at least 1"
  assert (numBuckets ≥ 3) "num_buckets must be at least 3"
  let entries := numHashes.toNat * numBuckets.toNat
  assert (entries < maxTableEntries) "num_hashes * num_buckets must be < 1073741824"
  return entries

/-- Creates a new CountMin sketch with the provided seed. -/
def withSeed (numHashes : UInt8) (numBuckets : UInt32) (seed : UInt64) :
    Checked (CountMinSketch t) := do
  let entries ← entriesForConfig numHashes numBuckets
  make numHashes numBuckets seed entries

/-- Returns `true` if the sketch has not seen any updates. -/
def isEmpty (f : CountMinSketch t) : Bool := f.totalWeight = .zero

/-! ## Updates and queries -/

section Items

variable {T : Type} [Hash T]

/-- The bucket of an item in the row with the given seed. -/
def bucketIndex (numBuckets : UInt32) (item : T) (seed : UInt64) : Checked ℕ := do
  let h1 ← hash64 seed item
  return (h1 % numBuckets.toUInt64).toNat

/-- The loop over the rows from `row` on. -/
def addWeights (numBuckets : UInt32) (item : T) (weight : CountMinValue t) :
    ℕ → List UInt64 → List (CountMinValue t) → Checked (List (CountMinValue t))
  | _, [], counts => return counts
  | row, seed :: seeds, counts => do
      let bucket ← bucketIndex numBuckets item seed
      let index := row * numBuckets.toNat + bucket
      match counts[index]? with
      | none => throw .outOfBounds
      | some count => do
          let sum ← count.add weight
          addWeights numBuckets item weight (row + 1) seeds (counts.set index sum)

/-- Updates the sketch with the given item and weight. -/
def updateWithWeight (f : CountMinSketch t) (item : T) (weight : CountMinValue t) :
    Checked (CountMinSketch t) :=
  if weight = .zero then .ok f
  else do
    let absWeight ← weight.abs
    let totalWeight ← f.totalWeight.add absWeight
    let counts ← addWeights f.numBuckets item weight 0 f.hashSeeds f.counts
    return { f with totalWeight := totalWeight, counts := counts }

/-- The loop over the rows from `row` on, with the minimum so far. -/
def minFrom (f : CountMinSketch t) (item : T) :
    ℕ → List UInt64 → CountMinValue t → Checked (CountMinValue t)
  | _, [], least => return least
  | row, seed :: seeds, least => do
      let bucket ← bucketIndex f.numBuckets item seed
      match f.counts[row * f.numBuckets.toNat + bucket]? with
      | none => throw .outOfBounds
      | some value => f.minFrom item (row + 1) seeds (if value.val < least.val then value else least)

/-- Returns the estimated frequency of the given item. -/
def estimate (f : CountMinSketch t) (item : T) : Checked (CountMinValue t) :=
  f.minFrom item 0 f.hashSeeds .maxValue

end Items

/-- The loop that adds the counters of another sketch. -/
def addCounts : List (CountMinValue t) → List (CountMinValue t) → Checked (List (CountMinValue t))
  | a :: as, b :: bs => do
      let sum ← a.add b
      return sum :: (← addCounts as bs)
  | as, _ => return as

/-- Merges another sketch into this one.  The two are different objects, as a reference that is
written through is not shared. -/
def merge (f other : CountMinSketch t) : Checked (CountMinSketch t) := do
  assert (f.numHashes = other.numHashes) "assertion `left == right` failed"
  assert (f.numBuckets = other.numBuckets) "assertion `left == right` failed"
  assert (f.seed = other.seed) "assertion `left == right` failed"
  assert (f.counts.length = other.counts.length) "assertion `left == right` failed"
  let counts ← addCounts f.counts other.counts
  let totalWeight ← f.totalWeight.add other.totalWeight
  return { f with totalWeight := totalWeight, counts := counts }

/-- Divides every counter by two, truncating toward zero. -/
def halve (hu : t.isSigned = false) (f : CountMinSketch t) : CountMinSketch t :=
  { f with counts := f.counts.map (·.halve hu), totalWeight := f.totalWeight.halve hu }

/-- The floating-point factors of `decay`, and what multiplying a counter by one and truncating
gives: a monotone map that keeps zero. -/
structure Scaling (t : CountMinType) where
  Factor : Type
  /-- `decay > 0.0 && decay <= 1.0` -/
  inUnit : Factor → Bool
  scale : Factor → CountMinValue t → CountMinValue t
  mono : ∀ k a b, a.val ≤ b.val → (scale k a).val ≤ (scale k b).val
  zero : ∀ k, scale k .zero = .zero

/-- Multiplies every counter by a factor and truncates. -/
def decay (sc : Scaling t) (factor : sc.Factor) (f : CountMinSketch t) :
    Checked (CountMinSketch t) := do
  assert (sc.inUnit factor = true) "decay must be within (0, 1]"
  return { f with
    counts := f.counts.map (sc.scale factor), totalWeight := sc.scale factor f.totalWeight }

/-! ## The shape of a sketch -/

/-- The fields that no operation changes, in agreement with each other. -/
structure Shaped (f : CountMinSketch t) : Prop where
  length_eq : f.counts.length = f.numHashes.toNat * f.numBuckets.toNat
  config : entriesForConfig f.numHashes f.numBuckets = .ok (f.numHashes.toNat * f.numBuckets.toNat)
  seedHash_eq : computeSeedHash f.seed = .ok f.seedHash
  hashSeeds_eq : makeHashSeeds f.seed f.numHashes = .ok f.hashSeeds
  length_seeds : f.hashSeeds.length = f.numHashes.toNat

/-- Two sketches of one configuration. -/
structure SameConfig (f g : CountMinSketch t) : Prop where
  numHashes_eq : f.numHashes = g.numHashes
  numBuckets_eq : f.numBuckets = g.numBuckets
  seed_eq : f.seed = g.seed
  seedHash_eq : f.seedHash = g.seedHash
  hashSeeds_eq : f.hashSeeds = g.hashSeeds

variable {f g h : CountMinSketch t}

theorem SameConfig.refl (f : CountMinSketch t) : SameConfig f f := ⟨rfl, rfl, rfl, rfl, rfl⟩

theorem SameConfig.trans (hfg : SameConfig f g) (hgh : SameConfig g h) : SameConfig f h :=
  ⟨hfg.1.trans hgh.1, hfg.2.trans hgh.2, hfg.3.trans hgh.3, hfg.4.trans hgh.4, hfg.5.trans hgh.5⟩

theorem SameConfig.symm (hfg : SameConfig f g) : SameConfig g f :=
  ⟨hfg.1.symm, hfg.2.symm, hfg.3.symm, hfg.4.symm, hfg.5.symm⟩

theorem hash64_total {T : Type} [Hash T] (seed : UInt64) (item : T) :
    ∃ x, hash64 seed item = .ok x := by
  obtain ⟨s, hs, hbuf⟩ :=
    MurmurHash3X64128.hash_total (MurmurHash3X64128.buffered_withSeed seed) item
  obtain ⟨⟨h1, h2⟩, hx⟩ := MurmurHash3X64128.finish128_total hbuf
  refine ⟨h1, ?_⟩
  rw [hash64, hs, ok_bind, hx]
  rfl

theorem hashSeedsFrom_total (seed : UInt64) (i n : ℕ) :
    ∃ seeds, hashSeedsFrom seed i n = .ok seeds ∧ seeds.length = n := by
  induction n generalizing i with
  | zero => exact ⟨[], rfl, rfl⟩
  | succ n ih =>
      obtain ⟨x, hx⟩ := hash64_total seed (UInt64.ofNat i)
      obtain ⟨seeds, hseeds, hlen⟩ := ih (i + 1)
      refine ⟨x :: seeds, ?_, congrArg (· + 1) hlen⟩
      rw [hashSeedsFrom, hx, ok_bind, hseeds]
      rfl

theorem entriesForConfig_eq_ok {numHashes : UInt8} {numBuckets : UInt32} {entries : ℕ} :
    entriesForConfig numHashes numBuckets = .ok entries ↔
      (numHashes > 0 ∧ numBuckets ≥ 3 ∧ numHashes.toNat * numBuckets.toNat < maxTableEntries) ∧
        entries = numHashes.toNat * numBuckets.toNat := by
  rw [entriesForConfig, assert_bind_eq_ok, assert_bind_eq_ok, assert_bind_eq_ok, and_assoc, and_assoc,
    pure_eq_ok, Except.ok.injEq, @eq_comm _ entries]

/-- What a new sketch is. -/
theorem make_eq_ok {numHashes : UInt8} {numBuckets : UInt32} {seed : UInt64} {entries : ℕ} :
    make numHashes numBuckets seed entries = .ok f ↔
      (f.numHashes = numHashes ∧ f.numBuckets = numBuckets ∧ f.seed = seed) ∧
        computeSeedHash seed = .ok f.seedHash ∧ makeHashSeeds seed numHashes = .ok f.hashSeeds ∧
        f.totalWeight = .zero ∧ f.counts = List.replicate entries .zero := by
  constructor
  · intro hmake
    obtain ⟨sh, hsh, hmake⟩ := bind_eq_ok.mp hmake
    obtain ⟨seeds, hseeds, hmake⟩ := bind_eq_ok.mp hmake
    cases hmake
    exact ⟨⟨rfl, rfl, rfl⟩, hsh, hseeds, rfl, rfl⟩
  · obtain ⟨nh, nb, sd, sh, tw, cs, hs⟩ := f
    rintro ⟨⟨rfl, rfl, rfl⟩, hsh, hseeds, rfl, rfl⟩
    change computeSeedHash sd = .ok sh at hsh
    change makeHashSeeds sd nh = .ok hs at hseeds
    rw [make, hsh, ok_bind, hseeds]
    rfl

/-- A new sketch is in shape and counts nothing. -/
theorem withSeed_spec {numHashes : UInt8} {numBuckets : UInt32} {seed : UInt64}
    (hnew : withSeed numHashes numBuckets seed = .ok f) :
    f.Shaped ∧ f.totalWeight = .zero ∧ ∀ c ∈ f.counts, c = .zero := by
  obtain ⟨entries, hentries, hmake⟩ := bind_eq_ok.mp hnew
  obtain ⟨⟨rfl, rfl, rfl⟩, hsh, hseeds, htotal, hcounts⟩ := make_eq_ok.mp hmake
  obtain ⟨seeds, hseeds', hlen⟩ := hashSeedsFrom_total f.seed 0 f.numHashes.toNat
  have hsame : seeds = f.hashSeeds := Except.ok.inj (hseeds'.symm.trans hseeds)
  have heq := (entriesForConfig_eq_ok.mp hentries).2
  refine ⟨⟨?_, heq ▸ hentries, hsh, hseeds, hsame ▸ hlen⟩, htotal, fun c hc ↦ ?_⟩
  · rw [hcounts, List.length_replicate, heq]
  · rw [hcounts] at hc
    exact List.eq_of_mem_replicate hc

/-- The shape is that of the configuration. -/
theorem Shaped.of_sameConfig (hf : f.Shaped) (hfg : SameConfig f g)
    (hlen : g.counts.length = f.counts.length) : g.Shaped where
  length_eq := by rw [hlen, hf.length_eq, hfg.1, hfg.2]
  config := by rw [← hfg.1, ← hfg.2]; exact hf.config
  seedHash_eq := by rw [← hfg.3, ← hfg.4]; exact hf.seedHash_eq
  hashSeeds_eq := by rw [← hfg.3, ← hfg.1, ← hfg.5]; exact hf.hashSeeds_eq
  length_seeds := by rw [← hfg.5, ← hfg.1]; exact hf.length_seeds

theorem Shaped.numBuckets_pos (hf : f.Shaped) : 0 < f.numBuckets.toNat := by
  have hge := (entriesForConfig_eq_ok.mp hf.config).1.2.1
  have hle : (3 : UInt32).toNat ≤ f.numBuckets.toNat := UInt32.le_iff_toNat_le.mp hge
  exact (show 0 < (3 : UInt32).toNat by decide).trans_le hle

/-- Sketches of one number of hash functions, of buckets and seed have one configuration. -/
theorem Shaped.sameConfig (hf : f.Shaped) (hg : g.Shaped) (hh : f.numHashes = g.numHashes)
    (hb : f.numBuckets = g.numBuckets) (hs : f.seed = g.seed) : SameConfig f g where
  numHashes_eq := hh
  numBuckets_eq := hb
  seed_eq := hs
  seedHash_eq := Except.ok.inj (hf.seedHash_eq.symm.trans (hs ▸ hg.seedHash_eq))
  hashSeeds_eq := Except.ok.inj (hf.hashSeeds_eq.symm.trans (hs ▸ hh ▸ hg.hashSeeds_eq))

/-- A sketch is its configuration and its counters. -/
theorem SameConfig.ext (hfg : SameConfig f g) (htotal : f.totalWeight = g.totalWeight)
    (hcounts : f.counts = g.counts) : f = g := by
  obtain ⟨nh, nb, sd, sh, tw, cs, hs⟩ := f
  obtain ⟨nh', nb', sd', sh', tw', cs', hs'⟩ := g
  obtain ⟨rfl, rfl, rfl, rfl, rfl⟩ := hfg
  cases htotal
  cases hcounts
  rfl

/-! ## The counters of an item -/

/-- The counter at an index. -/
def countAt (counts : List (CountMinValue t)) (i : ℕ) : ℤ := (counts.getD i .zero).val

/-- The total dominates every counter. -/
def Dominated (f : CountMinSketch t) : Prop := ∀ c ∈ f.counts, |c.val| ≤ f.totalWeight.val

section Items

variable {T : Type} [Hash T]

/-- Whether an item is counted in bucket `b` of the row at position `r` of `seeds`. -/
def hit (numBuckets : UInt32) (item : T) (seeds : List UInt64) (r b : ℕ) : Bool :=
  (seeds[r]?).any fun seed ↦ bucketIndex numBuckets item seed = .ok b

/-- Whether an item is counted by the counter at index `i`. -/
def hits (f : CountMinSketch t) (item : T) (i : ℕ) : Bool :=
  hit f.numBuckets item f.hashSeeds (i / f.numBuckets.toNat) (i % f.numBuckets.toNat)

theorem SameConfig.hits_eq (hfg : SameConfig f g) (item : T) (i : ℕ) :
    f.hits item i = g.hits item i := by
  rw [hits, hits, hfg.numBuckets_eq, hfg.hashSeeds_eq]

theorem bucketIndex_total (numBuckets : UInt32) (hpos : 0 < numBuckets.toNat) (item : T)
    (seed : UInt64) : ∃ b, bucketIndex numBuckets item seed = .ok b ∧ b < numBuckets.toNat := by
  obtain ⟨h1, hh⟩ := hash64_total seed item
  refine ⟨(h1 % numBuckets.toUInt64).toNat, by rw [bucketIndex, hh]; rfl, ?_⟩
  rw [UInt64.toNat_mod, UInt32.toNat_toUInt64]
  exact Nat.mod_lt _ hpos

theorem countAt_set {counts : List (CountMinValue t)} {index : ℕ} (h : index < counts.length)
    (sum : CountMinValue t) (i : ℕ) :
    countAt (counts.set index sum) i = if i = index then sum.val else countAt counts i := by
  unfold countAt
  split_ifs with hi
  · rw [hi, List.getD_eq_getElem _ _ (by rw [List.length_set]; exact h), List.getElem_set_self]
  · rw [List.getD_eq_getElem?_getD, List.getElem?_set_ne (Ne.symm hi), ← List.getD_eq_getElem?_getD]

/-- A row and a bucket in it make an index. -/
theorem index_div_mod (row : ℕ) {nb bucket : ℕ} (h : bucket < nb) :
    (row * nb + bucket) / nb = row ∧ (row * nb + bucket) % nb = bucket := by
  rw [Nat.mul_comm]
  exact ⟨by rw [Nat.mul_add_div (by omega), Nat.div_eq_of_lt h, Nat.add_zero],
    by rw [Nat.mul_add_mod, Nat.mod_eq_of_lt h]⟩

/-- The weight goes to the counters that count the item. -/
theorem addWeights_eq_ok {numBuckets : UInt32} (hpos : 0 < numBuckets.toNat) {item : T}
    {weight : CountMinValue t} {row : ℕ} {seeds : List UInt64}
    {counts counts' : List (CountMinValue t)}
    (hok : addWeights numBuckets item weight row seeds counts = .ok counts') :
    counts'.length = counts.length ∧ ∀ i < counts.length,
      countAt counts' i = countAt counts i + if row ≤ i / numBuckets.toNat ∧
        hit numBuckets item seeds (i / numBuckets.toNat - row) (i % numBuckets.toNat) = true
      then weight.val else 0 := by
  induction seeds generalizing row counts with
  | nil =>
      cases hok
      refine ⟨rfl, fun i _ ↦ ?_⟩
      rw [if_neg (fun h ↦ Bool.false_ne_true h.2), add_zero]
  | cons seed seeds ih =>
      obtain ⟨bucket, hbucket, hlt⟩ := bucketIndex_total numBuckets hpos item seed
      simp only [addWeights, hbucket, ok_bind] at hok
      obtain ⟨hdiv, hmod⟩ := index_div_mod row hlt
      cases hget : counts[row * numBuckets.toNat + bucket]? with
      | none =>
          rw [hget] at hok
          cases hok
      | some count =>
          rw [hget] at hok
          obtain ⟨sum, hsum, hok⟩ := bind_eq_ok.mp hok
          obtain ⟨hindex, hcount⟩ := List.getElem?_eq_some_iff.mp hget
          obtain ⟨hlen, hrest⟩ := ih hok
          rw [List.length_set] at hlen hrest
          refine ⟨hlen, fun i hi ↦ ?_⟩
          rw [hrest i hi, countAt_set hindex]
          have hsumval := CountMinValue.add_eq_ok.mp hsum
          rcases Nat.lt_trichotomy (i / numBuckets.toNat) row with hrow | hrow | hrow
          · have hne : i ≠ row * numBuckets.toNat + bucket := by
              rintro rfl
              omega
            rw [if_neg hne, if_neg (by omega), if_neg (by omega)]
          · have hnot : ¬ (row + 1 ≤ i / numBuckets.toNat ∧ hit numBuckets item seeds
                (i / numBuckets.toNat - (row + 1)) (i % numBuckets.toNat) = true) := by
              rintro ⟨hle, -⟩
              omega
            rw [if_neg hnot, add_zero]
            have hcond : (row ≤ i / numBuckets.toNat ∧ hit numBuckets item (seed :: seeds)
                (i / numBuckets.toNat - row) (i % numBuckets.toNat) = true) ↔
                  i = row * numBuckets.toNat + bucket := by
              rw [hrow, Nat.sub_self, hit, List.getElem?_cons_zero, Option.any_some, hbucket,
                decide_eq_true_eq, Except.ok.injEq]
              constructor
              · rintro ⟨-, hb⟩
                rw [← hrow, hb, Nat.mul_comm, Nat.div_add_mod]
              · rintro rfl
                exact ⟨le_rfl, hmod.symm⟩
            rw [if_congr hcond rfl rfl]
            split_ifs with hi'
            · have hold : countAt counts i = count.val := by
                rw [countAt, hi', List.getD_eq_getElem _ _ hindex, hcount]
              rw [hsumval, hold]
            · rw [add_zero]
          · have hne : i ≠ row * numBuckets.toNat + bucket := by
              rintro rfl
              omega
            rw [if_neg hne]
            have hsub : i / numBuckets.toNat - row = (i / numBuckets.toNat - (row + 1)) + 1 := by
              omega
            rw [hsub, hit, hit, List.getElem?_cons_succ]
            exact congrArg _ (if_congr (and_congr_left fun _ ↦ by omega) rfl rfl)

/-- Small enough counters do not overflow. -/
theorem addWeights_total {numBuckets : UInt32} (hpos : 0 < numBuckets.toNat) {item : T}
    {weight : CountMinValue t} {m : ℤ} (hm : m + |weight.val| ≤ t.max) {row : ℕ}
    {seeds : List UInt64} {counts : List (CountMinValue t)}
    (hlen : counts.length = (row + seeds.length) * numBuckets.toNat)
    (hle : ∀ i, row ≤ i / numBuckets.toNat → |countAt counts i| ≤ m) :
    ∃ counts', addWeights numBuckets item weight row seeds counts = .ok counts' := by
  induction seeds generalizing row counts with
  | nil => exact ⟨counts, rfl⟩
  | cons seed seeds ih =>
      obtain ⟨bucket, hbucket, hlt⟩ := bucketIndex_total numBuckets hpos item seed
      obtain ⟨hdiv, hmod⟩ := index_div_mod row hlt
      rw [List.length_cons] at hlen
      have hindex : row * numBuckets.toNat + bucket < counts.length := by
        rw [hlen, Nat.add_mul, Nat.add_mul]
        omega
      have hold : countAt counts (row * numBuckets.toNat + bucket) =
          (counts[row * numBuckets.toNat + bucket]).val := by
        rw [countAt, List.getD_eq_getElem _ _ hindex]
      obtain ⟨sum, hsum⟩ := CountMinValue.add_total (hold ▸ hle _ hdiv.ge) hm
      obtain ⟨counts', hok⟩ := @ih (row + 1)
        (counts.set (row * numBuckets.toNat + bucket) sum)
        (by rw [List.length_set, hlen]; ring)
        (fun i hi ↦ by
          rw [countAt_set hindex, if_neg (by rintro rfl; omega)]
          exact hle i (by omega))
      refine ⟨counts', ?_⟩
      rw [addWeights, hbucket, ok_bind]
      simp only [List.getElem?_eq_getElem hindex, hsum, ok_bind, hok]

/-- The estimate is the least of the counters that count the item. -/
theorem minFrom_spec (hf : f.Shaped) {item : T} {row : ℕ} {seeds : List UInt64}
    (hlen : f.counts.length = (row + seeds.length) * f.numBuckets.toNat)
    (least : CountMinValue t) :
    ∃ e, f.minFrom item row seeds least = .ok e ∧ ∀ x : ℤ, x ≤ e.val ↔ x ≤ least.val ∧
      ∀ i, row ≤ i / f.numBuckets.toNat →
        hit f.numBuckets item seeds (i / f.numBuckets.toNat - row) (i % f.numBuckets.toNat) = true →
          x ≤ countAt f.counts i := by
  induction seeds generalizing row least with
  | nil => exact ⟨least, rfl, fun x ↦ (and_iff_left fun i _ h ↦ absurd h Bool.false_ne_true).symm⟩
  | cons seed seeds ih =>
      obtain ⟨bucket, hbucket, hlt⟩ := bucketIndex_total f.numBuckets hf.numBuckets_pos item seed
      obtain ⟨hdiv, hmod⟩ := index_div_mod row hlt
      rw [List.length_cons] at hlen
      have hindex : row * f.numBuckets.toNat + bucket < f.counts.length := by
        rw [hlen, Nat.add_mul, Nat.add_mul]
        omega
      have hold : countAt f.counts (row * f.numBuckets.toNat + bucket) =
          (f.counts[row * f.numBuckets.toNat + bucket]).val := by
        rw [countAt, List.getD_eq_getElem _ _ hindex]
      obtain ⟨e, hok, he⟩ := @ih (row + 1) (by rw [hlen]; ring)
        (if (f.counts[row * f.numBuckets.toNat + bucket]).val < least.val then
          f.counts[row * f.numBuckets.toNat + bucket] else least)
      refine ⟨e, ?_, fun x ↦ ?_⟩
      · rw [minFrom, hbucket, ok_bind]
        simp only [List.getElem?_eq_getElem hindex, hok]
      · have hmin : x ≤ (if (f.counts[row * f.numBuckets.toNat + bucket]).val < least.val then
            f.counts[row * f.numBuckets.toNat + bucket] else least).val ↔
              x ≤ least.val ∧ x ≤ countAt f.counts (row * f.numBuckets.toNat + bucket) := by
          rw [hold]
          split_ifs with hlt' <;> constructor <;> intro h <;> omega
        rw [he, hmin, and_assoc]
        refine and_congr_right fun _ ↦ ⟨?_, ?_⟩
        · rintro ⟨hx, hrest⟩ i hi hhit
          rcases Nat.eq_or_lt_of_le hi with hrow | hrow
          · rw [← hrow, Nat.sub_self, hit, List.getElem?_cons_zero, Option.any_some, hbucket,
              decide_eq_true_eq, Except.ok.injEq] at hhit
            have hi' : i = row * f.numBuckets.toNat + bucket := by
              rw [hhit, hrow, Nat.mul_comm, Nat.div_add_mod]
            exact hi' ▸ hx
          · refine hrest i hrow ?_
            rwa [show i / f.numBuckets.toNat - row = (i / f.numBuckets.toNat - (row + 1)) + 1 by omega,
              hit, List.getElem?_cons_succ] at hhit
        · intro hall
          refine ⟨hall _ hdiv.ge ?_, fun i hi hhit ↦ hall i (by omega) ?_⟩
          · rw [hdiv, hmod, Nat.sub_self, hit, List.getElem?_cons_zero, Option.any_some, hbucket]
            exact decide_eq_true rfl
          · rwa [show i / f.numBuckets.toNat - row = (i / f.numBuckets.toNat - (row + 1)) + 1 by omega,
              hit, List.getElem?_cons_succ]

/-! ## What the operations do -/

theorem updateWithWeight_eq_ok (hf : f.Shaped) {item : T} {weight : CountMinValue t}
    (hok : f.updateWithWeight item weight = .ok g) :
    SameConfig f g ∧ g.counts.length = f.counts.length ∧
      g.totalWeight.val = f.totalWeight.val + |weight.val| ∧ ∀ i < f.counts.length,
        countAt g.counts i = countAt f.counts i + if f.hits item i = true then weight.val else 0 := by
  unfold updateWithWeight at hok
  split_ifs at hok with hzero
  · cases hok
    refine ⟨SameConfig.refl f, rfl, by simp [hzero], fun i _ ↦ by simp [hzero]⟩
  · obtain ⟨a, habs, hok⟩ := bind_eq_ok.mp hok
    obtain ⟨total, htotal, hok⟩ := bind_eq_ok.mp hok
    obtain ⟨counts, hcounts, hok⟩ := bind_eq_ok.mp hok
    cases hok
    obtain ⟨hlen, hval⟩ := addWeights_eq_ok hf.numBuckets_pos hcounts
    refine ⟨⟨rfl, rfl, rfl, rfl, rfl⟩, hlen, ?_, fun i hi ↦ ?_⟩
    · rw [CountMinValue.add_eq_ok.mp htotal, CountMinValue.abs_eq_ok.mp habs]
    · rw [hval i hi, Nat.sub_zero]
      exact congrArg _ (if_congr (and_iff_right (Nat.zero_le _)) rfl rfl)

/-- An update succeeds if the total does not overflow. -/
theorem updateWithWeight_total (hf : f.Shaped) (hdom : f.Dominated) (item : T)
    {weight : CountMinValue t} (hpos : 0 ≤ f.totalWeight.val)
    (hroom : f.totalWeight.val + |weight.val| ≤ t.max) :
    ∃ g, f.updateWithWeight item weight = .ok g := by
  unfold updateWithWeight
  split_ifs with hzero
  · exact ⟨f, rfl⟩
  · obtain ⟨a, habs⟩ := CountMinValue.abs_total (show |weight.val| ≤ t.max by linarith)
    have ha := CountMinValue.abs_eq_ok.mp habs
    obtain ⟨total, htotal⟩ := CountMinValue.add_total (abs_of_nonneg hpos).le
      (show f.totalWeight.val + |a.val| ≤ t.max by rw [ha, abs_abs]; exact hroom)
    obtain ⟨counts, hcounts⟩ := @addWeights_total t T _ f.numBuckets hf.numBuckets_pos item weight
      f.totalWeight.val hroom 0 f.hashSeeds f.counts
      (by rw [hf.length_eq, hf.length_seeds, Nat.zero_add]) (fun i _ ↦ by
        unfold countAt
        rcases Nat.lt_or_ge i f.counts.length with hi | hi
        · rw [List.getD_eq_getElem _ _ hi]
          exact hdom _ (List.getElem_mem hi)
        · rw [List.getD_eq_default _ _ hi, CountMinValue.val_zero, abs_zero]
          exact hpos)
    exact ⟨_, by rw [habs, ok_bind, htotal, ok_bind, hcounts]; rfl⟩

/-- The estimate is the least of the counters that count the item. -/
theorem estimate_spec (hf : f.Shaped) (item : T) :
    ∃ e, f.estimate item = .ok e ∧ ∀ x : ℤ, x ≤ e.val ↔ x ≤ t.max ∧
      ∀ i, f.hits item i = true → x ≤ countAt f.counts i := by
  obtain ⟨e, hok, he⟩ := @minFrom_spec t f T _ hf item 0 f.hashSeeds
    (by rw [hf.length_eq, hf.length_seeds, Nat.zero_add]) .maxValue
  refine ⟨e, hok, fun x ↦ (he x).trans (and_congr_right fun _ ↦ forall_congr' fun i ↦ ?_)⟩
  rw [Nat.sub_zero]
  exact forall_prop_of_true (Nat.zero_le _)

end Items

theorem addCounts_eq_ok {as bs cs : List (CountMinValue t)} (hlen : as.length = bs.length)
    (hok : addCounts as bs = .ok cs) :
    cs.length = as.length ∧ ∀ i, countAt cs i = countAt as i + countAt bs i := by
  induction as generalizing bs cs with
  | nil =>
      obtain rfl := List.length_eq_zero_iff.mp hlen.symm
      cases hok
      exact ⟨rfl, fun i ↦ rfl⟩
  | cons a as ih =>
      cases bs with
      | nil => cases hlen
      | cons b bs =>
          obtain ⟨sum, hsum, hok⟩ := bind_eq_ok.mp hok
          obtain ⟨cs', hcs, hok⟩ := bind_eq_ok.mp hok
          cases hok
          obtain ⟨hlen', hval⟩ := ih (Nat.succ_injective hlen) hcs
          refine ⟨congrArg (· + 1) hlen', fun i ↦ ?_⟩
          cases i with
          | zero => exact CountMinValue.add_eq_ok.mp hsum
          | succ i => exact hval i

theorem merge_eq_ok (hf : f.Shaped) (hg : g.Shaped) (hok : f.merge g = .ok h) :
    SameConfig f g ∧ SameConfig f h ∧ h.counts.length = f.counts.length ∧
      h.totalWeight.val = f.totalWeight.val + g.totalWeight.val ∧
      ∀ i, countAt h.counts i = countAt f.counts i + countAt g.counts i := by
  obtain ⟨hh, hok⟩ := assert_bind_eq_ok.mp hok
  obtain ⟨hb, hok⟩ := assert_bind_eq_ok.mp hok
  obtain ⟨hs, hok⟩ := assert_bind_eq_ok.mp hok
  obtain ⟨hlen, hok⟩ := assert_bind_eq_ok.mp hok
  obtain ⟨counts, hcounts, hok⟩ := bind_eq_ok.mp hok
  obtain ⟨total, htotal, hok⟩ := bind_eq_ok.mp hok
  cases hok
  obtain ⟨hlen', hval⟩ := addCounts_eq_ok hlen hcounts
  exact ⟨hf.sameConfig hg hh hb hs, ⟨rfl, rfl, rfl, rfl, rfl⟩, hlen',
    CountMinValue.add_eq_ok.mp htotal, hval⟩

theorem countAt_map {p : CountMinValue t → CountMinValue t} (hp : p .zero = .zero)
    (counts : List (CountMinValue t)) (i : ℕ) :
    countAt (counts.map p) i = (p (counts.getD i .zero)).val := by
  unfold countAt
  rw [List.getD_eq_getElem?_getD, List.getElem?_map, List.getD_eq_getElem?_getD]
  cases counts[i]? with
  | none => exact congrArg CountMinValue.val hp.symm
  | some c => rfl

/-- The counters decide whether two sketches are the same. -/
theorem counts_ext {as bs : List (CountMinValue t)} (hlen : as.length = bs.length)
    (h : ∀ i < as.length, countAt as i = countAt bs i) : as = bs := by
  apply List.ext_getElem hlen
  intro i hi hi'
  have hi'' := h i hi
  unfold countAt at hi''
  rw [List.getD_eq_getElem _ _ hi, List.getD_eq_getElem _ _ hi'] at hi''
  exact CountMinValue.ext hi''

end CountMinSketch

end DataSketches
