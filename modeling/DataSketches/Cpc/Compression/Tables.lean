import DataSketches.Cpc.Compression

/-!
# Code tables from their encoding tables

A decoding table is determined by its encoding table: it lists, for every 12 bits,
the symbol whose code word comes first.  What `PrefixCode` asks for can then be
checked on the encoding table.
-/

namespace DataSketches

namespace Cpc

open BitFields

/-- The bits `v` begin with the code word of the entry. -/
def begins (codeInfo v : ℕ) : Bool := Nat.beq (v % 2 ^ (codeInfo >>> 12)) (codeInfo &&& 0xfff)

theorem begins_iff {codeInfo v : ℕ} : begins codeInfo v = true ↔ Starts (codeWord codeInfo) v :=
  Nat.beq_eq ▸ Iff.rfl

/-- The decoding entry of the first symbol of the table, numbered from `symbol`, that begins `v`. -/
def findSymbol (v : ℕ) : List ℕ → ℕ → ℕ
  | [], _ => 0
  | codeInfo :: table, symbol =>
      bif begins codeInfo v then (codeInfo >>> 12) <<< 8 ||| symbol
      else findSymbol v table (symbol + 1)

/-- The decoding table of an encoding table. -/
def decodingTableOf (encodingTable : List ℕ) : List ℕ :=
  (List.range 4096).map fun v ↦ findSymbol v encodingTable 0

/-- No code word of the table is the beginning of another one. -/
def apart : List ℕ → Bool
  | [] => true
  | c :: table =>
      table.all (fun d ↦ !begins c (d &&& 0xfff) && !begins d (c &&& 0xfff)) && apart table

variable {table : List ℕ} {v : ℕ}

theorem pairwise_of_apart (h : apart table = true) :
    table.Pairwise fun c d ↦
      ¬ Starts (codeWord c) (codeWord d).value ∧ ¬ Starts (codeWord d) (codeWord c).value := by
  induction table with
  | nil => exact List.Pairwise.nil
  | cons c table ih =>
      rw [apart, Bool.and_eq_true, List.all_eq_true] at h
      refine List.pairwise_cons.mpr ⟨fun d hd ↦ ?_, ih h.2⟩
      have hapart := h.1 d hd
      rw [Bool.and_eq_true, Bool.not_eq_true', Bool.not_eq_true'] at hapart
      constructor
      · intro hstarts
        exact absurd (begins_iff.mpr hstarts) (Bool.not_eq_true _ ▸ hapart.1)
      · intro hstarts
        exact absurd (begins_iff.mpr hstarts) (Bool.not_eq_true _ ▸ hapart.2)

theorem prefixFree_of_apart (h : apart table = true) :
    PrefixFree fun s : Fin table.length ↦ codeWord (table.get s) := by
  intro s t _ hstarts
  have hpairwise := List.pairwise_iff_get.mp (pairwise_of_apart h)
  rcases Nat.lt_trichotomy s.val t.val with hlt | heq | hgt
  · exact absurd hstarts (hpairwise s t hlt).1
  · exact Fin.ext heq
  · exact absurd hstarts (hpairwise t s hgt).2

/-- The search finds a symbol whose code word begins `v`. -/
theorem findSymbol_spec (h : table.any (begins · v) = true) (symbol : ℕ) :
    ∃ i codeInfo, table[i]? = some codeInfo ∧ begins codeInfo v = true ∧
      findSymbol v table symbol = (codeInfo >>> 12) <<< 8 ||| (symbol + i) := by
  induction table generalizing symbol with
  | nil => cases h
  | cons c table ih =>
      rw [findSymbol]
      cases hbegins : begins c v with
      | true => exact ⟨0, c, rfl, hbegins, rfl⟩
      | false =>
          rw [List.any_cons, hbegins, Bool.false_or] at h
          obtain ⟨i, codeInfo, hget, hbegins', heq⟩ := ih h (symbol + 1)
          refine ⟨i + 1, codeInfo, hget, hbegins', ?_⟩
          rw [cond_false, heq, Nat.add_assoc, Nat.add_comm 1 i]

theorem validateDecodingTable_of_complete (hlength : table.length ≤ 256)
    (h : ∀ v < 4096, table.any (begins · v) = true) :
    validateDecodingTable (decodingTableOf table) table := by
  intro v hv
  obtain ⟨i, codeInfo, hget, hbegins, heq⟩ := findSymbol_spec (h v hv) 0
  obtain ⟨hi, -⟩ := List.getElem?_eq_some_iff.mp hget
  have hi' : i < 2 ^ 8 := hi.trans_le hlength
  have hlookup : (codeInfo >>> 12) <<< 8 ||| (0 + i) = (codeInfo >>> 12) * 2 ^ 8 + i := by
    rw [Nat.zero_add, ← Nat.shiftLeft_add_eq_or_of_lt hi', Nat.shiftLeft_eq]
  refine ⟨findSymbol v table 0, ?_, codeInfo, ?_, ?_, begins_iff.mp hbegins⟩
  · rw [decodingTableOf, List.getElem?_map, List.getElem?_range hv]
    rfl
  · rw [heq, hlookup, show 0xff = 2 ^ 8 - 1 from rfl, Nat.and_two_pow_sub_one_eq_mod,
      Nat.mul_add_mod_self_right, Nat.mod_eq_of_lt hi', hget]
  · rw [heq, hlookup, Nat.shiftRight_eq_div_pow, Nat.mul_comm,
      Nat.mul_add_div (Nat.two_pow_pos 8), Nat.div_eq_of_lt hi', Nat.add_zero]
    rfl

/-- The code of an encoding table whose words are apart and begin every 12 bits. -/
def PrefixCode.ofEncodingTable {n : ℕ} (table : List ℕ) (hlength : table.length = n) (hn : n ≤ 256)
    (hwords : ∀ c ∈ table, (codeWord c).width ≤ 12 ∧ (codeWord c).Fits)
    (hapart : apart table = true)
    (hcomplete : (List.range 4096).all (fun v ↦ table.any (begins · v)) = true) : PrefixCode n where
  encodingTable := table
  decodingTable := decodingTableOf table
  length_eq := hlength
  width_le c hc := (hwords c hc).1
  fits c hc := (hwords c hc).2
  prefixFree := prefixFree_of_apart hapart
  validated := validateDecodingTable_of_complete (hlength.trans_le hn) fun v hv ↦
    List.all_eq_true.mp hcomplete v (List.mem_range.mpr hv)

/-- `LENGTH_LIMITED_UNARY_ENCODING_TABLE65` -/
def lengthLimitedUnaryEncodingTable65 : List ℕ :=
  [0x1000, 0x2001, 0x3003, 0x4007, 0x500f, 0x701f, 0x805f, 0x80df, 0xa03f, 0xa23f, 0xb13f,
    0xc53f, 0xcd3f, 0xc33f, 0xcb3f, 0xc73f, 0xcf3f, 0xc0bf, 0xc8bf, 0xc4bf, 0xccbf, 0xc2bf,
    0xcabf, 0xc6bf, 0xcebf, 0xc1bf, 0xc9bf, 0xc5bf, 0xcdbf, 0xc3bf, 0xcbbf, 0xc7bf, 0xcfbf,
    0xc07f, 0xc87f, 0xc47f, 0xcc7f, 0xc27f, 0xca7f, 0xc67f, 0xce7f, 0xc17f, 0xc97f, 0xc57f,
    0xcd7f, 0xc37f, 0xcb7f, 0xc77f, 0xcf7f, 0xc0ff, 0xc8ff, 0xc4ff, 0xccff, 0xc2ff, 0xcaff,
    0xc6ff, 0xceff, 0xc1ff, 0xc9ff, 0xc5ff, 0xcdff, 0xc3ff, 0xcbff, 0xc7ff, 0xcfff]

/-- `ENCODING_TABLES_FOR_HIGH_ENTROPY_BYTE[16]` -/
def encodingTableForPhase16 : List ℕ :=
  [0x1000, 0x2001, 0x4003, 0x500b, 0x501b, 0x6007, 0x8057, 0x9077, 0x6027, 0x80d7, 0x9177,
    0xa1f7, 0xa3f7, 0xb08f, 0xc58f, 0xcd8f, 0x7017, 0x8037, 0xa00f, 0xb48f, 0xb28f, 0xc38f,
    0xcb8f, 0xc78f, 0xcf8f, 0xc04f, 0xc84f, 0xc44f, 0xcc4f, 0xc24f, 0xca4f, 0xc64f, 0x80b7,
    0xa20f, 0xb68f, 0xce4f, 0xc14f, 0xc94f, 0xc54f, 0xcd4f, 0xc34f, 0xcb4f, 0xc74f, 0xcf4f,
    0xc0cf, 0xc8cf, 0xc4cf, 0xcccf, 0xc2cf, 0xcacf, 0xc6cf, 0xcecf, 0xc1cf, 0xc9cf, 0xc5cf,
    0xcdcf, 0xc3cf, 0xcbcf, 0xc7cf, 0xcfcf, 0xc02f, 0xc82f, 0xc42f, 0xcc2f, 0x90f7, 0xa10f,
    0xc22f, 0xca2f, 0xc62f, 0xce2f, 0xc12f, 0xc92f, 0xc52f, 0xcd2f, 0xc32f, 0xcb2f, 0xc72f,
    0xcf2f, 0xc0af, 0xc8af, 0xc4af, 0xccaf, 0xc2af, 0xcaaf, 0xc6af, 0xceaf, 0xc1af, 0xc9af,
    0xc5af, 0xcdaf, 0xc3af, 0xcbaf, 0xc7af, 0xcfaf, 0xc06f, 0xc86f, 0xc46f, 0xcc6f, 0xc26f,
    0xca6f, 0xc66f, 0xce6f, 0xc16f, 0xc96f, 0xc56f, 0xcd6f, 0xc36f, 0xcb6f, 0xc76f, 0xcf6f,
    0xc0ef, 0xc8ef, 0xc4ef, 0xccef, 0xc2ef, 0xcaef, 0xc6ef, 0xceef, 0xc1ef, 0xc9ef, 0xc5ef,
    0xcdef, 0xc3ef, 0xcbef, 0xc7ef, 0xcfef, 0xc01f, 0xc81f, 0xa30f, 0xb18f, 0xc41f, 0xcc1f,
    0xc21f, 0xca1f, 0xc61f, 0xce1f, 0xc11f, 0xc91f, 0xc51f, 0xcd1f, 0xc31f, 0xcb1f, 0xc71f,
    0xcf1f, 0xc09f, 0xc89f, 0xc49f, 0xcc9f, 0xc29f, 0xca9f, 0xc69f, 0xce9f, 0xc19f, 0xc99f,
    0xc59f, 0xcd9f, 0xc39f, 0xcb9f, 0xc79f, 0xcf9f, 0xc05f, 0xc85f, 0xc45f, 0xcc5f, 0xc25f,
    0xca5f, 0xc65f, 0xce5f, 0xc15f, 0xc95f, 0xc55f, 0xcd5f, 0xc35f, 0xcb5f, 0xc75f, 0xcf5f,
    0xc0df, 0xc8df, 0xc4df, 0xccdf, 0xc2df, 0xcadf, 0xc6df, 0xcedf, 0xc1df, 0xc9df, 0xc5df,
    0xcddf, 0xc3df, 0xcbdf, 0xc7df, 0xcfdf, 0xc03f, 0xc83f, 0xc43f, 0xcc3f, 0xc23f, 0xca3f,
    0xc63f, 0xce3f, 0xc13f, 0xc93f, 0xc53f, 0xcd3f, 0xc33f, 0xcb3f, 0xc73f, 0xcf3f, 0xc0bf,
    0xc8bf, 0xc4bf, 0xccbf, 0xc2bf, 0xcabf, 0xc6bf, 0xcebf, 0xc1bf, 0xc9bf, 0xc5bf, 0xcdbf,
    0xc3bf, 0xcbbf, 0xc7bf, 0xcfbf, 0xc07f, 0xc87f, 0xc47f, 0xcc7f, 0xc27f, 0xca7f, 0xc67f,
    0xce7f, 0xc17f, 0xc97f, 0xc57f, 0xcd7f, 0xc37f, 0xcb7f, 0xc77f, 0xcf7f, 0xc0ff, 0xc8ff,
    0xc4ff, 0xccff, 0xc2ff, 0xcaff, 0xc6ff, 0xceff, 0xc1ff, 0xc9ff, 0xc5ff, 0xcdff, 0xc3ff,
    0xcbff, 0xc7ff, 0xcfff]

set_option maxRecDepth 10000 in
def lengthLimitedUnaryCode : PrefixCode 65 :=
  .ofEncodingTable lengthLimitedUnaryEncodingTable65 rfl (by decide) (by decide +kernel)
    (by decide +kernel) (by decide +kernel)

set_option maxRecDepth 10000 in
def codeForPhase16 : PrefixCode 256 :=
  .ofEncodingTable encodingTableForPhase16 rfl (by decide) (by decide +kernel)
    (by decide +kernel) (by decide +kernel)

/-- Tables that are those of `compression_data` for pairs and in the pseudo phase 16. -/
def tablesForPhase16 : CompressionData := ⟨lengthLimitedUnaryCode, List.replicate 22 codeForPhase16, rfl⟩

end Cpc

end DataSketches
