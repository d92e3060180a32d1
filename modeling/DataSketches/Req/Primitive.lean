import DataSketches.Req.Value

/-!
# Integers as values

The integer types are ordered by `Ord::cmp` and serialized in their own width.
-/

namespace DataSketches

namespace Req

open ReqValue LittleEndian

/-- A value is read back from its bytes, whatever follows them. -/
class LawfulValue (T : Type) [ReqValue T] : Prop where
  length_eq : ∀ x : T, (serializeValue x).length = serializeSize x
  read_write : ∀ (x : T) (rest : List UInt8), deserializeValue (serializeValue x ++ rest) = .ok (x, rest)

/-- `impl_req_value_primitive!` for an integer type of `size` bytes, given by its bits. -/
@[reducible] def primitive {T : Type} [Ord T] [Std.TransOrd T] (name : String) (size : ℕ)
    (toBits : T → ℕ) (ofBits : ℕ → T) : ReqValue T where
  totalCmp := compare
  trans := inferInstance
  isNan _ := false
  serializeSize _ := size
  serializeValue x := leBytes size (toBits x)
  deserializeValue := ofBits <$> ByteReader.readLe
    (SketchSlice.insufficientData s!"failed to read {name} from REQ sketch") size

instance : ReqValue UInt32 := primitive "u32" 4 UInt32.toNat UInt32.ofNat

instance : ReqValue UInt64 := primitive "u64" 8 UInt64.toNat UInt64.ofNat

instance : ReqValue Int32 := primitive "i32" 4 (·.toUInt32.toNat) fun n ↦ (UInt32.ofNat n).toInt32

instance : ReqValue Int64 := primitive "i64" 8 (·.toUInt64.toNat) fun n ↦ (UInt64.ofNat n).toInt64

/-- Every integer is read back if its bits are. -/
theorem lawful_primitive {T : Type} [Ord T] [Std.TransOrd T] (name : String) {size : ℕ}
    {toBits : T → ℕ} {ofBits : ℕ → T} (hlt : ∀ x, toBits x < 256 ^ size)
    (hinv : ∀ x, ofBits (toBits x) = x) :
    @LawfulValue T (primitive name size toBits ofBits) := by
  letI := primitive name size toBits ofBits
  refine ⟨fun x ↦ length_leBytes size (toBits x), fun x rest ↦ ?_⟩
  have hread := ByteReader.readLe_append (e := SketchSlice.insufficientData
    s!"failed to read {name} from REQ sketch") (hlt x) rest
  rw [show deserializeValue (serializeValue x ++ rest) = (ofBits <$> ByteReader.readLe
    (SketchSlice.insufficientData s!"failed to read {name} from REQ sketch") size)
      (leBytes size (toBits x) ++ rest) from rfl, map_eq_pure_bind, ByteReader.bind_of_ok hread, hinv]
  rfl

instance : LawfulValue UInt32 := lawful_primitive "u32" UInt32.toNat_lt fun _ ↦ UInt32.ofNat_toNat

instance : LawfulValue UInt64 := lawful_primitive "u64" UInt64.toNat_lt fun _ ↦ UInt64.ofNat_toNat

instance : LawfulValue Int32 := lawful_primitive "i32" (fun x ↦ x.toUInt32.toNat_lt) fun x ↦ by
  rw [UInt32.ofNat_toNat, Int32.toInt32_toUInt32]

instance : LawfulValue Int64 := lawful_primitive "i64" (fun x ↦ x.toUInt64.toNat_lt) fun x ↦ by
  rw [UInt64.ofNat_toNat, Int64.toInt64_toUInt64]

end Req

end DataSketches
