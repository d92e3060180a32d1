import Mathlib

/-!
# Little-endian numbers

A number is written as a fixed count of bytes, the least significant one first,
and read back from any list of bytes.  Writing truncates, so the round trip
holds modulo `256 ^ n`, and for a number that fits it is exact.
-/

namespace LittleEndian

/-- The `n` low bytes of `x`, least significant first. -/
def leBytes : ℕ → ℕ → List UInt8
  | 0, _ => []
  | n + 1, x => UInt8.ofNat x :: leBytes n (x / 256)

/-- The number a list of bytes stands for, least significant byte first. -/
def leNat : List UInt8 → ℕ
  | [] => 0
  | b :: bs => b.toNat + 256 * leNat bs

@[simp] theorem length_leBytes (n x : ℕ) : (leBytes n x).length = n := by
  induction n generalizing x with
  | zero => rfl
  | succ n ih => simp [leBytes, ih]

/-- A number read from `n` bytes is below `256 ^ n`. -/
theorem leNat_lt (bs : List UInt8) : leNat bs < 256 ^ bs.length := by
  induction bs with
  | nil => simp [leNat]
  | cons b bs ih =>
      have hb := b.toNat_lt
      rw [leNat, List.length_cons, pow_succ]
      omega

/-- Reading what was written gives the number modulo the written width. -/
theorem leNat_leBytes (n x : ℕ) : leNat (leBytes n x) = x % 256 ^ n := by
  induction n generalizing x with
  | zero => simp [leBytes, leNat, Nat.mod_one]
  | succ n ih =>
      rw [leBytes, leNat, ih, UInt8.toNat_ofNat', Nat.pow_succ' (n := n), Nat.mod_mul]

/-- A number that fits is read back. -/
theorem leNat_leBytes_of_lt {n x : ℕ} (h : x < 256 ^ n) : leNat (leBytes n x) = x := by
  rw [leNat_leBytes, Nat.mod_eq_of_lt h]

/-- Writing what was read gives the bytes back. -/
theorem leBytes_leNat (bs : List UInt8) : leBytes bs.length (leNat bs) = bs := by
  induction bs with
  | nil => rfl
  | cons b bs ih =>
      have hb := b.toNat_lt
      have hdiv : (b.toNat + 256 * leNat bs) / 256 = leNat bs := by omega
      have hmod : UInt8.ofNat (b.toNat + 256 * leNat bs) = b := by
        apply UInt8.toNat_inj.mp
        rw [UInt8.toNat_ofNat']
        omega
      rw [leNat, List.length_cons, leBytes, hdiv, ih, hmod]

/-- Writing more bytes goes on with the higher part of the number. -/
theorem leBytes_add (m n x : ℕ) : leBytes (m + n) x = leBytes m x ++ leBytes n (x / 256 ^ m) := by
  induction m generalizing x with
  | zero => rw [Nat.zero_add, pow_zero, Nat.div_one, leBytes, List.nil_append]
  | succ m ih =>
      rw [Nat.succ_add, leBytes, leBytes, ih, List.cons_append, Nat.div_div_eq_div_mul,
        Nat.pow_succ' (n := m)]

/-- Writing keeps the low bytes only. -/
theorem leBytes_mod (n x : ℕ) : leBytes n (x % 256 ^ n) = leBytes n x := by
  have h := leBytes_leNat (leBytes n x)
  rwa [length_leBytes, leNat_leBytes] at h

theorem leBytes_add_mul (n x y : ℕ) : leBytes n (x + 256 ^ n * y) = leBytes n x := by
  rw [← leBytes_mod, Nat.add_mul_mod_self_left, leBytes_mod]

theorem leNat_append (bs cs : List UInt8) :
    leNat (bs ++ cs) = leNat bs + 256 ^ bs.length * leNat cs := by
  induction bs with
  | nil => rw [List.nil_append, leNat, List.length_nil, pow_zero, Nat.one_mul, Nat.zero_add]
  | cons b bs ih =>
      rw [List.cons_append, leNat, leNat, ih, List.length_cons, Nat.pow_succ', Nat.mul_add,
        Nat.add_assoc, Nat.mul_assoc]

end LittleEndian
