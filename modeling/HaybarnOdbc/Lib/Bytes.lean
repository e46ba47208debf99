import Mathlib.Data.Nat.Digits.Defs
import Mathlib.Algebra.Order.Ring.Int

/-!
# Little-endian numbers

The number that a run of bytes stands for, without a sign (`toNat`) or in two's complement
(`toInt`), and the runs that stand for a number. A number that fits is read back.
-/

namespace Bytes

/-- The number of the bytes, the least significant byte first. -/
def toNat (bytes : List UInt8) : ℕ := Nat.ofDigits 256 (bytes.map UInt8.toNat)

/-- The lowest `k` bytes of a number. -/
def ofNat : ℕ → ℕ → List UInt8
  | 0, _ => []
  | k + 1, n => UInt8.ofNat n :: ofNat k (n / 256)

@[simp] theorem length_ofNat (k n : ℕ) : (ofNat k n).length = k := by
  induction k generalizing n with
  | zero => rfl
  | succ k ih => rw [ofNat, List.length_cons, ih]

@[simp] theorem toNat_nil : toNat [] = 0 := rfl

theorem toNat_cons (b : UInt8) (bytes : List UInt8) :
    toNat (b :: bytes) = b.toNat + 256 * toNat bytes := by
  rw [toNat, List.map_cons, Nat.ofDigits_cons, toNat]

theorem toNat_append (a b : List UInt8) :
    toNat (a ++ b) = toNat a + 256 ^ a.length * toNat b := by
  rw [toNat, List.map_append, Nat.ofDigits_append, List.length_map, toNat, toNat]

theorem toNat_replicate_zero (k : ℕ) : toNat (List.replicate k 0) = 0 := by
  induction k with
  | zero => rfl
  | succ k ih => rw [List.replicate_succ, toNat_cons, ih]; rfl

/-- The bytes of a number stand for it, up to their range. -/
theorem toNat_ofNat (k n : ℕ) : toNat (ofNat k n) = n % 256 ^ k := by
  induction k generalizing n with
  | zero => rw [pow_zero, Nat.mod_one]; rfl
  | succ k ih =>
    have hmod : n % 256 ^ (k + 1) = n % 256 + 256 * (n / 256 % 256 ^ k) := by
      rw [pow_succ', Nat.mod_mul]
    rw [ofNat, toNat_cons, ih, UInt8.toNat_ofNat', hmod]

/-- The number of the bytes in two's complement. -/
def toInt (bytes : List UInt8) : ℤ :=
  if 2 * toNat bytes < 256 ^ bytes.length then toNat bytes
  else toNat bytes - 256 ^ bytes.length

/-- The `k` bytes of a number in two's complement. -/
def ofInt (k : ℕ) (z : ℤ) : List UInt8 := ofNat k (z % 256 ^ k).toNat

@[simp] theorem length_ofInt (k : ℕ) (z : ℤ) : (ofInt k z).length = k := length_ofNat _ _

theorem toNat_ofInt (k : ℕ) (z : ℤ) : (toNat (ofInt k z) : ℤ) = z % 256 ^ k := by
  have hpos : (0 : ℤ) < 256 ^ k := Int.pow_pos (by decide)
  have h0 := Int.emod_nonneg z hpos.ne'
  have hlt := Int.emod_lt_of_pos z hpos
  rw [ofInt, toNat_ofNat, Nat.mod_eq_of_lt]
  · exact Int.toNat_of_nonneg h0
  · have hcast : ((256 ^ k : ℕ) : ℤ) = 256 ^ k := by push_cast; rfl
    omega

/-- A number of the range is read back. -/
theorem toInt_ofInt {k : ℕ} {z : ℤ} (hlow : -256 ^ k ≤ 2 * z) (hhigh : 2 * z < 256 ^ k) :
    toInt (ofInt k z) = z := by
  have hcast : ((256 ^ k : ℕ) : ℤ) = 256 ^ k := by push_cast; rfl
  have hz := toNat_ofInt k z
  rw [toInt, length_ofInt, hz]
  by_cases hneg : z < 0
  · have hmod : z % 256 ^ k = z + 256 ^ k := by
      rw [← Int.add_emod_right, Int.emod_eq_of_lt (by omega) (by omega)]
    rw [if_neg (by omega), hmod]
    omega
  · have hmod : z % 256 ^ k = z := Int.emod_eq_of_lt (by omega) (by omega)
    rw [if_pos (by omega), hmod]

/-- A number of the range without a sign is read back. -/
theorem toNat_ofInt_of_nonneg {k : ℕ} {z : ℤ} (h0 : 0 ≤ z) (hlt : z < 256 ^ k) :
    (toNat (ofInt k z) : ℤ) = z := by
  rw [toNat_ofInt, Int.emod_eq_of_lt h0 hlt]

end Bytes
