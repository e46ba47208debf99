import Mathlib.Tactic.Common
import Mathlib.Data.Nat.Notation
import Mathlib.Algebra.Order.Ring.Int

/-!
# Fixed-width integers

The integer types of C as ranges of `ℤ`, the value an out-of-range number wraps to, and
computations that note every number they convert. `Exact` is the judgement that such a
computation has a given result and that no number in it wraps ; its rules follow the
structure of the computation.
-/

namespace MachineInt

/-- An integer type of a fixed number of bits. -/
structure IntType where
  signed : Bool
  bits : ℕ
  deriving DecidableEq, Repr

/-- The signed integers of 16 bits. -/
def i16 : IntType := ⟨true, 16⟩

/-- The signed integers of 32 bits. -/
def i32 : IntType := ⟨true, 32⟩

/-- The signed integers of 64 bits. -/
def i64 : IntType := ⟨true, 64⟩

/-- The unsigned integers of 16 bits. -/
def u16 : IntType := ⟨false, 16⟩

/-- The unsigned integers of 32 bits. -/
def u32 : IntType := ⟨false, 32⟩

namespace IntType

/-- The numbers of the type. -/
def Fits (t : IntType) (n : ℤ) : Prop :=
  if t.signed then -2 ^ (t.bits - 1) ≤ n ∧ n < 2 ^ (t.bits - 1) else 0 ≤ n ∧ n < 2 ^ t.bits

instance (t : IntType) (n : ℤ) : Decidable (t.Fits n) := by
  unfold Fits
  infer_instance

/-- What a number becomes when it is converted to the type. -/
def wrap (t : IntType) (n : ℤ) : ℤ :=
  if t.signed then (n + 2 ^ (t.bits - 1)) % 2 ^ t.bits - 2 ^ (t.bits - 1) else n % 2 ^ t.bits

theorem two_pow_bits {t : IntType} (ht : 0 < t.bits) :
    (2 : ℤ) ^ t.bits = 2 ^ (t.bits - 1) + 2 ^ (t.bits - 1) := by
  obtain ⟨b, hb⟩ : ∃ b, t.bits = b + 1 := ⟨t.bits - 1, by omega⟩
  rw [hb, Nat.add_sub_cancel, pow_succ]
  omega

/-- A number that fits is kept. -/
theorem wrap_of_fits {t : IntType} {n : ℤ} (ht : 0 < t.bits) (h : t.Fits n) : t.wrap n = n := by
  have h2 := two_pow_bits ht
  unfold Fits at h
  unfold wrap
  by_cases hs : t.signed
  · rw [if_pos hs] at h ⊢
    rw [Int.emod_eq_of_lt (by omega) (by omega)]
    omega
  · rw [if_neg hs] at h ⊢
    exact Int.emod_eq_of_lt h.1 h.2

/-- What a conversion yields fits. -/
theorem fits_wrap {t : IntType} (ht : 0 < t.bits) (n : ℤ) : t.Fits (t.wrap n) := by
  have h2 := two_pow_bits ht
  have hpos : (0 : ℤ) < 2 ^ t.bits := Int.pow_pos (by omega)
  unfold Fits wrap
  by_cases hs : t.signed
  · rw [if_pos hs, if_pos hs]
    have := Int.emod_nonneg (n + 2 ^ (t.bits - 1)) hpos.ne'
    have := Int.emod_lt_of_pos (n + 2 ^ (t.bits - 1)) hpos
    omega
  · rw [if_neg hs, if_neg hs]
    exact ⟨Int.emod_nonneg _ hpos.ne', Int.emod_lt_of_pos _ hpos⟩

end IntType

theorem fits_i16 {n : ℤ} : i16.Fits n ↔ -2 ^ 15 ≤ n ∧ n < 2 ^ 15 := Iff.rfl

theorem fits_i32 {n : ℤ} : i32.Fits n ↔ -2 ^ 31 ≤ n ∧ n < 2 ^ 31 := Iff.rfl

theorem fits_i64 {n : ℤ} : i64.Fits n ↔ -2 ^ 63 ≤ n ∧ n < 2 ^ 63 := Iff.rfl

theorem fits_u32 {n : ℤ} : u32.Fits n ↔ 0 ≤ n ∧ n < 2 ^ 32 := Iff.rfl

/-! ## Computations -/

/-- A conversion of a number to a type. -/
structure Conversion where
  type : IntType
  number : ℤ
  deriving DecidableEq, Repr

/-- A conversion that does not keep its number. -/
def Conversion.Wraps (c : Conversion) : Prop := ¬c.type.Fits c.number

/-- A computation : its result, and the conversions on the way. -/
structure Calc (α : Type) where
  result : α
  conversions : List Conversion

namespace Calc

variable {α β : Type}

instance : Monad Calc where
  pure a := ⟨a, []⟩
  bind x f := ⟨(f x.result).result, x.conversions ++ (f x.result).conversions⟩

/-- The number converted to the type. -/
def conv (t : IntType) (n : ℤ) : Calc ℤ := ⟨t.wrap n, [⟨t, n⟩]⟩

@[simp] theorem result_pure (a : α) : (pure a : Calc α).result = a := rfl

@[simp] theorem result_bind (x : Calc α) (f : α → Calc β) :
    (x >>= f).result = (f x.result).result := rfl

@[simp] theorem result_conv (t : IntType) (n : ℤ) : (conv t n).result = t.wrap n := rfl

/-- The computation has the result `a`, and no number in it wraps. -/
def Exact (x : Calc α) (a : α) : Prop := x.result = a ∧ ∀ c ∈ x.conversions, ¬c.Wraps

theorem exact_pure (a : α) : Exact (pure a) a := ⟨rfl, nofun⟩

/-- A conversion of a number that fits is exact. -/
theorem exact_conv {t : IntType} {n : ℤ} (ht : 0 < t.bits) (h : t.Fits n) :
    Exact (conv t n) n := by
  refine ⟨IntType.wrap_of_fits ht h, fun c hc => ?_⟩
  rw [List.mem_singleton.mp hc]
  exact not_not.mpr h

/-- Exact computations compose. -/
theorem Exact.bind {x : Calc α} {f : α → Calc β} {a : α} {b : β} (hx : Exact x a)
    (hf : Exact (f a) b) : Exact (x >>= f) b := by
  obtain ⟨rfl, hx⟩ := hx
  refine ⟨hf.1, fun c hc => ?_⟩
  obtain hc | hc := List.mem_append.mp hc
  · exact hx c hc
  · exact hf.2 c hc

/-- A conversion of a number of the type, then the rest. -/
theorem Exact.conv_bind {t : IntType} {n : ℤ} {f : ℤ → Calc β} {b : β} (ht : 0 < t.bits)
    (h : t.Fits n) (hf : Exact (f n) b) : Exact (conv t n >>= f) b :=
  (exact_conv ht h).bind hf

end Calc

end MachineInt
