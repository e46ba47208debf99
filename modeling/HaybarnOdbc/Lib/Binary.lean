import Mathlib.Algebra.Field.Rat
import Mathlib.Algebra.Order.Ring.Rat
import Mathlib.Tactic.NormNum

/-!
# Binary floating point numbers

The number that the bits of a binary floating point number stand for : the fraction in the lowest
bits, the exponent above it, and the sign on top. Both zeros stand for the number zero.
-/

/-- What a number of the machine stands for. -/
inductive Number
  | finite (q : ℚ)
  | infinite (negative : Bool)
  | nan
  deriving DecidableEq

/-- A binary format. -/
structure BinaryFormat where
  exponentBits : ℕ
  fractionBits : ℕ
  deriving DecidableEq, Repr

namespace BinaryFormat

/-- Single precision. -/
def binary32 : BinaryFormat := ⟨8, 23⟩

/-- Double precision. -/
def binary64 : BinaryFormat := ⟨11, 52⟩

variable (f : BinaryFormat)

/-- The exponent of the numbers from 1 on, as it is stored. -/
def bias : ℕ := 2 ^ (f.exponentBits - 1) - 1

/-- The number of the bits : without the leading one if the exponent is zero. -/
def number (bits : ℕ) : Number :=
  let fraction := bits % 2 ^ f.fractionBits
  let exponent := bits / 2 ^ f.fractionBits % 2 ^ f.exponentBits
  let negative : Bool := bits / 2 ^ (f.fractionBits + f.exponentBits) % 2 = 1
  if exponent = 2 ^ f.exponentBits - 1 then
    if fraction = 0 then .infinite negative else .nan
  else
    let magnitude : ℚ :=
      if exponent = 0 then fraction / 2 ^ (f.bias + f.fractionBits - 1)
      else (2 ^ f.fractionBits + fraction : ℕ) * 2 ^ exponent / 2 ^ (f.bias + f.fractionBits)
    .finite (if negative then -magnitude else magnitude)

end BinaryFormat
