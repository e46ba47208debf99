import HaybarnOdbc.LongData
import HaybarnOdbc.ParamArrays

/-!
# Integers

`GetInternalValue` casts a value to the engine's type of the C type and stores what comes out.
The cast of one integer type to another compares numbers of digits before it compares values, and
the one of a 128-bit integer looks at its two words. All of them are the same : a number is cast
just if it is in the range of the type (`tryCast_eq`), so that what is read is the number, or an
error (`integer_fetched`). No number can be read as `SQL_C_BIT`, whose cast the engine has not.
-/

namespace HaybarnOdbc

open MachineInt Bytes

variable {ρ V : Type}

/-! ## The integers of the engine -/

/-- An integer type of C++ up to 64 bits. -/
structure Native where
  width : IntWidth
  signed : Bool
  deriving DecidableEq, Repr

namespace Native

/-- The integers of the type. -/
def range (t : Native) : IntType := t.width.type t.signed

/-- `NumericLimits<T>::Digits`. -/
def digits : Native → ℕ
  | ⟨.tinyint, _⟩ => 3
  | ⟨.smallint, _⟩ => 5
  | ⟨.integer, _⟩ => 10
  | ⟨.bigint, true⟩ => 19
  | ⟨.bigint, false⟩ => 20

/-- `NumericLimits<T>::Minimum`. -/
def minimum : Native → ℤ
  | ⟨_, false⟩ => 0
  | ⟨.tinyint, true⟩ => -2 ^ 7
  | ⟨.smallint, true⟩ => -2 ^ 15
  | ⟨.integer, true⟩ => -2 ^ 31
  | ⟨.bigint, true⟩ => -2 ^ 63

/-- `NumericLimits<T>::Maximum`. -/
def maximum : Native → ℤ
  | ⟨.tinyint, true⟩ => 2 ^ 7 - 1
  | ⟨.smallint, true⟩ => 2 ^ 15 - 1
  | ⟨.integer, true⟩ => 2 ^ 31 - 1
  | ⟨.bigint, true⟩ => 2 ^ 63 - 1
  | ⟨.tinyint, false⟩ => 2 ^ 8 - 1
  | ⟨.smallint, false⟩ => 2 ^ 16 - 1
  | ⟨.integer, false⟩ => 2 ^ 32 - 1
  | ⟨.bigint, false⟩ => 2 ^ 64 - 1

/-- `TypeIdToString(GetTypeId<T>())`. -/
def name : Native → String
  | ⟨.tinyint, true⟩ => "INT8"
  | ⟨.smallint, true⟩ => "INT16"
  | ⟨.integer, true⟩ => "INT32"
  | ⟨.bigint, true⟩ => "INT64"
  | ⟨.tinyint, false⟩ => "UINT8"
  | ⟨.smallint, false⟩ => "UINT16"
  | ⟨.integer, false⟩ => "UINT32"
  | ⟨.bigint, false⟩ => "UINT64"

end Native

/-- `hugeint_t` and, with an upper word without a sign, `uhugeint_t`. -/
structure Words where
  upper : ℤ
  lower : ℤ
  lower_nonneg : 0 ≤ lower
  lower_lt : lower < 2 ^ 64

/-- The number that two words make. -/
def Words.number (w : Words) : ℤ := w.upper * 2 ^ 64 + w.lower

/-- A value of one of the integer types of the engine, or a boolean. -/
inductive IntegerValue
  | boolean (b : Bool)
  | native (type : Native) (n : ℤ) (fits : type.range.Fits n)
  | hugeint (w : Words) (fits : i64.Fits w.upper)
  | uhugeint (w : Words) (nonneg : 0 ≤ w.upper)

namespace IntegerValue

/-- A number that is in the range of the type, as it always is in a value of the engine. -/
def ofNative (type : Native) (n : ℤ) : Option IntegerValue :=
  if h : type.range.Fits n then some (.native type n h) else none

/-- The number of a value. -/
def number : IntegerValue → ℤ
  | boolean b => if b then 1 else 0
  | native _ n _ => n
  | hugeint w _ => w.number
  | uhugeint w _ => w.number

/-- The type of a value. -/
def typeId : IntegerValue → LogicalTypeId
  | boolean _ => .boolean
  | native ⟨.tinyint, true⟩ .. => .tinyint
  | native ⟨.smallint, true⟩ .. => .smallint
  | native ⟨.integer, true⟩ .. => .integer
  | native ⟨.bigint, true⟩ .. => .bigint
  | native ⟨.tinyint, false⟩ .. => .utinyint
  | native ⟨.smallint, false⟩ .. => .usmallint
  | native ⟨.integer, false⟩ .. => .uinteger
  | native ⟨.bigint, false⟩ .. => .ubigint
  | hugeint .. => .other
  | uhugeint .. => .other

/-- `TypeIdToString(GetTypeId<SRC>())`. -/
def typeName : IntegerValue → String
  | boolean _ => "BOOL"
  | native type _ _ => type.name
  | hugeint .. => "INT128"
  | uhugeint .. => "UINT128"

/-- `LogicalType::ToString`. -/
def logicalName : IntegerValue → String
  | boolean _ => "BOOLEAN"
  | native ⟨.tinyint, true⟩ .. => "TINYINT"
  | native ⟨.smallint, true⟩ .. => "SMALLINT"
  | native ⟨.integer, true⟩ .. => "INTEGER"
  | native ⟨.bigint, true⟩ .. => "BIGINT"
  | native ⟨.tinyint, false⟩ .. => "UTINYINT"
  | native ⟨.smallint, false⟩ .. => "USMALLINT"
  | native ⟨.integer, false⟩ .. => "UINTEGER"
  | native ⟨.bigint, false⟩ .. => "UBIGINT"
  | hugeint .. => "HUGEINT"
  | uhugeint .. => "UHUGEINT"

end IntegerValue

/-! ## Casts -/

/-- `TryCastWithOverflowCheck` of a native type to another one. -/
def tryCastWithOverflowCheck (src dst : Native) (value : ℤ) : Option ℤ :=
  if src.signed ≠ dst.signed then
    if src.signed then
      if dst.digits < src.digits then
        if value < 0 ∨ src.range.wrap dst.maximum < value then none
        else some (dst.range.wrap value)
      else if value < 0 then none
      else some (dst.range.wrap value)
    else if dst.digits ≤ src.digits then
      if value ≤ src.range.wrap dst.maximum then some (dst.range.wrap value) else none
    else some (dst.range.wrap value)
  else if src.digits ≤ dst.digits then some (dst.range.wrap value)
  else if value < src.range.wrap dst.minimum ∨ src.range.wrap dst.maximum < value then none
  else some (dst.range.wrap value)

/-- `NumericLimits<uint64_t>::Maximum`. -/
def maximumU64 : ℤ := 2 ^ 64 - 1

/-- `HugeintTryCastInteger`. -/
def hugeintTryCastInteger (dst : Native) (input : Words) : Option ℤ :=
  if input.upper = 0 then
    if input.lower ≤ dst.maximum then some (dst.range.wrap input.lower) else none
  else if input.upper = -1 then
    if ¬dst.signed then none
    else if maximumU64 - dst.maximum ≤ input.lower then
      some (dst.range.wrap (-dst.range.wrap (maximumU64 - input.lower) - 1))
    else none
  else none

/-- `UhugeintTryCastInteger`. -/
def uhugeintTryCastInteger (dst : Native) (input : Words) : Option ℤ :=
  if input.upper = 0 ∧ input.lower ≤ dst.maximum then some (dst.range.wrap input.lower) else none

/-- `NumericTryCast`. -/
def IntegerValue.tryCast (dst : Native) : IntegerValue → Option ℤ
  | boolean b => some (if b then 1 else 0)
  | native src n _ => tryCastWithOverflowCheck src dst n
  | hugeint w _ => hugeintTryCastInteger dst w
  | uhugeint w _ => uhugeintTryCastInteger dst w

/-- `CastExceptionText` of numbers. -/
def castExceptionText (src : String) (n : ℤ) (dst : String) : String :=
  "Type " ++ src ++ " with value " ++ toString n ++
    " can't be cast because the value is out of range for the destination type " ++ dst

/-- `Value::CastAs`. A value of the type itself is copied. -/
def IntegerValue.castAs (v : IntegerValue) (dst : Native) : Except String ℤ :=
  let casted : Except String ℤ :=
    match v.tryCast dst with
    | some n => .ok n
    | none => .error ("Failed to cast value: " ++ castExceptionText v.typeName v.number dst.name)
  match v with
  | native src n _ => if src = dst then .ok n else casted
  | _ => casted

/-- `Value::CastAs` to `LogicalTypeId::CHAR`. -/
def IntegerValue.castAsChar (v : IntegerValue) : Except String ℤ :=
  .error ("Failed to cast value: Unimplemented type for cast (" ++ v.logicalName ++ " -> CHAR)")

/-- `Value::GetValue` of a value of the type. -/
def getValueOf (dst : Native) (n : ℤ) : Except String ℤ :=
  match tryCastWithOverflowCheck dst dst n with
  | some n => .ok n
  | none => .error (castExceptionText dst.name n dst.name)

/-- `GetInternalValue`, which catches an exception and makes a diagnostic record of its text. -/
def getInternalValue (size : ℕ) (casted : Except String ℤ) : Except CastFailure (List UInt8) :=
  match casted with
  | .ok n => .ok (ofInt size n)
  | .error msg => .error (.reported [⟨"GetInternalValue", msg, .st07006⟩])

/-- The type of the engine for an integer C type. -/
def CType.native : CType → Option Native
  | .short => some ⟨.smallint, true⟩
  | .sshort => some ⟨.smallint, true⟩
  | .ushort => some ⟨.smallint, false⟩
  | .long => some ⟨.integer, true⟩
  | .slong => some ⟨.integer, true⟩
  | .ulong => some ⟨.integer, false⟩
  | .tinyint => some ⟨.tinyint, true⟩
  | .stinyint => some ⟨.tinyint, true⟩
  | .utinyint => some ⟨.tinyint, false⟩
  | .sbigint => some ⟨.bigint, true⟩
  | .ubigint => some ⟨.bigint, false⟩
  | _ => none

/-! ### What is cast -/

/-- A number is in range between the bounds. -/
theorem Native.fits_iff (t : Native) (n : ℤ) : t.range.Fits n ↔ t.minimum ≤ n ∧ n ≤ t.maximum := by
  obtain ⟨w, signed⟩ := t
  cases w <;> cases signed <;>
    simp only [range, IntWidth.type, IntWidth.bytes, IntType.Fits, minimum, maximum,
      Bool.false_eq_true, if_false, if_true] <;> omega

theorem Native.wrap_of_fits {t : Native} {n : ℤ} (h : t.range.Fits n) : t.range.wrap n = n := by
  obtain ⟨w, signed⟩ := t
  refine IntType.wrap_of_fits ?_ h
  change 0 < 8 * w.bytes
  cases w <;> decide

namespace Native

variable {src dst : Native} {n : ℤ}

/-- A type with at least as many digits has all the numbers of the other, if both have a sign or
none. -/
theorem fits_of_digits_le (hs : src.signed = dst.signed) (hd : src.digits ≤ dst.digits)
    (h : src.range.Fits n) : dst.range.Fits n := by
  obtain ⟨w, signed⟩ := src
  obtain ⟨w', signed'⟩ := dst
  obtain rfl : signed = signed' := hs
  rw [fits_iff] at h ⊢
  cases w <;> cases w' <;> cases signed <;>
    simp only [digits, minimum, maximum] at hd h ⊢ <;> omega

/-- From a type without a sign to one with a sign. -/
theorem fits_of_digits_lt (hsrc : src.signed = false) (hdst : dst.signed = true)
    (hd : src.digits < dst.digits) (h : src.range.Fits n) : dst.range.Fits n := by
  obtain ⟨w, signed⟩ := src
  obtain ⟨w', signed'⟩ := dst
  obtain rfl : signed = false := hsrc
  obtain rfl : signed' = true := hdst
  rw [fits_iff] at h ⊢
  cases w <;> cases w' <;> simp only [digits, minimum, maximum] at hd h ⊢ <;> omega

/-- From a type with a sign to one without a sign, where no digit is lost. -/
theorem fits_of_nonneg (hsrc : src.signed = true) (hdst : dst.signed = false)
    (hd : src.digits ≤ dst.digits) (hn : 0 ≤ n) (h : src.range.Fits n) : dst.range.Fits n := by
  obtain ⟨w, signed⟩ := src
  obtain ⟨w', signed'⟩ := dst
  obtain rfl : signed = true := hsrc
  obtain rfl : signed' = false := hdst
  rw [fits_iff] at h ⊢
  cases w <;> cases w' <;> simp only [digits, minimum, maximum] at hd h ⊢ <;> omega

/-- Where digits are lost, the bounds of the type are numbers of the other one. -/
theorem fits_bounds (hs : src.signed = dst.signed) (hd : dst.digits < src.digits) :
    src.range.Fits dst.minimum ∧ src.range.Fits dst.maximum := by
  obtain ⟨w, signed⟩ := src
  obtain ⟨w', signed'⟩ := dst
  obtain rfl : signed = signed' := hs
  cases w <;> cases w' <;> cases signed <;> revert hd <;> decide

/-- The upper bound of the target is in range of the source. -/
theorem fits_maximum (hs : src.signed ≠ dst.signed)
    (hd : dst.digits < src.digits ∨ src.signed = false ∧ dst.digits ≤ src.digits) :
    src.range.Fits dst.maximum := by
  obtain ⟨w, signed⟩ := src
  obtain ⟨w', signed'⟩ := dst
  cases w <;> cases w' <;> cases signed <;> cases signed' <;> revert hs hd <;> decide

theorem minimum_of_unsigned (h : dst.signed = false) : dst.minimum = 0 := by
  obtain ⟨w, signed⟩ := dst
  obtain rfl : signed = false := h
  rfl

theorem minimum_nonpos (t : Native) : t.minimum ≤ 0 := by
  obtain ⟨w, signed⟩ := t
  cases w <;> cases signed <;> decide

/-- A number in range is kept. -/
theorem inside (h : dst.range.Fits n) :
    some (dst.range.wrap n) = if dst.range.Fits n then some n else none := by
  rw [if_pos h, wrap_of_fits h]

theorem inside_bounds (h : dst.minimum ≤ n ∧ n ≤ dst.maximum) :
    some (dst.range.wrap n) = if dst.range.Fits n then some n else none :=
  inside ((dst.fits_iff n).2 h)

/-- A number out of range is refused. -/
theorem outside_bounds (h : n < dst.minimum ∨ dst.maximum < n) :
    none = if dst.range.Fits n then some n else none := by
  have hnot : ¬dst.range.Fits n := fun hfits => by
    have := (dst.fits_iff n).1 hfits
    omega
  rw [if_neg hnot]

end Native

/-- The comparisons of digits and of values find out whether the number is in the range of the
type. -/
theorem tryCastWithOverflowCheck_eq {src dst : Native} {n : ℤ} (h : src.range.Fits n) :
    tryCastWithOverflowCheck src dst n = if dst.range.Fits n then some n else none := by
  unfold tryCastWithOverflowCheck
  by_cases hs : src.signed = dst.signed
  · rw [if_neg (not_not.2 hs)]
    by_cases hd : src.digits ≤ dst.digits
    · rw [if_pos hd]
      exact Native.inside (Native.fits_of_digits_le hs hd h)
    · obtain ⟨hmin, hmax⟩ := Native.fits_bounds hs (Nat.lt_of_not_le hd)
      rw [if_neg hd, Native.wrap_of_fits hmin, Native.wrap_of_fits hmax]
      by_cases hn : n < dst.minimum ∨ dst.maximum < n
      · rw [if_pos hn]
        exact Native.outside_bounds hn
      · rw [if_neg hn]
        exact Native.inside_bounds (by omega)
  · rw [if_pos hs]
    cases hsrc : src.signed with
    | true =>
      have hdst : dst.signed = false := by simpa [hsrc] using hs
      have hmin := Native.minimum_of_unsigned hdst
      rw [if_pos rfl]
      by_cases hd : dst.digits < src.digits
      · rw [if_pos hd, Native.wrap_of_fits (Native.fits_maximum hs (.inl hd))]
        by_cases hn : n < 0 ∨ dst.maximum < n
        · rw [if_pos hn]
          exact Native.outside_bounds (by omega)
        · rw [if_neg hn]
          exact Native.inside_bounds (by omega)
      · rw [if_neg hd]
        by_cases hn : n < 0
        · rw [if_pos hn]
          exact Native.outside_bounds (by omega)
        · rw [if_neg hn]
          exact Native.inside (Native.fits_of_nonneg hsrc hdst (Nat.le_of_not_lt hd) (by omega) h)
    | false =>
      have hdst : dst.signed = true := by simpa [hsrc] using hs
      have hpos := (src.fits_iff n).1 h
      rw [Native.minimum_of_unsigned hsrc] at hpos
      have hmin := dst.minimum_nonpos
      rw [if_neg Bool.false_ne_true]
      by_cases hd : dst.digits ≤ src.digits
      · rw [if_pos hd, Native.wrap_of_fits (Native.fits_maximum hs (.inr ⟨hsrc, hd⟩))]
        by_cases hn : n ≤ dst.maximum
        · rw [if_pos hn]
          exact Native.inside_bounds (by omega)
        · rw [if_neg hn]
          exact Native.outside_bounds (by omega)
      · rw [if_neg hd]
        exact Native.inside (Native.fits_of_digits_lt hsrc hdst (Nat.lt_of_not_le hd) h)

/-! ### 128-bit integers -/

theorem Native.maximum_lt (t : Native) : 0 < t.maximum ∧ t.maximum < 2 ^ 64 := by
  obtain ⟨w, signed⟩ := t
  cases w <;> cases signed <;> decide

theorem Native.minimum_of_signed {t : Native} (h : t.signed = true) :
    t.minimum = -t.maximum - 1 := by
  obtain ⟨w, signed⟩ := t
  obtain rfl : signed = true := h
  cases w <;> rfl

/-- The cast from 128 bits keeps what is in range. -/
theorem hugeintTryCastInteger_eq (dst : Native) (w : Words) :
    hugeintTryCastInteger dst w = if dst.range.Fits w.number then some w.number else none := by
  have hlow := w.lower_nonneg
  have hhigh := w.lower_lt
  have hmax := dst.maximum_lt
  have hmin := dst.minimum_nonpos
  unfold hugeintTryCastInteger
  by_cases h0 : w.upper = 0
  · have hn : w.number = w.lower := by rw [Words.number, h0]; omega
    rw [if_pos h0, hn]
    by_cases hle : w.lower ≤ dst.maximum
    · rw [if_pos hle]
      exact Native.inside_bounds ⟨by omega, hle⟩
    · rw [if_neg hle]
      exact Native.outside_bounds (.inr (by omega))
  · rw [if_neg h0]
    by_cases h1 : w.upper = -1
    · have hn : w.number = w.lower - 2 ^ 64 := by rw [Words.number, h1]; omega
      rw [if_pos h1, hn]
      cases hs : dst.signed with
      | false =>
        rw [if_pos Bool.false_ne_true]
        exact Native.outside_bounds (.inl (by rw [Native.minimum_of_unsigned hs]; omega))
      | true =>
        have hsigned := Native.minimum_of_signed hs
        rw [if_neg (not_not.2 rfl), maximumU64]
        by_cases hle : 2 ^ 64 - 1 - dst.maximum ≤ w.lower
        · have hword : dst.range.Fits (2 ^ 64 - 1 - w.lower) := (dst.fits_iff _).2 (by omega)
          have heq : -(2 ^ 64 - 1 - w.lower) - 1 = w.lower - 2 ^ 64 := by omega
          rw [if_pos hle, Native.wrap_of_fits hword, heq]
          exact Native.inside_bounds (by omega)
        · rw [if_neg hle]
          exact Native.outside_bounds (.inl (by omega))
    · rw [if_neg h1]
      have hn : w.number < -2 ^ 64 ∨ 2 ^ 64 ≤ w.number := by rw [Words.number]; omega
      refine Native.outside_bounds ?_
      cases hs : dst.signed with
      | false => rw [Native.minimum_of_unsigned hs]; omega
      | true => rw [Native.minimum_of_signed hs]; omega

/-- So does the one without a sign. -/
theorem uhugeintTryCastInteger_eq (dst : Native) {w : Words} (h : 0 ≤ w.upper) :
    uhugeintTryCastInteger dst w = if dst.range.Fits w.number then some w.number else none := by
  have hlow := w.lower_nonneg
  have hmax := dst.maximum_lt
  have hmin := dst.minimum_nonpos
  unfold uhugeintTryCastInteger
  by_cases hw : w.upper = 0 ∧ w.lower ≤ dst.maximum
  · have hn : w.number = w.lower := by rw [Words.number, hw.1]; omega
    rw [if_pos hw, hn]
    exact Native.inside_bounds (by omega)
  · rw [if_neg hw]
    exact Native.outside_bounds (.inr (by rw [Words.number]; omega))

/-- A number is cast just if it is in the range of the type. -/
theorem IntegerValue.tryCast_eq (v : IntegerValue) (dst : Native) :
    v.tryCast dst = if dst.range.Fits v.number then some v.number else none := by
  cases v with
  | boolean b =>
    have hfits : dst.range.Fits (if b then 1 else 0) := by
      have hmax := dst.maximum_lt
      have hmin := dst.minimum_nonpos
      rw [dst.fits_iff]
      cases b with
      | true => exact ⟨by omega, hmax.1⟩
      | false => exact ⟨hmin, by simpa using hmax.1.le⟩
    exact (if_pos hfits).symm
  | native src n h => exact tryCastWithOverflowCheck_eq h
  | hugeint w h => exact hugeintTryCastInteger_eq dst w
  | uhugeint w h => exact uhugeintTryCastInteger_eq dst h

/-! ## Reading an integer -/

/-- The text of the exception of a number that is out of range. -/
def IntegerValue.outOfRange (v : IntegerValue) (dst : Native) : String :=
  "Failed to cast value: " ++ castExceptionText v.typeName v.number dst.name

/-- A cast keeps the number or fails because it is out of range. -/
theorem IntegerValue.castAs_eq (v : IntegerValue) (dst : Native) :
    v.castAs dst =
      if dst.range.Fits v.number then .ok v.number else .error (v.outOfRange dst) := by
  have hcasted : (match v.tryCast dst with
      | some n => .ok n
      | none => .error ("Failed to cast value: " ++
          castExceptionText v.typeName v.number dst.name) : Except String ℤ) =
      if dst.range.Fits v.number then .ok v.number else .error (v.outOfRange dst) := by
    rw [v.tryCast_eq]
    by_cases hfits : dst.range.Fits v.number
    · rw [if_pos hfits, if_pos hfits]
    · rw [if_neg hfits, if_neg hfits]
      rfl
  unfold castAs
  cases v with
  | native src n h =>
    by_cases hsame : src = dst
    · subst hsame
      rw [if_pos (show src.range.Fits (native src n h).number from h)]
      exact if_pos rfl
    · exact (if_neg hsame).trans hcasted
  | boolean b => exact hcasted
  | hugeint w h => exact hcasted
  | uhugeint w h => exact hcasted

/-- A number in range is got as it is. -/
theorem getValueOf_of_fits {dst : Native} {n : ℤ} (h : dst.range.Fits n) :
    getValueOf dst n = .ok n := by
  rw [getValueOf, tryCastWithOverflowCheck_eq h, if_pos h]

/-- An integer as a C type : the branches of `GetDataStmtResult` that call `GetInternalValue` for
integers and for `SQL_C_BIT`. -/
def IntegerValue.getAs (v : IntegerValue) (t : CType)
    (other : Except CastFailure (List UInt8)) : Except CastFailure (List UInt8) :=
  if t = .bit then getInternalValue 1 v.castAsChar
  else
    match t.native with
    | some dst => getInternalValue dst.width.bytes ((v.castAs dst).bind (getValueOf dst))
    | none => other

/-- The bytes are as many as the type has. -/
theorem getInternalValue_length {size : ℕ} {casted : Except String ℤ} {bytes : List UInt8}
    (h : getInternalValue size casted = .ok bytes) : bytes.length = size := by
  unfold getInternalValue at h
  split at h
  · cases h
    exact length_ofInt _ _
  · cases h

/-- An integer type has the size of its native type. -/
theorem CType.storedSize_of_native {t : CType} {dst : Native} (h : t.native = some dst) :
    t.storedSize = some dst.width.bytes := by
  cases t <;> first | (cases h; rfl) | cases h

/-- The engine where the values that `integer` knows are read as integers. -/
def Engine.withIntegers (E : Engine ρ V) (integer : V → Option IntegerValue) : Engine ρ V where
  getValue := E.getValue
  isNull := E.isNull
  typeId v :=
    match integer v with
    | some n => n.typeId
    | none => E.typeId v
  atUtcOffset := E.atUtcOffset
  castAs t v :=
    match integer v with
    | some n => n.getAs t (E.castAs t v)
    | none => E.castAs t v
  charBytes := E.charBytes
  wcharBytes := E.wcharBytes
  binaryBytes := E.binaryBytes
  castAs_length {t v bs k} h hk := by
    split at h
    · unfold IntegerValue.getAs at h
      split at h
      · next hbit =>
        subst hbit
        cases hk
        exact getInternalValue_length h
      · split at h
        · next dst hdst =>
          rw [CType.storedSize_of_native hdst] at hk
          cases hk
          exact getInternalValue_length h
        · exact E.castAs_length h hk
    · exact E.castAs_length h hk

/-- The C type that an integer is read as. -/
def IntegerValue.resolved (v : IntegerValue) (t : CType) (bufferLength : ℤ) : CType :=
  if t = .default then resolveDefaultType v.typeId bufferLength else t

/-- The number of a C variable of the type. -/
def Native.read (t : Native) (bytes : List UInt8) : ℤ :=
  if t.signed then toInt bytes else toNat bytes

/-- The bytes of a number are read as that number. -/
theorem Native.read_ofInt {t : Native} {n : ℤ} (h : t.range.Fits n) :
    t.read (ofInt t.width.bytes n) = n := by
  obtain ⟨w, signed⟩ := t
  cases signed with
  | true => exact (if_pos rfl).trans (toInt_ofInt_of_fits (by cases w <;> decide) h)
  | false => exact (if_neg Bool.false_ne_true).trans (toNat_ofInt_of_fits h)

/-- `SQL_C_DEFAULT` stands for a type that has room in the buffer, if any has. -/
theorem size_of_default {n : IntegerValue} {bufferLength : ℤ} {dst : Native}
    (h : (n.resolved .default bufferLength).native = some dst) :
    (dst.width.bytes : ℤ) ≤ max 1 bufferLength := by
  have hall : ∀ typeId : LogicalTypeId, (resolveDefaultType typeId bufferLength).native = some dst →
      (dst.width.bytes : ℤ) ≤ max 1 bufferLength := by
    intro typeId h
    cases typeId <;> simp only [resolveDefaultType] at h <;> repeat' split at h
    all_goals first
      | (cases h; simp only [IntWidth.bytes]; omega)
      | cases h
  exact hall _ h

/-- What a call does with the bytes of a C type of fixed size. -/
def OdbcHandleStmt.storeFixed (h : OdbcHandleStmt ρ V) (target strLenOrInd : Addr) (size : ℕ) :
    Except CastFailure (List UInt8) → Except Fault (OdbcHandleStmt.Got ρ V)
  | .ok bytes =>
    .ok ⟨.success, h,
      .data target bytes :: if strLenOrInd ≠ 0 then [.ind strLenOrInd size] else []⟩
  | .error (.reported records) => .ok ⟨.error, { h with diag := h.diag ++ records }, []⟩
  | .error (.thrown msg) => .error (.thrown msg)

/-- A cell whose value is an integer that is read as a C type of fixed size. -/
theorem getDataStmtResult_integer {E : Engine ρ V} {integer : V → Option IntegerValue}
    {h : OdbcHandleStmt ρ V} {num : ℕ} {t : CType} {target strLenOrInd : Addr} {bufferLength : ℤ}
    {v : V} {n : IntegerValue} {size : ℕ}
    (hcell : h.getValue E (num - 1) = .ok (some v)) (hnull : E.isNull v = false)
    (hint : integer (E.atUtcOffset v) = some n) (htarget : target ≠ 0)
    (hsize : (n.resolved t bufferLength).storedSize = some size) :
    h.getDataStmtResult (E.withIntegers integer) num t target bufferLength strLenOrInd =
      h.storeFixed target strLenOrInd size (n.getAs (n.resolved t bufferLength)
        (E.castAs (n.resolved t bufferLength) (E.atUtcOffset v))) := by
  have hcell' : h.getValue (E.withIntegers integer) (num - 1) = .ok (some v) := hcell
  have hfilter : (some v).filter (fun v => ¬(E.withIntegers integer).isNull v) = some v := by
    rw [Option.filter_some]
    exact if_pos (by rw [show (E.withIntegers integer).isNull v = false from hnull]; rfl)
  have hresolved : (if t = .default then
      resolveDefaultType ((E.withIntegers integer).typeId ((E.withIntegers integer).atUtcOffset v))
        bufferLength
      else t) = n.resolved t bufferLength := by
    simp only [Engine.withIntegers, hint]
    rfl
  have hcast : ∀ t, (E.withIntegers integer).castAs t ((E.withIntegers integer).atUtcOffset v) =
      n.getAs t (E.castAs t (E.atUtcOffset v)) := fun t => by
    simp only [Engine.withIntegers, hint]
  unfold OdbcHandleStmt.getDataStmtResult
  rw [if_neg fun hand => htarget hand.1]
  dsimp only
  rw [hcell']
  dsimp only [bind, Except.bind]
  rw [hfilter]
  dsimp only
  rw [hresolved]
  generalize n.resolved t bufferLength = t' at hsize
  cases t' with
  | wchar => cases hsize
  | binary => cases hsize
  | char => cases hsize
  | _ =>
    dsimp only
    rw [hsize, hcast]
    cases n.getAs _ _ with
    | ok bytes => rfl
    | error failure => cases failure <;> rfl

/-- How the number `n` is read as the C type `t` : in the range of the type the number and the size
of the type are stored, and nothing else; otherwise nothing is stored and the call fails. -/
structure ReadsInteger (h : OdbcHandleStmt ρ V) (n : ℤ) (t : CType) (target strLenOrInd : Addr)
    (got : OdbcHandleStmt.Got ρ V) : Prop where
  inRange : ∀ dst, t.native = some dst → dst.range.Fits n →
    got.ret = .success ∧ got.h = h ∧ ∃ bytes, bytes.length = dst.width.bytes ∧ dst.read bytes = n ∧
      got.writes = .data target bytes ::
        if strLenOrInd ≠ 0 then [.ind strLenOrInd dst.width.bytes] else []
  outOfRange : (∀ dst, t.native = some dst → ¬dst.range.Fits n) →
    got.ret = .error ∧ got.writes = [] ∧
      ∃ msg, got.h = { h with diag := h.diag ++ [⟨"GetInternalValue", msg, .st07006⟩] }

/-- An integer that is got as the type is stored as it. -/
theorem readsInteger_of_getAs (h : OdbcHandleStmt ρ V) (n : IntegerValue) {t : CType} {size : ℕ}
    (ht : t = .bit ∨ t.native.isSome = true) (hsize : t.storedSize = some size)
    (target strLenOrInd : Addr) (other : Except CastFailure (List UInt8)) :
    ∃ got, h.storeFixed target strLenOrInd size (n.getAs t other) = .ok got ∧
      ReadsInteger h n.number t target strLenOrInd got := by
  by_cases hbit : t = .bit
  · subst hbit
    have hget : n.getAs .bit other = getInternalValue 1 n.castAsChar := if_pos rfl
    rw [hget]
    exact ⟨_, rfl, nofun, fun _ => ⟨rfl, rfl, _, rfl⟩⟩
  · obtain ⟨dst, hdst⟩ := Option.isSome_iff_exists.1 (ht.resolve_left hbit)
    have hget : n.getAs t other =
        getInternalValue dst.width.bytes ((n.castAs dst).bind (getValueOf dst)) := by
      rw [IntegerValue.getAs, if_neg hbit, hdst]
    rw [CType.storedSize_of_native hdst] at hsize
    obtain rfl := Option.some.inj hsize
    rw [hget, n.castAs_eq]
    by_cases hfits : dst.range.Fits n.number
    · rw [if_pos hfits, Except.bind, getValueOf_of_fits hfits]
      refine ⟨_, rfl, fun dst' hdst' _ => ?_, fun hnot => absurd hfits (hnot dst hdst)⟩
      obtain rfl := Option.some.inj (hdst.symm.trans hdst')
      exact ⟨rfl, rfl, _, length_ofInt _ _, Native.read_ofInt hfits, rfl⟩
    · rw [if_neg hfits]
      refine ⟨_, rfl, fun dst' hdst' hfits' => ?_, fun _ => ⟨rfl, rfl, _, rfl⟩⟩
      obtain rfl := Option.some.inj (hdst.symm.trans hdst')
      exact absurd hfits' hfits

/-- What is stored for `SQL_C_DEFAULT` has room in the buffer, if anything has. -/
theorem ReadsInteger.length_le {h : OdbcHandleStmt ρ V} {n : ℤ} {v : IntegerValue}
    {bufferLength : ℤ} {target strLenOrInd : Addr} {got : OdbcHandleStmt.Got ρ V}
    (hreads : ReadsInteger h n (v.resolved .default bufferLength) target strLenOrInd got)
    {addr : Addr} {bytes : List UInt8} (hw : .data addr bytes ∈ got.writes) :
    (bytes.length : ℤ) ≤ max 1 bufferLength := by
  by_cases hfits : ∃ dst, (v.resolved .default bufferLength).native = some dst ∧ dst.range.Fits n
  · obtain ⟨dst, hdst, hfits⟩ := hfits
    obtain ⟨-, -, bytes', hlength, -, hwrites⟩ := hreads.inRange dst hdst hfits
    rw [hwrites] at hw
    obtain heq | hind := List.mem_cons.1 hw
    · obtain ⟨-, rfl⟩ := Write.data.inj heq
      rw [hlength]
      exact size_of_default hdst
    · by_cases h0 : strLenOrInd ≠ 0
      · rw [if_pos h0] at hind
        cases List.mem_singleton.1 hind
      · rw [if_neg h0] at hind
        cases hind
  · obtain ⟨-, hwrites, -⟩ := hreads.outOfRange fun dst hdst hfit => hfits ⟨dst, hdst, hfit⟩
    rw [hwrites] at hw
    cases hw

/-- An integer of any type of the engine, read as an integer C type : the number is stored if it is
in the range of the C type, and the call fails without a store if not. No number is read as
`SQL_C_BIT`. What `SQL_C_DEFAULT` stores has room in the buffer. -/
theorem integer_fetched {E : Engine ρ V} {integer : V → Option IntegerValue}
    {h : OdbcHandleStmt ρ V} {num : ℕ} {t : CType} {target strLenOrInd : Addr} {bufferLength : ℤ}
    {v : V} {n : IntegerValue} (hcell : h.getValue E (num - 1) = .ok (some v))
    (hnull : E.isNull v = false) (hint : integer (E.atUtcOffset v) = some n) (htarget : target ≠ 0)
    (ht : n.resolved t bufferLength = .bit ∨ (n.resolved t bufferLength).native.isSome = true) :
    ∃ got, h.getDataStmtResult (E.withIntegers integer) num t target bufferLength strLenOrInd =
        .ok got ∧
      ReadsInteger h n.number (n.resolved t bufferLength) target strLenOrInd got ∧
      (t = .default → ∀ addr bytes, .data addr bytes ∈ got.writes →
        (bytes.length : ℤ) ≤ max 1 bufferLength) := by
  obtain ⟨size, hsize⟩ : ∃ size, (n.resolved t bufferLength).storedSize = some size := by
    rcases ht with hbit | hsome
    · rw [hbit]
      exact ⟨1, rfl⟩
    · obtain ⟨dst, hdst⟩ := Option.isSome_iff_exists.1 hsome
      exact ⟨_, CType.storedSize_of_native hdst⟩
  obtain ⟨got, hstore, hreads⟩ := readsInteger_of_getAs h n ht hsize target strLenOrInd
    (E.castAs (n.resolved t bufferLength) (E.atUtcOffset v))
  refine ⟨got, (getDataStmtResult_integer hcell hnull hint htarget hsize).trans hstore, hreads,
    fun hdefault addr bytes hw => ?_⟩
  subst hdefault
  exact hreads.length_le hw

/-- 300 is read as `SQL_C_DEFAULT`, into a buffer of two bytes. -/
theorem integer_fetched_bytes :
    ∃ got, (OdbcHandleStmt.onOnlyRow 300).getDataStmtResult (byteEngine.withIntegers fun n =>
        IntegerValue.ofNative ⟨.bigint, true⟩ n) 1 .default 100 2 200 = .ok got ∧
      ReadsInteger (OdbcHandleStmt.onOnlyRow 300) 300 .short 100 200 got ∧
      (CType.default = .default → ∀ addr bytes, .data addr bytes ∈ got.writes →
        (bytes.length : ℤ) ≤ max 1 2) :=
  integer_fetched (E := byteEngine) (v := 300)
    (n := .native ⟨.bigint, true⟩ 300 (by decide)) rfl rfl
    rfl (by decide) (.inr rfl)

end HaybarnOdbc
