import Mathlib.Data.Nat.Digits.Lemmas
import HaybarnOdbc.ParamValues

/-!
# Decimals as structs

The branch of `GetDataStmtResult` for `SQL_C_NUMERIC` makes a `SQL_NUMERIC_STRUCT` of the
text of a decimal : it takes the sign and the dot out, drops a fraction of zeros, and reads
the digits that are left as one number. The branch of `SQL_NUMERIC` of `SetValue` makes a
decimal of the struct again.
-/

namespace HaybarnOdbc

open MachineInt Bytes

variable {ρ V : Type}

/-- A value of `DECIMAL(width, scale)`. -/
structure DecimalValue where
  unscaled : ℤ
  width : ℕ
  scale : ℕ
  width_pos : 1 ≤ width
  width_le : width ≤ 38
  scale_le : scale ≤ width
  lt : unscaled.natAbs < 10 ^ width

/-! ## Texts of digits -/

/-- `FormatUnsigned` : the decimal digits of a number. -/
def digitsText (n : ℕ) : List Char :=
  if n = 0 then ['0'] else ((Nat.digits 10 n).reverse).map Nat.digitChar

/-- The number of a text of digits. -/
def digitsValue (text : List Char) : ℕ :=
  text.foldl (fun n c => 10 * n + (c.toNat - '0'.toNat)) 0

/-- `TryCast` of a text of digits to a number of `bits` bits. -/
def tryCastDigits (bits : ℕ) (text : List Char) : Option ℕ :=
  if text ≠ [] ∧ text.all Char.isDigit ∧ digitsValue text < 2 ^ (bits - 1) then
    some (digitsValue text)
  else none

theorem foldl_digits (text : List Char) (n : ℕ) :
    text.foldl (fun n c => 10 * n + (c.toNat - '0'.toNat)) n =
      n * 10 ^ text.length + digitsValue text := by
  induction text generalizing n with
  | nil => simp [digitsValue]
  | cons c text ih =>
    rw [digitsValue, List.foldl_cons, List.foldl_cons, ih, ih (10 * 0 + _), List.length_cons,
      pow_succ]
    ring

theorem digitsValue_append (a b : List Char) :
    digitsValue (a ++ b) = digitsValue a * 10 ^ b.length + digitsValue b := by
  rw [digitsValue, List.foldl_append, foldl_digits b]
  rfl

theorem digitsValue_replicate (k : ℕ) : digitsValue (List.replicate k '0') = 0 := by
  induction k with
  | zero => rfl
  | succ k ih =>
    rw [List.replicate_succ', digitsValue_append, ih]
    rfl

theorem digit_of_lt : ∀ d : Fin 10,
    (Nat.digitChar d).toNat - '0'.toNat = d ∧ (Nat.digitChar d).isDigit = true := by
  decide

theorem digitsValue_map {ds : List ℕ} (h : ∀ d ∈ ds, d < 10) :
    digitsValue (ds.map Nat.digitChar) = Nat.ofDigits 10 ds.reverse := by
  induction ds using List.reverseRecOn with
  | nil => rfl
  | append_singleton ds d ih =>
    have hd : d < 10 := h d (by simp)
    rw [List.map_append, digitsValue_append, ih fun e he => h e (by simp [he]),
      List.reverse_append, List.map_singleton, List.reverse_singleton, List.singleton_append,
      Nat.ofDigits_cons]
    show _ * 10 ^ 1 + (10 * 0 + ((Nat.digitChar d).toNat - '0'.toNat)) = _
    rw [(digit_of_lt ⟨d, hd⟩).1]
    simp only
    ring

theorem digitsValue_digitsText (n : ℕ) : digitsValue (digitsText n) = n := by
  unfold digitsText
  by_cases h : n = 0
  · rw [if_pos h, h]
    rfl
  · rw [if_neg h, digitsValue_map fun d hd =>
      Nat.digits_lt_base (by decide) (List.mem_reverse.mp hd),
      List.reverse_reverse, Nat.ofDigits_digits]

theorem isDigit_of_mem_digitsText {n : ℕ} {c : Char} (hc : c ∈ digitsText n) :
    c.isDigit = true := by
  unfold digitsText at hc
  by_cases h : n = 0
  · rw [if_pos h, List.mem_singleton] at hc
    rw [hc]
    rfl
  · rw [if_neg h] at hc
    obtain ⟨d, hd, rfl⟩ := List.mem_map.mp hc
    have hlt : d < 10 := Nat.digits_lt_base (by decide) (List.mem_reverse.mp hd)
    exact (digit_of_lt ⟨d, hlt⟩).2

theorem length_digitsText_le {n k : ℕ} (hk : 1 ≤ k) (h : n < 10 ^ k) :
    (digitsText n).length ≤ k := by
  unfold digitsText
  by_cases h0 : n = 0
  · rw [if_pos h0]
    exact hk
  · rw [if_neg h0, List.length_map, List.length_reverse]
    exact (Nat.digits_length_le_iff (by decide) n).mpr h

theorem digitsText_ne_nil (n : ℕ) : digitsText n ≠ [] := by
  unfold digitsText
  by_cases h : n = 0
  · rw [if_pos h]
    exact List.cons_ne_nil _ _
  · rw [if_neg h]
    simpa using Nat.digits_ne_nil_iff_ne_zero.mpr h

/-- A text of `k` digits stands for a number below `10 ^ k`. -/
theorem digitsValue_lt {text : List Char} (h : ∀ c ∈ text, c.isDigit = true) :
    digitsValue text < 10 ^ text.length := by
  induction text using List.reverseRecOn with
  | nil => decide
  | append_singleton text c ih =>
    have hlt := ih fun d hd => h d (by simp [hd])
    have hc : c.toNat - '0'.toNat < 10 := by
      have hdigit := h c (by simp)
      simp only [Char.isDigit, Bool.and_eq_true, decide_eq_true_eq,
        UInt32.le_iff_toNat_le] at hdigit
      have : c.toNat ≤ 57 := hdigit.2
      show c.toNat - 48 < 10
      omega
    rw [digitsValue_append, List.length_append, pow_add]
    show digitsValue text * 10 ^ 1 + (10 * 0 + (c.toNat - '0'.toNat)) < _ * 10 ^ 1
    omega

theorem tryCastDigits_of_lt (bits : ℕ) {text : List Char} (hne : text ≠ [])
    (hdigit : ∀ c ∈ text, c.isDigit = true) (hlt : digitsValue text < 2 ^ (bits - 1)) :
    tryCastDigits bits text = some (digitsValue text) :=
  if_pos ⟨hne, List.all_eq_true.mpr hdigit, hlt⟩

/-! ## The struct of a decimal -/

/-- `Value::ToString` of a decimal : without an integer digit if the width leaves no room
for one. -/
def decimalToString (x : DecimalValue) : List Char :=
  let n := x.unscaled.natAbs
  let sign := if x.unscaled < 0 then ['-'] else []
  if x.scale = 0 then sign ++ digitsText n
  else
    let minor := digitsText (n % 10 ^ x.scale)
    sign ++ (if x.scale < x.width then digitsText (n / 10 ^ x.scale) else []) ++
      '.' :: (List.replicate (x.scale - minor.length) '0' ++ minor)

/-- `SQL_NUMERIC_STRUCT`. -/
structure SqlNumericStruct where
  precision : ℤ
  scale : ℤ
  sign : ℤ
  val : List UInt8
  deriving DecidableEq, Repr

/-- The struct in memory. -/
def SqlNumericStruct.bytes (s : SqlNumericStruct) : List UInt8 :=
  ofInt 1 s.precision ++ ofInt 1 s.scale ++ ofInt 1 s.sign ++ s.val

/-- The signed integers of 8 bits. -/
def i8 : IntType := ⟨true, 8⟩

/-- The unsigned integers of 8 bits. -/
def u8 : IntType := ⟨false, 8⟩

/-- `val` of a number of digits : 8 bytes of it up to 18 digits, 16 bytes for more. -/
def numericVal (precision : ℤ) (text : List Char) : Option (List UInt8) :=
  if precision ≤ maxWidthInt64 then
    (tryCastDigits 64 text).map fun n => Bytes.ofNat 8 n ++ List.replicate 8 0
  else (tryCastDigits 128 text).map fun n => Bytes.ofNat 16 n

/-- The digits of a text without its sign and its dot, and without a fraction of zeros, and
the number of the digits after the dot. -/
def numericDigits (text : List Char) : List Char × ℤ :=
  if '.' ∈ text then
    let posDot := (text.takeWhile (· ≠ '.')).length
    let text := text.filter (· ≠ '.')
    let fraction := text.drop posDot
    (if fraction ≠ [] ∧ fraction.all (· = '0') then text.take posDot else text,
      i8.wrap (text.length - posDot))
  else (text, 0)

/-- The struct of the text of a decimal. -/
def numericStruct (text : List Char) : Option SqlNumericStruct :=
  let negative : Bool := text.head? = some '-'
  let (digits, scale) := numericDigits (if negative then text.filter (· ≠ '-') else text)
  let precision := u8.wrap digits.length
  (numericVal precision digits).map fun val =>
    { precision, scale, sign := if negative then 0 else 1, val }

/-- A value that is not null, as far as the branch of `SQL_C_NUMERIC` tells values apart. -/
inductive NumericSource
  | decimal (x : DecimalValue)
  | other (typeId : String)

/-- The branch of `GetDataStmtResult` for `SQL_C_NUMERIC`. A number that cannot be cast is an
error without a diagnostic. -/
def getNumericData : NumericSource → Except (List DiagRecord) SqlNumericStruct
  | .other typeId => .error [⟨"ValidateType",
      "Type mismatch error: received " ++ typeId ++ ", but expected DECIMAL", .st07006⟩]
  | .decimal x =>
    match numericStruct (decimalToString x) with
    | some s => .ok s
    | none => .error []

/-! ## What the struct holds -/

namespace DecimalValue

variable (x : DecimalValue)

/-- The digits of the fraction, all of them. -/
def minorText : List Char :=
  List.replicate (x.scale - (digitsText (x.unscaled.natAbs % 10 ^ x.scale)).length) '0' ++
    digitsText (x.unscaled.natAbs % 10 ^ x.scale)

/-- The integer digits, if there is room for one. -/
def majorText : List Char :=
  if x.scale < x.width then digitsText (x.unscaled.natAbs / 10 ^ x.scale) else []

/-- The text of the decimal without its sign. -/
def unsignedText : List Char :=
  if x.scale = 0 then digitsText x.unscaled.natAbs else x.majorText ++ '.' :: x.minorText

/-- The fraction is written, and is zero. -/
def ZeroFraction : Prop := x.scale ≠ 0 ∧ x.unscaled.natAbs % 10 ^ x.scale = 0

instance : Decidable x.ZeroFraction := by
  unfold ZeroFraction
  infer_instance

/-- The digits that the struct is made of. -/
def keptText : List Char :=
  if x.scale = 0 then digitsText x.unscaled.natAbs
  else if x.ZeroFraction then x.majorText else x.majorText ++ x.minorText

theorem isDigit_minorText {c : Char} (hc : c ∈ x.minorText) : c.isDigit = true := by
  obtain hc | hc := List.mem_append.mp hc
  · rw [List.eq_of_mem_replicate hc]
    rfl
  · exact isDigit_of_mem_digitsText hc

theorem isDigit_majorText {c : Char} (hc : c ∈ x.majorText) : c.isDigit = true := by
  unfold majorText at hc
  by_cases h : x.scale < x.width
  · rw [if_pos h] at hc
    exact isDigit_of_mem_digitsText hc
  · rw [if_neg h] at hc
    cases hc

theorem isDigit_keptText {c : Char} (hc : c ∈ x.keptText) : c.isDigit = true := by
  unfold keptText at hc
  by_cases h0 : x.scale = 0
  · rw [if_pos h0] at hc
    exact isDigit_of_mem_digitsText hc
  · rw [if_neg h0] at hc
    by_cases hz : x.ZeroFraction
    · rw [if_pos hz] at hc
      exact x.isDigit_majorText hc
    · rw [if_neg hz] at hc
      obtain hc | hc := List.mem_append.mp hc
      · exact x.isDigit_majorText hc
      · exact x.isDigit_minorText hc

variable {x}

theorem length_minorText (hs : x.scale ≠ 0) : x.minorText.length = x.scale := by
  have hle := length_digitsText_le (Nat.one_le_iff_ne_zero.mpr hs)
    (Nat.mod_lt x.unscaled.natAbs (Nat.pow_pos (by decide : 0 < 10)))
  rw [minorText, List.length_append, List.length_replicate]
  omega

theorem digitsValue_minorText : digitsValue x.minorText = x.unscaled.natAbs % 10 ^ x.scale := by
  rw [minorText, digitsValue_append, digitsValue_replicate, digitsValue_digitsText, zero_mul,
    zero_add]

theorem digitsValue_majorText : digitsValue x.majorText = x.unscaled.natAbs / 10 ^ x.scale := by
  unfold majorText
  by_cases h : x.scale < x.width
  · rw [if_pos h, digitsValue_digitsText]
  · have hsw : x.scale = x.width := le_antisymm x.scale_le (not_lt.mp h)
    rw [if_neg h, hsw, Nat.div_eq_of_lt x.lt]
    rfl

theorem length_majorText_le : x.majorText.length + x.scale ≤ x.width := by
  unfold majorText
  by_cases h : x.scale < x.width
  · rw [if_pos h]
    have hlt : x.unscaled.natAbs / 10 ^ x.scale < 10 ^ (x.width - x.scale) := by
      rw [Nat.div_lt_iff_lt_mul (Nat.pow_pos (by decide)), ← pow_add,
        Nat.sub_add_cancel x.scale_le]
      exact x.lt
    have hle := length_digitsText_le (by omega) hlt
    omega
  · rw [if_neg h, List.length_nil, zero_add]
    exact x.scale_le

theorem length_keptText_le : x.keptText.length ≤ x.width := by
  unfold keptText
  by_cases hs : x.scale = 0
  · rw [if_pos hs]
    exact length_digitsText_le x.width_pos x.lt
  · have hmajor := x.length_majorText_le
    rw [if_neg hs]
    by_cases hz : x.ZeroFraction
    · rw [if_pos hz]
      omega
    · rw [if_neg hz, List.length_append, length_minorText hs]
      exact hmajor

/-- The digits stand for the number, unless the fraction is zero : then for its integer
part. -/
theorem digitsValue_keptText : digitsValue x.keptText =
    if x.ZeroFraction then x.unscaled.natAbs / 10 ^ x.scale else x.unscaled.natAbs := by
  unfold keptText
  by_cases hs : x.scale = 0
  · have hz : ¬x.ZeroFraction := fun hz => hz.1 hs
    rw [if_pos hs, if_neg hz, digitsValue_digitsText]
  · rw [if_neg hs]
    by_cases hz : x.ZeroFraction
    · rw [if_pos hz, if_pos hz, digitsValue_majorText]
    · rw [if_neg hz, if_neg hz, digitsValue_append, digitsValue_majorText, digitsValue_minorText,
        length_minorText hs, Nat.div_add_mod']

theorem keptText_eq_nil_iff : x.keptText = [] ↔ x.ZeroFraction ∧ x.scale = x.width := by
  unfold keptText majorText
  by_cases hs : x.scale = 0
  · rw [if_pos hs]
    exact iff_of_false (digitsText_ne_nil _) fun h => h.1.1 hs
  · rw [if_neg hs]
    by_cases hz : x.ZeroFraction
    · have hle := x.scale_le
      rw [if_pos hz]
      by_cases hlt : x.scale < x.width
      · rw [if_pos hlt]
        exact iff_of_false (digitsText_ne_nil _) fun h => by omega
      · rw [if_neg hlt]
        exact iff_of_true rfl ⟨hz, by omega⟩
    · rw [if_neg hz]
      refine iff_of_false (fun h => ?_) fun h => hz h.1
      have hnil := (List.append_eq_nil_iff.mp h).2
      have hlen := length_minorText hs
      rw [hnil, List.length_nil] at hlen
      exact hs hlen.symm

theorem decimalToString_eq : decimalToString x =
    (if x.unscaled < 0 then ['-'] else []) ++ x.unsignedText := by
  unfold decimalToString unsignedText majorText minorText
  by_cases hs : x.scale = 0
  · simp only [if_pos hs]
  · simp only [if_neg hs, List.append_assoc]

theorem ne_of_isDigit {c d : Char} (hc : c.isDigit = true) (hd : d.isDigit = false) : c ≠ d := by
  rintro rfl
  exact Bool.noConfusion (hc.symm.trans hd)

/-- The text has no sign but in front. -/
theorem unsignedText_ne_minus {c : Char} (hc : c ∈ x.unsignedText) : c ≠ '-' := by
  unfold unsignedText at hc
  by_cases hs : x.scale = 0
  · rw [if_pos hs] at hc
    exact ne_of_isDigit (isDigit_of_mem_digitsText hc) rfl
  · rw [if_neg hs] at hc
    obtain hc | hc := List.mem_append.mp hc
    · exact ne_of_isDigit (x.isDigit_majorText hc) rfl
    · obtain rfl | hc := List.mem_cons.mp hc
      · decide
      · exact ne_of_isDigit (x.isDigit_minorText hc) rfl

theorem all_minorText_iff (hs : x.scale ≠ 0) :
    (x.minorText ≠ [] ∧ (x.minorText.all (· = '0')) = true) ↔ x.ZeroFraction := by
  have hlen := length_minorText hs
  constructor
  · rintro ⟨-, hall⟩
    have hzero : x.minorText = List.replicate x.minorText.length '0' :=
      List.eq_replicate_iff.mpr
        ⟨rfl, fun c hc => of_decide_eq_true (List.all_eq_true.mp hall c hc)⟩
    refine ⟨hs, ?_⟩
    rw [← digitsValue_minorText, hzero, digitsValue_replicate]
  · intro hz
    refine ⟨fun h => hs (by rw [← hlen, h]; rfl), List.all_eq_true.mpr fun c hc => ?_⟩
    rw [minorText, hz.2] at hc
    obtain hc | hc := List.mem_append.mp hc
    · exact decide_eq_true (List.eq_of_mem_replicate hc)
    · exact decide_eq_true (List.mem_singleton.mp hc)

/-- The text without its sign gives the kept digits and the scale. -/
theorem numericDigits_unsignedText :
    numericDigits x.unsignedText = (x.keptText, (x.scale : ℤ)) := by
  unfold numericDigits unsignedText keptText
  by_cases hs : x.scale = 0
  · have hdot : '.' ∉ digitsText x.unscaled.natAbs := fun h =>
      ne_of_isDigit (isDigit_of_mem_digitsText h) (rfl : Char.isDigit '.' = false) rfl
    rw [if_pos hs, if_neg hdot, if_pos hs, hs]
    rfl
  · have hmajor : ∀ c ∈ x.majorText, decide (c ≠ '.') = true := fun c hc =>
      decide_eq_true (ne_of_isDigit (x.isDigit_majorText hc) rfl)
    have hminor : ∀ c ∈ x.minorText, decide (c ≠ '.') = true := fun c hc =>
      decide_eq_true (ne_of_isDigit (x.isDigit_minorText hc) rfl)
    have hpos : (x.majorText ++ '.' :: x.minorText).takeWhile (· ≠ '.') = x.majorText := by
      rw [List.takeWhile_append_of_pos hmajor]
      exact List.append_nil _
    have hfilter : (x.majorText ++ '.' :: x.minorText).filter (· ≠ '.') =
        x.majorText ++ x.minorText := by
      rw [List.filter_append, List.filter_eq_self.mpr hmajor]
      exact congrArg _ (List.filter_eq_self.mpr hminor)
    have hscale : i8.wrap (((x.majorText ++ x.minorText).length : ℤ) - x.majorText.length) =
        x.scale := by
      have hle := x.scale_le.trans x.width_le
      rw [List.length_append, length_minorText hs, Nat.cast_add, add_sub_cancel_left]
      refine IntType.wrap_of_fits (by decide) ⟨?_, ?_⟩
      · show -2 ^ 7 ≤ (x.scale : ℤ)
        omega
      · show (x.scale : ℤ) < 2 ^ 7
        omega
    rw [if_neg hs, if_pos (List.mem_append_right _ (List.mem_cons_self ..)), if_neg hs]
    dsimp only
    rw [hpos, hfilter, List.drop_left, List.take_left, hscale]
    by_cases hz : x.ZeroFraction
    · rw [if_pos ((all_minorText_iff hs).mpr hz), if_pos hz]
    · rw [if_neg fun h => hz ((all_minorText_iff hs).mp h), if_neg hz]

theorem numericStruct_eq : numericStruct (decimalToString x) =
    (numericVal (u8.wrap x.keptText.length) x.keptText).map fun val =>
      { precision := u8.wrap x.keptText.length, scale := x.scale,
        sign := if x.unscaled < 0 then 0 else 1, val } := by
  have hfilter : x.unsignedText.filter (· ≠ '-') = x.unsignedText :=
    List.filter_eq_self.mpr fun c hc => decide_eq_true (unsignedText_ne_minus hc)
  unfold numericStruct
  rw [decimalToString_eq]
  by_cases hneg : x.unscaled < 0
  · have hhead : (['-'] ++ x.unsignedText).head? = some '-' := rfl
    have hbody : (['-'] ++ x.unsignedText).filter (· ≠ '-') = x.unsignedText := hfilter
    rw [if_pos hneg, if_pos hneg]
    simp only [hhead, decide_true, if_true, hbody, numericDigits_unsignedText]
  · have hhead : ¬x.unsignedText.head? = some '-' := fun h =>
      unsignedText_ne_minus (List.mem_of_mem_head? h) rfl
    rw [if_neg hneg, if_neg hneg, List.nil_append]
    simp only [hhead, decide_false, Bool.false_eq_true, if_false, numericDigits_unsignedText]

/-- A number of at most 38 digits is written into `val`, and one of at most 18 digits into its
lower half. -/
theorem numericVal_spec {text : List Char} (hne : text ≠ [])
    (hdigit : ∀ c ∈ text, c.isDigit = true) (hlen : text.length ≤ 38) :
    ∃ val, numericVal (u8.wrap text.length) text = some val ∧ val.length = 16 ∧
      toNat val = digitsValue text := by
  have hvalue := digitsValue_lt hdigit
  have hprecision : u8.wrap text.length = text.length :=
    IntType.wrap_of_fits (by decide) ⟨by show (0 : ℤ) ≤ _; omega, by show _ < (2 : ℤ) ^ 8; omega⟩
  rw [hprecision, numericVal]
  by_cases h18 : text.length ≤ 18
  · have hle : 10 ^ text.length ≤ 10 ^ 18 := Nat.pow_le_pow_right (by decide) h18
    have hcast := tryCastDigits_of_lt 64 hne hdigit (by omega)
    rw [if_pos (by simpa [maxWidthInt64] using h18), hcast]
    refine ⟨_, rfl, by simp, ?_⟩
    rw [toNat_append, toNat_ofNat, toNat_replicate_zero, Nat.mod_eq_of_lt (by omega)]
    rfl
  · have hle : 10 ^ text.length ≤ 10 ^ 38 := Nat.pow_le_pow_right (by decide) hlen
    have hcast := tryCastDigits_of_lt 128 hne hdigit (by omega)
    rw [if_neg (by simpa [maxWidthInt64] using h18), hcast]
    refine ⟨_, rfl, length_ofNat _ _, ?_⟩
    rw [toNat_ofNat, Nat.mod_eq_of_lt (by omega)]

/-- The struct of a decimal : it is there as soon as a digit is kept, and holds the kept
digits. -/
theorem numericStruct_spec (hne : x.keptText ≠ []) : ∃ st,
    numericStruct (decimalToString x) = some st ∧ st.val.length = 16 ∧
      toNat st.val = digitsValue x.keptText ∧ st.scale = x.scale ∧
      st.sign = if x.unscaled < 0 then 0 else 1 := by
  obtain ⟨val, hval, hlen, hvalue⟩ := numericVal_spec hne (fun c hc => x.isDigit_keptText hc)
    (x.length_keptText_le.trans x.width_le)
  rw [numericStruct_eq, hval]
  exact ⟨_, rfl, hlen, hvalue, rfl, rfl⟩

theorem numericStruct_eq_none (hnil : x.keptText = []) :
    numericStruct (decimalToString x) = none := by
  rw [numericStruct_eq, hnil]
  rfl

end DecimalValue

/-! ## What the struct is read as -/

/-- The number that the struct stands for. -/
def SqlNumericStruct.value (st : SqlNumericStruct) : ℚ :=
  (if st.sign ≠ 0 then 1 else -1) * toNat st.val * 10 ^ (-st.scale)

/-- The number of a decimal. -/
def DecimalValue.value (x : DecimalValue) : ℚ := x.unscaled * 10 ^ (-(x.scale : ℤ))

/-- A number of at most `width` digits fits the storage of its width. -/
theorem decimalOfInt64_of_lt {n : ℤ} {width : ℕ} {scale : ℤ} (h18 : width ≤ 18)
    (hlt : n.natAbs < 10 ^ width) :
    decimalOfInt64 n width scale = .ok (.decimal n width scale) := by
  have hpow : ∀ k, width ≤ k → 10 ^ width ≤ 10 ^ k := fun k hk =>
    Nat.pow_le_pow_right (by decide) hk
  refine if_pos ?_
  unfold decimalStorage
  by_cases h4 : width ≤ 4
  · have hle := hpow 4 h4
    rw [if_pos (by omega), fits_i16]
    omega
  · rw [if_neg (by omega)]
    by_cases h9 : width ≤ 9
    · have hle := hpow 9 h9
      rw [if_pos (by omega), fits_i32]
      omega
    · have hle := hpow 18 h18
      rw [if_neg (by omega), fits_i64]
      omega

namespace SqlNumericStruct

variable {st : SqlNumericStruct}

theorem field_val (h : st.val.length = 16) : field st.bytes 3 16 = st.val := by
  have hdrop : st.bytes.drop 3 = st.val := List.drop_left' (by simp)
  rw [field, hdrop, ← h, List.take_length]

theorem field_low : field st.bytes 3 8 = st.val.take 8 := by
  have hdrop : st.bytes.drop 3 = st.val := List.drop_left' (by simp)
  rw [field, hdrop]

theorem field_sign : field st.bytes 2 1 = ofInt 1 st.sign := by
  have hdrop : st.bytes.drop 2 = ofInt 1 st.sign ++ st.val := by
    rw [bytes, List.append_assoc]
    exact List.drop_left' (by simp)
  rw [field, hdrop]
  exact List.take_left' (by simp)

/-- The number in the lower half of `val`, if it is small. -/
theorem toNat_take_val (h : st.val.length = 16) (hlt : toNat st.val < 256 ^ 8) :
    toNat (st.val.take 8) = toNat st.val := by
  have hlen : (st.val.take 8).length = 8 := by rw [List.length_take, h]; rfl
  have happ := toNat_append (st.val.take 8) (st.val.drop 8)
  rw [List.take_append_drop, hlen] at happ
  have hhigh : toNat (st.val.drop 8) = 0 := by
    by_contra hne
    have : 256 ^ 8 * 1 ≤ 256 ^ 8 * toNat (st.val.drop 8) :=
      Nat.mul_le_mul_left _ (Nat.one_le_iff_ne_zero.mpr hne)
    omega
  rw [happ, hhigh, mul_zero, add_zero]

/-- A struct whose number has at most `width` digits is read as the decimal of its number. -/
theorem numericValue_bytes {width : ℕ} {scale : ℤ} (hval : st.val.length = 16)
    (hsign : st.sign = 0 ∨ st.sign = 1) (hwidth : width ≤ 38)
    (hlt : toNat st.val < 10 ^ width) :
    numericValue width scale st.bytes =
      .ok (.decimal (if st.sign = 0 then -(toNat st.val : ℤ) else toNat st.val) width scale) := by
  have hnegative : toNat (field st.bytes 2 1) = 0 ↔ st.sign = 0 := by
    rw [field_sign]
    obtain h | h := hsign <;> rw [h] <;> decide
  unfold numericValue
  by_cases h18 : width ≤ 18
  · have hle : 10 ^ width ≤ 10 ^ 18 := Nat.pow_le_pow_right (by decide) h18
    have hread : toInt (field st.bytes 3 8) = toNat st.val := by
      rw [field_low, toInt, toNat_take_val hval (by omega), List.length_take, hval,
        if_pos (by norm_num; omega)]
    have hfits : i64.wrap (-(toNat st.val : ℤ)) = -(toNat st.val : ℤ) :=
      IntType.wrap_of_fits (by decide) (fits_i64.mpr (by omega))
    have h18' : (width : ℤ) ≤ maxWidthInt64 := by simpa [maxWidthInt64] using h18
    rw [if_pos h18']
    dsimp only
    rw [hread, hfits]
    by_cases hs : st.sign = 0
    · rw [if_pos hs, if_pos (decide_eq_true (hnegative.mpr hs)),
        decimalOfInt64_of_lt h18 (by omega)]
    · rw [if_neg hs, if_neg (by simpa [hnegative] using hs), decimalOfInt64_of_lt h18 (by omega)]
  · have hle : 10 ^ width ≤ 10 ^ 38 := Nat.pow_le_pow_right (by decide) hwidth
    have hread : toInt (field st.bytes 3 16) = toNat st.val := by
      rw [field_val hval, toInt, hval, if_pos (by omega)]
    have hfits : i128.wrap (-(toNat st.val : ℤ)) = -(toNat st.val : ℤ) :=
      IntType.wrap_of_fits (by decide) ⟨by show -(2 : ℤ) ^ 127 ≤ _; omega,
        by show _ < (2 : ℤ) ^ 127; omega⟩
    have h18' : ¬(width : ℤ) ≤ maxWidthInt64 := by simpa [maxWidthInt64] using h18
    rw [if_neg h18']
    dsimp only
    rw [hread, hfits]
    by_cases hs : st.sign = 0
    · rw [if_pos hs, if_pos (decide_eq_true (hnegative.mpr hs))]
    · rw [if_neg hs, if_neg (by simpa [hnegative] using hs)]

end SqlNumericStruct

/-- `SQL_C_NUMERIC`. -/
def sqlCNumeric : ℤ := 2

/-- A record is bound to the struct : as an `SQL_NUMERIC` parameter of a precision and the
scale of the struct, whose element of a parameter set holds it. -/
def Talk.BindsNumeric (t : Talk ρ V) (recIdx valIdx : ℕ) (st : SqlNumericStruct)
    (precision : ℤ) : Prop :=
  ∃ apdRecord ipdRecord : DescRecord,
    t.Reads recIdx valIdx apdRecord ipdRecord ∧
    apdRecord.type = sqlCNumeric ∧ ipdRecord.type = sqlNumeric ∧
    ipdRecord.precision = precision ∧ ipdRecord.scale = st.scale ∧
    Buffer.load (t.mem.block apdRecord.dataPtr) (valIdx * 19) 19 = some st.bytes

/-- The value of a parameter that is bound to a struct. -/
theorem Talk.BindsNumeric.boundParam_eq {t : Talk ρ V} {recIdx valIdx : ℕ} {st : SqlNumericStruct}
    {precision : ℤ} {v : EngineValue} (h : t.BindsNumeric recIdx valIdx st precision)
    (hvalid : validateNumeric precision st.scale = true)
    (hv : numericValue precision st.scale st.bytes = .ok v) :
    t.boundParam recIdx valIdx = some (.value v, t.mem) := by
  obtain ⟨apdRecord, ipdRecord, hreads, hc, hsql, rfl, hscale, hload⟩ := h
  have hfixed : IsFixed apdRecord ipdRecord 19 :=
    { size_eq := by rw [hsql]; rfl
      notText := by rw [hc]; decide
      valid := fun _ => by rw [hscale, hvalid] }
  have hvalue : fixedValue ipdRecord.type apdRecord.type ipdRecord.precision ipdRecord.scale
      st.bytes = .ok v := by
    rw [hsql, hscale, ← hv]
    rfl
  rw [hreads.boundParam_fixed hfixed hload, hvalue]

/-- The struct of a decimal has the value of the decimal, and is the decimal again when it is
bound. -/
def NumericRoundTrips (ρ V : Type) (x : DecimalValue) : Prop :=
  ∃ st, getNumericData (.decimal x) = .ok st ∧ st.value = x.value ∧
    ∀ (t : Talk ρ V) (recIdx valIdx : ℕ), t.BindsNumeric recIdx valIdx st x.width →
      t.boundParam recIdx valIdx = some (.value (.decimal x.unscaled x.width x.scale), t.mem)

namespace DecimalValue

variable {x : DecimalValue}

/-- The struct stands for the kept digits, at the scale of the decimal. -/
theorem value_eq_iff {st : SqlNumericStruct} (hval : toNat st.val = digitsValue x.keptText)
    (hscale : st.scale = x.scale) (hsign : st.sign = if x.unscaled < 0 then 0 else 1) :
    st.value = x.value ↔ digitsValue x.keptText = x.unscaled.natAbs := by
  have hpow : (10 : ℚ) ^ (-(x.scale : ℤ)) ≠ 0 := zpow_ne_zero _ (by norm_num)
  unfold SqlNumericStruct.value DecimalValue.value
  rw [hscale, mul_left_inj' hpow, hval, hsign]
  by_cases hneg : x.unscaled < 0
  · rw [if_pos hneg, if_neg (by decide), neg_one_mul]
    constructor
    · intro h
      have hint : -(digitsValue x.keptText : ℤ) = x.unscaled := by exact_mod_cast h
      omega
    · intro h
      have hint : -(digitsValue x.keptText : ℤ) = x.unscaled := by omega
      exact_mod_cast hint
  · rw [if_neg hneg, if_pos (by decide), one_mul]
    constructor
    · intro h
      have hint : (digitsValue x.keptText : ℤ) = x.unscaled := by exact_mod_cast h
      omega
    · intro h
      have hint : (digitsValue x.keptText : ℤ) = x.unscaled := by omega
      exact_mod_cast hint

/-- The kept digits are there and are the whole number if the fraction is not zero, or if
zero keeps its integer digit. -/
theorem keeps_iff : (x.keptText ≠ [] ∧ digitsValue x.keptText = x.unscaled.natAbs) ↔
    x.scale = 0 ∨ x.unscaled.natAbs % 10 ^ x.scale ≠ 0 ∨ (x.unscaled = 0 ∧ x.scale < x.width) := by
  have hle := x.scale_le
  rw [Ne, keptText_eq_nil_iff, digitsValue_keptText]
  by_cases hz : x.ZeroFraction
  · have ⟨hs, hmod⟩ := hz
    have hdiv : x.unscaled.natAbs / 10 ^ x.scale = x.unscaled.natAbs ↔ x.unscaled = 0 := by
      refine ⟨fun h => ?_, fun h => by rw [h, Int.natAbs_zero, Nat.zero_div]⟩
      by_contra hne
      have hlt := Nat.div_lt_self (Int.natAbs_pos.mpr hne) (Nat.one_lt_pow hs (by decide : 1 < 10))
      omega
    rw [if_pos hz, hdiv]
    constructor
    · rintro ⟨hw, h0⟩
      exact .inr (.inr ⟨h0, lt_of_le_of_ne hle fun h => hw ⟨hz, h⟩⟩)
    · rintro (h | h | ⟨h0, hlt⟩)
      · exact absurd h hs
      · exact absurd hmod h
      · exact ⟨fun h => hlt.ne h.2, h0⟩
  · rw [if_neg hz]
    refine iff_of_true ⟨fun h => hz h.1, rfl⟩ ?_
    by_cases hs : x.scale = 0
    · exact .inl hs
    · exact .inr (.inl fun hmod => hz ⟨hs, hmod⟩)

/-- A struct of the kept digits that are the whole number is read as the decimal. -/
theorem numericValue_eq {st : SqlNumericStruct} (hlen : st.val.length = 16)
    (hval : toNat st.val = digitsValue x.keptText)
    (hsign : st.sign = if x.unscaled < 0 then 0 else 1)
    (heq : digitsValue x.keptText = x.unscaled.natAbs) :
    numericValue x.width x.scale st.bytes = .ok (.decimal x.unscaled x.width x.scale) := by
  have hsign01 : st.sign = 0 ∨ st.sign = 1 := by
    rw [hsign]
    exact (ite_eq_or_eq _ _ _).imp id id
  have hlt : toNat st.val < 10 ^ x.width := by
    rw [hval, heq]
    exact x.lt
  have hnumber : (if st.sign = 0 then -(toNat st.val : ℤ) else toNat st.val) = x.unscaled := by
    rw [hval, heq, hsign]
    by_cases hneg : x.unscaled < 0
    · rw [if_pos hneg, if_pos rfl]
      omega
    · rw [if_neg hneg, if_neg (by decide)]
      omega
  rw [SqlNumericStruct.numericValue_bytes hlen hsign01 x.width_le hlt, hnumber]

end DecimalValue

/-- A decimal survives the struct exactly if it has no fraction digits, or one that is not
zero, or is a zero with an integer digit. -/
theorem numericRoundTrips_iff (x : DecimalValue) : NumericRoundTrips ρ V x ↔
    x.scale = 0 ∨ x.unscaled.natAbs % 10 ^ x.scale ≠ 0 ∨
      (x.unscaled = 0 ∧ x.scale < x.width) := by
  rw [← x.keeps_iff]
  constructor
  · rintro ⟨st, hst, hvalue, -⟩
    have hne : x.keptText ≠ [] := fun hnil => by
      rw [getNumericData, DecimalValue.numericStruct_eq_none hnil] at hst
      cases hst
    obtain ⟨st', hst', -, hval, hscale, hsign⟩ := DecimalValue.numericStruct_spec hne
    rw [getNumericData, hst'] at hst
    obtain rfl := Except.ok.inj hst
    exact ⟨hne, (DecimalValue.value_eq_iff hval hscale hsign).mp hvalue⟩
  · rintro ⟨hne, heq⟩
    obtain ⟨st, hst, hlen, hval, hscale, hsign⟩ := DecimalValue.numericStruct_spec hne
    refine ⟨st, by rw [getNumericData, hst],
      (DecimalValue.value_eq_iff hval hscale hsign).mpr heq, fun t recIdx valIdx hbinds => ?_⟩
    have hvalid : validateNumeric x.width st.scale = true := by
      have := x.width_pos
      have := x.width_le
      have := x.scale_le
      rw [hscale, validateNumeric, decide_eq_true_eq]
      omega
    refine hbinds.boundParam_eq hvalid ?_
    rw [hscale]
    exact DecimalValue.numericValue_eq hlen hval hsign heq

/-- `42.00` as `DECIMAL(5,2)`. -/
def fortyTwo : DecimalValue where
  unscaled := 4200
  width := 5
  scale := 2
  width_pos := by decide
  width_le := by decide
  scale_le := by decide
  lt := by decide

/-- `42.00` is fetched as `0.42` : the fraction is dropped, and the scale is not. -/
theorem numeric_loses_scale : ¬NumericRoundTrips Unit Unit fortyTwo := by
  rintro ⟨st, hst, hvalue, -⟩
  have hfetched : getNumericData (.decimal fortyTwo) = .ok ⟨2, 2, 1, Bytes.ofNat 16 42⟩ := by
    rfl
  obtain rfl := Except.ok.inj (hfetched.symm.trans hst)
  have hval : toNat (Bytes.ofNat 16 42) = 42 := by decide
  norm_num [SqlNumericStruct.value, DecimalValue.value, fortyTwo, hval] at hvalue

end HaybarnOdbc
