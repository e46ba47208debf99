import Mathlib.Algebra.Order.Ring.Int
import HaybarnOdbc.Lib.Outcome
import HaybarnOdbc.Lib.Unicode

/-!
# The vendored UTF conversion library

What the driver uses of `third_party/utf8` : `append`, `utf16to8`, `next` and `utf8to16` of
the unchecked half, `validate_next`, `find_invalid` and `replace_invalid` of the checked one.
An iterator is what is left of the sequence from it on. The unchecked `next` does not know
the end of its input; a read beyond it is `none`.

On the encoding of a text every one of them does what the standard says
(`append_eq`, `validateNext_encode`, `next_encode`), and so do the loops over them
(`utf16to8_encode`, `utf8to16_encode`, `findInvalid_encode`).
-/

namespace HaybarnOdbc.Utf8Cpp

open Unicode Outcome

/-! ## Units and code points -/

/-- `SURROGATE_OFFSET`. -/
def surrogateOffset : ℕ := 0xfca02400

/-- `LEAD_OFFSET`. -/
def leadOffset : ℕ := 0xd7c0

/-- `TRAIL_SURROGATE_MIN`. -/
def trailSurrogateMin : ℕ := 0xdc00

/-- `CODE_POINT_MAX`. -/
def codePointMax : ℕ := 0x0010ffff

/-- `utf8::internal::mask8`. -/
def mask8 (oc : UInt8) : ℕ := 0xff &&& oc.toNat

/-- `utf8::internal::mask16`. -/
def mask16 (oc : UInt16) : ℕ := 0xffff &&& oc.toNat

/-- `is_trail`. -/
def isTrail (oc : UInt8) : Bool := mask8 oc >>> 6 == 0x2

/-- `is_lead_surrogate`. -/
def isLeadSurrogate (cp : ℕ) : Bool := 0xd800 ≤ cp && cp ≤ 0xdbff

/-- `is_trail_surrogate`. -/
def isTrailSurrogate (cp : ℕ) : Bool := trailSurrogateMin ≤ cp && cp ≤ 0xdfff

/-- `is_surrogate`. -/
def isSurrogate (cp : ℕ) : Bool := 0xd800 ≤ cp && cp ≤ 0xdfff

/-- `is_code_point_valid`. -/
def isCodePointValid (cp : ℕ) : Bool := cp ≤ codePointMax && !isSurrogate cp

/-- The length of the sequence that a lead octet announces, 0 for an octet that is none. -/
def sequenceLength (leadOctet : UInt8) : ℕ :=
  let lead := mask8 leadOctet
  if lead < 0x80 then 1
  else if lead >>> 5 == 0x6 then 2
  else if lead >>> 4 == 0xe then 3
  else if lead >>> 3 == 0x1e then 4
  else 0

/-- `is_overlong_sequence`. -/
def isOverlongSequence (cp length : ℕ) : Bool :=
  if cp < 0x80 then length != 1
  else if cp < 0x800 then length != 2
  else if cp < 0x10000 then length != 3
  else false

@[simp] theorem mask8_eq (oc : UInt8) : mask8 oc = oc.toNat := by
  have hlt := oc.toNat_lt
  rw [mask8, Nat.and_comm, Nat.and_two_pow_sub_one_eq_mod _ 8]
  omega

@[simp] theorem mask16_eq (oc : UInt16) : mask16 oc = oc.toNat := by
  have hlt := oc.toNat_lt
  rw [mask16, Nat.and_comm, Nat.and_two_pow_sub_one_eq_mod _ 16]
  omega

@[simp] theorem isLeadSurrogate_eq (u : UInt16) : isLeadSurrogate u.toNat = decide (Lead u) := by
  rw [Bool.eq_iff_iff, decide_eq_true_iff]
  simp [isLeadSurrogate, Lead]

@[simp] theorem isTrailSurrogate_eq (u : UInt16) :
    isTrailSurrogate u.toNat = decide (Trail u) := by
  rw [Bool.eq_iff_iff, decide_eq_true_iff]
  simp only [isTrailSurrogate, Bool.and_eq_true, decide_eq_true_eq]
  rfl

theorem isCodePointValid_char (c : Char) : isCodePointValid c.toNat = true := by
  have hc := toNat_char_lt c
  simp only [isCodePointValid, isSurrogate, Bool.and_eq_true, Bool.not_eq_true',
    Bool.and_eq_false_iff, decide_eq_true_eq, decide_eq_false_iff_not]
  unfold codePointMax
  omega

/-! ## The unchecked half -/

/-- `append` : the octets of a code point. -/
def append (cp : ℕ) : List UInt8 :=
  if cp < 0x80 then [UInt8.ofNat cp]
  else if cp < 0x800 then [UInt8.ofNat (cp >>> 6 ||| 0xc0), UInt8.ofNat (cp &&& 0x3f ||| 0x80)]
  else if cp < 0x10000 then
    [UInt8.ofNat (cp >>> 12 ||| 0xe0), UInt8.ofNat (cp >>> 6 &&& 0x3f ||| 0x80),
      UInt8.ofNat (cp &&& 0x3f ||| 0x80)]
  else
    [UInt8.ofNat (cp >>> 18 ||| 0xf0), UInt8.ofNat (cp >>> 12 &&& 0x3f ||| 0x80),
      UInt8.ofNat (cp >>> 6 &&& 0x3f ||| 0x80), UInt8.ofNat (cp &&& 0x3f ||| 0x80)]

/-- `unchecked::utf16to8`. -/
def utf16to8 : List UInt16 → List UInt8
  | [] => []
  | u :: start =>
    let cp := mask16 u
    -- take care of surrogate pairs first
    if isLeadSurrogate cp then
      match start with
      | [] => []
      | t :: start => append (((cp <<< 10) + mask16 t + surrogateOffset) % 2 ^ 32) ++ utf16to8 start
    else append cp ++ utf16to8 start

/-- `unchecked::next` : the code point of the sequence at the iterator, and the iterator
after it. `none` is a read beyond the end of the input. -/
def next : List UInt8 → Option (ℕ × List UInt8)
  | [] => none
  | lead :: it =>
    let cp := mask8 lead
    match sequenceLength lead, it with
    | 2, b :: it => some (((cp <<< 6) &&& 0x7ff) + (b.toNat &&& 0x3f), it)
    | 3, b :: c :: it =>
      some (((cp <<< 12) &&& 0xffff) + ((mask8 b <<< 6) &&& 0xfff) + (c.toNat &&& 0x3f), it)
    | 4, b :: c :: d :: it =>
      some (((cp <<< 18) &&& 0x1fffff) + ((mask8 b <<< 12) &&& 0x3ffff)
        + ((mask8 c <<< 6) &&& 0xfff) + (d.toNat &&& 0x3f), it)
    | 2, _ => none
    | 3, _ => none
    | 4, _ => none
    | _, it => some (cp, it)

/-- The units that `utf8to16` stores for a code point. -/
def units (cp : ℕ) : List UInt16 :=
  if cp > 0xffff then
    [UInt16.ofNat ((cp >>> 10) + leadOffset), UInt16.ofNat ((cp &&& 0x3ff) + trailSurrogateMin)]
  else [UInt16.ofNat cp]

theorem length_lt_of_next {u it : List UInt8} {cp : ℕ} (h : next u = some (cp, it)) :
    it.length < u.length := by
  fun_cases next u <;> simp_all [next]
  all_goals omega

/-- `unchecked::utf8to16`. -/
def utf8to16 (start : List UInt8) : Option (List UInt16) :=
  match start with
  | [] => some []
  | b :: bs =>
    match _h : next (b :: bs) with
    | none => none
    | some (cp, it) => (utf8to16 it).map (units cp ++ ·)
  termination_by start.length
  decreasing_by exact length_lt_of_next ‹_›

/-! ## The checked half -/

/-- `utf_error`, without `UTF8_OK`. -/
inductive UtfError
  | notEnoughRoom
  | invalidLead
  | incompleteSequence
  | overlongSequence
  | invalidCodePoint
  deriving DecidableEq, Repr

/-- `increase_safely` : the octet after the iterator and the iterator on it. -/
def increaseSafely : List UInt8 → Except UtfError (UInt8 × List UInt8)
  | [] => .error .notEnoughRoom
  | b :: it => if !isTrail b then .error .incompleteSequence else .ok (b, it)

/-- `get_sequence_1` to `get_sequence_4` : the code point of a sequence of the length that
its lead octet announces, and what comes after the sequence. -/
def getSequence (lead : UInt8) (it : List UInt8) : ℕ → Except UtfError (ℕ × List UInt8)
  | 1 => .ok (mask8 lead, it)
  | 2 => do
    let (b, it) ← increaseSafely it
    return (((mask8 lead <<< 6) &&& 0x7ff) + (b.toNat &&& 0x3f), it)
  | 3 => do
    let (b, it) ← increaseSafely it
    let (c, it) ← increaseSafely it
    return (((mask8 lead <<< 12) &&& 0xffff) + ((mask8 b <<< 6) &&& 0xfff) + (c.toNat &&& 0x3f), it)
  | 4 => do
    let (b, it) ← increaseSafely it
    let (c, it) ← increaseSafely it
    let (d, it) ← increaseSafely it
    return (((mask8 lead <<< 18) &&& 0x1fffff) + ((mask8 b <<< 12) &&& 0x3ffff)
      + ((mask8 c <<< 6) &&& 0xfff) + (d.toNat &&& 0x3f), it)
  | _ => .error .invalidLead

/-- `validate_next` : the code point at the iterator and the iterator after it. -/
def validateNext : List UInt8 → Except UtfError (ℕ × List UInt8)
  | [] => .error .notEnoughRoom
  | lead :: it => do
    let length := sequenceLength lead
    let (cp, it) ← getSequence lead it length
    if isCodePointValid cp then
      if !isOverlongSequence cp length then return (cp, it) else .error .overlongSequence
    else .error .invalidCodePoint

theorem increaseSafely_ok {it it' : List UInt8} {b : UInt8} (h : increaseSafely it = .ok (b, it')) :
    isTrail b ∧ it = b :: it' := by
  cases it with
  | nil => simp [increaseSafely] at h
  | cons x it =>
    simp only [increaseSafely] at h
    split at h
    · cases h
    · cases h
      exact ⟨by simp_all, rfl⟩

theorem length_le_of_getSequence {lead : UInt8} {it it' : List UInt8} {n cp : ℕ}
    (h : getSequence lead it n = .ok (cp, it')) : it'.length ≤ it.length := by
  unfold getSequence at h
  split at h
  · cases h
    exact Nat.le_refl _
  · obtain ⟨⟨b, i⟩, hb, h₁⟩ := bind_eq_ok.1 h
    obtain ⟨-, rfl⟩ := increaseSafely_ok hb
    cases h₁
    simp
  · obtain ⟨⟨b, i⟩, hb, h₁⟩ := bind_eq_ok.1 h
    obtain ⟨⟨c, j⟩, hc, h₂⟩ := bind_eq_ok.1 h₁
    obtain ⟨-, rfl⟩ := increaseSafely_ok hb
    obtain ⟨-, rfl⟩ := increaseSafely_ok hc
    cases h₂
    simp
    omega
  · obtain ⟨⟨b, i⟩, hb, h₁⟩ := bind_eq_ok.1 h
    obtain ⟨⟨c, j⟩, hc, h₂⟩ := bind_eq_ok.1 h₁
    obtain ⟨⟨d, k⟩, hd, h₃⟩ := bind_eq_ok.1 h₂
    obtain ⟨-, rfl⟩ := increaseSafely_ok hb
    obtain ⟨-, rfl⟩ := increaseSafely_ok hc
    obtain ⟨-, rfl⟩ := increaseSafely_ok hd
    cases h₃
    simp
    omega
  · cases h

theorem length_lt_of_validateNext {u it : List UInt8} {cp : ℕ}
    (h : validateNext u = .ok (cp, it)) : it.length < u.length := by
  cases u with
  | nil => cases h
  | cons lead rest =>
    obtain ⟨⟨cp', it'⟩, hseq, h⟩ := bind_eq_ok.1 h
    have hle : it'.length ≤ rest.length := length_le_of_getSequence hseq
    have heq : it' = it := by
      simp only at h
      split at h
      · split at h
        · cases h
          rfl
        · cases h
      · cases h
    simp only [List.length_cons, ← heq]
    omega

/-- `find_invalid` : the position of the first invalid sequence, the end if there is none. -/
def findInvalid (pos : ℕ) (start : List UInt8) : ℕ :=
  match start with
  | [] => pos
  | b :: bs =>
    match _h : validateNext (b :: bs) with
    | .error _ => pos
    | .ok (_, it) => findInvalid (pos + ((b :: bs).length - it.length)) it
  termination_by start.length
  decreasing_by exact length_lt_of_validateNext ‹_›

/-- `replace_invalid`. The replacement is a valid code point, so that `append` does not throw. -/
def replaceInvalid (replacement : ℕ) (start : List UInt8) : List UInt8 :=
  match start with
  | [] => []
  | b :: bs =>
    match _h : validateNext (b :: bs) with
    | .ok (_, it) =>
      (b :: bs).take ((b :: bs).length - it.length) ++ replaceInvalid replacement it
    | .error .notEnoughRoom => append replacement
    | .error .invalidLead => append replacement ++ replaceInvalid replacement bs
    | .error _ =>
      -- just one replacement mark for the sequence
      append replacement ++ replaceInvalid replacement (bs.dropWhile isTrail)
  termination_by start.length
  decreasing_by
    · exact length_lt_of_validateNext ‹_›
    · simp
    · have hle := (List.dropWhile_sublist isTrail (l := bs)).length_le
      simp only [List.length_cons]
      omega

/-! ## What they do on the encoding of a text -/

theorem and_3f (x : ℕ) : x &&& 0x3f = x % 64 := Nat.and_two_pow_sub_one_eq_mod x 6

theorem or_eq_add {x : ℕ} (i a : ℕ) (h : x < 2 ^ i) : x ||| 2 ^ i * a = 2 ^ i * a + x := by
  rw [Nat.or_comm, Nat.two_pow_add_eq_or_of_lt h]

theorem or_80 {x : ℕ} (h : x < 64) : x ||| 0x80 = 0x80 + x := or_eq_add 6 2 h

theorem or_c0 {x : ℕ} (h : x < 64) : x ||| 0xc0 = 0xc0 + x := or_eq_add 6 3 h

theorem or_e0 {x : ℕ} (h : x < 16) : x ||| 0xe0 = 0xe0 + x := or_eq_add 4 14 h

theorem or_f0 {x : ℕ} (h : x < 8) : x ||| 0xf0 = 0xf0 + x := or_eq_add 3 30 h

theorem ofNat_eq {n : ℕ} {a : UInt8} (h : n = a.toNat) : UInt8.ofNat n = a := by
  rw [h, UInt8.ofNat_toNat]

/-- `append` is the standard encoding. -/
theorem append_eq (c : Char) : append c.toNat = String.utf8EncodeChar c := by
  have hc := toNat_char_lt c
  unfold append
  split
  · obtain ⟨a, henc, ha⟩ := utf8EncodeChar_one ‹_›
    rw [henc, ofNat_eq ha.symm]
  · split
    · obtain ⟨a, b, henc, ha, hb⟩ := utf8EncodeChar_two (Nat.le_of_not_lt ‹_›) ‹_›
      rw [and_3f, Nat.shiftRight_eq_div_pow, or_c0 (by omega), or_80 (by omega), henc,
        ofNat_eq ha.symm, ofNat_eq hb.symm]
    · split
      · obtain ⟨a, b, d, henc, ha, hb, hd⟩ := utf8EncodeChar_three (Nat.le_of_not_lt ‹_›) ‹_›
        simp only [and_3f, Nat.shiftRight_eq_div_pow]
        rw [or_e0 (by omega), or_80 (by omega), or_80 (by omega), henc, ofNat_eq ha.symm,
          ofNat_eq hb.symm, ofNat_eq hd.symm]
      · obtain ⟨a, b, d, e, henc, ha, hb, hd, he⟩ := utf8EncodeChar_four (Nat.le_of_not_lt ‹_›)
        simp only [and_3f, Nat.shiftRight_eq_div_pow]
        rw [or_f0 (by omega), or_80 (by omega), or_80 (by omega), or_80 (by omega), henc,
          ofNat_eq ha.symm, ofNat_eq hb.symm, ofNat_eq hd.symm, ofNat_eq he.symm]

theorem sequenceLength_eq_one {a : UInt8} (h : a.toNat < 0x80) : sequenceLength a = 1 := by
  simp [sequenceLength, h]

theorem sequenceLength_eq_two {a : UInt8} {n : ℕ} (h : a.toNat = 0xc0 + n) (hn : n < 32) :
    sequenceLength a = 2 := by
  simp only [sequenceLength, mask8_eq, h, Nat.shiftRight_eq_div_pow, beq_iff_eq]
  rw [if_neg (by omega), if_pos (by omega)]

theorem sequenceLength_eq_three {a : UInt8} {n : ℕ} (h : a.toNat = 0xe0 + n) (hn : n < 16) :
    sequenceLength a = 3 := by
  simp only [sequenceLength, mask8_eq, h, Nat.shiftRight_eq_div_pow, beq_iff_eq]
  rw [if_neg (by omega), if_neg (by omega), if_pos (by omega)]

theorem sequenceLength_eq_four {a : UInt8} {n : ℕ} (h : a.toNat = 0xf0 + n) (hn : n < 8) :
    sequenceLength a = 4 := by
  simp only [sequenceLength, mask8_eq, h, Nat.shiftRight_eq_div_pow, beq_iff_eq]
  rw [if_neg (by omega), if_neg (by omega), if_neg (by omega), if_pos (by omega)]

theorem isTrail_of {b : UInt8} {n : ℕ} (h : b.toNat = 0x80 + n) (hn : n < 64) :
    isTrail b = true := by
  simp [isTrail, h, Nat.shiftRight_eq_div_pow]
  omega

/-! The code point that the shifts and masks of `next` and of `get_sequence` put together. -/

theorem codePoint_two {v : ℕ} (h : v < 0x800) :
    (((0xc0 + v / 64) <<< 6) &&& 0x7ff) + ((0x80 + v % 64) &&& 0x3f) = v := by
  rw [and_3f, Nat.and_two_pow_sub_one_eq_mod _ 11, Nat.shiftLeft_eq]
  omega

theorem codePoint_three {v : ℕ} (h : v < 0x10000) :
    (((0xe0 + v / 4096) <<< 12) &&& 0xffff) + (((0x80 + v / 64 % 64) <<< 6) &&& 0xfff)
      + ((0x80 + v % 64) &&& 0x3f) = v := by
  rw [and_3f, Nat.and_two_pow_sub_one_eq_mod _ 16, Nat.and_two_pow_sub_one_eq_mod _ 12,
    Nat.shiftLeft_eq, Nat.shiftLeft_eq]
  omega

theorem codePoint_four {v : ℕ} (h : v < 0x200000) :
    (((0xf0 + v / 262144) <<< 18) &&& 0x1fffff) + (((0x80 + v / 4096 % 64) <<< 12) &&& 0x3ffff)
      + (((0x80 + v / 64 % 64) <<< 6) &&& 0xfff) + ((0x80 + v % 64) &&& 0x3f) = v := by
  rw [and_3f, Nat.and_two_pow_sub_one_eq_mod _ 21, Nat.and_two_pow_sub_one_eq_mod _ 18,
    Nat.and_two_pow_sub_one_eq_mod _ 12, Nat.shiftLeft_eq, Nat.shiftLeft_eq, Nat.shiftLeft_eq]
  omega

/-- The unchecked `next` decodes the encoding of a scalar value. -/
theorem next_encode (c : Char) (rest : List UInt8) :
    next (String.utf8EncodeChar c ++ rest) = some (c.toNat, rest) := by
  have hc := toNat_char_lt c
  by_cases h1 : c.toNat < 0x80
  · obtain ⟨a, henc, ha⟩ := utf8EncodeChar_one h1
    simp [henc, next, sequenceLength_eq_one (ha ▸ h1), ha]
  by_cases h2 : c.toNat < 0x800
  · obtain ⟨a, b, henc, ha, hb⟩ := utf8EncodeChar_two (Nat.le_of_not_lt h1) h2
    simp [henc, next, sequenceLength_eq_two ha (by omega), ha, hb, codePoint_two h2]
  by_cases h3 : c.toNat < 0x10000
  · obtain ⟨a, b, d, henc, ha, hb, hd⟩ := utf8EncodeChar_three (Nat.le_of_not_lt h2) h3
    simp [henc, next, sequenceLength_eq_three ha (by omega), ha, hb, hd, codePoint_three h3]
  · obtain ⟨a, b, d, e, henc, ha, hb, hd, he⟩ := utf8EncodeChar_four (Nat.le_of_not_lt h3)
    simp [henc, next, sequenceLength_eq_four ha (by omega), ha, hb, hd, he,
      codePoint_four (v := c.toNat) (by omega)]

theorem increaseSafely_trail {b : UInt8} {it : List UInt8} (h : isTrail b = true) :
    increaseSafely (b :: it) = .ok (b, it) := by
  simp [increaseSafely, h]

/-- A sequence whose length fits its code point passes the checks of `validate_next`. -/
theorem validateNext_of_getSequence {a : UInt8} {it rest : List UInt8} (c : Char)
    (hseq : getSequence a it (sequenceLength a) = .ok (c.toNat, rest))
    (hlong : isOverlongSequence c.toNat (sequenceLength a) = false) :
    validateNext (a :: it) = .ok (c.toNat, rest) := by
  simp only [validateNext, hseq, bind, Except.bind, isCodePointValid_char, if_true, hlong,
    Bool.not_false]
  rfl

/-- `validate_next` accepts and decodes the encoding of a scalar value. -/
theorem validateNext_encode (c : Char) (rest : List UInt8) :
    validateNext (String.utf8EncodeChar c ++ rest) = .ok (c.toNat, rest) := by
  have hc := toNat_char_lt c
  by_cases h1 : c.toNat < 0x80
  · obtain ⟨a, henc, ha⟩ := utf8EncodeChar_one h1
    have hlen := sequenceLength_eq_one (ha ▸ h1)
    rw [henc]
    refine validateNext_of_getSequence c ?_ ?_
    · simp [hlen, getSequence, ha]
    · simp [hlen, isOverlongSequence, h1]
  by_cases h2 : c.toNat < 0x800
  · obtain ⟨a, b, henc, ha, hb⟩ := utf8EncodeChar_two (Nat.le_of_not_lt h1) h2
    have hlen := sequenceLength_eq_two ha (by omega)
    have hbt := isTrail_of hb (by omega)
    rw [henc]
    refine validateNext_of_getSequence c ?_ ?_
    · simp [hlen, getSequence, increaseSafely_trail hbt, ha, hb, codePoint_two h2]
    · simp [hlen, isOverlongSequence, h1, h2]
  by_cases h3 : c.toNat < 0x10000
  · obtain ⟨a, b, d, henc, ha, hb, hd⟩ := utf8EncodeChar_three (Nat.le_of_not_lt h2) h3
    have hlen := sequenceLength_eq_three ha (by omega)
    have hbt := isTrail_of hb (by omega)
    have hdt := isTrail_of hd (by omega)
    rw [henc]
    refine validateNext_of_getSequence c ?_ ?_
    · simp [hlen, getSequence, increaseSafely_trail hbt, increaseSafely_trail hdt, bind,
        Except.bind, pure, Except.pure, ha, hb, hd, codePoint_three h3]
    · simp [hlen, isOverlongSequence, h1, h2, h3]
  · obtain ⟨a, b, d, e, henc, ha, hb, hd, he⟩ := utf8EncodeChar_four (Nat.le_of_not_lt h3)
    have hlen := sequenceLength_eq_four ha (by omega)
    have hbt := isTrail_of hb (by omega)
    have hdt := isTrail_of hd (by omega)
    have het := isTrail_of he (by omega)
    rw [henc]
    refine validateNext_of_getSequence c ?_ ?_
    · simp [hlen, getSequence, increaseSafely_trail hbt, increaseSafely_trail hdt,
        increaseSafely_trail het, bind, Except.bind, pure, Except.pure, ha, hb, hd, he,
        codePoint_four (v := c.toNat) (by omega)]
    · simp [isOverlongSequence, h1, h2, h3]

/-- The units that `utf8to16` stores for a scalar value are its standard encoding. -/
theorem units_eq (c : Char) : units c.toNat = utf16EncodeChar c := by
  have hc := toNat_char_lt c
  unfold units utf16EncodeChar leadOffset trailSurrogateMin
  rw [Nat.and_two_pow_sub_one_eq_mod _ 10, Nat.shiftRight_eq_div_pow]
  by_cases h : c.toNat < 0x10000
  · rw [if_neg (by omega), if_pos h]
  · rw [if_pos (by omega), if_neg h]
    have hlead : c.toNat / 2 ^ 10 + 0xd7c0 = 0xd800 + (c.toNat - 0x10000) / 0x400 := by omega
    have htrail : c.toNat % 2 ^ 10 + 0xdc00 = 0xdc00 + (c.toNat - 0x10000) % 0x400 := by omega
    rw [hlead, htrail]

/-- The code point that `utf16to8` puts together from a surrogate pair. -/
theorem codePoint_pair {l t : UInt16} (hl : Lead l) (ht : Trail t) :
    ((l.toNat <<< 10) + t.toNat + surrogateOffset) % 2 ^ 32
      = 0x10000 + (l.toNat - 0xd800) * 0x400 + (t.toNat - 0xdc00) := by
  unfold Lead at hl
  unfold Trail at ht
  unfold surrogateOffset
  rw [Nat.shiftLeft_eq]
  omega

/-! ## The loops -/

theorem utf16to8_unit {u : UInt16} {w : List UInt16} (hl : ¬Lead u) :
    utf16to8 (u :: w) = append u.toNat ++ utf16to8 w := by
  rw [utf16to8.eq_def]
  simp [hl]

theorem utf16to8_pair {l t : UInt16} {w : List UInt16} (hl : Lead l) (ht : Trail t) :
    utf16to8 (l :: t :: w)
      = append (0x10000 + (l.toNat - 0xd800) * 0x400 + (t.toNat - 0xdc00)) ++ utf16to8 w := by
  rw [utf16to8.eq_def]
  simp only [mask16_eq, isLeadSurrogate_eq, hl, decide_true, if_true, codePoint_pair hl ht]

/-- `utf16to8` is the standard transcoding of a well-formed sequence. -/
theorem utf16to8_encode (cs : List Char) :
    utf16to8 (cs.flatMap utf16EncodeChar) = cs.flatMap String.utf8EncodeChar := by
  induction cs with
  | nil => rfl
  | cons c cs ih =>
    by_cases hc : c.toNat < 0x10000
    · obtain ⟨u, hu, huc, hl, -⟩ := utf16EncodeChar_bmp hc
      rw [List.flatMap_cons, List.flatMap_cons, hu, List.singleton_append, utf16to8_unit hl, ih,
        huc, append_eq]
    · obtain ⟨l, t, hlt, hl, ht, hval⟩ := utf16EncodeChar_pair hc
      rw [List.flatMap_cons, List.flatMap_cons, hlt, List.cons_append, List.singleton_append,
        utf16to8_pair hl ht, ih, ← hval, append_eq]

theorem utf8EncodeChar_ne_nil (c : Char) : String.utf8EncodeChar c ≠ [] := fun h => by
  have hnext := next_encode c []
  rw [h] at hnext
  cases hnext

/-- `utf8to16` is the standard transcoding of a valid sequence. -/
theorem utf8to16_encode (cs : List Char) :
    utf8to16 (cs.flatMap String.utf8EncodeChar) = some (cs.flatMap utf16EncodeChar) := by
  induction cs with
  | nil => simp [utf8to16]
  | cons c cs ih =>
    obtain ⟨b, bs, hb⟩ := List.exists_cons_of_ne_nil (utf8EncodeChar_ne_nil c)
    have hnext := next_encode c (cs.flatMap String.utf8EncodeChar)
    rw [hb, List.cons_append] at hnext
    rw [List.flatMap_cons, hb, List.cons_append, utf8to16, hnext]
    simp [ih, units_eq]

/-- `find_invalid` finds nothing in a valid sequence. -/
theorem findInvalid_encode (cs : List Char) (pos : ℕ) :
    findInvalid pos (cs.flatMap String.utf8EncodeChar)
      = pos + (cs.flatMap String.utf8EncodeChar).length := by
  induction cs generalizing pos with
  | nil => simp [findInvalid]
  | cons c cs ih =>
    obtain ⟨b, bs, hb⟩ := List.exists_cons_of_ne_nil (utf8EncodeChar_ne_nil c)
    have hnext := validateNext_encode c (cs.flatMap String.utf8EncodeChar)
    rw [hb, List.cons_append] at hnext
    rw [List.flatMap_cons, hb, List.cons_append, findInvalid, hnext]
    simp only [ih, List.length_cons, List.length_append]
    omega

/-! ## What they do on any bytes -/

theorem isTrail_iff {b : UInt8} : isTrail b = true ↔ 0x80 ≤ b.toNat ∧ b.toNat < 0xc0 := by
  simp only [isTrail, mask8_eq, Nat.shiftRight_eq_div_pow, beq_iff_eq]
  omega

theorem sequenceLength_cases (a : UInt8) :
    sequenceLength a = 1 ∧ a.toNat < 0x80 ∨
    sequenceLength a = 2 ∧ 0xc0 ≤ a.toNat ∧ a.toNat < 0xe0 ∨
    sequenceLength a = 3 ∧ 0xe0 ≤ a.toNat ∧ a.toNat < 0xf0 ∨
    sequenceLength a = 4 ∧ 0xf0 ≤ a.toNat ∧ a.toNat < 0xf8 ∨ sequenceLength a = 0 := by
  simp only [sequenceLength, mask8_eq, Nat.shiftRight_eq_div_pow, beq_iff_eq]
  split_ifs <;> omega

theorem eq_of_toNat {a b : UInt8} (h : a.toNat = b.toNat) : a = b := UInt8.toNat_inj.1 h

/-- A valid code point is a scalar value. -/
theorem exists_char_of_isCodePointValid {cp : ℕ} (h : isCodePointValid cp = true) :
    ∃ c : Char, c.toNat = cp := by
  simp only [isCodePointValid, isSurrogate, Bool.and_eq_true, Bool.not_eq_true',
    Bool.and_eq_false_iff, decide_eq_true_eq, decide_eq_false_iff_not] at h
  unfold codePointMax at h
  have hvalid : cp.isValidChar := by
    unfold Nat.isValidChar
    omega
  exact ⟨Char.ofNatAux cp hvalid, rfl⟩

/-- What `validate_next` accepts is the encoding of a scalar value. -/
theorem validateNext_sound {u it : List UInt8} {cp : ℕ} (h : validateNext u = .ok (cp, it)) :
    ∃ c : Char, c.toNat = cp ∧ u = String.utf8EncodeChar c ++ it := by
  cases u with
  | nil => cases h
  | cons a rest =>
    obtain ⟨⟨v, r⟩, hseq, h⟩ := bind_eq_ok.1 h
    simp only at h
    split at h
    swap
    · cases h
    split at h
    swap
    · cases h
    next hvalid hlong =>
    obtain ⟨rfl, rfl⟩ : v = cp ∧ r = it := by simpa [pure, Except.pure] using h
    obtain ⟨c, rfl⟩ := exists_char_of_isCodePointValid hvalid
    refine ⟨c, rfl, ?_⟩
    simp only [isOverlongSequence, Bool.not_eq_true'] at hlong
    obtain ⟨hlen, ha⟩ | ⟨hlen, ha⟩ | ⟨hlen, ha⟩ | ⟨hlen, ha⟩ | hlen := sequenceLength_cases a <;>
      rw [hlen] at hseq hlong
    · obtain ⟨hv, rfl⟩ : mask8 a = c.toNat ∧ rest = r := by simpa [getSequence] using hseq
      rw [mask8_eq] at hv
      obtain ⟨a', henc, ha'⟩ := utf8EncodeChar_one (hv ▸ ha)
      rw [henc, eq_of_toNat (hv.trans ha'.symm)]
      rfl
    · obtain ⟨⟨b, i⟩, hb, h₁⟩ := bind_eq_ok.1 hseq
      obtain ⟨hbt, rfl⟩ := increaseSafely_ok hb
      rw [isTrail_iff] at hbt
      obtain ⟨hv, rfl⟩ := Prod.mk.inj (Except.ok.inj h₁)
      rw [and_3f, Nat.and_two_pow_sub_one_eq_mod _ 11, Nat.shiftLeft_eq, mask8_eq] at hv
      have hlow : 0x80 ≤ c.toNat := by
        by_contra hlt
        simp [Nat.lt_of_not_le hlt] at hlong
      obtain ⟨a', b', henc, ha', hb'⟩ := utf8EncodeChar_two hlow (by omega)
      rw [henc, eq_of_toNat (a := a) (b := a') (by omega),
        eq_of_toNat (a := b) (b := b') (by omega)]
      rfl
    · obtain ⟨⟨b, i⟩, hb, h₁⟩ := bind_eq_ok.1 hseq
      obtain ⟨⟨d, j⟩, hd, h₂⟩ := bind_eq_ok.1 h₁
      obtain ⟨hbt, rfl⟩ := increaseSafely_ok hb
      obtain ⟨hdt, rfl⟩ := increaseSafely_ok hd
      rw [isTrail_iff] at hbt hdt
      obtain ⟨hv, rfl⟩ := Prod.mk.inj (Except.ok.inj h₂)
      rw [and_3f, Nat.and_two_pow_sub_one_eq_mod _ 16, Nat.and_two_pow_sub_one_eq_mod _ 12,
        Nat.shiftLeft_eq, Nat.shiftLeft_eq, mask8_eq, mask8_eq] at hv
      have hlow : 0x800 ≤ c.toNat := by
        by_contra hlt
        by_cases hone : c.toNat < 0x80
        · simp [hone] at hlong
        · simp [hone, Nat.lt_of_not_le hlt] at hlong
      obtain ⟨a', b', d', henc, ha', hb', hd'⟩ := utf8EncodeChar_three hlow (by omega)
      rw [henc, eq_of_toNat (a := a) (b := a') (by omega),
        eq_of_toNat (a := b) (b := b') (by omega),
        eq_of_toNat (a := d) (b := d') (by omega)]
      rfl
    · obtain ⟨⟨b, i⟩, hb, h₁⟩ := bind_eq_ok.1 hseq
      obtain ⟨⟨d, j⟩, hd, h₂⟩ := bind_eq_ok.1 h₁
      obtain ⟨⟨e, k⟩, he, h₃⟩ := bind_eq_ok.1 h₂
      obtain ⟨hbt, rfl⟩ := increaseSafely_ok hb
      obtain ⟨hdt, rfl⟩ := increaseSafely_ok hd
      obtain ⟨het, rfl⟩ := increaseSafely_ok he
      rw [isTrail_iff] at hbt hdt het
      obtain ⟨hv, rfl⟩ := Prod.mk.inj (Except.ok.inj h₃)
      rw [and_3f, Nat.and_two_pow_sub_one_eq_mod _ 21, Nat.and_two_pow_sub_one_eq_mod _ 18,
        Nat.and_two_pow_sub_one_eq_mod _ 12, Nat.shiftLeft_eq, Nat.shiftLeft_eq, Nat.shiftLeft_eq,
        mask8_eq, mask8_eq, mask8_eq] at hv
      have hlow : 0x10000 ≤ c.toNat := by
        by_contra hlt
        by_cases hone : c.toNat < 0x80
        · simp [hone] at hlong
        by_cases htwo : c.toNat < 0x800
        · simp [hone, htwo] at hlong
        · simp [hone, htwo, Nat.lt_of_not_le hlt] at hlong
      obtain ⟨a', b', d', e', henc, ha', hb', hd', he'⟩ := utf8EncodeChar_four hlow
      rw [henc, eq_of_toNat (a := a) (b := a') (by omega),
        eq_of_toNat (a := b) (b := b') (by omega),
        eq_of_toNat (a := d) (b := d') (by omega), eq_of_toNat (a := e) (b := e') (by omega)]
      rfl
    · cases hseq

/-- `find_invalid` comes to the end of valid sequences only. -/
theorem valid8_of_findInvalid (pos : ℕ) (s : List UInt8) :
    findInvalid pos s = pos + s.length →
      ∃ cs : List Char, s = cs.flatMap String.utf8EncodeChar := by
  fun_induction findInvalid pos s with
  | case1 => exact fun _ => ⟨[], rfl⟩
  | case2 pos b bs e herr =>
    intro h
    simp at h
  | case3 pos b bs cp it hok ih =>
    intro h
    have hlt := length_lt_of_validateNext hok
    obtain ⟨c, -, hsplit⟩ := validateNext_sound hok
    obtain ⟨cs, rfl⟩ := ih (by omega)
    exact ⟨c :: cs, hsplit⟩

theorem length_utf16EncodeChar_le (c : Char) :
    (utf16EncodeChar c).length ≤ (String.utf8EncodeChar c).length := by
  by_cases h1 : c.toNat < 0x80
  · obtain ⟨a, henc, -⟩ := utf8EncodeChar_one h1
    simp [utf16EncodeChar, henc, Nat.lt_trans h1 (by decide : 0x80 < 0x10000)]
  by_cases h2 : c.toNat < 0x10000
  · have hne := List.length_pos_iff.2 (utf8EncodeChar_ne_nil c)
    simp only [utf16EncodeChar, if_pos h2, List.length_singleton]
    omega
  · obtain ⟨a, b, d, e, henc, -⟩ := utf8EncodeChar_four (Nat.le_of_not_lt h2)
    simp [utf16EncodeChar, h2, henc]

/-- `replace_invalid` makes a text of any bytes, which is no longer in UTF-16 than they were. -/
theorem replaceInvalid_text (c : Char) (hc : (utf16EncodeChar c).length = 1) (s : List UInt8) :
    ∃ cs : List Char, replaceInvalid c.toNat s = cs.flatMap String.utf8EncodeChar ∧
      (cs.flatMap utf16EncodeChar).length ≤ s.length := by
  have hcons : ∀ (cs : List Char) (n : ℕ), (cs.flatMap utf16EncodeChar).length ≤ n →
      ((c :: cs).flatMap utf16EncodeChar).length ≤ n + 1 := by
    intro cs n hn
    simp only [List.flatMap_cons, List.length_append, hc]
    omega
  generalize hr : c.toNat = r
  fun_induction replaceInvalid r s with
  | case1 => exact ⟨[], rfl, Nat.le_refl _⟩
  | case2 b bs cp it hok ih =>
    obtain ⟨cs, hcs, hlen⟩ := ih
    obtain ⟨c', -, hsplit⟩ := validateNext_sound hok
    have hle := length_utf16EncodeChar_le c'
    refine ⟨c' :: cs, ?_, ?_⟩
    · rw [hcs, hsplit, List.length_append, Nat.add_sub_cancel, List.take_left]
      rfl
    · simp only [hsplit, List.flatMap_cons, List.length_append]
      omega
  | case3 b bs herr =>
    subst hr
    exact ⟨[c], by simp [append_eq], hcons [] _ (by simp)⟩
  | case4 b bs herr ih =>
    subst hr
    obtain ⟨cs, hcs, hlen⟩ := ih
    exact ⟨c :: cs, by rw [hcs, append_eq]; rfl, hcons cs _ hlen⟩
  | case5 b bs e h1 h2 herr ih =>
    subst hr
    obtain ⟨cs, hcs, hlen⟩ := ih
    have hdrop := (List.dropWhile_sublist isTrail (l := bs)).length_le
    exact ⟨c :: cs, by rw [hcs, append_eq]; rfl, hcons cs _ (Nat.le_trans hlen hdrop)⟩

end HaybarnOdbc.Utf8Cpp
