import HaybarnOdbc.Diagnostics
import HaybarnOdbc.GetData
import HaybarnOdbc.Lib.MachineInt

/-!
# Where texts are written

The helpers that write a text into a buffer of the application : `WriteStringUtf8` and
`WriteStringUtf16`, the two `WriteStringWithLenInChars`, `utf16_write_str` and
`GetVariableValue`. Each of them copies the start of the text and sets one more unit to zero
(`Output`). They count the buffer in bytes or in characters, in types with and without a
sign, and leave room for the terminator by a subtraction.

The subtraction wraps for a buffer of length zero in `WriteStringUtf8`, for one that is not
positive in the `WriteStringWithLenInChars`, and for a negative length in
`GetVariableValue`, and nothing else goes wrong (`Call.contained_iff`). The three routines for
UTF-16 write the same (`utf16_outputs_agree`).
-/

namespace HaybarnOdbc.StringOutput

open MachineInt
open Diag (utf16)

variable {α : Type}

/-- What is written into a buffer : units from its start, and a zero as the unit of an index. -/
structure Output (α : Type) where
  copied : List α
  terminator : Option ℕ
  deriving DecidableEq, Repr

/-- The buffer is left as it is. -/
def Output.nothing : Output α := ⟨[], none⟩

/-! ## The helpers -/

/-- `WriteStringUtf8` : the number it returns, and what it writes. -/
def writeStringUtf8 (str : List UInt8) (outBuf : Bool) (bufLen : ℕ) : ℕ × Output UInt8 :=
  if outBuf then
    let lenBytes := min str.length (sizeT (bufLen - 1))
    (lenBytes, ⟨str.take lenBytes, some lenBytes⟩)
  else (0, .nothing)

/-- `WriteStringUtf16` : the number of units it returns with those of the text, and what it
writes. -/
def writeStringUtf16 (utf8Str : List UInt8) (outBuf : Bool) (bufLenBytes : ℕ) :
    (ℕ × List UInt16) × Output UInt16 :=
  let utf16Vec := utf16 utf8Str
  if outBuf then
    let bufLenEven := if bufLenBytes % 2 ≠ 0 then bufLenBytes - 1 else bufLenBytes
    if bufLenEven ≤ 2 then ((0, utf16Vec), if bufLenEven = 2 then ⟨[], some 0⟩ else .nothing)
    else
      let lenBytes := min (utf16Vec.length * 2) (bufLenEven - 2)
      let lenChars := lenBytes / 2
      ((lenChars, utf16Vec), ⟨utf16Vec.take lenChars, some lenChars⟩)
  else ((0, utf16Vec), .nothing)

/-- `WriteStringWithLenInChars` of `SQLCHAR`. The length becomes a `size_t`. -/
def writeStringWithLenInChars (msgStr : List UInt8) (messageText : Bool)
    (bufferLengthChars : ℤ) : Output UInt8 :=
  (writeStringUtf8 msgStr messageText (sizeT bufferLengthChars)).2

/-- `WriteStringWithLenInChars` of `SQLWCHAR`. Without a place for the length of the text a
buffer that is too small is not the end. -/
def writeStringWithLenInCharsW (msgStr : List UInt8) (messageText : Bool)
    (bufferLengthChars : ℤ) (textLengthPtr : Bool) : Output UInt16 :=
  let utf16Vec := utf16 msgStr
  if bufferLengthChars ≤ 1 ∧ textLengthPtr = true then
    if messageText = true ∧ bufferLengthChars = 1 then ⟨[], some 0⟩ else .nothing
  else
    let lenChars := min utf16Vec.length (sizeT (bufferLengthChars - 1))
    if messageText then ⟨utf16Vec.take lenChars, some lenChars⟩ else .nothing

/-- `utf16_write_str` of a text with a NUL in it. -/
def utf16WriteStr (ret : SqlReturn) (utf8Vec : List UInt8) (utf16StrOut : Bool)
    (bufferLenChars : ℤ) : ℕ × Output UInt16 :=
  if !ret.succeeded then (0, .nothing)
  else if utf8Vec = [] ∨ bufferLenChars ≤ 0 then (0, .nothing)
  else
    let utf8 := utf8Vec.takeWhile (· ≠ 0)
    if utf8 = [] ∨ bufferLenChars = 1 then
      (0, if utf16StrOut then ⟨[], some 0⟩ else .nothing)
    else
      let utf16Vec := utf16 utf8
      let lenChars := min utf16Vec.length (sizeT (bufferLenChars - 1))
      (lenChars, if utf16StrOut then ⟨utf16Vec.take lenChars, some lenChars⟩ else .nothing)

/-- The number of bytes that `GetVariableValue` copies of a value of `n` bytes, if it comes to
that. -/
def variableOutLen (lastLen : ℕ) (target : Addr) (bufferLength : ℤ) (n charSize : ℕ)
    (nullTerminate : Bool) : Option ℕ :=
  if 0 < n ∧ n ≤ lastLen then none
  else if nullTerminate ∧ 0 ≤ bufferLength ∧ bufferLength < charSize then none
  else if target = 0 then none
  else
    some (min (sizeT (n - lastLen))
      (sizeT (if nullTerminate then bufferLength - charSize else bufferLength)))

/-! ## What fits -/

/-- The start of a text that leaves room for the terminator in a buffer of `c` units. -/
def Output.fitted (text : List α) (c : ℕ) : Output α :=
  if c = 0 then .nothing else ⟨text.take (c - 1), some (min text.length (c - 1))⟩

theorem length_copied_fitted (text : List α) (c : ℕ) :
    (Output.fitted text c).copied.length = min text.length (c - 1) := by
  unfold Output.fitted
  split
  · next hc =>
    subst hc
    simp [Output.nothing]
  · rw [List.length_take, Nat.min_comm]

theorem utf16_nil : utf16 [] = [] := by
  have hnil : Widechar.utf8ToUtf16Lenient [] = some ([], none) :=
    Widechar.utf8ToUtf16Lenient_encode []
  rw [utf16, hnil]

/-- Copying as many units as there are or as fit is copying what fits. -/
theorem fitted_of_pos (text : List α) {c : ℕ} (hc : 0 < c) :
    (⟨text.take (min text.length (c - 1)), some (min text.length (c - 1))⟩ : Output α) =
      .fitted text c := by
  rw [Output.fitted, if_neg (by omega)]
  congr 1
  rcases Nat.le_total text.length (c - 1) with hle | hle
  · rw [Nat.min_eq_left hle, List.take_length, List.take_of_length_le hle]
  · rw [Nat.min_eq_right hle]

/-- `WriteStringUtf16` writes what fits into the whole units of the buffer. -/
theorem writeStringUtf16_eq (utf8Str : List UInt8) (n : ℕ) :
    writeStringUtf16 utf8Str true n =
      ((min (utf16 utf8Str).length (n / 2 - 1), utf16 utf8Str),
        .fitted (utf16 utf8Str) (n / 2)) := by
  have heven : (if n % 2 ≠ 0 then n - 1 else n) = 2 * (n / 2) := by
    split <;> omega
  unfold writeStringUtf16
  dsimp only
  rw [if_pos rfl, heven]
  by_cases hsmall : 2 * (n / 2) ≤ 2
  · rw [if_pos hsmall]
    obtain hn | hn : n / 2 = 0 ∨ n / 2 = 1 := by omega
    · rw [hn]
      simp [Output.fitted]
    · rw [hn]
      simp [Output.fitted]
  · rw [if_neg hsmall]
    have hlen : min ((utf16 utf8Str).length * 2) (2 * (n / 2) - 2) / 2 =
        min (utf16 utf8Str).length (n / 2 - 1) := by omega
    rw [hlen, fitted_of_pos _ (by omega)]

/-- `utf16_write_str` writes what fits. -/
theorem utf16WriteStr_eq {ret : SqlReturn} (hret : ret.succeeded = true) {utf8Vec : List UInt8}
    (hne : utf8Vec ≠ []) (out : Bool) {c : ℤ} (hc : c < 2 ^ 64) :
    utf16WriteStr ret utf8Vec out c =
      (min (utf16 (utf8Vec.takeWhile (· ≠ 0))).length (c.toNat - 1),
        if out then .fitted (utf16 (utf8Vec.takeWhile (· ≠ 0))) c.toNat else .nothing) := by
  unfold utf16WriteStr
  rw [hret, if_neg (by simp)]
  by_cases hpos : c ≤ 0
  · have hzero : c.toNat = 0 := by omega
    rw [if_pos (.inr hpos), hzero]
    simp [Output.fitted]
  rw [if_neg (by simp [hne, hpos])]
  dsimp only
  by_cases hsmall : utf8Vec.takeWhile (· ≠ 0) = [] ∨ c = 1
  · rw [if_pos hsmall]
    rcases hsmall with hempty | hone
    · rw [hempty, utf16_nil]
      simp [Output.fitted, hpos]
    · rw [hone]
      simp [Output.fitted]
  · have hlen : sizeT (c - 1) = c.toNat - 1 := by
      have := sizeT_of_nonneg (n := c - 1) (by omega) (by omega)
      omega
    rw [if_neg hsmall, hlen, fitted_of_pos _ (by omega)]

/-- The wide `WriteStringWithLenInChars` writes what fits into a buffer that is there. -/
theorem writeStringWithLenInCharsW_eq (msgStr : List UInt8) (messageText : Bool) {c : ℤ}
    (hpos : 1 ≤ c) (hc : c < 2 ^ 64) (textLengthPtr : Bool) :
    writeStringWithLenInCharsW msgStr messageText c textLengthPtr =
      if messageText then .fitted (utf16 msgStr) c.toNat else .nothing := by
  have hlen : sizeT (c - 1) = c.toNat - 1 := by
    have := sizeT_of_nonneg (n := c - 1) (by omega) (by omega)
    omega
  unfold writeStringWithLenInCharsW
  dsimp only
  by_cases hsmall : c ≤ 1 ∧ textLengthPtr = true
  · obtain rfl : c = 1 := by omega
    rw [if_pos hsmall]
    cases messageText with
    | false => rfl
    | true => simp [Output.fitted]
  · rw [if_neg hsmall, hlen, fitted_of_pos _ (by omega)]

/-! ## Staying inside the buffer -/

/-- Where a call stores : so many bytes from the start of the buffer, and a zero unit at an
offset. -/
structure Extent where
  copied : ℕ
  terminator : Option ℕ

/-- In bytes, for units of this size. -/
def Output.extent (o : Output α) (unit : ℕ) : Extent :=
  ⟨unit * o.copied.length, o.terminator.map (unit * ·)⟩

/-- `SQLSMALLINT`. -/
abbrev SmallInt := {n : ℤ // i16.Fits n}

/-- `SQLLEN`. -/
abbrev SqlLen := {n : ℤ // i64.Fits n}

/-- `size_t`. -/
abbrev SizeT := {n : ℕ // n < 2 ^ 64}

/-- A call of a helper, with whatever length its type has. -/
inductive Call (ρ V : Type)
  | writeStringUtf8 (str : List UInt8) (outBuf : Bool) (bufLen : SizeT)
  | writeStringUtf16 (utf8Str : List UInt8) (outBuf : Bool) (bufLenBytes : SizeT)
  | writeStringWithLenInChars (msgStr : List UInt8) (messageText : Bool)
      (bufferLengthChars : SmallInt)
  | writeStringWithLenInCharsW (msgStr : List UInt8) (messageText : Bool)
      (bufferLengthChars : SmallInt) (textLengthPtr : Bool)
  | utf16WriteStr (ret : SqlReturn) (utf8Vec : List UInt8) (utf16StrOut : Bool)
      (bufferLenChars : SqlLen)
  | getVariableValue (h : OdbcHandleStmt ρ V) (colIdx : ℕ) (target : Addr)
      (bufferLength : SqlLen) (val : List UInt8) (wide nullTerminate : Bool)

namespace Call

variable {ρ V : Type}

/-- The size of a unit of the buffer. -/
def unit : Call ρ V → ℕ
  | writeStringUtf8 .. => 1
  | writeStringUtf16 .. => 2
  | writeStringWithLenInChars .. => 1
  | writeStringWithLenInCharsW .. => 2
  | utf16WriteStr .. => 2
  | getVariableValue _ _ _ _ _ wide _ => if wide then 2 else 1

/-- The size of the buffer in bytes, as its length says. -/
def capacity : Call ρ V → ℤ
  | writeStringUtf8 _ _ bufLen => bufLen.val
  | writeStringUtf16 _ _ bufLenBytes => bufLenBytes.val
  | writeStringWithLenInChars _ _ bufferLengthChars => bufferLengthChars.val
  | writeStringWithLenInCharsW _ _ bufferLengthChars _ => 2 * bufferLengthChars.val
  | utf16WriteStr _ _ _ bufferLenChars => 2 * bufferLenChars.val
  | getVariableValue _ _ _ bufferLength _ _ _ => bufferLength.val

/-- How much of a value `GetVariableValue` returned before. -/
def lastLen (h : OdbcHandleStmt ρ V) (colIdx : ℕ) : ℕ :=
  (h.setLastFetchedVariableVal colIdx).odbcFetcher.lastFetched.length

/-- Where the call stores. -/
def extent : Call ρ V → Extent
  | writeStringUtf8 str outBuf bufLen =>
    (StringOutput.writeStringUtf8 str outBuf bufLen.val).2.extent 1
  | writeStringUtf16 str outBuf bufLenBytes =>
    (StringOutput.writeStringUtf16 str outBuf bufLenBytes.val).2.extent 2
  | writeStringWithLenInChars msgStr messageText bufferLengthChars =>
    (StringOutput.writeStringWithLenInChars msgStr messageText bufferLengthChars.val).extent 1
  | writeStringWithLenInCharsW msgStr messageText bufferLengthChars textLengthPtr =>
    (StringOutput.writeStringWithLenInCharsW msgStr messageText bufferLengthChars.val
      textLengthPtr).extent 2
  | utf16WriteStr ret utf8Vec utf16StrOut bufferLenChars =>
    (StringOutput.utf16WriteStr ret utf8Vec utf16StrOut bufferLenChars.val).2.extent 2
  | getVariableValue h colIdx target bufferLength val wide nullTerminate =>
    match variableOutLen (lastLen h colIdx) target bufferLength.val val.length
      (if wide then 2 else 1) nullTerminate with
    | none => ⟨0, none⟩
    | some k => ⟨k, if nullTerminate then some k else none⟩

/-- The call has a text to write, and somewhere to write it. -/
def HasText : Call ρ V → Prop
  | writeStringUtf8 _ outBuf _ => outBuf = true
  | writeStringUtf16 _ outBuf _ => outBuf = true
  | writeStringWithLenInChars _ messageText _ => messageText = true
  | writeStringWithLenInCharsW _ messageText _ _ => messageText = true
  | utf16WriteStr ret utf8Vec utf16StrOut _ =>
    ret.succeeded = true ∧ utf8Vec ≠ [] ∧ utf16StrOut = true
  | getVariableValue h colIdx target _ val _ nullTerminate =>
    nullTerminate = true ∧ target ≠ 0 ∧ (val = [] ∨ lastLen h colIdx < val.length)

/-- The call stores inside the buffer only, and the terminator is among what it stores if there
is room for one. -/
structure Contained (c : Call ρ V) : Prop where
  copied : c.extent.copied = 0 ∨ (c.extent.copied : ℤ) ≤ c.capacity
  terminator : ∀ t ∈ c.extent.terminator, (t : ℤ) + c.unit ≤ c.capacity
  terminated : c.HasText → (c.unit : ℤ) ≤ c.capacity → c.extent.terminator ≠ none

/-- The lengths that the call is made for. The buffer of a text needs room for one unit, but
where a helper looks at that itself; a value needs a length that is not negative, unless
nothing of it is stored. -/
def Allowed : Call ρ V → Prop
  | writeStringUtf8 _ outBuf bufLen => outBuf = true → 1 ≤ bufLen.val
  | writeStringUtf16 .. => True
  | writeStringWithLenInChars _ messageText bufferLengthChars =>
    messageText = true → 1 ≤ bufferLengthChars.val
  | writeStringWithLenInCharsW _ messageText bufferLengthChars textLengthPtr =>
    messageText = true → textLengthPtr = false → 1 ≤ bufferLengthChars.val
  | utf16WriteStr .. => True
  | getVariableValue h colIdx target bufferLength val _ nullTerminate =>
    target ≠ 0 → (val = [] ∨ lastLen h colIdx < val.length) →
      (nullTerminate = true ∨ sizeT (val.length - lastLen h colIdx) ≠ 0) → 0 ≤ bufferLength.val

/-! The helpers one by one. -/

theorem extent_fitted (text : List α) {n : ℕ} (hn : 0 < n) (unit : ℕ) :
    (Output.fitted text n).extent unit =
      ⟨unit * min text.length (n - 1), some (unit * min text.length (n - 1))⟩ := by
  rw [Output.extent, length_copied_fitted, Output.fitted, if_neg (by omega)]
  rfl

variable {c : Call ρ V}

/-- A call that sets no unit to zero and copies nothing. -/
theorem contained_of_nothing (hextent : c.extent = ⟨0, none⟩)
    (hroom : c.HasText → ¬(c.unit : ℤ) ≤ c.capacity) : Contained c := by
  refine ⟨.inl (by rw [hextent]), fun t ht => ?_, fun htext hle => absurd hle (hroom htext)⟩
  rw [hextent] at ht
  cases ht

/-- A call that copies units and sets the next one to zero is contained if that one is in the
buffer, and only then. -/
theorem contained_iff_of_extent {k t : ℕ} (hextent : c.extent = ⟨k, some t⟩) (hk : k ≤ t) :
    Contained c ↔ (t : ℤ) + c.unit ≤ c.capacity := by
  constructor
  · intro h
    exact h.terminator t (by rw [hextent]; rfl)
  · intro hle
    refine ⟨.inr ?_, fun t' ht' => ?_, fun _ _ => ?_⟩
    · rw [hextent]
      dsimp only
      omega
    · rw [hextent] at ht'
      obtain rfl := Option.some.inj ht'
      exact hle
    · rw [hextent]
      exact Option.some_ne_none t

theorem contained_writeStringUtf8 (str : List UInt8) (outBuf : Bool) (bufLen : SizeT) :
    Contained (writeStringUtf8 str outBuf bufLen : Call ρ V) ↔
      Allowed (writeStringUtf8 str outBuf bufLen : Call ρ V) := by
  obtain ⟨n, hn⟩ := bufLen
  cases outBuf with
  | false => exact iff_of_true (contained_of_nothing rfl nofun) nofun
  | true =>
    have hextent : (writeStringUtf8 str true ⟨n, hn⟩ : Call ρ V).extent =
        ⟨min str.length (sizeT (n - 1)), some (min str.length (sizeT (n - 1)))⟩ := by
      simp [extent, StringOutput.writeStringUtf8, Output.extent]
    rw [contained_iff_of_extent hextent (Nat.le_refl _)]
    dsimp only [unit, capacity, Allowed]
    constructor
    · intro hle _
      omega
    · intro hpos
      have hsize := sizeT_of_nonneg (n := (n : ℤ) - 1) (by have := hpos rfl; omega) (by omega)
      omega

theorem contained_writeStringWithLenInChars (msgStr : List UInt8) (messageText : Bool)
    (len : SmallInt) :
    Contained (writeStringWithLenInChars msgStr messageText len : Call ρ V) ↔
      Allowed (writeStringWithLenInChars msgStr messageText len : Call ρ V) := by
  obtain ⟨n, hn⟩ := len
  obtain ⟨hlow, hhigh⟩ := fits_i16.mp hn
  cases messageText with
  | false => exact iff_of_true (contained_of_nothing rfl nofun) nofun
  | true =>
    have hextent : (writeStringWithLenInChars msgStr true ⟨n, hn⟩ : Call ρ V).extent =
        ⟨min msgStr.length (sizeT (sizeT n - 1)),
          some (min msgStr.length (sizeT (sizeT n - 1)))⟩ := by
      simp [extent, StringOutput.writeStringWithLenInChars, StringOutput.writeStringUtf8,
        Output.extent]
    rw [contained_iff_of_extent hextent (Nat.le_refl _)]
    dsimp only [unit, capacity, Allowed]
    constructor
    · intro hle _
      omega
    · intro hpos
      have hlen := sizeT_of_nonneg (n := n) (by have := hpos rfl; omega) (by omega)
      have hsize := sizeT_of_nonneg (n := (sizeT n : ℤ) - 1) (by have := hpos rfl; omega)
        (by omega)
      omega

/-- A call that writes what fits. -/
theorem contained_of_fitted {text : List α} {n : ℕ}
    (hextent : c.extent = (Output.fitted text n).extent c.unit)
    (hcap : 0 < n → (c.unit : ℤ) * n ≤ c.capacity)
    (hroom : (c.unit : ℤ) ≤ c.capacity → 0 < n) : Contained c := by
  rcases Nat.eq_zero_or_pos n with rfl | hn
  · exact contained_of_nothing hextent fun _ hle => absurd (hroom hle) (Nat.lt_irrefl 0)
  · rw [extent_fitted text hn] at hextent
    refine (contained_iff_of_extent hextent (Nat.le_refl _)).2 ?_
    have hle : c.unit * (min text.length (n - 1) + 1) ≤ c.unit * n := by
      refine Nat.mul_le_mul_left _ ?_
      omega
    rw [Nat.mul_add] at hle
    have := hcap hn
    omega

theorem contained_writeStringUtf16 (utf8Str : List UInt8) (outBuf : Bool) (bufLenBytes : SizeT) :
    Contained (writeStringUtf16 utf8Str outBuf bufLenBytes : Call ρ V) := by
  obtain ⟨n, hn⟩ := bufLenBytes
  cases outBuf with
  | false => exact contained_of_nothing rfl nofun
  | true =>
    have hextent : (writeStringUtf16 utf8Str true ⟨n, hn⟩ : Call ρ V).extent =
        (Output.fitted (utf16 utf8Str) (n / 2)).extent 2 := by
      simp only [extent, writeStringUtf16_eq]
    refine contained_of_fitted hextent ?_ ?_
    · dsimp only [unit, capacity]
      omega
    · dsimp only [unit, capacity]
      omega

theorem contained_writeStringWithLenInCharsW (msgStr : List UInt8) (messageText : Bool)
    (len : SmallInt) (textLengthPtr : Bool) :
    Contained (writeStringWithLenInCharsW msgStr messageText len textLengthPtr : Call ρ V) ↔
      Allowed (writeStringWithLenInCharsW msgStr messageText len textLengthPtr : Call ρ V) := by
  obtain ⟨n, hn⟩ := len
  obtain ⟨hlow, hhigh⟩ := fits_i16.mp hn
  by_cases hpos : 1 ≤ n
  · refine iff_of_true ?_ fun _ _ => hpos
    have hextent := congrArg (Output.extent · 2)
      (writeStringWithLenInCharsW_eq msgStr messageText hpos (by omega) textLengthPtr)
    cases messageText with
    | false => exact contained_of_nothing hextent nofun
    | true =>
      refine contained_of_fitted hextent ?_ ?_
      · dsimp only [unit, capacity]
        omega
      · dsimp only [unit, capacity]
        omega
  · have hroom : ¬((2 : ℕ) : ℤ) ≤ 2 * n := by omega
    cases messageText with
    | false =>
      refine iff_of_true (contained_of_nothing ?_ nofun) nofun
      simp only [extent, StringOutput.writeStringWithLenInCharsW]
      split <;> rfl
    | true =>
      cases textLengthPtr with
      | true =>
        refine iff_of_true (contained_of_nothing ?_ fun _ => hroom) nofun
        simp only [extent, StringOutput.writeStringWithLenInCharsW]
        rw [if_pos ⟨by omega, trivial⟩, if_neg (by omega)]
        rfl
      | false =>
        have hextent : (writeStringWithLenInCharsW msgStr true ⟨n, hn⟩ false : Call ρ V).extent =
            ⟨2 * min (utf16 msgStr).length (sizeT (n - 1)),
              some (2 * min (utf16 msgStr).length (sizeT (n - 1)))⟩ := by
          simp [extent, StringOutput.writeStringWithLenInCharsW, Output.extent]
        rw [contained_iff_of_extent hextent (Nat.le_refl _)]
        refine iff_of_false ?_ fun h => hpos (h rfl rfl)
        dsimp only [unit, capacity]
        omega

theorem contained_utf16WriteStr (ret : SqlReturn) (utf8Vec : List UInt8) (utf16StrOut : Bool)
    (len : SqlLen) : Contained (utf16WriteStr ret utf8Vec utf16StrOut len : Call ρ V) := by
  obtain ⟨n, hn⟩ := len
  obtain ⟨hlow, hhigh⟩ := fits_i64.mp hn
  by_cases htext : (utf16WriteStr ret utf8Vec utf16StrOut ⟨n, hn⟩ : Call ρ V).HasText
  · obtain ⟨hret, hne, rfl⟩ := htext
    have hextent : (utf16WriteStr ret utf8Vec true ⟨n, hn⟩ : Call ρ V).extent =
        (Output.fitted (utf16 (utf8Vec.takeWhile (· ≠ 0))) n.toNat).extent 2 := by
      simp only [extent, utf16WriteStr_eq hret hne true (show n < 2 ^ 64 by omega), if_true]
    refine contained_of_fitted hextent ?_ ?_
    · dsimp only [unit, capacity]
      omega
    · dsimp only [unit, capacity]
      omega
  · refine contained_of_nothing ?_ fun h => absurd h htext
    simp only [extent, StringOutput.utf16WriteStr]
    by_cases hret : ret.succeeded = true
    · by_cases hne : utf8Vec = []
      · simp [hret, hne, Output.extent, Output.nothing]
      · cases utf16StrOut with
        | true => exact absurd ⟨hret, hne, rfl⟩ htext
        | false =>
          rw [hret, if_neg (by simp)]
          split
          · rfl
          · split
            · rfl
            · rfl
    · simp [hret, Output.extent, Output.nothing]

theorem contained_getVariableValue (h : OdbcHandleStmt ρ V) (colIdx : ℕ) (target : Addr)
    (len : SqlLen) (val : List UInt8) (wide nullTerminate : Bool) :
    Contained (getVariableValue h colIdx target len val wide nullTerminate) ↔
      Allowed (getVariableValue h colIdx target len val wide nullTerminate) := by
  obtain ⟨n, hn⟩ := len
  obtain ⟨hlow, hhigh⟩ := fits_i64.mp hn
  have hempty : val = [] ↔ val.length = 0 := List.length_eq_zero_iff.symm
  have hextent : (getVariableValue h colIdx target ⟨n, hn⟩ val wide nullTerminate).extent =
      match variableOutLen (lastLen h colIdx) target n val.length (if wide then 2 else 1)
        nullTerminate with
      | none => ⟨0, none⟩
      | some k => ⟨k, if nullTerminate then some k else none⟩ := rfl
  have hunit : (getVariableValue h colIdx target ⟨n, hn⟩ val wide nullTerminate).unit =
      if wide then 2 else 1 := rfl
  have hcap : (getVariableValue h colIdx target ⟨n, hn⟩ val wide nullTerminate).capacity = n := rfl
  simp only [Allowed, hempty]
  generalize hcs : (if wide then 2 else 1 : ℕ) = charSize at hextent hunit
  have hpos : 0 < charSize := by
    rw [← hcs]
    split <;> omega
  unfold variableOutLen at hextent
  by_cases hread : 0 < val.length ∧ val.length ≤ lastLen h colIdx
  · rw [if_pos hread] at hextent
    refine iff_of_true (contained_of_nothing hextent ?_) fun _ htext => by omega
    rintro ⟨-, -, htext⟩
    rw [hempty] at htext
    omega
  rw [if_neg hread] at hextent
  by_cases hsmall : nullTerminate = true ∧ 0 ≤ n ∧ n < charSize
  · rw [if_pos hsmall] at hextent
    refine iff_of_true (contained_of_nothing hextent fun _ => ?_) fun _ _ _ => hsmall.2.1
    rw [hunit, hcap]
    omega
  rw [if_neg hsmall] at hextent
  by_cases htarget : target = 0
  · rw [if_pos htarget] at hextent
    exact iff_of_true (contained_of_nothing hextent fun h => absurd htarget h.2.1)
      fun h => absurd htarget h
  rw [if_neg htarget] at hextent
  have htext : val.length = 0 ∨ lastLen h colIdx < val.length := by omega
  cases nullTerminate with
  | true =>
    simp only [if_true] at hextent
    rw [contained_iff_of_extent hextent (Nat.le_refl _), hunit, hcap]
    constructor
    · intro hle _ _ _
      omega
    · intro hallowed
      have hnonneg := hallowed htarget htext (.inl rfl)
      have hfits : charSize ≤ n := by
        by_contra hlt
        exact hsmall ⟨rfl, hnonneg, by omega⟩
      have hsize := sizeT_of_nonneg (n := n - charSize) (by omega) (by omega)
      omega
  | false =>
    simp only [Bool.false_eq_true, if_false] at hextent
    have hiff : Contained (getVariableValue h colIdx target ⟨n, hn⟩ val wide false) ↔
        min (sizeT (val.length - lastLen h colIdx)) (sizeT n) = 0 ∨
          (min (sizeT (val.length - lastLen h colIdx)) (sizeT n) : ℤ) ≤ n := by
      constructor
      · intro h
        have hcopied := h.copied
        rw [hextent, hcap] at hcopied
        dsimp only at hcopied
        omega
      · intro hle
        refine ⟨?_, fun t ht => ?_, fun h => absurd h.1 Bool.false_ne_true⟩
        · rw [hextent, hcap]
          dsimp only
          omega
        · rw [hextent] at ht
          cases ht
    rw [hiff]
    constructor
    · rintro hle - - (hterm | hrest)
      · cases hterm
      · have hsize : n < 0 → (sizeT n : ℤ) = n + 2 ^ 64 := by
          intro hneg
          unfold sizeT
          omega
        omega
    · intro hallowed
      obtain hneg | hnonneg : n < 0 ∨ 0 ≤ n := by omega
      · refine .inl ?_
        have hrest : sizeT (val.length - lastLen h colIdx) = 0 := by
          by_contra hne
          have := hallowed htarget htext (.inr hne)
          omega
        omega
      · have hsize := sizeT_of_nonneg (n := n) hnonneg (by omega)
        omega

/-- Every call stores inside its buffer exactly when it is allowed. -/
theorem contained_iff (c : Call ρ V) : Contained c ↔ Allowed c := by
  cases c with
  | writeStringUtf8 => exact contained_writeStringUtf8 ..
  | writeStringUtf16 => exact iff_of_true (contained_writeStringUtf16 ..) trivial
  | writeStringWithLenInChars => exact contained_writeStringWithLenInChars ..
  | writeStringWithLenInCharsW => exact contained_writeStringWithLenInCharsW ..
  | utf16WriteStr => exact iff_of_true (contained_utf16WriteStr ..) trivial
  | getVariableValue => exact contained_getVariableValue ..

/-- `WriteStringUtf8` of one byte to a buffer of length zero writes the byte and a terminator. -/
theorem not_contained_empty_buffer :
    ¬Contained (writeStringUtf8 [0x61] true ⟨0, by decide⟩ : Call Unit Unit) := fun h =>
  absurd (h.terminator 1 rfl) (by decide)

end Call

/-! ## One text for UTF-16 -/

theorem utf16_encode (cs : List Char) :
    utf16 (cs.flatMap String.utf8EncodeChar) = cs.flatMap Unicode.utf16EncodeChar := by
  rw [utf16, Widechar.utf8ToUtf16Lenient_encode]

theorem takeWhile_of_nul {s : List UInt8} (hnul : 0 ∉ s) :
    (s ++ [0]).takeWhile (· ≠ 0) = s := by
  have hall : ∀ b ∈ s, decide (b ≠ 0) = true := fun b hb =>
    decide_eq_true fun hzero => hnul (hzero ▸ hb)
  rw [List.takeWhile_append_of_pos hall]
  simp

/-- The three routines write the same for a text without a NUL : the units that leave room for
a terminator, and the terminator. -/
theorem utf16_outputs_agree (cs : List Char) {s : List UInt8} {units : List UInt16}
    (hs : s = cs.flatMap String.utf8EncodeChar) (hnul : 0 ∉ s)
    (hunits : units = cs.flatMap Unicode.utf16EncodeChar) (c : ℕ) :
    (c < 2 ^ 63 →
      utf16WriteStr .success (s ++ [0]) true c = (min units.length (c - 1), .fitted units c) ∧
      writeStringUtf16 s true (2 * c) = ((min units.length (c - 1), units), .fitted units c)) ∧
    (2 ≤ c → c < 2 ^ 15 → ∀ textLengthPtr,
      writeStringWithLenInCharsW s true c textLengthPtr = .fitted units c) := by
  have htext : utf16 s = units := by rw [hs, hunits, utf16_encode]
  refine ⟨fun hc => ⟨?_, ?_⟩, fun hpos hc textLengthPtr => ?_⟩
  · rw [utf16WriteStr_eq rfl (by simp) true (by omega), takeWhile_of_nul hnul, htext,
      Int.toNat_natCast, if_pos rfl]
  · rw [writeStringUtf16_eq, htext, Nat.mul_div_cancel_left c (by decide)]
  · rw [writeStringWithLenInCharsW_eq _ _ (by omega) (by omega), htext, Int.toNat_natCast,
      if_pos rfl]

/-- A letter and a surrogate pair into a buffer of three units. -/
theorem utf16_outputs_agree_pair :
    utf16WriteStr .success ([0x41, 0xf0, 0x9f, 0x98, 0x80] ++ [0]) true 3 =
        (2, ⟨[0x41, 0xd83d], some 2⟩) ∧
      writeStringWithLenInCharsW [0x41, 0xf0, 0x9f, 0x98, 0x80] true 3 true =
        ⟨[0x41, 0xd83d], some 2⟩ :=
  have h := utf16_outputs_agree ['A', '😀'] rfl (by decide) rfl 3
  ⟨(h.1 (by decide)).1, h.2 (by decide) (by decide) true⟩

end HaybarnOdbc.StringOutput
