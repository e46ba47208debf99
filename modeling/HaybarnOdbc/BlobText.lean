import Mathlib.Data.List.TakeWhile
import HaybarnOdbc.LongData
import HaybarnOdbc.Lib.HexEscape

/-!
# Text values and blobs as bytes

`SQL_C_BINARY` of a value : `GetDataStmtResult` prints the value and hands the text, as a C
string, to `Blob::ToBlob`, which takes it for the text of a blob with its escapes. `SQL_C_CHAR`
returns the text that was printed.

A BLOB is printed with escapes, which are read back, as long as the text is not too long to be
printed. A VARCHAR is printed as it is, without escapes : a backslash or a byte that is not ASCII
throws or stands for another byte, and a zero byte ends the text.
-/

namespace HaybarnOdbc.Blob

open HexEscape

/-- The bytes of a `string_t`, whose length is a `uint32_t`. -/
structure EngineString where
  bytes : List UInt8
  length_lt : bytes.length < 2 ^ 32

/-- The values that are read. -/
inductive Value
  | varchar (s : EngineString)
  | blob (s : EngineString)

/-- What the conversions throw : `ConversionException` for one of three reasons, with the text if
it is named, and `OutOfRangeException` for a length. `beyondText` is a read beyond the text. -/
inductive Thrown
  | unterminatedEscape (str : List UInt8)
  | invalidEscape (str code : List UInt8)
  | invalidByte (str : Option (List UInt8))
  | outOfRange (length : ℕ)
  | beyondText
  deriving DecidableEq, Repr

/-- `IsRegularCharacter`. -/
def isRegularCharacter (c : UInt8) : Bool := 32 ≤ c && c ≤ 126 && c != 92 && c != 39 && c != 34

/-- `Blob::ToString`. -/
def blobToString (blob : List UInt8) : List UInt8 := escape isRegularCharacter blob

/-- `Blob::HEX_MAP`. -/
def hexMap (c : UInt8) : ℤ := (hexValue c).elim (-1) fun n => n

/-- `Blob::TryGetBlobSize` of the rest of `str`. -/
def tryGetBlobSize (str : List UInt8) : List UInt8 → Except Thrown ℕ
  | [] => .ok 0
  | c :: rest =>
    if c = backslash then
      match rest with
      | x :: a :: b :: rest =>
        if x ≠ 120 ∨ hexMap a < 0 ∨ hexMap b < 0 then .error (.invalidEscape str [c, x, a, b])
        else (tryGetBlobSize str rest).map (· + 1)
      | _ => .error (.unterminatedEscape str)
    else if c ≤ 127 then (tryGetBlobSize str rest).map (· + 1)
    else .error (.invalidByte (some str))

/-- `Blob::ToBlob` into a buffer. -/
def toBlobOutput : List UInt8 → Except Thrown (List UInt8)
  | [] => .ok []
  | c :: rest =>
    if c = backslash then
      match rest with
      | _ :: a :: b :: rest =>
        (toBlobOutput rest).map (UInt8.ofNat (16 * hexMap a + hexMap b).toNat :: ·)
      | _ => .error .beyondText
    else if c ≤ 127 then (toBlobOutput rest).map (c :: ·)
    else .error (.invalidByte none)

/-- `Blob::ToBlob`, of as many bytes as `GetBlobSize` counts. -/
def toBlob (str : List UInt8) : Except Thrown (List UInt8) := do
  let blobLen ← tryGetBlobSize str str
  let output ← toBlobOutput str
  return output.take blobLen

/-- A `string_t` of a C string : up to its first zero byte, with its length as a `uint32_t`. -/
def cString (s : List UInt8) : List UInt8 :=
  let text := s.takeWhile (· ≠ 0)
  text.take (text.length % 2 ^ 32)

namespace Value

/-- `GetValue<string>`. The heap of a vector takes no text above `MAX_STRING_SIZE`. -/
def getString : Value → Except Thrown (List UInt8)
  | varchar s => .ok s.bytes
  | blob s =>
    let text := blobToString s.bytes
    if 2 ^ 32 - 1 < text.length then .error (.outOfRange text.length) else .ok text

/-- The bytes of `SQL_C_BINARY`. -/
def binaryBytes (v : Value) : Except Thrown (List UInt8) := do
  let text ← v.getString
  toBlob (cString text)

/-- The bytes of `SQL_C_CHAR`. -/
def charBytes (v : Value) : Except Thrown (List UInt8) := v.getString

end Value

/-! ## Texts that are read back -/

/-- The bytes that `Blob::ToBlob` takes as they are. -/
def plain (c : UInt8) : Bool := c ≤ 127

/-- The table has the value of every hexadecimal digit. -/
theorem hexMap_of_some {c : UInt8} {n : ℕ} (h : hexValue c = some n) : hexMap c = n := by
  rw [hexMap, h]
  rfl

theorem toOption_map {α β : Type} (f : α → β) (e : Except Thrown α) :
    (e.map f).toOption = e.toOption.map f := by
  cases e <;> rfl

/-- What `TryGetBlobSize` counts are the bytes that the text stands for. -/
theorem toOption_tryGetBlobSize (str : List UInt8) : ∀ s : List UInt8,
    (tryGetBlobSize str s).toOption = (unescape plain s).map List.length
  | [] => rfl
  | c :: rest => by
    by_cases hc : c = backslash
    · subst hc
      match rest with
      | [] | [_] | [_, _] => rfl
      | x :: a :: b :: rest =>
        have ih := toOption_tryGetBlobSize str rest
        by_cases hx : x = 120
        · cases ha : hexValue a with
          | none => simp [tryGetBlobSize, unescape, hexMap, ha, Except.toOption]
          | some hi =>
            cases hb : hexValue b with
            | none => simp [tryGetBlobSize, unescape, hexMap, ha, hb, Except.toOption]
            | some lo =>
              have hdigits : ¬(hexMap a < 0 ∨ hexMap b < 0) := by
                rw [hexMap_of_some ha, hexMap_of_some hb]
                omega
              simp [tryGetBlobSize, unescape, hx, ha, hb, hdigits, toOption_map, ih,
                Function.comp_def]
        · have hnone : unescape plain (backslash :: x :: a :: b :: rest) = none := by
            cases hu : unescape plain (backslash :: x :: a :: b :: rest) with
            | none => rfl
            | some r =>
              obtain ⟨_, _, _, _, _, _, heq, -⟩ := unescape_backslash hu
              exact absurd (List.cons.inj heq).1 hx
          rw [hnone]
          simp [tryGetBlobSize, hx, Except.toOption]
    · have ih := toOption_tryGetBlobSize str rest
      have hsize : tryGetBlobSize str (c :: rest) = if c ≤ 127 then
          (tryGetBlobSize str rest).map (· + 1) else .error (.invalidByte (some str)) := by
        rw [tryGetBlobSize.eq_def]
        exact if_neg hc
      rw [unescape_cons_of_ne hc, hsize]
      by_cases hplain : c ≤ 127
      · simp [plain, hplain, toOption_map, ih, Function.comp_def]
      · simp [plain, hplain, Except.toOption]

/-- A text that stands for bytes is written to them. -/
theorem toBlobOutput_of_unescape : ∀ {s r : List UInt8}, unescape plain s = some r →
    toBlobOutput s = .ok r
  | [], _, h => by
    cases h
    rfl
  | c :: rest, r, h => by
    by_cases hc : c = backslash
    · subst hc
      obtain ⟨a, b, rest', r', hi, lo, rfl, hhi, hlo, hr', rfl⟩ := unescape_backslash h
      have ih := toBlobOutput_of_unescape hr'
      have hsum : ((16 * hi + lo : ℤ)).toNat = 16 * hi + lo := by omega
      simp only [toBlobOutput, ih, hexMap_of_some hhi, hexMap_of_some hlo, hsum, if_true]
      rfl
    · rw [unescape_cons_of_ne hc] at h
      split_ifs at h with hplain
      obtain ⟨r', hr', rfl⟩ := Option.map_eq_some_iff.1 h
      have hout : toBlobOutput (c :: rest) = if c ≤ 127 then
          (toBlobOutput rest).map (c :: ·) else .error (.invalidByte none) := by
        rw [toBlobOutput.eq_def]
        exact if_neg hc
      rw [hout, if_pos (of_decide_eq_true hplain), toBlobOutput_of_unescape hr']
      rfl

/-- `Blob::ToBlob` reads escapes back. -/
theorem toBlob_ok_iff {s r : List UInt8} : toBlob s = .ok r ↔ unescape plain s = some r := by
  have hsize := toOption_tryGetBlobSize s s
  unfold toBlob
  cases hu : unescape plain s with
  | none =>
    rw [hu] at hsize
    cases ht : tryGetBlobSize s s with
    | error e => exact iff_of_false nofun nofun
    | ok n =>
      rw [ht] at hsize
      cases hsize
  | some r' =>
    rw [hu] at hsize
    cases ht : tryGetBlobSize s s with
    | error e =>
      rw [ht] at hsize
      cases hsize
    | ok n =>
      rw [ht] at hsize
      obtain rfl := Option.some.inj hsize
      simp [toBlobOutput_of_unescape hu, bind, Except.bind, pure, Except.pure]

/-- A text that is no longer than its length field is read up to its first NUL. -/
theorem cString_eq {s : List UInt8} (h : s.length < 2 ^ 32) : cString s = s.takeWhile (· ≠ 0) := by
  have hle := (List.takeWhile_prefix (p := fun c : UInt8 => decide (c ≠ 0)) (l := s)).length_le
  rw [cString, Nat.mod_eq_of_lt (by omega), List.take_length]

/-- A text is read as itself just when it is ASCII without backslashes and zero bytes. -/
theorem toBlob_cString_iff {s : List UInt8} (h : s.length < 2 ^ 32) :
    toBlob (cString s) = .ok s ↔ ∀ c ∈ s, c ≠ 0 ∧ c ≠ backslash ∧ c ≤ 127 := by
  rw [cString_eq h, toBlob_ok_iff]
  constructor
  · intro hu
    have hle := (length_unescape hu).1
    have hprefix := List.takeWhile_prefix (p := fun c : UInt8 => decide (c ≠ 0)) (l := s)
    have heq : s.takeWhile (· ≠ 0) = s :=
      hprefix.eq_of_length (Nat.le_antisymm hprefix.length_le hle)
    rw [heq, unescape_eq_self_iff] at hu
    intro c hc
    have hzero := List.mem_takeWhile_imp (heq.symm ▸ hc)
    exact ⟨of_decide_eq_true hzero, (hu c hc).1, of_decide_eq_true (hu c hc).2⟩
  · intro hall
    have heq : s.takeWhile (· ≠ 0) = s :=
      List.takeWhile_eq_self_iff.2 fun c hc => decide_eq_true (hall c hc).1
    rw [heq, unescape_eq_self_iff]
    exact fun c hc => ⟨(hall c hc).2.1, decide_eq_true (hall c hc).2.2⟩

/-- What a blob is printed as is read back, since no regular byte needs an escape and no byte is
zero. -/
theorem toBlob_cString_blobToString {s : List UInt8} (h : (blobToString s).length < 2 ^ 32) :
    toBlob (cString (blobToString s)) = .ok s := by
  have hzero : ∀ c ∈ blobToString s, decide (c ≠ 0) = true := by
    intro c hc
    rcases mem_escape hc with hreg | rfl | rfl | ⟨n, hn, rfl⟩
    · refine decide_eq_true ?_
      rintro rfl
      exact absurd hreg (by decide)
    · rfl
    · rfl
    · exact (show ∀ n < 16, decide (hexDigit n ≠ 0) = true by decide) n hn
  rw [cString_eq h, List.takeWhile_eq_self_iff.2 hzero, toBlob_ok_iff]
  refine unescape_escape (fun c hc => ?_) s
  simp only [isRegularCharacter, Bool.and_eq_true, decide_eq_true_eq, bne_iff_ne] at hc
  obtain ⟨⟨⟨⟨-, hle⟩, hne⟩, -⟩, -⟩ := hc
  exact ⟨hne, decide_eq_true (UInt8.le_trans hle (by decide))⟩

/-! ## What the calls return -/

open OdbcHandleStmt

section

variable {ρ V : Type} {E : Engine ρ V} {h : OdbcHandleStmt ρ V} {num off : ℕ} {v : V}
  {t : LongType} {val : List UInt8} {q : GetDataRequest}

/-- The bytes that a call of `SQLGetData` stored as its piece. -/
def piece (r : Reply ρ V) : List UInt8 :=
  match r.writes with
  | .data _ bytes :: _ => bytes
  | _ => []

/-- The piece of an answer is the start of what is left. -/
theorem piece_of_answers {r : Reply ρ V} (h : Answers t val off q r) :
    piece r = (val.drop off).take (t.room q) := by
  unfold Answers at h
  by_cases hle : val.length ≤ off
  · rw [if_pos hle] at h
    rw [piece, h.2, List.drop_eq_nil_of_le hle, List.take_nil]
  · rw [if_neg hle] at h
    have hwrites := h.2
    rw [piece, hwrites]

/-- An empty value is returned at once. -/
theorem getVariableValue_nil {col charSize : ℕ} {nullTerminate : Bool}
    (hoff : (h.setLastFetchedVariableVal col).odbcFetcher.lastFetched.length = 0)
    (htarget : q.target ≠ 0) (hfit : nullTerminate = true → charSize ≤ q.bufferLength) :
    ∃ writes, h.getVariableValue col q.target q.bufferLength q.strLenOrInd [] charSize nullTerminate
      = .ok ⟨.success, (h.setLastFetchedVariableVal col).setLastFetchedLength 0,
          .data q.target [] :: writes⟩ := by
  have hwrap : ¬(nullTerminate = true ∧ 0 ≤ q.bufferLength ∧ q.bufferLength < charSize) := by
    rintro ⟨hn, -, hlt⟩
    have := hfit hn
    omega
  have hzero : sizeT 0 = 0 := rfl
  simp [getVariableValue, hoff, hwrap, htarget, hzero]

/-- A call for a value without bytes stores none. -/
theorem sqlGetData_nil (hval : t.bytes E v = .ok []) (hrem : Remains E (num - 1) v h 0)
    (hq : t.Accepts q) :
    ∃ r, sqlGetData E num t.toCType q.target q.bufferLength q.strLenOrInd h = .ok r ∧
      piece r = [] ∧ Remains E (num - 1) v r.h 0 := by
  obtain ⟨htarget, hterm, -⟩ := hq
  obtain ⟨charSize, hchar, hcall⟩ := sqlGetData_eq hrem.toHasValue hval htarget
  have hoff : (h.convertHSTMT.setLastFetchedVariableVal
    (num - 1 : ℕ)).odbcFetcher.lastFetched.length
      = 0 := hrem.offset
  have hfit : decide (t ≠ .binary) = true → (charSize : ℤ) ≤ q.bufferLength := by
    intro hb
    rw [hchar (of_decide_eq_true hb)]
    exact hterm
  obtain ⟨writes, hget⟩ := getVariableValue_nil hoff htarget hfit
  rw [hget] at hcall
  refine ⟨_, hcall, rfl, hrem.toHasValue.of_lastFetched rfl rfl, ?_⟩
  simp [setLastFetchedLength, setLastFetchedVariableVal]

/-- One call stores the next bytes, and leaves the rest. -/
theorem sqlGetData_next (hval : t.bytes E v = .ok val) (hlen : val.length < 2 ^ 64)
    (hrem : Remains E (num - 1) v h off) (hle : off ≤ val.length) (hq : t.Accepts q) :
    ∃ r, sqlGetData E num t.toCType q.target q.bufferLength q.strLenOrInd h = .ok r ∧
      piece r = (val.drop off).take (t.room q) ∧
        Remains E (num - 1) v r.h (min val.length (off + t.room q)) := by
  by_cases hne : val = []
  · subst hne
    obtain rfl : off = 0 := Nat.le_zero.1 hle
    obtain ⟨r, hr, hpiece, hrem'⟩ := sqlGetData_nil hval hrem hq
    exact ⟨r, hr, by simpa using hpiece, by simpa using hrem'⟩
  · obtain ⟨r, hr, hans, hrem'⟩ := sqlGetData_piece hval hne hlen hrem hle hq
    exact ⟨r, hr, piece_of_answers hans, hrem'⟩

/-- Consecutive calls store the bytes that they have room for. -/
theorem getDataCalls_pieces (hval : t.bytes E v = .ok val) (hlen : val.length < 2 ^ 64) :
    ∀ (qs : List GetDataRequest) {h : OdbcHandleStmt ρ V} {off : ℕ},
      Remains E (num - 1) v h off → off ≤ val.length → (∀ q ∈ qs, t.Accepts q) →
      ∃ replies h', h.getDataCalls E num t.toCType qs = .ok (replies, h') ∧
        (replies.map piece).flatten = (val.drop off).take (qs.map t.room).sum
  | [], h, off, _, _, _ => ⟨[], h, rfl, by simp⟩
  | q :: qs, h, off, hrem, hle, hqs => by
    obtain ⟨hq, hqs⟩ := List.forall_mem_cons.1 hqs
    obtain ⟨r, hr, hpiece, hrem'⟩ := sqlGetData_next hval hlen hrem hle hq
    obtain ⟨replies, h', hrun, hflat⟩ :=
      getDataCalls_pieces hval hlen qs hrem' (Nat.min_le_left _ _) hqs
    refine ⟨r :: replies, h', ?_, ?_⟩
    · unfold getDataCalls at hrun ⊢
      rw [Run.outputs, hr, Except.map]
      dsimp only
      rw [hrun]
    · have hdrop : val.drop (min val.length (off + t.room q)) = val.drop (off + t.room q) := by
        rcases Nat.le_total val.length (off + t.room q) with hge | hlt
        · rw [Nat.min_eq_left hge, List.drop_length, List.drop_eq_nil_of_le hge]
        · rw [Nat.min_eq_right hlt]
      rw [List.map_cons, List.flatten_cons, hflat, hpiece, hdrop, List.map_cons, List.sum_cons,
        List.take_add, List.drop_drop]

end

/-- Calls of `SQLGetData` return the bytes : the conversion does not throw, and from the first one
on, whatever buffers they have, together they store these bytes once they had room for them. -/
def Returns (t : LongType) (conv : Except Thrown (List UInt8)) (bytes : List UInt8) : Prop :=
  ∃ val, conv = .ok val ∧ ∀ (ρ V : Type) (E : Engine ρ V) (h : OdbcHandleStmt ρ V) (num : ℕ) (v : V)
    (qs : List GetDataRequest), t.bytes E v = .ok val → HasValue E h (num - 1) v →
    h.FreshOffset (num - 1) → (∀ q ∈ qs, t.Accepts q) → val.length ≤ (qs.map t.room).sum →
    ∃ replies h', h.getDataCalls E num t.toCType qs = .ok (replies, h') ∧
      (replies.map piece).flatten = bytes

/-- The engine whose only value is read as the bytes. -/
def bytesEngine (bytes : List UInt8) : Engine ℕ ℕ :=
  { byteEngine with
    charBytes := fun _ => .ok bytes
    wcharBytes := fun _ => .ok bytes
    binaryBytes := fun _ => .ok bytes }

/-- What the calls return is what the conversion gives. -/
theorem returns_iff {t : LongType} {conv : Except Thrown (List UInt8)} {bytes : List UInt8}
    (hlen : ∀ val, conv = .ok val → val.length < 2 ^ 62) :
    Returns t conv bytes ↔ conv = .ok bytes := by
  have hcalls : ∀ val, conv = .ok val → ∀ (ρ V : Type) (E : Engine ρ V) (h : OdbcHandleStmt ρ V)
      (num : ℕ) (v : V) (qs : List GetDataRequest), t.bytes E v = .ok val →
        HasValue E h (num - 1) v →
      h.FreshOffset (num - 1) → (∀ q ∈ qs, t.Accepts q) → val.length ≤ (qs.map t.room).sum →
      ∃ replies h', h.getDataCalls E num t.toCType qs = .ok (replies, h') ∧
        (replies.map piece).flatten = val := by
    intro val hconv ρ V E h num v qs hval hv hfresh hqs hroom
    obtain ⟨replies, h', hrun, hflat⟩ := getDataCalls_pieces hval
      (by have := hlen val hconv; omega) qs ⟨hv, hfresh⟩ (Nat.zero_le _) hqs
    refine ⟨replies, h', hrun, hflat.trans ?_⟩
    rw [List.drop_zero, List.take_of_length_le hroom]
  constructor
  · rintro ⟨val, hconv, h⟩
    have hlen' := hlen val hconv
    have hval : t.bytes (bytesEngine val) 0 = .ok val := by cases t <;> rfl
    have hv : HasValue (bytesEngine val) (onOnlyRow 0) 0 0 := ⟨⟨_, rfl, rfl⟩, rfl, rfl⟩
    have hterm : t.termSize ≤ 2 := by cases t <;> decide
    have hq : ∀ q ∈ [GetDataRequest.mk 1 (val.length + 2) 0], t.Accepts q := by
      rintro q hq
      rw [List.mem_singleton.1 hq]
      refine ⟨one_ne_zero, ?_, ?_⟩ <;> dsimp only <;> omega
    have hroom : val.length ≤ ([GetDataRequest.mk 1 (val.length + 2) 0].map t.room).sum := by
      simp only [List.map_cons, List.map_nil, List.sum_cons, List.sum_nil, LongType.room]
      omega
    obtain ⟨replies, h', hrun, hflat⟩ := h ℕ ℕ (bytesEngine val) (onOnlyRow 0) 1 0 _ hval hv rfl hq
      hroom
    obtain ⟨replies', h'', hrun', hflat'⟩ :=
      hcalls val hconv ℕ ℕ (bytesEngine val) (onOnlyRow 0) 1 0
      _ hval hv rfl hq hroom
    rw [hrun] at hrun'
    cases hrun'
    rw [hconv, ← hflat', hflat]
  · exact fun hconv => ⟨bytes, hconv, hcalls bytes hconv⟩

/-- A text that is cut at a NUL gets no longer. -/
theorem length_cString_le (s : List UInt8) : (cString s).length ≤ s.length := by
  have hwhile := (List.takeWhile_prefix (p := fun c : UInt8 => decide (c ≠ 0)) (l := s)).length_le
  exact (List.length_take_le' ..).trans hwhile

namespace Value

variable {v : Value}

/-- The text of a value is shorter than four gigabytes. -/
theorem length_getString {text : List UInt8} (h : v.getString = .ok text) :
    text.length < 2 ^ 32 := by
  cases v with
  | varchar s =>
    cases h
    exact s.length_lt
  | blob s =>
    rw [getString] at h
    split_ifs at h with hlt
    cases h
    omega

/-- So are its bytes. -/
theorem length_binaryBytes {bytes : List UInt8} (h : v.binaryBytes = .ok bytes) :
    bytes.length < 2 ^ 32 := by
  obtain ⟨text, htext, hblob⟩ := Outcome.bind_eq_ok.1 h
  have hle := (length_unescape (toBlob_ok_iff.1 hblob)).1
  exact lt_of_le_of_lt (hle.trans (length_cString_le text)) (length_getString htext)

/-- The bytes of a blob are those it was made of. -/
theorem binaryBytes_blob {s : EngineString} (h : (blobToString s.bytes).length < 2 ^ 32) :
    (blob s).binaryBytes = .ok s.bytes := by
  have htext : (blob s).getString = .ok (blobToString s.bytes) := if_neg (by omega)
  rw [binaryBytes, htext]
  exact toBlob_cString_blobToString h

end Value

/-- A VARCHAR value is read with `SQL_C_BINARY` as with `SQL_C_CHAR` just when it is ASCII without
backslashes and zero bytes, and a BLOB value as its bytes just when they can be printed : every
byte that is not regular takes four. -/
theorem binary_iff (s : EngineString) :
    ((∃ bytes, Returns .char (Value.varchar s).charBytes bytes ∧
        Returns .binary (Value.varchar s).binaryBytes bytes) ↔
      ∀ c ∈ s.bytes, c ≠ 0 ∧ c ≠ backslash ∧ c ≤ 127) ∧
    (Returns .binary (Value.blob s).binaryBytes s.bytes ↔
      s.bytes.length + 3 * (s.bytes.countP fun c => !isRegularCharacter c) < 2 ^ 32) := by
  have hchar : ∀ v : Value, ∀ val, v.charBytes = .ok val → val.length < 2 ^ 62 := fun v val h => by
    have := Value.length_getString h
    omega
  have hbinary : ∀ v : Value, ∀ val, v.binaryBytes = .ok val → val.length < 2 ^ 62 :=
    fun v val h => by
      have := Value.length_binaryBytes h
      omega
  constructor
  · simp only [returns_iff (hchar _), returns_iff (hbinary _)]
    rw [← toBlob_cString_iff s.length_lt]
    constructor
    · rintro ⟨bytes, hbytes, hblob⟩
      cases hbytes
      exact hblob
    · exact fun h => ⟨s.bytes, rfl, h⟩
  · rw [returns_iff (hbinary _), ← length_escape, ← blobToString]
    constructor
    · intro h
      obtain ⟨text, htext, -⟩ := Outcome.bind_eq_ok.1 h
      rw [Value.getString] at htext
      split_ifs at htext with hlt
      omega
    · exact Value.binaryBytes_blob

/-- A backslash and a letter that is not ASCII make the call throw, and an escape is read as the
byte that it stands for. -/
theorem varchar_read_otherwise :
    (¬∃ bytes, Returns .char (Value.varchar ⟨[97, 92, 98], by decide⟩).charBytes bytes ∧
      Returns .binary (Value.varchar ⟨[97, 92, 98], by decide⟩).binaryBytes bytes) ∧
    (¬∃ bytes, Returns .char (Value.varchar ⟨[195, 169], by decide⟩).charBytes bytes ∧
      Returns .binary (Value.varchar ⟨[195, 169], by decide⟩).binaryBytes bytes) ∧
    Returns .binary (Value.varchar ⟨[92, 120, 52, 49], by decide⟩).binaryBytes [65] := by
  have hslash : (Value.varchar ⟨[97, 92, 98], by decide⟩).binaryBytes
      = .error (.unterminatedEscape [97, 92, 98]) := rfl
  have hletter : (Value.varchar ⟨[195, 169], by decide⟩).binaryBytes
      = .error (.invalidByte (some [195, 169])) := rfl
  have hescape : (Value.varchar ⟨[92, 120, 52, 49], by decide⟩).binaryBytes = .ok [65] := rfl
  refine ⟨?_, ?_, ?_⟩
  · rintro ⟨bytes, -, val, hval, -⟩
    rw [hslash] at hval
    cases hval
  · rintro ⟨bytes, -, val, hval, -⟩
    rw [hletter] at hval
    cases hval
  · refine (returns_iff fun val h => ?_).2 hescape
    rw [hescape] at h
    cases h
    decide

end HaybarnOdbc.Blob
