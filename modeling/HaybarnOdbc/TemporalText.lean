import HaybarnOdbc.Numerics
import HaybarnOdbc.Temporal

/-!
# Dates and times as texts

What the engine writes for a date, a time or a timestamp that is fetched as `SQL_C_CHAR`, and
what it reads in a text that is cast to one. A year before year 1 is written with the suffix
`(BC)`, and zeros at the end of a fraction are left out. Read again, the text is the value it was
written for (`text_read_back_iff`), for all values whose days the cast can count.
-/

namespace HaybarnOdbc.TemporalText

open MachineInt Calendar

/-! ## Writing -/

/-- The digits of a number, behind zeros up to a length. -/
def leadingZeros (length n : ℕ) : List Char :=
  List.replicate (length - (digitsText n).length) '0' ++ digitsText n

/-- `FormatTwoDigits`, and `FormatComponent` behind its dash. -/
def formatTwoDigits (value : ℤ) : List Char :=
  if value < 10 then '0' :: digitsText value.toNat else digitsText value.toNat

/-- The digits of a year from year 1 on, of `YearLength`. -/
def yearLength (year : ℤ) : ℕ :=
  4 + (if 10000 ≤ year then 1 else 0) + (if 100000 ≤ year then 1 else 0) +
    (if 1000000 ≤ year then 1 else 0) + if 10000000 ≤ year then 1 else 0

/-- `DateToStringCast`. -/
def formatDate (year : ℤ) (month : ℕ) (day : ℤ) : List Char :=
  let addBc := year ≤ 0
  let year := if addBc then -year + 1 else year
  leadingZeros (yearLength year) year.toNat ++ ('-' :: formatTwoDigits month ++
    ('-' :: formatTwoDigits day ++ if addBc then " (BC)".toList else []))

/-- The number of zeros at the end that `FormatMicros` returns, which leaves one digit. -/
def trailingZeros (buffer : List Char) : ℕ :=
  ((buffer.drop 1).reverse.takeWhile fun c => c = '0').length

/-- `TimeToStringCast::Length`, all digits being there in front of others. -/
def timeLength (micros picos : ℤ) : ℕ :=
  if picos ≠ 0 then 15
  else if micros = 0 then 8 else 15 - trailingZeros (leadingZeros 6 micros.toNat)

/-- `TimeToStringCast::Format`, with the digits behind the microseconds. -/
def formatTime (time picos : ℤ) : List Char :=
  let (hour, minute, second, micros) := EngineTime.convert time
  let length := timeLength micros picos
  let nanos := leadingZeros 6 picos.toNat
  formatTwoDigits hour ++ (':' :: formatTwoDigits minute ++ (':' :: formatTwoDigits second ++
    ((if 8 < length then '.' :: (leadingZeros 6 micros.toNat).take (length - 9) else []) ++
      if picos ≠ 0 then nanos.take (6 - trailingZeros nanos) else [])))

/-- `Timestamp::Convert` of a timestamp in microseconds : its date and its time. -/
def convertTimestamp (timestamp : ℤ) : Except String (ℤ × ℤ) :=
  let date := EngineTimestamp.getDate timestamp
  match EngineTimestamp.tryMultiply date microsPerDay with
  | none => .error "Date out of range in timestamp conversion"
  | some daysMicros => .ok (date, timestamp - daysMicros)

/-- `TemporalRound`. -/
def temporalRound (value scale : ℤ) : ℤ :=
  let negative : ℤ := if value < 0 then 1 else 0
  (value + negative).tdiv scale - negative

/-- `Timestamp::Convert` of a timestamp in nanoseconds : its date, its time, and the nanoseconds
that are left. -/
def convertTimestampNs (input : ℤ) : Except String (ℤ × ℤ × ℤ) :=
  let date := EngineTimestamp.getDate (temporalRound input 1000)
  match EngineTimestamp.tryMultiply date nanosPerDay with
  | none => .error "Date out of range in timestamp_ns conversion"
  | some daysNanos =>
    .ok (date, (input - daysNanos).tdiv 1000, i32.wrap ((input - daysNanos).tmod 1000))

/-- The texts of the values that are not finite. -/
def infinityText : List Char := "infinity".toList

/-- `StringCast` of a date. -/
def dateText (days : ℤ) : List Char :=
  if days = EngineDate.infinity then infinityText
  else if days = -EngineDate.infinity then '-' :: infinityText
  else
    let (year, month, day) := EngineDate.convert days
    formatDate year month day

/-- A date and a time with a space between them. -/
def formatTimestamp (date time picos : ℤ) : List Char :=
  let (year, month, day) := EngineDate.convert date
  formatDate year month day ++ ' ' :: formatTime time picos

/-- `StringFromTimestamp`. -/
def timestampText (hasNanos : Bool) (input : ℤ) : Except String (List Char) :=
  if input = EngineTimestamp.infinity then .ok infinityText
  else if input = -EngineTimestamp.infinity then .ok ('-' :: infinityText)
  else if hasNanos then
    match convertTimestampNs input with
    | .error msg => .error msg
    | .ok (date, time, nanos) => .ok (formatTimestamp date time (nanos * 1000))
  else
    match convertTimestamp input with
    | .error msg => .error msg
    | .ok (date, time) => .ok (formatTimestamp date time 0)

/-- The timestamp in microseconds that `CastFromTimestampSec` and `CastFromTimestampMS` write. -/
def toMicros (unit : TimestampUnit) (value : ℤ) : Except String ℤ :=
  if EngineTimestamp.IsFinite value then unit.fromEpoch value else .ok value

/-! ## Reading -/

/-- `DateCastResult` and `TimestampCastResult`, without success. -/
inductive CastError
  | incorrectFormat
  | range
  | nonUtcTimezone
  deriving DecidableEq, Repr

/-- `CharacterIsSpace`. -/
def isSpace (c : Char) : Bool := c.toNat ∈ [32, 9, 10, 11, 12, 13]

/-- The number of a digit. -/
def digitOf (c : Char) : ℕ := c.toNat - '0'.toNat

/-- `ParseDoubleDigit` : one digit or two. -/
def parseDoubleDigit : List Char → Option (ℕ × List Char)
  | [] => none
  | [c] => if c.isDigit then some (digitOf c, []) else none
  | c :: d :: buf =>
    if c.isDigit then
      if d.isDigit then some (digitOf d + digitOf c * 10, buf) else some (digitOf c, d :: buf)
    else none

/-- `TryConvertDateSpecial`, where so many characters were taken. A text that ends first is an
abbreviation if it has the length of one. -/
def tryConvertDateSpecial (abbr : ℕ) : ℕ → List Char → List Char → Option (List Char)
  | taken, special, [] => if special ≠ [] ∧ taken ≠ abbr then none else some []
  | _, [], buf => some buf
  | taken, s :: special, c :: buf =>
    if c.toLower ≠ s then none else tryConvertDateSpecial abbr (taken + 1) special buf

/-- The text of a day without a number. -/
def readSpecial (yearneg : Bool) (buf : List Char) : Except CastError (ℤ × List Char) :=
  let ended (date : ℤ) (buf : List Char) : Except CastError (ℤ × List Char) :=
    if buf.dropWhile isSpace = [] then .ok (date, []) else .error .incorrectFormat
  match tryConvertDateSpecial 3 0 infinityText buf with
  | some buf => ended (if yearneg then -EngineDate.infinity else EngineDate.infinity) buf
  | none =>
    match tryConvertDateSpecial 5 0 "epoch".toList buf with
    | some buf => ended 0 buf
    | none => .error .incorrectFormat

/-- The loop that reads a year. -/
def parseYear : ℕ → List Char → Except CastError (ℕ × List Char)
  | year, [] => .ok (year, [])
  | year, c :: buf =>
    if c.isDigit then
      if 100000000 ≤ year then .error .range else parseYear (digitOf c + year * 10) buf
    else .ok (year, c :: buf)

/-- A field with the character behind it. -/
def readField (field : Option (ℕ × List Char)) : Except CastError (ℕ × Char × List Char) :=
  match field with
  | some (n, c :: buf) => .ok (n, c, buf)
  | _ => .error .incorrectFormat

/-- The suffix `(BC)` of a date. -/
def readBc (yearneg : Bool) (year : ℤ) : List Char → Except CastError (ℤ × List Char)
  | c :: c' :: b :: b' :: d :: buf =>
    if isSpace c ∧ c' = '(' ∧ b.toLower = 'b' ∧ b'.toLower = 'c' ∧ d = ')' then
      if yearneg ∨ year = 0 then .error .incorrectFormat else .ok (-year + 1, buf)
    else .ok (year, c :: c' :: b :: b' :: d :: buf)
  | buf => .ok (year, buf)

/-- The end of a date, behind which no digit follows. -/
def readDay (year : ℤ) (month day : ℕ) (buf : List Char) : Except CastError (ℤ × List Char) :=
  if buf.head?.any Char.isDigit then .error .incorrectFormat
  else
    match EngineDate.tryFromDate year month day with
    | some date => .ok (date, buf)
    | none => .error .range

/-- The date that begins with a digit. -/
def readDate (yearneg : Bool) (buf : List Char) : Except CastError (ℤ × List Char) := do
  let (year, buf) ← parseYear 0 buf
  let (year, sep, buf) ← readField (some (year, buf))
  let year : ℤ := if yearneg then -year else year
  if sep ∈ [' ', '-', '/', '\\'] then
    let (month, sep', buf) ← readField (parseDoubleDigit buf)
    if sep' ≠ sep then .error .incorrectFormat
    else
      match parseDoubleDigit buf with
      | none => .error .incorrectFormat
      | some (day, buf) => do
        let (year, buf) ← readBc yearneg year buf
        readDay year month day buf
  else .error .incorrectFormat

/-- `TryConvertDate`, which is not strict : the date and what stands behind it. -/
def tryConvertDate (buf : List Char) : Except CastError (ℤ × List Char) :=
  let buf := buf.dropWhile isSpace
  let yearneg := decide (buf.head? = some '-')
  let buf := if yearneg then buf.tail else buf
  match buf with
  | [] => .error .incorrectFormat
  | c :: rest => if c.isDigit then readDate yearneg (c :: rest) else readSpecial yearneg (c :: rest)

/-- The loop that reads an hour of at most so many digits. -/
def readHour : ℕ → ℕ → List Char → Option (ℕ × List Char)
  | _, hour, [] => some (hour, [])
  | digits, hour, c :: buf =>
    if c.isDigit then
      match digits with
      | 0 => none
      | digits + 1 => readHour digits (hour * 10 + digitOf c) buf
    else some (hour, c :: buf)

/-- A minute or a second, which may be missing at the end. -/
def readSixty (buf : List Char) : Option (ℕ × List Char) :=
  if buf = [] then some (0, [])
  else (parseDoubleDigit buf).filter fun field => field.1 < 60

/-- The loop that reads a fraction. -/
def readFraction : ℕ → ℕ → List Char → ℕ × List Char
  | _, micros, [] => (micros, [])
  | mult, micros, c :: buf =>
    if c.isDigit then
      readFraction (mult / 10) (if 0 < mult then micros + digitOf c * mult else micros) buf
    else (micros, c :: buf)

/-- The microseconds and the nanoseconds, which are read if the caller asks for them. -/
def readMicros (nanos : Bool) : List Char → ℕ × ℕ × List Char
  | '.' :: buf =>
    let (micros, buf) := readFraction (if nanos then 100000000 else 100000) 0 buf
    if nanos then (micros / 1000, micros % 1000, buf) else (micros, 0, buf)
  | buf => (0, 0, buf)

/-- `TryConvertInternal`, which is not strict : the time, its nanoseconds, and what stands
behind. -/
def tryConvertInternal (nanos : Bool) (buf : List Char) : Option (ℤ × ℕ × List Char) := do
  let buf := buf.dropWhile isSpace
  if ¬buf.head?.any Char.isDigit then none
  else
    let (hour, buf) ← readHour 9 0 buf
    let buf ← if buf.head? = some ':' then some buf.tail else none
    let (min, buf) ← readSixty buf
    let (sec, buf) ←
      if buf = [] then some (0, [])
      else if buf.head? ≠ some ':' then none else readSixty buf.tail
    let (micros, rest, buf) := readMicros nanos buf
    return (EngineTime.fromTime hour min sec micros, rest, buf)

/-- A colon that may stand in front of two digits. -/
def readOffsetPart (buf : List Char) : Option (ℕ × List Char) :=
  match buf with
  | c :: d :: buf =>
    if c.isDigit ∧ d.isDigit then some (digitOf c * 10 + digitOf d, buf) else none
  | _ => none

/-- `TryParseUTCOffset` : an offset in microseconds, and what stands behind. -/
def tryParseUTCOffset (buf : List Char) : Option (ℤ × List Char) := do
  let sign : ℤ ← match buf.head? with
    | some '+' => some 1
    | some '-' => some (-1)
    | _ => none
  let (hh, buf) ← readOffsetPart buf.tail
  let offset (mm ss : ℕ) : ℤ := sign * EngineTime.fromTime hh mm ss 0
  let colonsUsed := decide (buf.head? = some ':')
  let buf := if colonsUsed then buf.tail else buf
  match readOffsetPart buf with
  | none => return (offset 0 0, buf)
  | some (mm, buf) =>
    if ¬colonsUsed ∨ buf.head? ≠ some ':' then return (offset mm 0, buf)
    else
      match readOffsetPart buf.tail with
      | none => return (offset mm 0, buf.tail)
      | some (ss, buf) => return (offset mm ss, buf)

/-- `CharacterIsTimeZone`. -/
def isTimeZone (c : Char) : Bool := c.isAlphanum || c ∈ ['_', '/', '+', '-', ':']

/-- What stands behind a time : the timestamp, and the name of its time zone. -/
def readZone (useOffset : Bool) (timestamp : ℤ) (buf : List Char) :
    Except CastError (ℤ × List Char) := do
  let (timestamp, zone, buf) ←
    if buf = [] then .ok (timestamp, [], [])
    else if buf.head? = some 'Z' then .ok (timestamp, [], buf.tail)
    else
      match tryParseUTCOffset buf with
      | some (delta, buf) =>
        if useOffset then
          if i64.Fits (timestamp - delta) then .ok (timestamp - delta, [], buf) else .error .range
        else .ok (timestamp, [], buf)
      | none =>
        if buf.head? ≠ some ' ' then .error .nonUtcTimezone
        else .ok (timestamp, buf.tail.takeWhile isTimeZone, buf.tail.dropWhile isTimeZone)
  if buf.dropWhile isSpace = [] then .ok (timestamp, zone) else .error .incorrectFormat

/-- `TryConvertTimestampTZ` : the timestamp, its nanoseconds, and the name of its time zone. -/
def tryConvertTimestampTZ (useOffset nanos : Bool) (buf : List Char) :
    Except CastError (ℤ × ℕ × List Char) := do
  let (date, buf) ← tryConvertDate buf
  if buf = [] then
    if date = EngineDate.infinity then .ok (EngineTimestamp.infinity, 0, [])
    else if date = -EngineDate.infinity then .ok (-EngineTimestamp.infinity, 0, [])
    else
      match EngineTimestamp.tryFromDatetime date 0 with
      | some timestamp => .ok (timestamp, 0, [])
      | none => .error .range
  else
    let buf := if buf.head? = some ' ' ∨ buf.head? = some 'T' then buf.tail else buf
    match tryConvertInternal nanos buf with
    | none => .error .incorrectFormat
    | some (time, rest, buf) =>
      if microsPerDay < time then .error .range
      else
        match EngineTimestamp.tryFromDatetime date time with
        | none => .error .range
        | some timestamp => do
          let (timestamp, zone) ← readZone useOffset timestamp buf
          return (timestamp, rest, zone)

/-- `TryConvertTimestamp` : the timestamp and its nanoseconds. -/
def tryConvertTimestamp (useOffset nanos : Bool) (buf : List Char) :
    Except CastError (ℤ × ℕ) := do
  let (timestamp, rest, zone) ← tryConvertTimestampTZ useOffset nanos buf
  if zone = [] ∨ zone.map Char.toUpper = "UTC".toList then .ok (timestamp, rest)
  else .error .nonUtcTimezone

/-- `TryFromTimestampNanos`. -/
def tryFromTimestampNanos (input : ℤ) (nanos : ℕ) : Option ℤ :=
  if ¬EngineTimestamp.IsFinite input then some input
  else do
    let result ← EngineTimestamp.tryMultiply input 1000
    if i64.Fits (result + nanos) ∧ EngineTimestamp.IsFinite (result + nanos) then
      some (result + nanos)
    else none

/-- `GetEpochRounded`, away from the epoch. -/
def getEpochRounded (input powerOfTen : ℤ) : ℤ :=
  let scaled := input.tdiv (powerOfTen / 2)
  (if scaled < 0 then scaled - 1 else scaled + 1).tdiv 2

/-- `TryCast` of a text to a date. -/
def castToDate (text : List Char) : Option ℤ := (tryConvertDate text).toOption.map Prod.fst

/-- `TryCast` of a text to a timestamp. -/
def castToTimestamp (text : List Char) : Option ℤ :=
  (tryConvertTimestamp false false text).toOption.map Prod.fst

/-- `TryConvertTime`, which takes the time of a timestamp if it has to. -/
def castToTime (text : List Char) : Option ℤ :=
  match tryConvertInternal false text with
  | some (time, _, _) => if time ≤ microsPerDay then some time else none
  | none => do
    let timestamp ← castToTimestamp text
    (EngineTimestamp.getTime timestamp).toOption

/-- The casts of a text to the types of timestamps. -/
def castToUnit (unit : TimestampUnit) (text : List Char) : Option ℤ :=
  let rounded (powerOfTen : ℤ) : Option ℤ :=
    (castToTimestamp text).map fun timestamp =>
      if EngineTimestamp.IsFinite timestamp then getEpochRounded timestamp powerOfTen else timestamp
  match unit with
  | .us => castToTimestamp text
  | .ms => rounded 1000
  | .sec => rounded 1000000
  | .ns =>
    match tryConvertTimestamp true true text with
    | .ok (timestamp, nanos) => tryFromTimestampNanos timestamp nanos
    | .error _ => none

end TemporalText

/-- `Value::ToString`, or the exception of the cast. -/
def TemporalValue.toText : TemporalValue → Except String (List Char)
  | .date days _ => .ok (TemporalText.dateText days)
  | .time micros _ _ => .ok (TemporalText.formatTime micros 0)
  | .timestamp .us value _ => TemporalText.timestampText false value
  | .timestamp .ns value _ => TemporalText.timestampText true value
  | .timestamp u value _ =>
    match TemporalText.toMicros u value with
    | .error msg => .error msg
    | .ok micros => TemporalText.timestampText false micros

end HaybarnOdbc
