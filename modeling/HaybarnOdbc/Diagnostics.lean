import Mathlib.Data.Int.Notation
import Mathlib.Data.List.Infix
import HaybarnOdbc.Widechar
import HaybarnOdbc.Types

/-!
# Diagnostic records

`OdbcDiagnostic` keeps the records of a handle and, in `vec_record_idx`, which record each
record number stands for. A message that does not fit into the buffer of `SQLGetDiagRec` is
split : the record remembers in a stack how far it was read, and its index is inserted once
more into `vec_record_idx`, so that the next record number goes on with it. Record number one
begins anew.

Reading is a function of the records that returns them changed. `none` is an index or a
position out of range (`vector::operator[]`, `stack::top`, `string::substr`). The header of the
records is not part of the state : nothing writes it, so that its fields are always those of
`DiagHeader()`.
-/

namespace HaybarnOdbc.Diag

/-- The conversion to `SQLSMALLINT`. -/
def smallInt (n : ℤ) : ℤ := n.bmod 65536

/-- The conversion to `size_t` and to `idx_t`, which no length of a text in memory exceeds. -/
def sizeT (n : ℤ) : ℕ := if n < 0 then (n + 2 ^ 64).toNat else n.toNat

/-- The bytes of a literal. -/
def bytes (s : String) : List UInt8 := s.toList.flatMap String.utf8EncodeChar

/-! ## The driver's side -/

/-- `DiagRecord`. `stack_msg_offset` has its top first. -/
structure DiagRecord where
  columnNumber : ℤ
  native : ℤ
  rowNumber : ℤ
  serverName : List UInt8
  sqlstate : List UInt8
  messageText : List UInt8
  stackMsgOffset : List ℕ
  deriving DecidableEq

namespace DiagRecord

/-- `SQL_NO_COLUMN_NUMBER` and `SQL_NO_ROW_NUMBER`. -/
def noNumber : ℤ := -1

/-- The constructor, with the defaults of its declaration. -/
def new (msg sqlstate serverName : List UInt8) : DiagRecord :=
  ⟨noNumber, 0, noNumber, serverName, sqlstate, msg, [0]⟩

/-- `ClearStackMsgOffset`. -/
def clearStackMsgOffset (r : DiagRecord) : DiagRecord :=
  { r with stackMsgOffset := r.stackMsgOffset.dropWhile (· != 0) }

/-- `SetMessage`. -/
def setMessage (r : DiagRecord) (newMsg : List UInt8) : DiagRecord :=
  { r with messageText := newMsg }.clearStackMsgOffset

/-- `GetMessage`. -/
def getMessage (r : DiagRecord) (buffLength : ℤ) : Option (List UInt8 × DiagRecord) := do
  let lastOffset ← r.stackMsgOffset.head?
  let newOffset := sizeT (lastOffset + buffLength)
  let r' :=
    if newOffset ≥ r.messageText.length then r.clearStackMsgOffset
    else { r with stackMsgOffset := newOffset :: r.stackMsgOffset }
  if lastOffset ≤ r.messageText.length then some (r.messageText.drop lastOffset, r') else none

end DiagRecord

/-- `OdbcDiagnostic`, without its header. -/
structure OdbcDiagnostic where
  diagRecords : List DiagRecord
  vecRecordIdx : List ℤ
  deriving DecidableEq

namespace OdbcDiagnostic

/-- The records of a new handle. -/
def new : OdbcDiagnostic := ⟨[], []⟩

/-- `FormatDiagnosticMessage`. -/
def formatDiagnosticMessage (r : DiagRecord) (dataSource component : List UInt8) : DiagRecord :=
  r.setMessage (bytes "ODBC_Haybarn" ++
    (if dataSource ≠ [] then bytes "->" ++ dataSource else []) ++
    (if component ≠ [] then bytes "->" ++ component else []) ++ bytes "\n" ++ r.messageText)

/-- `AddDiagRecord`. -/
def addDiagRecord (d : OdbcDiagnostic) (r : DiagRecord) : OdbcDiagnostic :=
  ⟨d.diagRecords ++ [r], d.vecRecordIdx ++ [smallInt d.diagRecords.length]⟩

/-- `SetDiagnosticRecord`. -/
def setDiagnosticRecord (d : OdbcDiagnostic) (component msg sqlstate serverName : List UInt8) :
    OdbcDiagnostic :=
  d.addDiagRecord (formatDiagnosticMessage (.new msg sqlstate serverName) serverName component)

/-- `AddNewRecIdx`. -/
def addNewRecIdx (d : OdbcDiagnostic) (recIdx : ℕ) : Option OdbcDiagnostic := do
  let originIdx ← d.vecRecordIdx[recIdx]?
  some { d with vecRecordIdx := d.vecRecordIdx.insertIdx (recIdx + 1) originIdx }

/-- `Clean`. -/
def clean (_ : OdbcDiagnostic) : OdbcDiagnostic := new

/-- `VerifyRecordIndex`. -/
def verifyRecordIndex (d : OdbcDiagnostic) (recIdx : ℤ) : Bool :=
  recIdx < d.diagRecords.length && 0 ≤ recIdx

/-- What getting the first record does. -/
def reset (d : OdbcDiagnostic) : OdbcDiagnostic :=
  ⟨d.diagRecords.map DiagRecord.clearStackMsgOffset,
    (List.range d.diagRecords.length).map fun i : ℕ => smallInt i⟩

/-- `GetDiagRecord` : the index of the record that it refers to. -/
def getDiagRecord (d : OdbcDiagnostic) (recIdx : ℕ) : Option (ℕ × OdbcDiagnostic) := do
  let originIdx ← d.vecRecordIdx[recIdx]?
  if 0 ≤ originIdx ∧ originIdx < d.diagRecords.length then
    -- getting first record, clear up vec_record_idx
    some (originIdx.toNat, if recIdx = 0 then d.reset else d)
  else none

end OdbcDiagnostic

/-! ## Texts of the application -/

/-- `OdbcHandleType`. -/
inductive HandleType
  | env
  | dbc
  | stmt
  | desc
  deriving DecidableEq, Repr

/-- `OdbcHandleTypeToString`. -/
def HandleType.toText : HandleType → String
  | .env => "ENV"
  | .dbc => "DBC"
  | .stmt => "STMT"
  | .desc => "DESC"

/-- What is written of a text : the part that is copied, without its terminator, and the
length that is stored. -/
structure Written (α : Type) where
  text : Option (List α)
  length : Option ℤ
  deriving DecidableEq

/-- `CHAR_TYPE` : the units that a text has, `WriteStringWithLenInChars` of it, and what
`WriteStringUtf8` and `WriteStringUtf16` copy of it for `WriteStringDiag`. -/
structure CharType (α : Type) where
  units : List UInt8 → List α
  writeStringWithLenInChars : List UInt8 → Bool → ℤ → Bool → Written α
  copied : List UInt8 → ℤ → List α

/-- `WriteStringWithLenInChars` of `SQLCHAR`. -/
def writeStringUtf8 (msgStr : List UInt8) (messageText : Bool) (bufferLength : ℤ)
    (lengthPtr : Bool) : Written UInt8 :=
  ⟨if messageText then some (msgStr.take (sizeT (sizeT bufferLength - 1))) else none,
    if lengthPtr then some (smallInt msgStr.length) else none⟩

/-- The units of `utf8_to_utf16_lenient`. -/
def utf16 (msgStr : List UInt8) : List UInt16 :=
  match Widechar.utf8ToUtf16Lenient msgStr with
  | some (vec, _) => vec
  | none => []

/-- `WriteStringWithLenInChars` of `SQLWCHAR`. -/
def writeStringUtf16 (msgStr : List UInt8) (messageText : Bool) (bufferLength : ℤ)
    (lengthPtr : Bool) : Written UInt16 :=
  let utf16Vec := utf16 msgStr
  if bufferLength ≤ 1 ∧ lengthPtr = true then
    ⟨if messageText && bufferLength == 1 then some [] else none, some 0⟩
  else
    let lenChars := min utf16Vec.length (sizeT (bufferLength - 1))
    ⟨if messageText then some (utf16Vec.take lenChars) else none,
      if lengthPtr then some (smallInt lenChars) else none⟩

/-- What `WriteStringUtf16` copies into a buffer of so many bytes. -/
def copiedUtf16 (str : List UInt8) (bufLenBytes : ℤ) : List UInt16 :=
  let bufLenEven := bufLenBytes - bufLenBytes % 2
  if bufLenEven ≤ 2 then [] else (utf16 str).take ((bufLenEven - 2) / 2).toNat

/-- `SQLCHAR`. -/
def char : CharType UInt8 :=
  ⟨id, writeStringUtf8, fun str bufLen => str.take (sizeT (sizeT bufLen - 1))⟩

/-- `SQLWCHAR`. -/
def wchar : CharType UInt16 := ⟨utf16, writeStringUtf16, copiedUtf16⟩

/-! ## SQLGetDiagRec -/

/-- The arguments of `SQLGetDiagRec`, with `none` for a handle type that is none, and whether
each pointer is there. -/
structure RecArgs where
  handleType : Option HandleType
  recNumber : ℤ
  sqlState : Bool
  nativeErrorPtr : Bool
  messageText : Bool
  bufferLength : ℤ
  textLengthPtr : Bool
  deriving DecidableEq

/-- What the call returns and stores. -/
structure RecReply (α : Type) where
  ret : SqlReturn
  sqlState : Option (List α)
  nativeError : Option ℤ
  text : Option (List α)
  textLength : Option ℤ
  deriving DecidableEq

variable {α : Type} (C : CharType α)

/-- A call that only writes a text. -/
def textReply (a : RecArgs) (msg : String) : RecReply α :=
  let w := C.writeStringWithLenInChars (bytes msg) a.messageText a.bufferLength a.textLengthPtr
  ⟨.success, none, none, w.text, w.length⟩

/-- More of the message is to come : what is left of it exceeds the buffer. -/
def splits (msg : List UInt8) (bufferLength : ℤ) : Bool :=
  0 < smallInt ((if msg = [] then 0 else smallInt (C.units msg).length) - bufferLength)

/-- `GetDiagRecInternal` of a handle with its records. -/
def getDiagRecInternal (type : HandleType) (d : OdbcDiagnostic) (a : RecArgs) :
    Option (RecReply α × OdbcDiagnostic) :=
  match a.handleType with
  | none => some (⟨.invalidHandle, none, none, none, none⟩, d)
  | some handleType =>
    if type ≠ handleType then
      some (textReply C a ("Handle type " ++ type.toText ++ " mismatch with " ++
        handleType.toText), d)
    else if a.recNumber ≤ 0 then some (textReply C a "Record number is less than 1", d)
    else if a.bufferLength < 0 then some (textReply C a "Buffer length is negative", d)
    else if a.recNumber > d.vecRecordIdx.length then some (⟨.noData, none, none, none, none⟩, d)
    else do
      let recIdx := (a.recNumber - 1).toNat
      let (i, d) ← d.getDiagRecord recIdx
      let diagRecord ← d.diagRecords[i]?
      let sqlState :=
        if a.sqlState then (C.writeStringWithLenInChars diagRecord.sqlstate true 6 false).text
        else none
      let nativeError := if a.nativeErrorPtr then some diagRecord.native else none
      let (msg, diagRecord) ← diagRecord.getMessage a.bufferLength
      let d := { d with diagRecords := d.diagRecords.set i diagRecord }
      if !a.messageText then
        some (⟨.successWithInfo, sqlState, nativeError, none,
          if a.textLengthPtr then some (min msg.length 32767) else none⟩, d)
      else
        let w := C.writeStringWithLenInChars msg true a.bufferLength a.textLengthPtr
        if a.textLengthPtr && splits C msg a.bufferLength then
          let d ← d.addNewRecIdx recIdx
          some (⟨.successWithInfo, sqlState, nativeError, w.text, w.length⟩, d)
        else some (⟨.success, sqlState, nativeError, w.text, w.length⟩, d)

/-! ## SQLGetDiagField -/

/-- The identifiers of the fields, `other` for a number that is none. -/
inductive DiagIdentifier
  | cursorRowCount
  | dynamicFunction
  | dynamicFunctionCode
  | number
  | returnCode
  | rowCount
  | classOrigin
  | columnNumber
  | connectionName
  | messageText
  | native
  | rowNumber
  | serverName
  | sqlstate
  | subclassOrigin
  | other
  deriving DecidableEq, Repr

/-- `IsDiagRecordField`. -/
def DiagIdentifier.isDiagRecordField : DiagIdentifier → Bool
  | .classOrigin | .columnNumber | .connectionName | .messageText | .native | .rowNumber
  | .serverName | .sqlstate | .subclassOrigin => true
  | _ => false

/-- `SET_ODBC3_SUBCLASS_ORIGIN`. -/
def odbc3SubclassOrigin : List String :=
  ["01S00", "01S01", "01S02", "01S06", "01S07", "07S01", "08S01", "21S01", "21S02", "25S01",
    "25S02", "25S03", "42S01", "42S02", "42S11", "42S12", "42S21", "42S22", "HY095", "HY097",
    "HY098", "HY099", "HY100", "HY101", "HY105", "HY107", "HY109", "HY110", "HY111", "HYT00",
    "HYT01", "IM001", "IM002", "IM003", "IM004", "IM005", "IM006", "IM007", "IM008", "IM010",
    "IM011", "IM012"]

/-- `GetDiagClassOrigin`. -/
def OdbcDiagnostic.getDiagClassOrigin (d : OdbcDiagnostic) (recIdx : ℕ) : Option (List UInt8) := do
  let r ← d.diagRecords[recIdx]?
  some (bytes (if bytes "IM" <:+: r.sqlstate then "ODBC 3.0" else "ISO 9075"))

/-- `GetDiagSubclassOrigin`. -/
def OdbcDiagnostic.getDiagSubclassOrigin (d : OdbcDiagnostic) (recIdx : ℕ) :
    Option (List UInt8) := do
  let r ← d.diagRecords[recIdx]?
  some (bytes (if r.sqlstate ∈ odbc3SubclassOrigin.map bytes then "ODBC 3.0" else "ISO 9075"))

/-- The class that a record names. -/
def DiagRecord.classOrigin (r : DiagRecord) : List UInt8 :=
  bytes (if bytes "IM" <:+: r.sqlstate then "ODBC 3.0" else "ISO 9075")

/-- The subclass that a record names. -/
def DiagRecord.subclassOrigin (r : DiagRecord) : List UInt8 :=
  bytes (if r.sqlstate ∈ odbc3SubclassOrigin.map bytes then "ODBC 3.0" else "ISO 9075")

/-- The arguments of `SQLGetDiagField`, and whether each pointer is there. -/
structure FieldArgs where
  handleType : Option HandleType
  recNumber : ℤ
  diagIdentifier : DiagIdentifier
  diagInfoPtr : Bool
  bufferLength : ℤ
  stringLengthPtr : Bool
  deriving DecidableEq

/-- What the call returns and stores : a number, or a text with its length. -/
structure FieldReply (α : Type) where
  ret : SqlReturn
  number : Option ℤ
  text : Option (List α)
  stringLength : Option ℤ
  deriving DecidableEq

/-- The call only returns. -/
def FieldReply.code (ret : SqlReturn) : FieldReply α := ⟨ret, none, none, none⟩

/-- `Store` of a number. -/
def FieldReply.store (n : ℤ) : FieldReply α := ⟨.success, some n, none, none⟩

/-- `WriteStringDiag`. -/
def writeStringDiag (a : FieldArgs) (str : List UInt8) : FieldReply α :=
  if a.bufferLength < 0 then .code .error
  else
    let text := if a.diagInfoPtr then some (C.copied str a.bufferLength) else none
    ⟨if text.any (·.length < (C.units str).length) then .successWithInfo else .success, none, text,
      if a.stringLengthPtr then some (smallInt (C.units str).length) else none⟩

/-- The fields of the header. Those of a statement are an error for other handles. -/
def headerField (type : HandleType) (a : FieldArgs) : Option (FieldReply α) :=
  let ofStmt (reply : FieldReply α) := if type ≠ .stmt then .code .error else reply
  match a.diagIdentifier with
  | .cursorRowCount => some (ofStmt (.store 0))
  | .dynamicFunction => some (ofStmt (writeStringDiag C a []))
  | .dynamicFunctionCode => some (ofStmt (.store 0))
  | .number => some (.store 0)
  | .returnCode => some (.store 0)
  | .rowCount => some (ofStmt (.store 0))
  | _ => none

/-- `GetDiagFieldInternal` of a handle with its records. The record is copied, so that what is
read of its message is not remembered. -/
def getDiagFieldInternal (type : HandleType) (d : OdbcDiagnostic) (a : FieldArgs) :
    Option (FieldReply α × OdbcDiagnostic) :=
  let ofStmt (reply : FieldReply α) := if type ≠ .stmt then .code .error else reply
  if a.handleType = none then some (.code .error, d)
  else
    match headerField C type a with
    | some reply => some (reply, d)
    | none =>
      if !a.diagIdentifier.isDiagRecordField then some (.code .error, d)
      else if a.recNumber ≤ 0 then some (.code .error, d)
      else if !d.verifyRecordIndex (a.recNumber - 1) then some (.code .error, d)
      else do
        let recIdx := (a.recNumber - 1).toNat
        let (i, d) ← d.getDiagRecord recIdx
        let diagRecord ← d.diagRecords[i]?
        let reply ←
          match a.diagIdentifier with
          | .classOrigin => (d.getDiagClassOrigin recIdx).map (writeStringDiag C a)
          | .columnNumber => some (ofStmt (.store diagRecord.columnNumber))
          | .connectionName => some (writeStringDiag C a [])
          | .messageText =>
            (diagRecord.getMessage a.bufferLength).map fun m => writeStringDiag C a m.1
          | .native => some (.store diagRecord.native)
          | .rowNumber => some (ofStmt (.store diagRecord.rowNumber))
          | .serverName => some (writeStringDiag C a diagRecord.serverName)
          | .sqlstate => some (writeStringDiag C a diagRecord.sqlstate)
          | .subclassOrigin => (d.getDiagSubclassOrigin recIdx).map (writeStringDiag C a)
          | _ => some (.code .error)
        some (reply, d)

/-- `SQLGetDiagField`. -/
def sqlGetDiagField (type : HandleType) (d : OdbcDiagnostic) (a : FieldArgs) :
    Option (FieldReply UInt8 × OdbcDiagnostic) := getDiagFieldInternal char type d a

/-- `SQLGetDiagFieldW` : the length is stored in bytes. -/
def sqlGetDiagFieldW (type : HandleType) (d : OdbcDiagnostic) (a : FieldArgs) :
    Option (FieldReply UInt16 × OdbcDiagnostic) :=
  (getDiagFieldInternal wchar type d a).map fun p =>
    (if p.1.ret.succeeded then
        { p.1 with stringLength := p.1.stringLength.map fun n => smallInt (2 * n) }
      else p.1, p.2)

/-! ## What can happen to the records of a handle -/

/-- A record is posted, read, one of its fields is read, or all are cleared. -/
inductive Op
  | setDiagnosticRecord (component msg sqlstate serverName : List UInt8)
  | getDiagRec (a : RecArgs)
  | getDiagRecW (a : RecArgs)
  | getDiagField (a : FieldArgs)
  | getDiagFieldW (a : FieldArgs)
  | clean

/-- The operation reads only. -/
def Op.reads : Op → Bool
  | .setDiagnosticRecord .. => false
  | .clean => false
  | _ => true

/-- The operation posts a record. -/
def Op.posts : Op → Bool
  | .setDiagnosticRecord .. => true
  | _ => false

/-- The records after the operation. -/
def Op.perform (type : HandleType) (d : OdbcDiagnostic) : Op → Option OdbcDiagnostic
  | .setDiagnosticRecord component msg sqlstate serverName =>
    some (d.setDiagnosticRecord component msg sqlstate serverName)
  | .getDiagRec a => (getDiagRecInternal char type d a).map Prod.snd
  | .getDiagRecW a => (getDiagRecInternal wchar type d a).map Prod.snd
  | .getDiagField a => (sqlGetDiagField type d a).map Prod.snd
  | .getDiagFieldW a => (sqlGetDiagFieldW type d a).map Prod.snd
  | .clean => some d.clean

end HaybarnOdbc.Diag
