import Mathlib.Logic.Function.Basic
import HaybarnOdbc.Params
import HaybarnOdbc.Diagnostics

/-!
# Descriptors

The descriptors of the statements and those that the application allocates, by the addresses of
their handles. A statement owns four (`apd`, `ipd`, `ard`, `ird`) and refers to a current
application descriptor for its parameters and for its columns, which is its own one until
`SQLSetStmtAttr` names another. `none` is a pointer to something freed, or an index out of
range.

What is posted on a statement is left out here. What the engine says of a statement (its
parameters and columns) and the table of types are parameters.
-/

namespace HaybarnOdbc.Desc

open Diag (smallInt)

/-- The address of a handle. -/
abbrev Handle := ℕ

/-- `SQL_DESC_ALLOC_AUTO` and `SQL_DESC_ALLOC_USER`. -/
inductive AllocType
  | auto
  | user
  deriving DecidableEq, Repr

/-- `DescHeader`. -/
structure DescHeader where
  allocType : AllocType := .auto
  arraySize : ℕ := 1
  arrayStatusPtr : Addr := 0
  bindOffsetPtr : Addr := 0
  bindType : ℤ := 0
  count : ℤ := 0
  rowsProcessedPtr : Addr := 0
  deriving DecidableEq, Repr

/-- `DescRecord`, without the `sql_desc_auto_unique_value` that nothing writes. -/
structure DescRecord extends HaybarnOdbc.DescRecord where
  baseColumnName : List UInt8 := []
  baseTableName : List UInt8 := []
  caseSensitive : ℤ := 0
  catalogName : List UInt8 := []
  datetimeIntervalPrecision : ℤ := 0
  displaySize : ℤ := 0
  fixedPrecScale : ℤ := 0
  label : List UInt8 := []
  literalPrefix : List UInt8 := []
  literalSuffix : List UInt8 := []
  localTypeName : List UInt8 := []
  name : List UInt8 := []
  -- `SQL_NULLABLE_UNKNOWN`
  nullable : ℤ := 2
  numPrecRadix : ℤ := 0
  rowver : ℤ := 0
  schemaName : List UInt8 := []
  searchable : ℤ := 0
  tableName : List UInt8 := []
  typeName : List UInt8 := []
  unnamed : ℤ := 0
  unsigned : ℤ := 0
  -- `SQL_ATTR_READONLY`
  updatable : ℤ := 0
  deriving DecidableEq, Repr

/-- A diagnostic record, before its text is formatted. -/
structure Posted where
  component : String
  msg : String
  sqlState : String
  deriving DecidableEq, Repr

/-- `OdbcHandleDesc`. Only an implementation row descriptor has a statement. -/
structure OdbcHandleDesc where
  header : DescHeader := {}
  records : List DescRecord := []
  dbc : Handle
  stmt : Option Handle
  diag : List Posted := []
  deriving DecidableEq, Repr

/-- What the table of types has for a type, as far as a descriptor takes it over. -/
structure OdbcTypeInfo where
  columnSize : ℕ
  literalPrefix : List UInt8
  literalSuffix : List UInt8
  nullable : ℤ
  caseSensitive : ℤ
  searchable : ℤ
  unsignedAttribute : ℤ
  fixedPrecScale : ℤ
  localTypeName : List UInt8
  minimumScale : ℤ
  sqlDataType : ℤ
  sqlDatetimeSub : ℤ
  numPrecRadix : ℤ
  intervalPrecision : ℤ
  deriving DecidableEq, Repr

/-- `SetSqlDataType`. -/
def DescRecord.setSqlDataType (r : DescRecord) (type : ℤ) : DescRecord :=
  { r with toDescRecord := r.toDescRecord.setSqlDataType type }

/-- `SetSqlDescType`, where the table has `info` for the type. -/
def DescRecord.setSqlDescType (r : DescRecord) (info : OdbcTypeInfo) : DescRecord :=
  { r.setSqlDataType info.sqlDataType with
    datetimeIntervalCode := info.sqlDatetimeSub
    precision := smallInt info.columnSize
    datetimeIntervalPrecision := info.intervalPrecision
    length := info.columnSize
    literalPrefix := info.literalPrefix
    literalSuffix := info.literalSuffix
    localTypeName := if info.localTypeName = Diag.bytes "NULL" then [] else info.localTypeName
    nullable := info.nullable
    caseSensitive := info.caseSensitive
    scale := info.minimumScale
    searchable := info.searchable
    fixedPrecScale := info.fixedPrecScale
    numPrecRadix := if info.numPrecRadix = -1 then 0 else info.numPrecRadix
    unsigned := info.unsignedAttribute }

/-- The copy constructor of `DescRecord`. -/
def DescRecord.copy (other : DescRecord) : DescRecord where
  baseColumnName := other.baseColumnName
  baseTableName := other.baseTableName
  caseSensitive := other.caseSensitive
  catalogName := other.catalogName
  conciseType := other.conciseType
  dataPtr := other.dataPtr
  datetimeIntervalCode := other.datetimeIntervalCode
  datetimeIntervalPrecision := other.datetimeIntervalPrecision
  displaySize := other.displaySize
  fixedPrecScale := other.fixedPrecScale
  indicatorPtr := other.indicatorPtr
  label := other.label
  length := other.length
  literalPrefix := other.literalPrefix
  literalSuffix := other.literalSuffix
  localTypeName := other.localTypeName
  name := other.name
  nullable := other.nullable
  numPrecRadix := other.numPrecRadix
  octetLength := other.octetLength
  octetLengthPtr := other.octetLengthPtr
  parameterType := other.parameterType
  precision := other.precision
  rowver := other.rowver
  scale := other.scale
  schemaName := other.schemaName
  searchable := other.searchable
  tableName := other.tableName
  type := other.type
  typeName := other.typeName
  unnamed := other.unnamed
  unsigned := other.unsigned
  updatable := other.updatable

/-- It leaves out no field. -/
@[simp] theorem DescRecord.copy_eq (r : DescRecord) : r.copy = r := rfl

namespace OdbcHandleDesc

/-- `CopyOnlyOdbcFields` : the records are added to those that there are. -/
def copyOnlyOdbcFields (d other : OdbcHandleDesc) : OdbcHandleDesc :=
  { d with header := other.header, records := d.records ++ other.records.map DescRecord.copy }

/-- `GetDescRecord` : the descriptor with a record at the index. -/
def getDescRecord (d : OdbcHandleDesc) (idx : ℕ) : OdbcHandleDesc :=
  if d.records.length ≤ idx then
    { d with
      records := resize d.records (idx + 1) {}
      header.count := smallInt (idx + 1 : ℕ) }
  else d

/-- `AddMoreRecords`. -/
def addMoreRecords (d : OdbcHandleDesc) (newSize : ℕ) : OdbcHandleDesc :=
  { d with records := resize d.records newSize {}, header.count := newSize }

/-- `Reset`. -/
def reset (d : OdbcHandleDesc) : OdbcHandleDesc := { d with records := [] }

/-- `SetDiagnosticRecord`. -/
def setDiagnosticRecord (d : OdbcHandleDesc) (ret : SqlReturn) (component msg sqlState : String) :
    SqlReturn × OdbcHandleDesc :=
  (ret, { d with diag := d.diag ++ [⟨component, msg, sqlState⟩] })

/-- `ReturnInvalidFieldIdentifier`. -/
def returnInvalidFieldIdentifier (d : OdbcHandleDesc) (isReadonly : Bool) :
    SqlReturn × OdbcHandleDesc :=
  d.setDiagnosticRecord .error "SQLSetDescField" ("Invalid descriptor field identifier" ++
    if isReadonly then " (read-only field)" else "") "HY092"

/-- `IsID`. -/
def isID (d : OdbcHandleDesc) : Bool := d.stmt.isSome

/-- `IsAD`. -/
def isAD (d : OdbcHandleDesc) : Bool := d.stmt.isNone

end OdbcHandleDesc

/-! ## SQLSetDescField -/

/-- The fields of a descriptor with the value that is to be set, `readOnly` for the fields of a
record that cannot be set, `other` for a number that is no field. -/
inductive DescField
  | allocType
  | arraySize (size : ℕ)
  | arrayStatusPtr (ptr : Addr)
  | bindOffsetPtr (ptr : Addr)
  | bindType (type : ℤ)
  | count (count : ℤ)
  | rowsProcessedPtr (ptr : Addr)
  | readOnly
  | conciseType (type : ℤ)
  | dataPtr (ptr : Addr)
  | datetimeIntervalCode
  | datetimeIntervalPrecision (precision : ℤ)
  | indicatorPtr (ptr : Addr)
  | length (length : ℕ)
  | name (name : List UInt8)
  | numPrecRadix (radix : ℤ)
  | octetLength (length : ℤ)
  | octetLengthPtr (ptr : Addr)
  | parameterType (type : ℤ)
  | precision (precision : ℤ)
  | scale (scale : ℤ)
  | type (type : ℤ)
  | unnamed (unnamed : ℤ)
  | other
  deriving DecidableEq, Repr

/-- Which descriptor it is : `IsIRD` and `IsIPD`. -/
structure Kind where
  isIRD : Bool
  isIPD : Bool
  deriving DecidableEq, Repr

namespace OdbcHandleDesc

variable (findDataType : ℤ → Option OdbcTypeInfo)

/-- A field of the record is set, unless it is `readonly` for the descriptor. -/
def setField (d : OdbcHandleDesc) (idx : ℕ) (readonly : Bool) (set : DescRecord → DescRecord) :
    SqlReturn × OdbcHandleDesc :=
  if readonly then d.returnInvalidFieldIdentifier true
  else (.success, { d with records := d.records.modify idx set })

/-- The type of the record is set, with what the table has for it. -/
def setTypeField (d : OdbcHandleDesc) (idx : ℕ) (readonly : Bool) (type : ℤ) :
    SqlReturn × OdbcHandleDesc :=
  if readonly then d.returnInvalidFieldIdentifier true
  else
    match findDataType type with
    | none =>
      d.setDiagnosticRecord .error "SQLSetDescField" "Inconsistent descriptor information." "HY021"
    | some info =>
      (.success, { d with records := d.records.modify idx fun r => r.setSqlDescType info })

/-- The second part of `SetDescField` : the fields of the record at the index. -/
def setRecordField (d : OdbcHandleDesc) (k : Kind) (idx : ℕ) (f : DescField) :
    SqlReturn × OdbcHandleDesc :=
  match f with
  | .readOnly => d.returnInvalidFieldIdentifier true
  | .conciseType type => d.setField idx k.isIRD fun r => { r with conciseType := type }
  | .dataPtr ptr => d.setField idx d.isID fun r => { r with dataPtr := ptr }
  | .datetimeIntervalCode =>
    -- the type of the record is looked up anew, the value is not read
    d.setTypeField findDataType idx k.isIRD (d.records[idx]?.elim 0 fun r => r.type)
  | .datetimeIntervalPrecision precision =>
    d.setField idx k.isIRD fun r => { r with datetimeIntervalPrecision := precision }
  | .indicatorPtr ptr => d.setField idx d.isID fun r => { r with indicatorPtr := ptr }
  | .length length => d.setField idx k.isIRD fun r => { r with length := length }
  | .name name => d.setField idx (!k.isIPD) fun r => { r with name := name }
  | .numPrecRadix radix => d.setField idx k.isIRD fun r => { r with numPrecRadix := radix }
  | .octetLength length => d.setField idx k.isIRD fun r => { r with octetLength := length }
  | .octetLengthPtr ptr => d.setField idx d.isID fun r => { r with octetLengthPtr := ptr }
  | .parameterType type => d.setField idx (!k.isIPD) fun r => { r with parameterType := type }
  | .precision precision => d.setField idx k.isIRD fun r => { r with precision := precision }
  | .scale scale => d.setField idx k.isIRD fun r => { r with scale := scale }
  | .type type => d.setTypeField findDataType idx k.isIRD type
  | .unnamed unnamed => d.setField idx (!k.isIPD) fun r => { r with unnamed := unnamed }
  | _ => d.returnInvalidFieldIdentifier false

/-- `SetDescField`. -/
def setDescField (d : OdbcHandleDesc) (k : Kind) (recNumber : ℤ) (f : DescField) :
    SqlReturn × OdbcHandleDesc :=
  match f with
  | .allocType => d.returnInvalidFieldIdentifier true
  | .arraySize size =>
    if d.isID then d.returnInvalidFieldIdentifier false
    else if size = 0 then
      d.setDiagnosticRecord .error "SQLSetDescField" "Invalid attribute/option identifier." "HY092"
    else (.success, { d with header.arraySize := size })
  | .arrayStatusPtr ptr => (.success, { d with header.arrayStatusPtr := ptr })
  | .bindOffsetPtr ptr =>
    if d.isID then d.returnInvalidFieldIdentifier false
    else (.success, { d with header.bindOffsetPtr := ptr })
  | .bindType type =>
    if d.isID then d.returnInvalidFieldIdentifier false
    else (.success, { d with header.bindType := type })
  | .count count =>
    if k.isIRD then d.returnInvalidFieldIdentifier false
    else (.success, { d with header.count := count })
  | .rowsProcessedPtr ptr =>
    if d.isAD then d.returnInvalidFieldIdentifier false
    else (.success, { d with header.rowsProcessedPtr := ptr })
  | f =>
    if recNumber ≤ 0 then
      d.setDiagnosticRecord .error "SQLSetDescField" "Invalid descriptor index." "07009"
    else
      let idx := (recNumber - 1).toNat
      (d.getDescRecord idx).setRecordField findDataType k idx f

/-- The fields of `SQLSetDescRec`, in the order in which they are set. The last three are set to
the addresses of the arguments. -/
def setDescRecFields (type length precision scale : ℤ) (args : Addr × Addr × Addr) :
    List DescField :=
  .type type :: (if type = 9 ∨ type = 10 then [.datetimeIntervalCode] else []) ++
    [.octetLength length, .precision precision, .scale scale, .dataPtr args.1,
      .octetLengthPtr args.2.1, .indicatorPtr args.2.2]

/-- Fields are set one after the other, until one fails. -/
def setDescFields (k : Kind) (recNumber : ℤ) :
    List DescField → SqlReturn × OdbcHandleDesc → SqlReturn × OdbcHandleDesc
  | [], p => p
  | f :: fs, p =>
    if p.1.succeeded then setDescFields k recNumber fs (p.2.setDescField findDataType k recNumber f)
    else p

/-- `SQLSetDescRec` of a descriptor. -/
def sqlSetDescRec (d : OdbcHandleDesc) (k : Kind) (recNumber type length precision scale : ℤ)
    (args : Addr × Addr × Addr) : SqlReturn × OdbcHandleDesc :=
  if k.isIRD then
    d.setDiagnosticRecord .error "SQLSetDescRec" "Cannot modify an implementation row descriptor"
      "HY016"
  else if recNumber ≤ 0 then
    d.setDiagnosticRecord .error "SQLSetDescRec" "Invalid descriptor index" "07009"
  else
    let d := if recNumber > d.header.count then d.addMoreRecords recNumber.toNat else d
    setDescFields findDataType k recNumber (setDescRecFields type length precision scale args)
      (.success, d)

end OdbcHandleDesc

/-! ## Statements and their descriptors -/

/-- `OdbcHandleStmt`, as far as its descriptors go : its connection, the descriptors it owns,
the current ones, the prepared statement and the indices of its parameter descriptor. `born` is
no field of the source : how many statements were allocated before it. -/
structure OdbcHandleStmt where
  dbc : Handle
  apd : Handle
  ipd : Handle
  ard : Handle
  ird : Handle
  curApd : Handle
  curArd : Handle
  stmt : Option PreparedStatement := none
  paramsetIdx : ℕ := 0
  curParamsetIdx : ℕ := 0
  curParamIdx : ℕ := 0
  born : ℕ
  deriving DecidableEq, Repr

/-- The descriptors that the statement owns. -/
def OdbcHandleStmt.owned (s : OdbcHandleStmt) : List Handle := [s.apd, s.ipd, s.ard, s.ird]

/-- The connections, with what they refer to, and what there is at the addresses of statements
and descriptors. `clock` is no part of the source : how many statements were allocated. -/
structure World where
  conn : Handle → Bool
  env : Handle → Handle
  vecStmtRef : Handle → List Handle
  stmts : Handle → Option OdbcHandleStmt
  descs : Handle → Option OdbcHandleDesc
  clock : ℕ

namespace World

variable (w : World)

/-- The statement at the address is replaced. -/
def setStmt (a : Handle) (s : OdbcHandleStmt) : World :=
  { w with stmts := Function.update w.stmts a (some s) }

/-- The descriptor at the address is changed. -/
def modifyDesc (a : Handle) (f : OdbcHandleDesc → OdbcHandleDesc) : World :=
  { w with descs := Function.update w.descs a ((w.descs a).map f) }

/-- `SQLAllocHandle` of a statement, at the address `a`, with its descriptors at theirs. -/
def allocStmt (dbc a apd ipd ard ird : Handle) : World where
  conn := w.conn
  env := w.env
  vecStmtRef := Function.update w.vecStmtRef dbc (w.vecStmtRef dbc ++ [a])
  stmts := Function.update w.stmts a
    (some { dbc, apd, ipd, ard, ird, curApd := apd, curArd := ard, born := w.clock })
  descs x :=
    if x ∈ [apd, ipd, ard] then some { dbc := dbc, stmt := none }
    else if x = ird then some { dbc := dbc, stmt := some a }
    else w.descs x
  clock := w.clock + 1

/-- `SQLAllocHandle` of a descriptor, at the address `a`. -/
def allocDesc (dbc a : Handle) : World :=
  { w with descs := Function.update w.descs a (some { dbc := dbc, stmt := none }) }

/-- `EraseStmtRef`. -/
def eraseStmtRef (dbc a : Handle) : World :=
  { w with vecStmtRef := Function.update w.vecStmtRef dbc ((w.vecStmtRef dbc).erase a) }

/-- The body of the loop of `ResetStmtDescriptors`. -/
def resetCurrent (old : Handle) (s : OdbcHandleStmt) : OdbcHandleStmt :=
  { s with
    curApd := if s.curApd = old then s.apd else s.curApd
    curArd := if s.curArd = old then s.ard else s.curArd }

/-- `ResetStmtDescriptors`, over the statements that are left. -/
def resetStmtDescriptors (old : Handle) : List Handle → World → Option World
  | [], w => some w
  | a :: rest, w => do
    let s ← w.stmts a
    resetStmtDescriptors old rest (w.setStmt a (resetCurrent old s))

/-- The destructor of a statement. -/
def deleteStmt (a : Handle) (s : OdbcHandleStmt) : World :=
  { w with
    stmts := Function.update w.stmts a none
    descs := fun x => if x ∈ s.owned then none else w.descs x }

/-- `FreeHandle` of a statement. -/
def freeHandleStmt (a : Handle) : Option World := do
  let s ← w.stmts a
  some ((w.eraseStmtRef s.dbc a).deleteStmt a s)

/-- `FreeHandle` of a descriptor. -/
def freeHandleDesc (a : Handle) : Option World := do
  let d ← w.descs a
  let w ← resetStmtDescriptors a (w.vecStmtRef d.dbc) w
  some { w with descs := Function.update w.descs a none }

/-- `ConvertHSTMT` : the statement, if its connection is open. -/
def convertHSTMT (a : Handle) : Option (SqlReturn × OdbcHandleStmt) := do
  let s ← w.stmts a
  some (if w.conn s.dbc then .success else .error, s)

/-- A call on a statement : what `body` does once the handle is converted. -/
def onStmt (a : Handle) (body : OdbcHandleStmt → Option (SqlReturn × World)) :
    Option (SqlReturn × World) := do
  let (ret, s) ← w.convertHSTMT a
  if ret = .success then body s else some (ret, w)

/-- `SQLFreeStmt` with `SQL_DROP`. -/
def sqlFreeStmtDrop (a : Handle) : Option (SqlReturn × World) :=
  w.onStmt a fun _ => (w.freeHandleStmt a).map fun w => (.success, w)

/-- `SetAPD`. -/
def setAPD (a : Handle) (s : OdbcHandleStmt) (d : Handle) : Option (SqlReturn × World) := do
  let _ ← w.descs d
  some (.success, (w.setStmt a { s with curApd := d }).modifyDesc d fun d =>
    { d with header.allocType := .user })

/-- `SetARD`. -/
def setARD (a : Handle) (s : OdbcHandleStmt) (d : Handle) : Option (SqlReturn × World) := do
  let _ ← w.descs d
  some (.success, (w.setStmt a { s with curArd := d }).modifyDesc d fun d =>
    { d with header.allocType := .user })

end World

end HaybarnOdbc.Desc
