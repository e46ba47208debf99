import HaybarnOdbc.Api
import HaybarnOdbc.Lib.Buffer
import HaybarnOdbc.Widechar
import HaybarnOdbc.OdbcUtils

/-!
# Data at execution

`SQLParamData` names the parameter whose data is wanted, and `SQLPutData` brings a piece of
it : `GetNextParam` and `PutData` of the parameter descriptor, with `cur_param_idx` and
`cur_paramset_idx` as the place in the dialogue. The indicator that the application bound says
that the data comes at execution; `PutData` keeps the length so far in it, and the data in a
buffer of its own (`pool_allocated_ptr`), from which `SetValue` takes the value in the end.

A call that follows a null indicator pointer, or that reads a record that is not there, has no
outcome (`none`). What a piece holds behind its own bytes is not known, and neither is a buffer
before it is written. A call logs what it copies and stores (`Access`), also where that is not
its own.
-/

namespace HaybarnOdbc

variable {ρ V : Type}

/-- `SQL_DATA_AT_EXEC`. -/
def sqlDataAtExec : ℤ := -2

/-- `SQL_LEN_DATA_AT_EXEC`, of a length below `2 ^ 63` : the cast of a longer one is left out. -/
def sqlLenDataAtExec (length : ℤ) : ℤ := -length - 100

/-- An `SQLLEN` as `size_t`. -/
def sizeOfLen (n : ℤ) : ℕ := if n < 0 then (n + 2 ^ 64).toNat else n.toNat

@[simp] theorem sizeOfLen_natCast (n : ℕ) : sizeOfLen n = n := by
  rw [sizeOfLen, if_neg (by omega), Int.toNat_natCast]

/-- What `SQLPutData` is called with : the pointer and the bytes of the piece at it, the length
or code, and the address of the buffer in case that the call allocates one. -/
structure Piece where
  ptr : Addr
  bytes : List UInt8
  strLenOrInd : ℤ
  newBuffer : Addr

/-- The `n` bytes from the pointer on, as far as they are the piece's. -/
def Piece.cells (p : Piece) (n : ℕ) : List (Option UInt8) := (List.range n).map (p.bytes[·]?)

/-- The memory that the descriptor points into : the indicators and the buffers of the
application, the buffers the driver allocated (`pool_allocated_ptr`), and the number of
processed parameter sets. -/
structure Memory where
  indicators : Addr → ℤ
  app : Addr → List UInt8
  pool : List Addr
  buffers : Addr → Option (List (Option UInt8))
  rowsProcessed : ℕ

/-- A parameter of a parameter set. -/
structure Cell where
  param : ℕ
  set : ℕ
  deriving DecidableEq, Repr

/-- What a call copies from its piece and where it stores : the data pointer of a parameter
and the bytes from an offset on, the indicator of a cell, the data pointer itself, an element of
the status array. -/
inductive Access
  | piece (n : ℕ)
  | data (c : Cell) (ptr : Addr) (offset n : ℕ)
  | indicator (c : Cell)
  | dataPtr (param : ℕ)
  | status (slot : ℕ)
  deriving DecidableEq, Repr

/-- A statement during the dialogue. -/
structure Talk (ρ V : Type) where
  h : OdbcHandleStmt ρ V
  mem : Memory

/-- `GetSQLDescIndicatorPtr` : the indicators of the parameter sets stand in an array. -/
def DescRecord.indicatorAddr (r : DescRecord) (setIdx : ℕ) : Addr := r.indicatorPtr + 8 * setIdx

/-- `SQL_C_CHAR` or `SQL_C_BINARY`. -/
def isPiecewise (type : ℤ) : Bool := type = 1 ∨ type = -2

namespace Memory

/-- An indicator is stored. -/
def setIndicator (m : Memory) (a : Addr) (value : ℤ) : Memory :=
  { m with indicators := Function.update m.indicators a value }

/-- `memcpy` to `ptr + offset`. -/
def copy (m : Memory) (ptr : Addr) (offset : ℕ) (cells : List (Option UInt8)) : Memory :=
  { m with
    buffers := Function.update m.buffers ptr
      ((m.buffers ptr).map fun b => Buffer.store b offset cells) }

/-- `pool_allocated_ptr.emplace_back(...)`. -/
def allocate (m : Memory) (ptr : Addr) (size : ℕ) : Memory :=
  { m with
    pool := m.pool ++ [ptr]
    buffers := Function.update m.buffers ptr (some (List.replicate size none)) }

section

variable (m : Memory) (a ptr : Addr) (value : ℤ) (offset size : ℕ) (cells : List (Option UInt8))

@[simp] theorem indicators_setIndicator :
    (m.setIndicator a value).indicators = Function.update m.indicators a value := rfl

@[simp] theorem pool_setIndicator : (m.setIndicator a value).pool = m.pool := rfl

@[simp] theorem buffers_setIndicator : (m.setIndicator a value).buffers = m.buffers := rfl

@[simp] theorem indicators_copy : (m.copy ptr offset cells).indicators = m.indicators := rfl

@[simp] theorem pool_copy : (m.copy ptr offset cells).pool = m.pool := rfl

@[simp] theorem indicators_allocate : (m.allocate ptr size).indicators = m.indicators := rfl

end

/-- What stands at a pointer. -/
def block (m : Memory) (ptr : Addr) : List (Option UInt8) :=
  (m.buffers ptr).getD ((m.app ptr).map some)

end Memory

/-- The room behind `offset` in a column of `length` bytes, in the arithmetic of `size_t`. -/
def roomBehind (length offset : ℕ) : ℕ :=
  if offset ≤ length then length - offset else length + 2 ^ 64 - offset

namespace Talk

/-- The descriptors of the parameters. -/
def desc (t : Talk ρ V) : ParameterDescriptor V := t.h.paramDesc

/-- The place in the dialogue. -/
def here (t : Talk ρ V) : Cell := ⟨t.desc.curParamIdx, t.desc.curParamsetIdx⟩

/-- The position is moved to a cell. -/
def moveTo (t : Talk ρ V) (c : Cell) : Talk ρ V :=
  { t with h.paramDesc.curParamIdx := c.param, h.paramDesc.curParamsetIdx := c.set }

/-- `SetSQLDescDataPtr`. -/
def setDataPtr (t : Talk ρ V) (param : ℕ) (ptr : Addr) : Talk ρ V :=
  { t with
    h.paramDesc.apd.records :=
      t.desc.apd.records.modify param fun r => { r with dataPtr := ptr } }

/-- The memory is replaced. -/
def setMem (t : Talk ρ V) (m : Memory) : Talk ρ V := { t with mem := m }

section

variable (t : Talk ρ V) (c : Cell) (param : ℕ) (ptr : Addr) (m : Memory)

@[simp] theorem mem_setMem : (t.setMem m).mem = m := rfl

@[simp] theorem mem_moveTo : (t.moveTo c).mem = t.mem := rfl

@[simp] theorem mem_setDataPtr : (t.setDataPtr param ptr).mem = t.mem := rfl

@[simp] theorem here_setMem : (t.setMem m).here = t.here := rfl

@[simp] theorem here_setDataPtr : (t.setDataPtr param ptr).here = t.here := rfl

@[simp] theorem here_moveTo : (t.moveTo c).here = c := rfl

end

/-- `GetNextParam`, with the pointer it passes out. -/
def getNextParam (t : Talk ρ V) : Option (SqlReturn × Option Addr × Talk ρ V) :=
  if t.desc.apd.header.count ≤ t.desc.curParamIdx then some (.noData, none, t)
  else
    match t.desc.apd.records[t.desc.curParamIdx]? with
    | none => none
    | some r =>
      if r.indicatorPtr = 0 then none
      else
        let rowsProcessed :=
          if t.desc.ipd.header.rowsProcessedPtr ≠ 0 then t.mem.rowsProcessed + 1
          else t.mem.rowsProcessed
        let ret :=
          if t.mem.indicators (r.indicatorAddr t.desc.curParamsetIdx) = sqlDataAtExec then .needData
          else .success
        some (ret, some r.dataPtr, t.setMem { t.mem with rowsProcessed := rowsProcessed })

/-- The status that a put stores. -/
def statusAt (t : Talk ρ V) (slot : ℕ) : List Access :=
  if t.desc.ipd.header.arrayStatusPtr ≠ 0 then [.status slot] else []

/-- `FillParamCharDataBuffer`. The first piece finds `SQL_DATA_AT_EXEC` in the indicator, the
next ones the length so far. -/
def fillParamCharDataBuffer (p : Piece) (apdRecord ipdRecord : DescRecord) (t : Talk ρ V) :
    Option (Talk ρ V × List Access) :=
  if apdRecord.indicatorPtr = 0 then none
  else
    let param := t.desc.curParamIdx
    let ind := apdRecord.indicatorAddr 0
    let first : Bool := t.mem.indicators ind = sqlDataAtExec
    let t := if first then (t.setMem (t.mem.allocate p.newBuffer ipdRecord.length)).setDataPtr param
      p.newBuffer else t
    let dataPtr := if first then p.newBuffer else apdRecord.dataPtr
    let length := if first then 0 else t.mem.indicators ind
    let offset := if first then 0 else sizeOfLen length
    let room := roomBehind ipdRecord.length offset
    let size := min (sizeOfLen p.strLenOrInd) room
    let t := if room ≤ sizeOfLen p.strLenOrInd then t.moveTo ⟨param + 1, t.here.set⟩ else t
    let t := t.setMem ((t.mem.copy dataPtr offset (p.cells size)).setIndicator ind (length + size))
    some (t, (if first then [.dataPtr param] else []) ++
      [.piece size, .data ⟨param, 0⟩ dataPtr offset size, .indicator ⟨param, 0⟩] ++
      t.statusAt t.here.param)

/-- `FillCurParamCharSet`, which goes on to the next parameter set. -/
def fillCurParamCharSet (p : Piece) (apdRecord ipdRecord : DescRecord) (t : Talk ρ V) :
    Option (Talk ρ V × List Access) :=
  if apdRecord.indicatorPtr = 0 then none
  else
    let c := t.here
    let ind := apdRecord.indicatorAddr c.set
    let colSize := ipdRecord.length
    let first : Bool := t.mem.indicators ind = sqlDataAtExec ∧ t.mem.pool = []
    let t := if first then
      (t.setMem (t.mem.allocate p.newBuffer (colSize * t.desc.apd.header.arraySize))).setDataPtr
        c.param p.newBuffer else t
    let dataPtr := if first then p.newBuffer else apdRecord.dataPtr
    let size := min (sizeOfLen p.strLenOrInd) colSize
    let t := t.setMem ((t.mem.copy dataPtr (c.set * colSize) (p.cells size)).setIndicator ind size)
    some (t.moveTo (if t.desc.apd.header.arraySize ≤ c.set + 1 then ⟨c.param + 1, 0⟩
        else ⟨c.param, c.set + 1⟩),
      (if first then [.dataPtr c.param] else []) ++
        [.piece size, .data c dataPtr (c.set * colSize) size, .indicator c] ++ t.statusAt c.set)

/-- `PutData` of a parameter that is not piecewise : its data pointer becomes the one of the
piece. -/
def putPointer (p : Piece) (apdRecord : DescRecord) (t : Talk ρ V) :
    Option (Talk ρ V × List Access) :=
  let param := t.desc.curParamIdx
  let t := t.moveTo ⟨param + 1, t.here.set⟩
  if p.strLenOrInd = sqlNullData then
    if apdRecord.indicatorPtr = 0 then none
    else some (t.setMem (t.mem.setIndicator (apdRecord.indicatorAddr 0) sqlNullData),
      [.indicator ⟨param, 0⟩])
  else some (t.setDataPtr param p.ptr, [.dataPtr param])

/-- `PutData`. -/
def putData (p : Piece) (t : Talk ρ V) : Option (SqlReturn × Talk ρ V × List Access) :=
  if t.desc.apd.header.count ≤ t.desc.curParamIdx then some (.error, t, [])
  else
    match t.desc.apd.records[t.desc.curParamIdx]? with
    | none => none
    | some apdRecord =>
      if isPiecewise apdRecord.type then
        match t.desc.ipd.records[t.desc.curParamIdx]? with
        | none => none
        | some ipdRecord =>
          -- `PutCharData`
          (if t.desc.apd.header.arraySize = 1 then t.fillParamCharDataBuffer p apdRecord ipdRecord
            else t.fillCurParamCharSet p apdRecord ipdRecord).map fun (t, log) => (.success, t, log)
      else (t.putPointer p apdRecord).map fun (t, log) => (.success, t, log)

/-- `SQLParamData` : the end of the parameters is a success. -/
def sqlParamData (t : Talk ρ V) : Option (SqlReturn × Option Addr × Talk ρ V) :=
  match t.h.convertHSTMTPrepared with
  | (.success, h) => ({ t with h := h } : Talk ρ V).getNextParam.map fun (ret, param, t) =>
      (if ret = .noData then .success else ret, param, t)
  | (ret, h) => some (ret, none, { t with h := h })

/-- `SQLPutData`, which does not tell a failure of `PutData`. -/
def sqlPutData (p : Piece) (t : Talk ρ V) : Option (SqlReturn × Talk ρ V × List Access) :=
  match t.h.convertHSTMTPrepared with
  | (.success, h) => ({ t with h := h } : Talk ρ V).putData p |>.map fun (_, t, log) =>
      (.success, t, log)
  | (ret, h) => some (ret, { t with h := h }, [])

end Talk

/-! ## The value of a parameter -/

/-- What `SetValue` makes of a parameter : null, a text, a BLOB, or the bytes of an SQL type of
fixed size, which the C type tells the sign of. -/
inductive ParamValue
  | null
  | text (bytes : List UInt8)
  | blob (bytes : List UInt8)
  | fixed (sqlType cType : ℤ) (bytes : List UInt8)
  deriving DecidableEq, Repr

/-- `SQL_BINARY`, `SQL_VARBINARY` and `SQL_LONGVARBINARY`. -/
def isBinaryTarget (sqlType : ℤ) : Bool := sqlType = -2 ∨ sqlType = -3 ∨ sqlType = -4

/-- `SQL_CHAR`, `SQL_VARCHAR` and `SQL_LONGVARCHAR`. -/
def isCharTarget (sqlType : ℤ) : Bool := sqlType = 1 ∨ sqlType = 12 ∨ sqlType = -1

/-- `SQL_WCHAR`, `SQL_WVARCHAR` and `SQL_WLONGVARCHAR`. -/
def isWcharTarget (sqlType : ℤ) : Bool := sqlType = -8 ∨ sqlType = -9 ∨ sqlType = -10

/-- The size of the elements of an array of the SQL types of fixed size. -/
def fixedSize (sqlType : ℤ) : Option ℕ :=
  if sqlType = -6 then some 1
  else if sqlType = 5 then some 2
  else if sqlType = 4 ∨ sqlType = 6 then some 4
  else if sqlType = -5 ∨ sqlType = 8 then some 8
  else if sqlType = 2 then some 19
  else if sqlType = 93 then some 16
  else if sqlType = 91 ∨ sqlType = 92 then some 6
  else none

/-- `ValidateNumeric`. -/
def validateNumeric (precision scale : ℤ) : Bool :=
  ¬(precision < 1 ∨ precision > 38 ∨ scale < 0 ∨ scale > 38 ∨ scale > precision)

/-- The code units of bytes in the order of the machine. -/
def codeUnits : List UInt8 → List UInt16
  | lo :: hi :: bytes => UInt16.ofNat (lo.toNat + 256 * hi.toNat) :: codeUnits bytes
  | _ => []

namespace Talk

variable (t : Talk ρ V)

/-- The text at an offset, with its length in bytes, or the length up to the terminator. -/
def loadText (ptr : Addr) (offset : ℕ) (ind : ℤ) : Option (List UInt8) :=
  let b := t.mem.block ptr
  if ind = sqlNts then Buffer.known ((b.drop offset).takeWhile (· ≠ some 0))
  else Buffer.load b offset (if ind > 0 then ind.toNat else 0)

/-- The code units at an offset. -/
def loadWide (ptr : Addr) (offset : ℕ) (ind : ℤ) : Option (List UInt16) :=
  let b := t.mem.block ptr
  if ind = sqlNts then
    (Buffer.load b offset (b.length - offset)).map fun bytes => (codeUnits bytes).takeWhile (· ≠ 0)
  else (Buffer.load b offset (2 * (sizeOfLen ind / 2))).map codeUnits

/-- `SetValue` of a record with a data pointer and an indicator that says neither that the
value is null nor that it comes at execution, with the indicator after it : the length of a text
that ended with a NUL is stored there. There is no bind offset, and the column size is below
`2 ^ 63`, so that it is the same number as an `SQLLEN`. -/
def loadValue (apdRecord ipdRecord : DescRecord) (valIdx : ℕ) (ind : ℤ) :
    Option (ParamRead ParamValue × ℤ) :=
  let sqlType := ipdRecord.type
  let cType := apdRecord.type
  let buffSize := (max (ipdRecord.length : ℤ) apdRecord.octetLength).toNat
  let text := (t.loadText apdRecord.dataPtr (valIdx * buffSize) ind).map fun bytes =>
    (.value (.text bytes), if ind = sqlNts then (bytes.length : ℤ) else ind)
  let wide := (t.loadWide apdRecord.dataPtr (2 * (valIdx * buffSize)) ind).map fun units =>
    (.value (.text (Widechar.utf16ToUtf8Lenient units).1),
      if ind = sqlNts then 2 * (units.length : ℤ) else ind)
  if isBinaryTarget sqlType = false ∧ cType = 1 then text
  else if isBinaryTarget sqlType = false ∧ cType = -8 then wide
  else if isCharTarget sqlType then text
  else if isWcharTarget sqlType then wide
  else if isBinaryTarget sqlType then
    (Buffer.load (t.mem.block apdRecord.dataPtr) (valIdx * buffSize) (sizeOfLen ind)).map
      fun bytes =>
      (.value (.blob bytes), ind)
  else if sqlType = 2 ∧ validateNumeric ipdRecord.precision ipdRecord.scale = false then
    some (.failed .error, ind)
  else
    match fixedSize sqlType with
    | none => some (.failed .paramError, ind)
    | some n => (Buffer.load (t.mem.block apdRecord.dataPtr) (valIdx * n) n).map fun bytes =>
        (.value (.fixed sqlType cType bytes), ind)

/-- `SetValue` of a record for a parameter set. -/
def setValue (recIdx valIdx : ℕ) : Option (ParamRead ParamValue × Memory) :=
  match t.desc.apd.records[recIdx]?, t.desc.ipd.records[recIdx]? with
  | some apdRecord, some ipdRecord =>
    if apdRecord.dataPtr = 0 ∧ apdRecord.indicatorPtr = 0 then some (.failed .error, t.mem)
    else if apdRecord.dataPtr = 0 ∨ apdRecord.indicatorPtr = 0 then some (.value .null, t.mem)
    else
      let addr := apdRecord.indicatorAddr valIdx
      let ind := t.mem.indicators addr
      if ind = sqlNullData then some (.value .null, t.mem)
      else if ind = sqlDataAtExec ∨ ind = sqlLenDataAtExec ipdRecord.length then
        some (.needData, t.mem)
      else (t.loadValue apdRecord ipdRecord valIdx ind).map fun (value, ind) =>
        (value, t.mem.setIndicator addr ind)
  | _, _ => none

end Talk

end HaybarnOdbc
