import HaybarnOdbc.Types

/-!
# The statement handle

The state of an `OdbcHandleStmt` : the prepared statement and the result set of the
engine, the fetcher with the chunks it stores and its position, the bound columns and the
descriptors.

A chunk of a result set is never empty (`StreamQueryResult::FetchInternal` closes the
result instead), which `Block` carries. `OdbcFetch::current_chunk` is a raw pointer to a
chunk that `OdbcFetch::chunks` owns. The model keeps the chunk itself with the address it
was allocated at, and `OdbcFetch.deref` follows the pointer only while a stored chunk has
that address.
-/

namespace HaybarnOdbc

/-! ## The engine's side -/

/-- The rows of one chunk. -/
structure Block (ρ : Type) where
  rows : List ρ
  ne : rows ≠ []

/-- A chunk the engine handed over, at the address it was allocated at. -/
structure DataChunk (ρ : Type) where
  addr : ℕ
  columnCount : ℕ
  block : Block ρ

namespace DataChunk

variable {ρ : Type}

/-- The rows of a chunk. -/
def rows (c : DataChunk ρ) : List ρ := c.block.rows

/-- `DataChunk::size`. -/
def size (c : DataChunk ρ) : ℕ := c.rows.length

/-- A chunk has a row. -/
theorem size_pos (c : DataChunk ρ) : 0 < c.size :=
  List.length_pos_iff.2 c.block.ne

end DataChunk

/-- A result set : the chunks the engine has not handed over yet, the error that follows
them if there is one, and the error recorded on the result (`HasError`). `fetched` counts
the chunks handed over, and is the address of the next one. -/
structure QueryResult (ρ : Type) where
  columnCount : ℕ
  pending : List (Block ρ)
  failure : Option String
  fetched : ℕ
  error : Option String

/-- The answers of `QueryResult::Fetch`. -/
inductive EngineFetch (ρ : Type)
  | chunk (c : DataChunk ρ)
  | done
  | error (msg : String)

/-- `QueryResult::Fetch`, with the error recorded on the result when there is one. -/
def QueryResult.fetch {ρ : Type} (res : QueryResult ρ) : EngineFetch ρ × QueryResult ρ :=
  match res.pending with
  | b :: bs =>
    (.chunk ⟨res.fetched, res.columnCount, b⟩,
      { res with pending := bs, fetched := res.fetched + 1 })
  | [] =>
    match res.failure with
    | none => (.done, res)
    | some msg => (.error msg, { res with error := some msg })

/-- `PreparedStatement` : its error if it has one, the number of its parameters, and the
number of its columns as far as they are known. -/
structure PreparedStatement where
  error : Option String
  paramCount : ℕ
  columnCount : ℕ
  boundAllParameters : Bool
  /-- INSERT, UPDATE or DELETE, the statement types `SQLRowCount` tells apart. -/
  isDml : Bool
  deriving DecidableEq, Repr

/-- The columns that a statement has once it is prepared : none as long as its parameters are not
all bound. -/
def PreparedStatement.knownColumns (p : PreparedStatement) : ℕ :=
  if p.boundAllParameters then p.columnCount else 0

/-! ## The fetcher -/

/-- `last_fetched_variable_val` : how much of a column of variable length was returned. -/
structure LastFetched where
  colIdx : ℤ
  rowIdx : ℤ
  length : ℕ
  deriving DecidableEq, Repr

/-- `OdbcFetch`. -/
structure OdbcFetch (ρ : Type) where
  cursorType : CursorType
  rowCount : ℤ
  lastFetched : LastFetched
  chunks : List (DataChunk ρ)
  currentChunkIdx : ℕ
  currentChunk : Option (DataChunk ρ)
  chunkRow : ℤ
  priorChunkRow : ℤ
  resultsetEnd : Bool

namespace OdbcFetch

variable {ρ : Type}

/-- Whether the chunk at the address of `c` is still stored. -/
def owns (f : OdbcFetch ρ) (c : DataChunk ρ) : Bool :=
  f.chunks.any fun d => d.addr = c.addr

/-- `current_chunk->` : the chunk the pointer leads to. -/
def deref (f : OdbcFetch ρ) : Except Fault (DataChunk ρ) :=
  match f.currentChunk with
  | none => .error .nullChunk
  | some c => if f.owns c then .ok c else .error .freedChunk

/-- `ClearChunks`. It leaves `current_chunk_idx` as it is. -/
def clearChunks (f : OdbcFetch ρ) : OdbcFetch ρ :=
  { f with
    chunks := []
    currentChunk := none
    chunkRow := -1
    priorChunkRow := -1
    rowCount := 0
    resultsetEnd := false }

/-- `ResetLastFetchedVariableVal`. -/
def resetLastFetchedVariableVal (f : OdbcFetch ρ) : OdbcFetch ρ :=
  { f with lastFetched := ⟨-1, -1, 0⟩ }

/-- `RequireFetch` : whether the row is past the last row of the last stored chunk. -/
def requireFetch (f : OdbcFetch ρ) : Bool :=
  match f.chunks.getLast? with
  | none => true
  | some c => (c.size : ℤ) - 1 ≤ f.chunkRow

/-- A current chunk that is stored can be read. -/
theorem deref_eq_ok {f : OdbcFetch ρ} {c : DataChunk ρ} (h : f.currentChunk = some c)
    (hmem : c ∈ f.chunks) : f.deref = .ok c := by
  have howns : f.owns c = true := List.any_eq_true.2 ⟨c, hmem, by simp⟩
  simp [deref, h, howns]

end OdbcFetch

/-! ## The statement -/

/-- `OdbcBoundCol`. -/
structure OdbcBoundCol where
  type : CType := .other 0
  ptr : Addr := 0
  len : ℤ := 0
  strlenOrInd : Addr := 0
  deriving DecidableEq, Repr

/-- `OdbcBoundCol::IsBound`. -/
def OdbcBoundCol.isBound (c : OdbcBoundCol) : Bool := c.ptr ≠ 0

/-- `OdbcBoundCol::IsVarcharBound`. -/
def OdbcBoundCol.isVarcharBound (c : OdbcBoundCol) : Bool :=
  if c.type.isCharType then c.strlenOrInd ≠ 0 else false

/-- The header of a descriptor. -/
structure DescHeader where
  arraySize : ℕ := 1
  arrayStatusPtr : Addr := 0
  /-- `0` is `SQL_BIND_BY_COLUMN`, anything else the size of a row. -/
  bindType : ℕ := 0
  count : ℤ := 0
  rowsProcessedPtr : Addr := 0
  deriving DecidableEq, Repr

/-- A parameter record of a descriptor. -/
structure DescRecord where
  parameterType : ℤ := 0
  type : ℤ := 0
  conciseType : ℤ := 0
  datetimeIntervalCode : ℤ := 0
  length : ℕ := 0
  precision : ℤ := 0
  scale : ℤ := 0
  dataPtr : Addr := 0
  octetLength : ℤ := 0
  indicatorPtr : Addr := 0
  octetLengthPtr : Addr := 0
  deriving DecidableEq, Repr

/-- A parameter descriptor of the statement. -/
structure ParamDesc where
  header : DescHeader := {}
  records : List DescRecord := []
  deriving DecidableEq, Repr

/-- `ParameterDescriptor`. One application descriptor stands for `apd` and `cur_apd` : the
statement's own one is in force, and no other one was set. The octet length of a text comes
from `apd`, and all else that an execution reads from `cur_apd`. -/
structure ParameterDescriptor (V : Type) where
  apd : ParamDesc := {}
  ipd : ParamDesc := {}
  paramsetIdx : ℕ := 0
  curParamsetIdx : ℕ := 0
  curParamIdx : ℕ := 0
  /-- The values of the last set read, by parameter. -/
  values : List V := []

/-- `RowDescriptor`, of which fetching reads the two headers. -/
structure RowDescriptor where
  ard : DescHeader := {}
  ird : DescHeader := {}
  deriving DecidableEq, Repr

/-- `OdbcHandleStmt`. The flag `open` of the source is `opened` here. -/
structure OdbcHandleStmt (ρ V : Type) where
  stmt : Option PreparedStatement
  res : Option (QueryResult ρ)
  boundCols : List OdbcBoundCol
  opened : Bool
  /-- `SQL_ATTR_RETRIEVE_DATA` is `SQL_RD_ON`. -/
  retrieveData : Bool
  rowsFetchedPtr : Addr
  odbcFetcher : OdbcFetch ρ
  paramDesc : ParameterDescriptor V
  rowDesc : RowDescriptor
  diag : List DiagRecord

namespace OdbcHandleStmt

variable {ρ V : Type}

/-- `OdbcHandleStmt::OdbcHandleStmt` over memory that held `junk`. The constructors give no
value to `open` of the statement nor to `current_chunk_idx`, `current_chunk`, `chunk_row`
and `prior_chunk_row` of its fetcher. -/
def alloc (junk : OdbcHandleStmt ρ V) : OdbcHandleStmt ρ V :=
  { junk with
    stmt := none
    res := none
    boundCols := []
    retrieveData := true
    rowsFetchedPtr := 0
    odbcFetcher :=
      { junk.odbcFetcher with
        cursorType := .forwardOnly
        rowCount := 0
        lastFetched := ⟨-1, -1, 0⟩
        chunks := []
        resultsetEnd := false }
    paramDesc := {}
    rowDesc := {}
    diag := [] }

/-- `sql_desc_array_size` of the application row descriptor : the size of a rowset. -/
def rowsetSize (h : OdbcHandleStmt ρ V) : ℕ := h.rowDesc.ard.arraySize

/-- `SetDiagnosticRecord` : post a record and return the given code. -/
def setDiagnosticRecord (h : OdbcHandleStmt ρ V) (ret : SqlReturn) (component msg : String)
    (state : SqlState) : SqlReturn × OdbcHandleStmt ρ V :=
  (ret, { h with diag := h.diag ++ [⟨component, msg, state⟩] })

end OdbcHandleStmt

end HaybarnOdbc
