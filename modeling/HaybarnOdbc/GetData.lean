import HaybarnOdbc.Lib.Outcome
import HaybarnOdbc.Handle

/-!
# Reading a cell

`GetVariableValue` and `GetDataStmtResult` : a value of variable length is returned in
pieces, one per call, and `last_fetched_variable_val` of the fetcher keeps how much of it
the earlier calls returned. What a call stores in the application's memory is the list of
its `Write`s.
-/

namespace HaybarnOdbc

variable {ρ V : Type}

/-- The status of a row in the row status array. -/
inductive RowStatus
  | success
  | successWithInfo
  | error
  | noRow
  deriving DecidableEq, Repr

/-- A store into the application's memory : bytes at an address, a length or indicator at
an address, an element of the row status array, or the number of rows fetched. -/
inductive Write
  | data (addr : Addr) (bytes : List UInt8)
  | ind (addr : Addr) (value : ℤ)
  | status (slot : ℕ) (st : RowStatus)
  | rowsFetched (n : ℕ)
  deriving DecidableEq, Repr

/-- `SQL_NULL_DATA`. -/
def sqlNullData : ℤ := -1

/-- A number as `size_t`. -/
def sizeT (n : ℤ) : ℕ := (n % 2 ^ 64).toNat

/-- A length that is not negative is its own size. -/
theorem sizeT_of_nonneg {n : ℤ} (h : 0 ≤ n) (hlt : n < 2 ^ 64) : (sizeT n : ℤ) = n := by
  rw [sizeT, Int.emod_eq_of_lt h hlt, Int.toNat_of_nonneg h]

namespace OdbcHandleStmt

/-- `SetLastFetchedVariableVal` : forget the length of another cell. -/
def setLastFetchedVariableVal (h : OdbcHandleStmt ρ V) (colIdx : ℤ) : OdbcHandleStmt ρ V :=
  let last := h.odbcFetcher.lastFetched
  let length :=
    if last.colIdx ≠ colIdx ∨ last.rowIdx ≠ h.odbcFetcher.chunkRow then 0 else last.length
  { h with odbcFetcher.lastFetched := ⟨colIdx, h.odbcFetcher.chunkRow, length⟩ }

/-- `SetLastFetchedLength`. -/
def setLastFetchedLength (h : OdbcHandleStmt ρ V) (newLen : ℕ) : OdbcHandleStmt ρ V :=
  { h with odbcFetcher.lastFetched.length := newLen }

/-- What a call did : its code, the handle after it and its stores. -/
structure Got (ρ V : Type) where
  ret : SqlReturn
  h : OdbcHandleStmt ρ V
  writes : List Write

/-- `GetVariableValue` of the bytes `val`, in units of `charSize` bytes. Copying past the
end of `val` is a fault. -/
def getVariableValue (h : OdbcHandleStmt ρ V) (colIdx : ℕ) (target : Addr) (bufferLength : ℤ)
    (strLenOrInd : Addr) (val : List UInt8) (charSize : ℕ) (nullTerminate : Bool) :
    Except Fault (Got ρ V) :=
  let h := h.setLastFetchedVariableVal colIdx
  let lastLen := h.odbcFetcher.lastFetched.length
  if 0 < val.length ∧ val.length ≤ lastLen then .ok ⟨.noData, h, []⟩
  -- the comparison is one of unsigned numbers, so that no negative length is too small
  else if nullTerminate ∧ 0 ≤ bufferLength ∧ bufferLength < charSize then
    let (ret, h) := h.setDiagnosticRecord .error "SQLGetData" "TargetValuePtr size is insufficient"
      .stHY090
    .ok ⟨ret, h, []⟩
  else
    let effective := sizeT (if nullTerminate then bufferLength - charSize else bufferLength)
    let remaining := sizeT (val.length - lastLen)
    if target = 0 then
      if strLenOrInd ≠ 0 then .ok ⟨.success, h, [.ind strLenOrInd remaining]⟩
      else
        let (ret, h) := h.setDiagnosticRecord .error "SQLGetData"
          "Could not set StrLen_or_IndPtr" .stHY090
        .ok ⟨ret, h, []⟩
    else
      let outLen := min remaining effective
      let (ret, h) :=
        if remaining > effective then
          h.setDiagnosticRecord .successWithInfo "SQLGetData"
            ("Not all the data for the specified column could be retrieved, the length of the " ++
              "data remaining in the specific column prior to the current call to SQLGetData is " ++
              "returned in *StrLen_or_IndPtr.") .st01004
        else (.success, h)
      if val.length < lastLen + outLen then .error .outOfRange
      else
        .ok ⟨ret, h.setLastFetchedLength (lastLen + outLen),
          .data target ((val.drop lastLen).take outLen) ::
            ((if nullTerminate then [.data (target + outLen) (List.replicate charSize 0)]
              else []) ++
              if strLenOrInd ≠ 0 then [.ind strLenOrInd remaining] else [])⟩

/-- `OdbcFetch::GetValue` : the cell of the current row, or no value at all without a
current chunk. -/
def getValue (E : Engine ρ V) (h : OdbcHandleStmt ρ V) (colIdx : ℕ) : Except Fault (Option V) :=
  match h.odbcFetcher.currentChunk with
  | none => .ok none
  | some _ => do
    let c ← h.odbcFetcher.deref
    if h.odbcFetcher.chunkRow < 0 ∨ c.columnCount ≤ colIdx then .error .outOfRange
    else
      match c.rows[h.odbcFetcher.chunkRow.toNat]? with
      | none => .error .outOfRange
      | some row => .ok (some (E.getValue row colIdx))

/-- `GetDataStmtResult`. An exception of a conversion is not caught. -/
def getDataStmtResult (E : Engine ρ V) (h : OdbcHandleStmt ρ V) (colOrParamNum : ℕ)
    (targetType : CType) (target : Addr) (bufferLength : ℤ) (strLenOrInd : Addr) :
    Except Fault (Got ρ V) :=
  if target = 0 ∧ ¬targetType.isCharType then .ok ⟨.error, h, []⟩
  else do
    let col := colOrParamNum - 1
    let val ← h.getValue E col
    match val.filter fun v => ¬E.isNull v with
    | none =>
      if strLenOrInd = 0 then .ok ⟨.error, h, []⟩
      else .ok ⟨.success, h, [.ind strLenOrInd sqlNullData]⟩
    | some v =>
      let v := E.atUtcOffset v
      let resolved :=
        if targetType = .default then resolveDefaultType (E.typeId v) bufferLength
        else targetType
      match resolved with
      | .wchar =>
        match E.wcharBytes v with
        | .ok bytes => h.getVariableValue col target bufferLength strLenOrInd bytes 2 true
        | .error msg => .error (.thrown msg)
      | .binary =>
        match E.binaryBytes v with
        | .ok bytes => h.getVariableValue col target bufferLength strLenOrInd bytes 1 false
        | .error msg => .error (.thrown msg)
      | .char =>
        match E.charBytes v with
        | .ok bytes => h.getVariableValue col target bufferLength strLenOrInd bytes 1 true
        | .error msg => .error (.thrown msg)
      | t =>
        match t.storedSize with
        | some size =>
          match E.castAs t v with
          | .ok bytes =>
            .ok ⟨.success, h,
              .data target bytes :: if strLenOrInd ≠ 0 then [.ind strLenOrInd size] else []⟩
          | .error (.reported records) => .ok ⟨.error, { h with diag := h.diag ++ records }, []⟩
          | .error (.thrown msg) => .error (.thrown msg)
        | none =>
          let (ret, h) := h.setDiagnosticRecord .error "GetDataStmtResult"
            "Data type not supported" .stHY004
          .ok ⟨ret, h, []⟩

/-- Reading a cell changes how much of a cell was returned, and the diagnostics. -/
def SameCursor (h h' : OdbcHandleStmt ρ V) : Prop :=
  ∃ last diag, h' = { h with odbcFetcher.lastFetched := last, diag := diag }

theorem SameCursor.refl (h : OdbcHandleStmt ρ V) : SameCursor h h :=
  ⟨h.odbcFetcher.lastFetched, h.diag, rfl⟩

theorem SameCursor.trans {h₁ h₂ h₃ : OdbcHandleStmt ρ V} (h₁₂ : SameCursor h₁ h₂)
    (h₂₃ : SameCursor h₂ h₃) : SameCursor h₁ h₃ := by
  obtain ⟨last, diag, rfl⟩ := h₁₂
  obtain ⟨last', diag', rfl⟩ := h₂₃
  exact ⟨last', diag', rfl⟩

/-- Storing a value leaves the cursor where it is. -/
theorem sameCursor_getVariableValue {h : OdbcHandleStmt ρ V} {colIdx : ℕ} {target : Addr}
    {bufferLength : ℤ} {strLenOrInd : Addr} {val : List UInt8} {charSize : ℕ}
    {nullTerminate : Bool} {got : Got ρ V}
    (hx : h.getVariableValue colIdx target bufferLength strLenOrInd val charSize nullTerminate =
      .ok got) : SameCursor h got.h := by
  unfold getVariableValue at hx
  dsimp only at hx
  repeat' split at hx
  all_goals first
    | (cases hx; exact ⟨_, _, rfl⟩)
    | cases hx

/-- No byte of the column was returned in the current row. -/
def FreshOffset (h : OdbcHandleStmt ρ V) (col : ℕ) : Prop :=
  (h.setLastFetchedVariableVal col).odbcFetcher.lastFetched.length = 0

/-- Reading a cell of variable length notes the cell. -/
theorem lastFetched_getVariableValue {h : OdbcHandleStmt ρ V} {colIdx : ℕ} {target : Addr}
    {bufferLength : ℤ} {strLenOrInd : Addr} {val : List UInt8} {charSize : ℕ}
    {nullTerminate : Bool} {got : Got ρ V}
    (hx : h.getVariableValue colIdx target bufferLength strLenOrInd val charSize nullTerminate =
      .ok got) :
    got.h.odbcFetcher.lastFetched.colIdx = colIdx ∧
      got.h.odbcFetcher.lastFetched.rowIdx = h.odbcFetcher.chunkRow := by
  unfold getVariableValue at hx
  dsimp only at hx
  repeat' split at hx
  all_goals first
    | (cases hx; exact ⟨rfl, rfl⟩)
    | cases hx

/-- Reading a cell stores data and lengths, and a length only through a pointer that is not
null. -/
def IsCellWrite (strLenOrInd : Addr) : Write → Prop
  | .data _ _ => True
  | .ind addr _ => addr = strLenOrInd ∧ strLenOrInd ≠ 0
  | .status _ _ => False
  | .rowsFetched _ => False

/-- It stores data and an indicator only. -/
theorem isCellWrite_getVariableValue {h : OdbcHandleStmt ρ V} {colIdx : ℕ} {target : Addr}
    {bufferLength : ℤ} {strLenOrInd : Addr} {val : List UInt8} {charSize : ℕ}
    {nullTerminate : Bool} {got : Got ρ V}
    (hx : h.getVariableValue colIdx target bufferLength strLenOrInd val charSize nullTerminate =
      .ok got) : ∀ w ∈ got.writes, IsCellWrite strLenOrInd w := by
  unfold getVariableValue at hx
  dsimp only at hx
  repeat' split at hx
  all_goals first
    | (cases hx; done)
    | (cases hx; simp_all [IsCellWrite])

/-- A cell that is read with a code : bytes of variable length, or a call that leaves the fetcher
alone and stores at its own addresses. -/
theorem getDataStmtResult_cases {E : Engine ρ V} {h : OdbcHandleStmt ρ V} {num : ℕ} {t : CType}
    {target : Addr} {bufferLength : ℤ} {strLenOrInd : Addr} {got : Got ρ V}
    (hx : h.getDataStmtResult E num t target bufferLength strLenOrInd = .ok got) :
    (∃ bytes charSize nullTerminate,
      h.getVariableValue (num - 1) target bufferLength strLenOrInd bytes charSize nullTerminate =
        .ok got) ∨
    ((∃ diag, got.h = { h with diag := diag }) ∧ ∀ w ∈ got.writes, IsCellWrite strLenOrInd w) := by
  unfold getDataStmtResult at hx
  split at hx
  · cases hx
    exact .inr ⟨⟨_, rfl⟩, by simp⟩
  · obtain ⟨val, -, hx⟩ := Outcome.bind_eq_ok.1 hx
    dsimp only at hx
    split at hx
    · -- a null, which is stored only where there is an indicator
      split at hx
      · cases hx
        exact .inr ⟨⟨_, rfl⟩, by simp⟩
      · next hne =>
        cases hx
        refine .inr ⟨⟨_, rfl⟩, fun w hw => ?_⟩
        obtain rfl := List.mem_singleton.1 hw
        exact ⟨rfl, hne⟩
    · repeat' split at hx
      all_goals first
        | exact .inl ⟨_, _, _, hx⟩
        | (cases hx; refine .inr ⟨⟨_, rfl⟩, ?_⟩; simp_all [IsCellWrite])
        | cases hx

/-- Reading a cell leaves the cursor where it is. -/
theorem sameCursor_getDataStmtResult {E : Engine ρ V} {h : OdbcHandleStmt ρ V} {num : ℕ} {t : CType}
    {target : Addr} {bufferLength : ℤ} {strLenOrInd : Addr} {got : Got ρ V}
    (hx : h.getDataStmtResult E num t target bufferLength strLenOrInd = .ok got) :
    SameCursor h got.h := by
  obtain ⟨_, _, _, hread⟩ | ⟨⟨diag, hh⟩, -⟩ := getDataStmtResult_cases hx
  · exact sameCursor_getVariableValue hread
  · exact ⟨_, _, hh⟩

theorem lastFetched_getDataStmtResult {E : Engine ρ V} {h : OdbcHandleStmt ρ V}
    {num : ℕ} {t : CType}
    {target : Addr} {bufferLength : ℤ} {strLenOrInd : Addr} {got : Got ρ V}
    (hx : h.getDataStmtResult E num t target bufferLength strLenOrInd = .ok got) :
    got.h.odbcFetcher.lastFetched = h.odbcFetcher.lastFetched ∨
      (got.h.odbcFetcher.lastFetched.colIdx = (num - 1 : ℕ) ∧
        got.h.odbcFetcher.lastFetched.rowIdx = h.odbcFetcher.chunkRow) := by
  obtain ⟨_, _, _, hread⟩ | ⟨⟨diag, hh⟩, -⟩ := getDataStmtResult_cases hx
  · exact .inr (lastFetched_getVariableValue hread)
  · exact .inl (by rw [hh])

/-- It stores data and an indicator only. -/
theorem isCellWrite_getDataStmtResult {E : Engine ρ V} {h : OdbcHandleStmt ρ V}
    {num : ℕ} {t : CType}
    {target : Addr} {bufferLength : ℤ} {strLenOrInd : Addr} {got : Got ρ V}
    (hx : h.getDataStmtResult E num t target bufferLength strLenOrInd = .ok got) :
    ∀ w ∈ got.writes, IsCellWrite strLenOrInd w := by
  obtain ⟨_, _, _, hread⟩ | ⟨-, hwrites⟩ := getDataStmtResult_cases hx
  · exact isCellWrite_getVariableValue hread
  · exact hwrites

end OdbcHandleStmt

end HaybarnOdbc
