import HaybarnOdbc.DiagPieces

/-!
# The error of a session init query

When a query of the session init file fails, `RunQueryWithStmt` reads the first diagnostic
record of its statement into a buffer of 1024 bytes and makes a text of as many bytes as the
call says. The call says how long the message is, not how much of it was written : a message
of 1025 bytes or more makes a text that goes beyond the buffer, and one of 32768 or more is of
a negative length. Only a length that is small again as an `SQLSMALLINT` is read within the
buffer (`postError_iff`).
-/

namespace HaybarnOdbc.SessionInit

open HaybarnOdbc.Diag

/-- The size of `msg_buf`. -/
def msgBufSize : ℕ := 1024

/-- A buffer of zeros after a text and its terminator were written. -/
def bufferWith (size : ℕ) (text : List UInt8) : List UInt8 :=
  text ++ List.replicate (size - text.length) 0

/-- `std::string` of the first `n` bytes of a buffer. `none` is a read beyond it, or the length
error of an `n` that was negative. -/
def stringOf (buffer : List UInt8) (n : ℕ) : Option (List UInt8) :=
  if n ≤ buffer.length then some (buffer.take n) else none

/-- The call of `SQLGetDiagRec` for the statement. -/
def diagCall : RecArgs := ⟨some .stmt, 1, true, true, true, msgBufSize, true⟩

/-- `message` of `RunQueryWithStmt`, from the records of its statement. -/
def errorMessage (stmt : OdbcDiagnostic) : Option (List UInt8) := do
  let (reply, _) ← getDiagRecInternal char .stmt stmt diagCall
  if reply.ret.succeeded then
    let sqlstate ← stringOf (bufferWith 6 (reply.sqlState.getD [])) 5
    let text ← stringOf (bufferWith msgBufSize (reply.text.getD []))
      (Diag.sizeT (reply.textLength.getD 0))
    some (sqlstate ++ bytes ": " ++ text)
  else some (bytes "N/A")

/-- The record that is posted on the connection with a message. -/
def withError (dbc : OdbcDiagnostic) (message query : List UInt8) : OdbcDiagnostic :=
  dbc.setDiagnosticRecord (bytes "SQLDriverConnect")
    (bytes "Connection init error:\n" ++ message ++ bytes "\n" ++ query) (bytes "42000") []

/-- `RunQueryWithStmt` after its query failed. -/
def postError (dbc stmt : OdbcDiagnostic) (query : List UInt8) : Option OdbcDiagnostic :=
  (errorMessage stmt).map fun message => withError dbc message query

/-! ## What the text is made of -/

/-- The bytes that a call wrote into the buffer of the message. -/
def bytesWritten (reply : RecReply UInt8) : List UInt8 :=
  (reply.text.map fun text => text ++ [0]).getD []

/-- A piece of text comes from the buffer that the call wrote, and begins the message of the
record. -/
structure Quotes (reply : RecReply UInt8) (r : Diag.DiagRecord) (piece : List UInt8) : Prop where
  inBuffer : piece.length ≤ msgBufSize
  written : piece <+: bytesWritten reply
  begins : piece <+: r.messageText

/-- A record is posted, and what it says of the statement was read from the statement. -/
def PostsQuote (dbc stmt : OdbcDiagnostic) (query : List UInt8) : Prop :=
  ∃ message, postError dbc stmt query = some (withError dbc message query) ∧
    ∀ r, stmt.diagRecords.head? = some r → ∃ reply stmt' sqlstate piece,
      getDiagRecInternal char .stmt stmt diagCall = some (reply, stmt') ∧
      message = sqlstate ++ bytes ": " ++ piece ∧ sqlstate.length = 5 ∧ Quotes reply r piece

/-- A message that is read within the buffer. The terminator may stand for a zero of the
message. -/
def InBuffer (msg : List UInt8) : Prop :=
  msg.length % 65536 < 1024 ∨ msg.length % 65536 = 1024 ∧ msg[1023]? = some 0

/-- The records of a statement whose query failed : they were posted, and not yet read. -/
def Failed (stmt : OdbcDiagnostic) : Prop :=
  ∃ ops : List Op, (∀ op ∈ ops, op.reads = false) ∧ Run.Reaches (Performs .stmt) .new ops stmt

/-! ## The first record -/

/-- The record number 1 stands for the first record, which is not read yet. -/
structure Fresh (d : OdbcDiagnostic) : Prop where
  records : ∀ r ∈ d.diagRecords, r.stackMsgOffset = [0]
  first : d.diagRecords ≠ [] → d.vecRecordIdx.head? = some 0
  none : d.diagRecords = [] → d.vecRecordIdx = []

/-- A new handle is fresh. -/
theorem fresh_new : Fresh .new := ⟨nofun, fun h => absurd rfl h, fun _ => rfl⟩

/-- A record that is posted keeps it so. -/
theorem Fresh.setDiagnosticRecord {d : OdbcDiagnostic} (h : Fresh d)
    (component msg sqlstate serverName : List UInt8) :
    Fresh (d.setDiagnosticRecord component msg sqlstate serverName) where
  records r hr := by
    rcases List.mem_append.1 hr with hr | hr
    · exact h.records r hr
    · rw [List.mem_singleton.1 hr]
      rfl
  first _ := by
    by_cases hnil : d.diagRecords = []
    · simp [OdbcDiagnostic.setDiagnosticRecord, OdbcDiagnostic.addDiagRecord, hnil, h.none hnil,
        smallInt]
    · simp [OdbcDiagnostic.setDiagnosticRecord, OdbcDiagnostic.addDiagRecord, h.first hnil]
  none hnil := by
    simp [OdbcDiagnostic.setDiagnosticRecord, OdbcDiagnostic.addDiagRecord] at hnil

/-- So is one whose query failed. -/
theorem Failed.fresh {stmt : OdbcDiagnostic} (h : Failed stmt) : Fresh stmt := by
  obtain ⟨ops, hops, hrun⟩ := h
  refine Run.Reaches.invariant (P := fun _ op => op.reads = false) Fresh ?_ fresh_new
    (Run.along_of_forall (fun _ => hops) _) hrun
  intro d op d' hd hop hstep
  cases op with
  | setDiagnosticRecord component msg sqlstate serverName =>
    obtain rfl := Option.some.inj hstep
    exact hd.setDiagnosticRecord component msg sqlstate serverName
  | clean =>
    obtain rfl := Option.some.inj hstep
    exact fresh_new
  | _ => cases hop

/-- What the call says of the first record. -/
def firstReply (r : Diag.DiagRecord) : RecReply UInt8 where
  ret := if splits char r.messageText msgBufSize then .successWithInfo else .success
  sqlState := some (r.sqlstate.take 5)
  nativeError := some r.native
  text := some (r.messageText.take 1023)
  textLength := some (smallInt r.messageText.length)

section First

variable {stmt : OdbcDiagnostic} {r : Diag.DiagRecord}

/-- The first record is read from its start. -/
theorem Fresh.getDiagRecInternal_eq (h : Fresh stmt) (hr : stmt.diagRecords.head? = some r) :
    ∃ stmt', getDiagRecInternal char .stmt stmt diagCall = some (firstReply r, stmt') := by
  obtain ⟨rs, hrecords⟩ : ∃ rs, stmt.diagRecords = r :: rs := List.head?_eq_some_iff.1 hr
  have hvec : stmt.vecRecordIdx[0]? = some 0 := by
    rw [← List.head?_eq_getElem?]
    exact h.first (by simp [hrecords])
  have hlen : ¬((1 : ℤ) > stmt.vecRecordIdx.length) := by
    have hlt := (List.getElem?_eq_some_iff.1 hvec).1
    omega
  have hstack : r.stackMsgOffset = [0] := h.records r (by simp [hrecords])
  have hget : stmt.getDiagRecord 0 = some (0, stmt.reset) := by
    simp [OdbcDiagnostic.getDiagRecord, hvec, hrecords]
  have hclear : stmt.reset.diagRecords[0]? = some r.clearStackMsgOffset := by
    simp [OdbcDiagnostic.reset, hrecords]
  have hmessage : ∃ r', r.clearStackMsgOffset.getMessage msgBufSize = some (r.messageText, r') := by
    simp [Diag.DiagRecord.clearStackMsgOffset, Diag.DiagRecord.getMessage, hstack]
  obtain ⟨r', hmessage⟩ := hmessage
  have hadd : ∀ records, ∃ stmt', OdbcDiagnostic.addNewRecIdx
      { stmt.reset with diagRecords := records } 0 = some stmt' := by
    intro records
    simp [OdbcDiagnostic.addNewRecIdx, OdbcDiagnostic.reset, hrecords, List.range_succ_eq_map]
  simp only [getDiagRecInternal, diagCall, ne_eq, not_true_eq_false, if_false, Int.reduceLE,
    Int.reduceSub, Int.reduceToNat, hlen, hget, hclear, hmessage, Option.bind_eq_bind,
    Option.bind_some, show ¬((msgBufSize : ℤ) < 0) by decide, Bool.not_true, Bool.true_and,
    Bool.false_eq_true]
  cases hs : splits char r.messageText msgBufSize with
  | false =>
    refine ⟨{ stmt.reset with diagRecords := stmt.reset.diagRecords.set 0 r' }, ?_⟩
    simp only [firstReply, hs, Bool.false_eq_true, if_false]
    simp only [char, writeStringUtf8, if_true]
    rfl
  | true =>
    obtain ⟨stmt', hadd⟩ := hadd (stmt.reset.diagRecords.set 0 r')
    refine ⟨stmt', ?_⟩
    simp only [firstReply, hs, hadd, if_true, Option.bind_some]
    simp only [char, writeStringUtf8, if_true]
    rfl

/-! ## The text that is read -/

theorem length_bufferWith {size : ℕ} {text : List UInt8} (h : text.length ≤ size) :
    (bufferWith size text).length = size := by
  rw [bufferWith, List.length_append, List.length_replicate]
  omega

/-- How long the call says that a message is. -/
def said (msg : List UInt8) : ℕ := Diag.sizeT (smallInt msg.length)

/-- The length fits the buffer just if it does so modulo 65536. -/
theorem said_le_iff (msg : List UInt8) : said msg ≤ msgBufSize ↔ msg.length % 65536 ≤ 1024 := by
  unfold said Diag.sizeT smallInt msgBufSize
  rw [Int.bmod_def]
  split_ifs <;> omega

theorem said_eq {msg : List UInt8} (h : msg.length % 65536 ≤ 1024) :
    said msg = msg.length % 65536 := by
  unfold said Diag.sizeT smallInt
  rw [Int.bmod_def]
  split_ifs <;> omega

/-- What the buffer has of a message. -/
def msgBuf (msg : List UInt8) : List UInt8 := bufferWith msgBufSize (msg.take 1023)

/-- A length beyond the buffer reads beyond it. -/
theorem stringOf_msgBuf (msg : List UInt8) (n : ℕ) :
    stringOf (msgBuf msg) n = if n ≤ msgBufSize then some ((msgBuf msg).take n) else none := by
  have hlen : (msg.take 1023).length ≤ msgBufSize := by
    rw [List.length_take, msgBufSize]
    omega
  rw [stringOf, msgBuf, length_bufferWith hlen]

/-- The buffer has the start of the message. -/
theorem take_msgBuf {msg : List UInt8} {n : ℕ} (hlt : n < 1024) (hle : n ≤ msg.length) :
    (msgBuf msg).take n = msg.take n := by
  rw [msgBuf, bufferWith, List.take_append_of_le_length (by rw [List.length_take]; omega),
    List.take_take, Nat.min_eq_left (by omega)]

/-- A full buffer ends in a NUL. -/
theorem take_msgBuf_all {msg : List UInt8} (hlt : 1023 < msg.length) :
    (msgBuf msg).take 1024 = msg.take 1023 ++ [0] := by
  have hlen : (msg.take 1023).length = 1023 := by
    rw [List.length_take]
    omega
  rw [msgBuf, bufferWith, hlen, msgBufSize]
  exact List.take_of_length_le (by simp [hlen])

/-- The piece that is read is one of the message just when it is read within the buffer. -/
theorem exists_quotes_iff :
    (∃ piece, stringOf (msgBuf r.messageText) (said r.messageText) = some piece ∧
      Quotes (firstReply r) r piece) ↔ InBuffer r.messageText := by
  have hwritten : bytesWritten (firstReply r) = r.messageText.take 1023 ++ [0] := rfl
  simp only [stringOf_msgBuf, said_le_iff]
  constructor
  · rintro ⟨piece, hpiece, hquotes⟩
    by_cases hle : r.messageText.length % 65536 ≤ 1024
    swap
    · rw [if_neg hle] at hpiece
      cases hpiece
    rw [if_pos hle, said_eq hle] at hpiece
    rcases Nat.lt_or_eq_of_le hle with hlt | heq
    · exact .inl hlt
    refine .inr ⟨heq, ?_⟩
    have hlong : 1023 < r.messageText.length := by omega
    obtain rfl := Option.some.inj hpiece
    have hbegins := hquotes.begins
    rw [heq, take_msgBuf_all hlong] at hbegins
    have hlen : (r.messageText.take 1023).length = 1023 := by
      rw [List.length_take]
      omega
    obtain ⟨rest, hrest⟩ := hbegins
    rw [← hrest, List.append_assoc, List.getElem?_append_right (by omega), hlen]
    rfl
  · intro h
    have hle : r.messageText.length % 65536 ≤ 1024 := by
      rcases h with h | ⟨h, -⟩ <;> omega
    refine ⟨_, by rw [if_pos hle, said_eq hle], ?_⟩
    rcases h with hlt | ⟨heq, hzero⟩
    · -- the bytes that were copied
      have hshort := Nat.mod_le r.messageText.length 65536
      rw [take_msgBuf hlt hshort]
      refine ⟨?_, ?_, List.take_prefix _ _⟩
      · rw [List.length_take, msgBufSize]
        omega
      · rw [hwritten]
        refine List.IsPrefix.trans ?_ (List.prefix_append _ _)
        exact List.take_prefix_take_left (by omega)
    · -- and the terminator
      have hlong : 1023 < r.messageText.length := by omega
      rw [heq, take_msgBuf_all hlong]
      refine ⟨?_, hwritten ▸ List.prefix_rfl, ?_⟩
      · rw [List.length_append, List.length_take, msgBufSize, List.length_singleton]
        omega
      · have hget : r.messageText[1023] = 0 := by
          rw [List.getElem?_eq_getElem hlong] at hzero
          exact Option.some.inj hzero
        rw [← hget, ← List.take_succ_eq_append_getElem hlong]
        exact List.take_prefix _ _

/-- What the buffer of the state has. -/
def stateText (r : Diag.DiagRecord) : List UInt8 := (bufferWith 6 (r.sqlstate.take 5)).take 5

theorem length_stateText (r : Diag.DiagRecord) : (stateText r).length = 5 := by
  have hlen : (r.sqlstate.take 5).length ≤ 6 := by
    rw [List.length_take]
    omega
  rw [stateText, List.length_take, length_bufferWith hlen]
  rfl

/-- The message has the state and the text of the first record. -/
theorem Fresh.errorMessage_eq (h : Fresh stmt) (hr : stmt.diagRecords.head? = some r) :
    errorMessage stmt = (stringOf (msgBuf r.messageText) (said r.messageText)).map fun piece =>
      stateText r ++ bytes ": " ++ piece := by
  obtain ⟨stmt', hcall⟩ := h.getDiagRecInternal_eq hr
  have hret : (firstReply r).ret.succeeded = true := by
    unfold firstReply
    split_ifs <;> rfl
  have hlen : (r.sqlstate.take 5).length ≤ 6 := by
    rw [List.length_take]
    omega
  have hstate : stringOf (bufferWith 6 (r.sqlstate.take 5)) 5 = some (stateText r) := by
    rw [stringOf, length_bufferWith hlen, if_pos (by decide), stateText]
  simp only [errorMessage, hcall, hret, Option.bind_eq_bind, Option.bind_some, if_true]
  rw [show (firstReply r).sqlState = some (r.sqlstate.take 5) from rfl,
    show (firstReply r).text = some (r.messageText.take 1023) from rfl,
    show (firstReply r).textLength = some (smallInt r.messageText.length) from rfl,
    Option.getD_some, Option.getD_some, Option.getD_some, hstate, Option.bind_some,
      ← msgBuf, ← said]
  cases stringOf (msgBuf r.messageText) (said r.messageText) <;> rfl

/-- A statement without records has nothing to quote. -/
theorem Fresh.errorMessage_nil (h : Fresh stmt) (hnil : stmt.diagRecords = []) :
    errorMessage stmt = some (bytes "N/A") := by
  simp [errorMessage, getDiagRecInternal, diagCall, h.none hnil, msgBufSize, SqlReturn.succeeded]

end First

/-! ## The record on the connection -/

/-- What is posted tells the message. -/
theorem withError_inj {dbc : OdbcDiagnostic} {message message' query : List UInt8}
    (h : withError dbc message query = withError dbc message' query) : message = message' := by
  have hlast := congrArg (fun d => (d.diagRecords.getLast?.map Diag.DiagRecord.messageText)) h
  simpa [withError, OdbcDiagnostic.setDiagnosticRecord, OdbcDiagnostic.addDiagRecord,
    OdbcDiagnostic.formatDiagnosticMessage, Diag.DiagRecord.setMessage,
    Diag.DiagRecord.clearStackMsgOffset, Diag.DiagRecord.new] using hlast

/-- What is posted for a failed query was read from the buffer just when the length of the
message is small, or is that of the buffer, as an `SQLSMALLINT`. -/
theorem postError_iff {stmt : OdbcDiagnostic} (hfailed : Failed stmt) (dbc : OdbcDiagnostic)
    (query : List UInt8) :
    PostsQuote dbc stmt query ↔
      ∀ r, stmt.diagRecords.head? = some r → InBuffer r.messageText := by
  have hfresh := hfailed.fresh
  constructor
  · rintro ⟨message, hpost, hquote⟩ r hr
    obtain ⟨reply, stmt', sqlstate, piece, hcall, rfl, hstate, hquotes⟩ := hquote r hr
    obtain ⟨stmt'', hcall'⟩ := hfresh.getDiagRecInternal_eq hr
    obtain ⟨rfl, -⟩ := Prod.mk.inj (Option.some.inj (hcall.symm.trans hcall'))
    obtain ⟨message, hmessage, heq⟩ := Option.map_eq_some_iff.1 hpost
    rw [withError_inj heq, hfresh.errorMessage_eq hr] at hmessage
    obtain ⟨piece', hpiece, happend⟩ := Option.map_eq_some_iff.1 hmessage
    have hlen : (stateText r ++ bytes ": ").length = (sqlstate ++ bytes ": ").length := by
      rw [List.length_append, List.length_append, length_stateText, hstate]
    obtain ⟨-, rfl⟩ := List.append_inj happend hlen
    exact exists_quotes_iff.1 ⟨_, hpiece, hquotes⟩
  · intro h
    cases hr : stmt.diagRecords.head? with
    | none =>
      refine ⟨bytes "N/A", ?_, fun r hr' => absurd (hr.symm.trans hr') nofun⟩
      rw [postError, hfresh.errorMessage_nil (List.head?_eq_none_iff.1 hr)]
      rfl
    | some r =>
      obtain ⟨piece, hpiece, hquotes⟩ := exists_quotes_iff.2 (h r hr)
      obtain ⟨stmt', hcall⟩ := hfresh.getDiagRecInternal_eq hr
      refine ⟨stateText r ++ bytes ": " ++ piece, ?_, fun r' hr' => ?_⟩
      · rw [postError, hfresh.errorMessage_eq hr, hpiece]
        rfl
      · obtain rfl := Option.some.inj (hr.symm.trans hr')
        exact ⟨_, stmt', _, piece, hcall, rfl, length_stateText r, hquotes⟩

/-- A statement whose one record has a message of `n` bytes after `ODBC_Haybarn`. -/
def failedWith (n : ℕ) : OdbcDiagnostic :=
  OdbcDiagnostic.new.setDiagnosticRecord [] (List.replicate n 97) (bytes "42000") []

theorem failed_failedWith (n : ℕ) : Failed (failedWith n) :=
  ⟨[.setDiagnosticRecord [] (List.replicate n 97) (bytes "42000") []],
    List.forall_mem_singleton.2 rfl, _, rfl, rfl⟩

theorem head_failedWith (n : ℕ) : ∃ r, (failedWith n).diagRecords.head? = some r ∧
    r.messageText = bytes "ODBC_Haybarn\n" ++ List.replicate n 97 := ⟨_, rfl, rfl⟩

/-- A short message is posted as it is. -/
theorem postError_iff_short : PostsQuote .new (failedWith 7) (bytes "SELEC 1") := by
  refine (postError_iff (failed_failedWith 7) .new _).2 fun r hr => ?_
  obtain ⟨r', hr', hmsg⟩ := head_failedWith 7
  obtain rfl := Option.some.inj (hr.symm.trans hr')
  rw [hmsg]
  exact .inl (by decide)

/-- A message of 1025 bytes makes a text of more bytes than the buffer has. -/
theorem long_error_overruns : ¬∀ (dbc stmt : OdbcDiagnostic) (query : List UInt8), Failed stmt →
    PostsQuote dbc stmt query := by
  intro h
  have hposts := h .new _ (bytes "SELEC 1") (failed_failedWith 1012)
  obtain ⟨message, hpost, -⟩ := hposts
  obtain ⟨r, hr, hmsg⟩ := head_failedWith 1012
  have hsaid : ¬said r.messageText ≤ msgBufSize := by
    rw [said_le_iff, hmsg, List.length_append, List.length_replicate]
    decide
  rw [postError, (failed_failedWith 1012).fresh.errorMessage_eq hr, stringOf_msgBuf,
    if_neg hsaid] at hpost
  cases hpost

end HaybarnOdbc.SessionInit
