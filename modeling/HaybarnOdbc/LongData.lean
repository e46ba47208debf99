import Mathlib.Data.List.TakeDrop
import HaybarnOdbc.Lib.Pieces
import HaybarnOdbc.Lib.Run
import HaybarnOdbc.Api

/-!
# Long data in pieces

`SQLGetData` returns a CHAR, WCHAR or BINARY value in pieces, one for each call on its
column. The fetcher keeps how many bytes the earlier calls returned; `Remains` ties that
number to the value at the current row, one call moves it by the bytes it returned
(`sqlGetData_piece`), and so a sequence of calls returns the value piece by piece
(`getData_pieces`), with a code and a length that tell how far it is.
-/

namespace HaybarnOdbc

variable {ρ V : Type}

/-- The pointers and the buffer length of a call of `SQLGetData`. -/
structure GetDataRequest where
  target : Addr
  bufferLength : ℤ
  strLenOrInd : Addr

/-- The C types whose values are returned in pieces. -/
inductive LongType
  | char
  | wchar
  | binary
  deriving DecidableEq, Repr

namespace LongType

/-- The C type that a value is read as. -/
def toCType : LongType → CType
  | char => .char
  | wchar => .wchar
  | binary => .binary

/-- The bytes of the terminator behind a piece. -/
def termSize : LongType → ℕ
  | char => 1
  | wchar => 2
  | binary => 0

/-- The bytes of the value that the calls return, if it has any : the conversion can throw. -/
def bytes (t : LongType) (E : Engine ρ V) (v : V) : Except String (List UInt8) :=
  match t with
  | char => E.charBytes (E.atUtcOffset v)
  | wchar => E.wcharBytes (E.atUtcOffset v)
  | binary => E.binaryBytes (E.atUtcOffset v)

/-- The store of the terminator, which BINARY has not. -/
def terminator (t : LongType) (addr : Addr) : List Write :=
  if t = binary then [] else [.data addr (List.replicate t.termSize 0)]

/-- The room a buffer has for a piece in front of its terminator. -/
def room (t : LongType) (q : GetDataRequest) : ℕ := (q.bufferLength - t.termSize).toNat

/-- The application's buffer is there and holds at least the terminator, and its length is
one of the type `SQLLEN`. -/
def Accepts (t : LongType) (q : GetDataRequest) : Prop :=
  q.target ≠ 0 ∧ t.termSize ≤ q.bufferLength ∧ q.bufferLength < 2 ^ 63

end LongType

namespace OdbcHandleStmt

/-- `getDataCalls` are consecutive calls of `SQLGetData` on one column. -/
def getDataCalls (E : Engine ρ V) (num : ℕ) (t : CType) (h : OdbcHandleStmt ρ V)
    (qs : List GetDataRequest) : Except Fault (List (Reply ρ V) × OdbcHandleStmt ρ V) :=
  Run.outputs (fun h q =>
    (sqlGetData E num t q.target q.bufferLength q.strLenOrInd h).map fun r => (r, r.h)) h qs

/-- The column has the value `v`, not null, in the current row of an open result. -/
structure HasValue (E : Engine ρ V) (h : OdbcHandleStmt ρ V) (col : ℕ) (v : V) : Prop where
  res : ∃ res, h.res = some res ∧ res.error = none
  value : h.getValue E col = .ok (some v)
  notNull : E.isNull v = false

/-- The value `v` of the column, of which `off` bytes were returned. -/
structure Remains (E : Engine ρ V) (col : ℕ) (v : V) (h : OdbcHandleStmt ρ V) (off : ℕ) :
    Prop extends HasValue E h col v where
  offset : (h.setLastFetchedVariableVal col).odbcFetcher.lastFetched.length = off

/-- What a call answers to the request `q` when `off` bytes of `val` were returned. -/
def Answers (t : LongType) (val : List UInt8) (off : ℕ) (q : GetDataRequest) (r : Reply ρ V) :
    Prop :=
  if val.length ≤ off then r.ret = .noData ∧ r.writes = []
  else
    let piece := (val.drop off).take (t.room q)
    r.ret = (if off + t.room q < val.length then .successWithInfo else .success) ∧
      r.writes = .data q.target piece :: (t.terminator (q.target + piece.length) ++
        if q.strLenOrInd ≠ 0 then [.ind q.strLenOrInd (val.length - off)] else [])

theorem getVariableValue_done {h : OdbcHandleStmt ρ V} {col : ℕ} {val : List UInt8}
    (hne : val ≠ [])
    (hoff : val.length ≤ (h.setLastFetchedVariableVal col).odbcFetcher.lastFetched.length)
    (q : GetDataRequest) (charSize : ℕ) (nullTerminate : Bool) :
    h.getVariableValue col q.target q.bufferLength q.strLenOrInd val charSize nullTerminate =
      .ok ⟨.noData, h.setLastFetchedVariableVal col, []⟩ := by
  simp only [getVariableValue]
  exact if_pos ⟨List.length_pos_iff.2 hne, hoff⟩

/-- The diagnostics of a call that leaves bytes for the next one. -/
def noteTruncated (h : OdbcHandleStmt ρ V) (truncated : Prop) [Decidable truncated] :
    OdbcHandleStmt ρ V :=
  if truncated then
    (h.setDiagnosticRecord .successWithInfo "SQLGetData"
      ("Not all the data for the specified column could be retrieved, the length of the " ++
        "data remaining in the specific column prior to the current call to SQLGetData is " ++
        "returned in *StrLen_or_IndPtr.") .st01004).2
  else h

theorem getVariableValue_piece {h : OdbcHandleStmt ρ V} {col : ℕ} {val : List UInt8} {off e : ℕ}
    (hoff : (h.setLastFetchedVariableVal col).odbcFetcher.lastFetched.length = off)
    (hlt : off < val.length) (hlen : val.length < 2 ^ 64) {q : GetDataRequest}
    (htarget : q.target ≠ 0) {charSize : ℕ} {nullTerminate : Bool}
    (hfit : nullTerminate = true → charSize ≤ q.bufferLength)
    (he : sizeT (if nullTerminate then q.bufferLength - charSize else q.bufferLength) = e) :
    h.getVariableValue col q.target q.bufferLength q.strLenOrInd val charSize nullTerminate =
      .ok ⟨if off + e < val.length then .successWithInfo else .success,
        ((h.setLastFetchedVariableVal col).noteTruncated
        (off + e < val.length)).setLastFetchedLength
          (min val.length (off + e)),
        .data q.target ((val.drop off).take e) ::
          ((if nullTerminate then
              [.data (q.target + ((val.drop off).take e).length) (List.replicate charSize 0)]
            else []) ++
            if q.strLenOrInd ≠ 0 then [.ind q.strLenOrInd (val.length - off)] else [])⟩ := by
  have hrem : sizeT (val.length - off) = val.length - off := by
    have := sizeT_of_nonneg (n := (val.length : ℤ) - off) (by omega) (by omega)
    omega
  have hout : off + min (val.length - off) e = min val.length (off + e) := by omega
  have hpiece : ((val.drop off).take e).length = min (val.length - off) e := by
    rw [List.length_take, List.length_drop, Nat.min_comm]
  have htake : (val.drop off).take (min (val.length - off) e) = (val.drop off).take e := by
    rw [← List.length_drop, Nat.min_comm, ← List.take_take, List.take_length]
  have hwrap : ¬(nullTerminate = true ∧ 0 ≤ q.bufferLength ∧ q.bufferLength < charSize) := by
    rintro ⟨hn, -, hb⟩
    have := hfit hn
    omega
  have hind : (sizeT (val.length - off) : ℤ) = val.length - off := by omega
  unfold getVariableValue
  simp only [hoff, he]
  rw [if_neg (by omega), if_neg hwrap, if_neg htarget, hind, hrem, htake]
  by_cases htr : off + e < val.length
  · simp only [show e < val.length - off by omega, htr, if_true, noteTruncated, hout, hpiece]
    rw [if_neg (by omega)]
    rfl
  · simp only [show ¬e < val.length - off by omega, htr, if_false, noteTruncated, hout, hpiece]
    rw [if_neg (by omega)]

/-- A call reaches `GetVariableValue` with the bytes of the value. -/
theorem sqlGetData_eq {E : Engine ρ V} {num : ℕ} {v : V} {h : OdbcHandleStmt ρ V}
    (hv : HasValue E h (num - 1) v) {t : LongType} {val : List UInt8}
    (hbytes : t.bytes E v = .ok val) {q : GetDataRequest} (htarget : q.target ≠ 0) :
    ∃ charSize, ((t ≠ .binary → charSize = t.termSize) ∧
      sqlGetData E num t.toCType q.target q.bufferLength q.strLenOrInd h =
        (h.convertHSTMT.getVariableValue (num - 1) q.target q.bufferLength q.strLenOrInd
          val charSize (t ≠ .binary)).map fun got =>
            { ret := got.ret, h := got.h, writes := got.writes }) := by
  obtain ⟨res, hres, herr⟩ := hv.res
  have hconv : h.convertHSTMTResult = .ok (.success, h.convertHSTMT) := by
    simp [convertHSTMTResult, convertHSTMT, hres, herr]
  have hval : h.convertHSTMT.getValue E (num - 1) = .ok (some v) := hv.value
  refine ⟨if t = .wchar then 2 else 1, by cases t <;> simp [LongType.termSize], ?_⟩
  unfold sqlGetData
  rw [hconv]
  cases t <;>
    (rw [LongType.bytes] at hbytes
     simp [getDataStmtResult, LongType.toCType, hbytes, htarget, hval, hv.notNull, bind,
      Except.bind, Except.map, pure, Except.pure, Option.filter])

/-- The value of a cell does not depend on how much of it was returned. -/
theorem HasValue.of_lastFetched {E : Engine ρ V} {h h' : OdbcHandleStmt ρ V} {col : ℕ} {v : V}
    (hv : HasValue E h col v) (hres : h'.res = h.res) {last : LastFetched}
    (hf : h'.odbcFetcher = { h.odbcFetcher with lastFetched := last }) : HasValue E h' col v where
  res := by rw [hres]; exact hv.res
  value := by
    rw [← hv.value]
    simp [getValue, OdbcFetch.deref, OdbcFetch.owns, hf]
  notNull := hv.notNull

theorem noteTruncated_res (h : OdbcHandleStmt ρ V) (p : Prop) [Decidable p] :
    (h.noteTruncated p).res = h.res := by
  unfold noteTruncated
  split <;> rfl

theorem noteTruncated_odbcFetcher (h : OdbcHandleStmt ρ V) (p : Prop) [Decidable p] :
    (h.noteTruncated p).odbcFetcher = h.odbcFetcher := by
  unfold noteTruncated
  split <;> rfl

/-- One call returns the next piece, and leaves the rest of the value. -/
theorem sqlGetData_piece {E : Engine ρ V} {num : ℕ} {v : V} {t : LongType} {val : List UInt8}
    (hval : t.bytes E v = .ok val) (hne : val ≠ []) (hlen : val.length < 2 ^ 64)
    {h : OdbcHandleStmt ρ V} {off : ℕ} (hrem : Remains E (num - 1) v h off) (hle : off ≤ val.length)
    {q : GetDataRequest} (hq : t.Accepts q) :
    ∃ r, sqlGetData E num t.toCType q.target q.bufferLength q.strLenOrInd h = .ok r ∧
      Answers t val off q r ∧ Remains E (num - 1) v r.h (min val.length (off + t.room q)) := by
  obtain ⟨htarget, hterm, hmax⟩ := hq
  obtain ⟨charSize, hchar, hcall⟩ := sqlGetData_eq hrem.toHasValue hval htarget
  have hoff : (h.convertHSTMT.setLastFetchedVariableVal
    (num - 1 : ℕ)).odbcFetcher.lastFetched.length
      = off := hrem.offset
  rcases Nat.lt_or_ge off val.length with hlt | hge
  · have hroom : sizeT (if (decide (t ≠ .binary)) = true then q.bufferLength - charSize
        else q.bufferLength) = t.room q := by
      have heq : (if (decide (t ≠ .binary)) = true then q.bufferLength - charSize
          else q.bufferLength) = q.bufferLength - t.termSize := by
        cases t <;> simp_all [LongType.termSize]
      have := sizeT_of_nonneg (n := q.bufferLength - t.termSize) (by omega) (by omega)
      rw [heq, LongType.room]
      omega
    have hfit : decide (t ≠ .binary) = true → (charSize : ℤ) ≤ q.bufferLength := by
      intro hb
      rw [hchar (by simpa using hb)]
      exact hterm
    rw [getVariableValue_piece hoff hlt hlen htarget hfit hroom] at hcall
    refine ⟨_, hcall, ?_, ?_, ?_⟩
    · unfold Answers
      rw [if_neg (by omega)]
      refine ⟨rfl, ?_⟩
      by_cases hb : t = .binary
      · simp [hb, LongType.terminator]
      · simp [hb, LongType.terminator, hchar hb]
    · exact hrem.toHasValue.of_lastFetched (noteTruncated_res _ _)
        (by simp only [setLastFetchedLength, noteTruncated_odbcFetcher]; rfl)
    · simp [setLastFetchedLength, noteTruncated_odbcFetcher, setLastFetchedVariableVal]
  · rw [getVariableValue_done hne (by omega)] at hcall
    refine ⟨_, hcall, ?_, ?_, ?_⟩
    · unfold Answers
      rw [if_pos hge]
      exact ⟨rfl, rfl⟩
    · exact hrem.toHasValue.of_lastFetched rfl rfl
    · have : min val.length (off + t.room q) = off := by omega
      rw [this, ← hoff]
      simp [setLastFetchedVariableVal, convertHSTMT]

/-- The bytes returned by a sequence of calls are as many as they had room for. -/
theorem foldl_offset (t : LongType) (len : ℕ) (qs : List GetDataRequest) {off : ℕ}
    (hoff : off ≤ len) :
    qs.foldl (fun off q => min len (off + t.room q)) off = min len (off + (qs.map t.room).sum) := by
  induction qs generalizing off with
  | nil => simp [hoff]
  | cons q qs ih =>
    rw [List.foldl_cons, ih (Nat.min_le_left _ _), List.map_cons, List.sum_cons]
    omega

/-- From a fresh offset, the calls return the value piece by piece. The pieces so far and
the piece of a call are a prefix of the value, and all of it once the buffers had room for
it. A call before the value is exhausted stores its piece with the terminator behind it,
within the buffer, and the number of bytes that remained; its code is success exactly if
it is the one that returns the last byte. Every call after that finds no data. -/
theorem getData_pieces (E : Engine ρ V) (num : ℕ) {v : V} {t : LongType} {val : List UInt8}
    (hval : t.bytes E v = .ok val) (hne : val ≠ []) (hlen : val.length < 2 ^ 64)
    {h : OdbcHandleStmt ρ V} (hv : HasValue E h (num - 1) v) (hfresh : h.FreshOffset (num - 1))
    {qs : List GetDataRequest} (hqs : ∀ q ∈ qs, t.Accepts q) :
    ∃ (pieces : List (List UInt8)) (replies : List (Reply ρ V)) (h' : OdbcHandleStmt ρ V),
      h.getDataCalls E num t.toCType qs = .ok (replies, h') ∧
      pieces.length = qs.length ∧ replies.length = qs.length ∧
      ∀ i q r piece, qs[i]? = some q → replies[i]? = some r → pieces[i]? = some piece →
        let before := (pieces.take i).flatten
        before ++ piece <+: val ∧
        (val.length ≤ ((qs.take (i + 1)).map t.room).sum → before ++ piece = val) ∧
        (before ≠ val →
          r.ret = (if before ++ piece = val then .success else .successWithInfo) ∧
          r.writes = .data q.target piece :: (t.terminator (q.target + piece.length) ++
            if q.strLenOrInd ≠ 0 then [.ind q.strLenOrInd (val.length - before.length)] else []) ∧
          (piece.length + t.termSize : ℤ) ≤ q.bufferLength) ∧
        (before = val → piece = [] ∧ r.ret = .noData ∧ r.writes = []) := by
  obtain ⟨replies, h', hrun, hcount, -, hanswers⟩ := Run.outputs_of_abstraction
    (fun h q =>
      (sqlGetData E num t.toCType q.target q.bufferLength q.strLenOrInd h).map fun r => (r, r.h))
    (fun h off => Remains E (num - 1) v h off ∧ off ≤ val.length)
    (fun off q => min val.length (off + t.room q)) (Answers t val) (fun _ => t.Accepts)
    (by
      rintro h off q ⟨hrem, hle⟩ hq
      obtain ⟨r, hr, hans, hrem'⟩ := sqlGetData_piece hval hne hlen hrem hle hq
      exact ⟨r, r.h, by simp [hr, Except.map], hans, hrem', Nat.min_le_left _ _⟩)
    (s := h) (a := 0) ⟨⟨hv, hfresh⟩, Nat.zero_le _⟩ (Run.along_of_forall (fun _ => hqs) h)
  refine ⟨Pieces.pieces val (qs.map t.room), replies, h', hrun, by simp, hcount, ?_⟩
  intro i q r piece hq hr hpiece before
  have hans := hanswers i q r hq hr
  rw [foldl_offset t val.length _ (Nat.zero_le _), Nat.zero_add, List.map_take] at hans
  have hroom : (qs.map t.room)[i]? = some (t.room q) := by simp [hq]
  -- `given` is the room of the calls before this one
  generalize hgiven : ((qs.map t.room).take i).sum = given at hans
  have hbefore : before = val.take given := by
    rw [← hgiven, ← Pieces.flatten_take_pieces]
  have hpiece_eq : piece = (val.drop given).take (t.room q) := by
    rw [Pieces.getElem?_pieces hroom, hgiven] at hpiece
    exact (Option.some.inj hpiece).symm
  have hnext : before ++ piece = val.take (given + t.room q) := by
    rw [hbefore, hpiece_eq, List.take_add]
  have hsum : ((qs.take (i + 1)).map t.room).sum = given + t.room q := by
    rw [List.map_take, List.take_add_one, hroom, List.sum_append, hgiven]
    simp
  refine ⟨hnext ▸ List.take_prefix _ _, fun hle => ?_, fun hne' => ?_, fun heq => ?_⟩
  · rw [hnext, List.take_of_length_le (by omega)]
  · have hlt : given < val.length := by
      by_contra hge
      exact hne' (hbefore.trans (List.take_of_length_le (by omega)))
    have hmin : min val.length given = given := by omega
    have hblen : before.length = given := by rw [hbefore, List.length_take]; omega
    have hall : before ++ piece = val ↔ ¬given + t.room q < val.length := by
      rw [hnext, List.take_eq_self_iff]
      omega
    rw [hmin] at hans
    unfold Answers at hans
    rw [if_neg (by omega), ← hpiece_eq] at hans
    refine ⟨?_, by rw [hblen]; exact hans.2, ?_⟩
    · rw [hans.1]
      by_cases htr : given + t.room q < val.length
      · rw [if_pos htr, if_neg (by rw [hall]; omega)]
      · rw [if_neg htr, if_pos (hall.2 htr)]
    · have hacc := (hqs q (List.mem_of_getElem? hq)).2.1
      have hplen : piece.length ≤ t.room q := by rw [hpiece_eq]; exact List.length_take_le _ _
      unfold LongType.room at hplen
      omega
  · have hge : val.length ≤ given := by
      rw [hbefore, List.take_eq_self_iff] at heq
      exact heq
    unfold Answers at hans
    rw [if_pos (by omega)] at hans
    refine ⟨?_, hans⟩
    rw [hpiece_eq, List.drop_eq_nil_of_le hge, List.take_nil]

/-- A handle on the only row of a result. -/
def onOnlyRow (row : ℕ) : OdbcHandleStmt ℕ ℕ :=
  let c : DataChunk ℕ := ⟨0, 1, ⟨[row], by simp⟩⟩
  { (blank : OdbcHandleStmt ℕ ℕ) with
    stmt := some ⟨none, 0, 1, true, false⟩
    res := some (queryResult 1 [])
    opened := true
    boundCols := [{}]
    odbcFetcher := ⟨.static, 1, ⟨-1, -1, 0⟩, [c], 0, some c, 0, -1, true⟩ }

/-- A WCHAR value of two bytes, for buffers with room for one byte, five and five : each of the
first two calls returns a byte, and the third one finds no data. -/
theorem getData_pieces_wchar :
    HasValue byteEngine (onOnlyRow 65) 0 65 ∧ (onOnlyRow 65).FreshOffset 0 ∧
      ∃ (pieces : List (List UInt8)) (replies : List (Reply ℕ ℕ)) (h' : OdbcHandleStmt ℕ ℕ),
        (onOnlyRow 65).getDataCalls byteEngine 1 .wchar [⟨100, 3, 8⟩, ⟨100, 7, 8⟩, ⟨100, 7, 8⟩] =
            .ok (replies, h') ∧
          pieces = [[65], [0], []] ∧
          replies.map (·.ret) = [.successWithInfo, .success, .noData] ∧
          replies.map (·.writes) = [[.data 100 [65], .data 101 [0, 0], .ind 8 2],
            [.data 100 [0], .data 101 [0, 0], .ind 8 1], []] := by
  have hv : HasValue byteEngine (onOnlyRow 65) 0 65 := ⟨⟨_, rfl, rfl⟩, rfl, rfl⟩
  have hqs : ∀ q ∈ [GetDataRequest.mk 100 3 8, ⟨100, 7, 8⟩, ⟨100, 7, 8⟩],
      LongType.wchar.Accepts q := by
    simp [LongType.Accepts, LongType.termSize]
  obtain ⟨pieces, replies, h', hrun, hp, -, hanswers⟩ :=
    getData_pieces byteEngine 1 (v := 65) (t := .wchar) rfl (by decide) (by decide) hv rfl hqs
  obtain ⟨p₀, p₁, p₂, rfl⟩ := List.length_eq_three.1 hp
  obtain ⟨r₀, r₁, r₂, hreplies, hrets, hwrites⟩ : ∃ r₀ r₁ r₂, replies = [r₀, r₁, r₂] ∧
      [r₀, r₁, r₂].map (·.ret) = [.successWithInfo, .success, .noData] ∧
      [r₀, r₁, r₂].map (·.writes) = [[.data 100 [65], .data 101 [0, 0], .ind 8 2],
        [.data 100 [0], .data 101 [0, 0], .ind 8 1], []] := by
    cases hrun
    exact ⟨_, _, _, rfl, rfl, rfl⟩
  subst hreplies
  obtain ⟨hw₀, hw⟩ := List.cons.inj hwrites
  obtain ⟨hw₁, -⟩ := List.cons.inj hw
  -- the pieces are what the replies store
  have hp₀ : p₀ = [65] := by
    have hpiece := (hanswers 0 _ _ _ rfl rfl rfl).2.2.1 (List.cons_ne_nil _ _).symm
    exact (Write.data.inj (List.cons.inj (hpiece.2.1.symm.trans hw₀)).1).2
  subst hp₀
  have hp₁ : p₁ = [0] := by
    have hpiece := (hanswers 1 _ _ _ rfl rfl rfl).2.2.1 (by simp)
    exact (Write.data.inj (List.cons.inj (hpiece.2.1.symm.trans hw₁)).1).2
  subst hp₁
  obtain ⟨rfl, -⟩ := (hanswers 2 _ _ _ rfl rfl rfl).2.2.2 rfl
  exact ⟨hv, rfl, _, _, h', hrun, rfl, hrets, hwrites⟩

end OdbcHandleStmt

end HaybarnOdbc
