import HaybarnOdbc.EngineError
import HaybarnOdbc.Connection

/-!
# Reading a result between other calls

The engine has one open result for a connection : a query of another statement closes the stream
that a statement is reading from. What is left of it is the chunk the cursor is on, and after it
an error.

Between the fetches of a statement, other statements may be allocated, run and freed, transactions
may end, and the engine may close its result any number of times. The fetches still deliver the
rows of the result in order, and the end of the data is reported only behind its last row : a
result that was closed ends in an error (`fetches_in_order`). A commit while the statement is the
last one of the connection is left out, it takes the chunks from the engine.
-/

namespace HaybarnOdbc

variable {ρ V : Type}

open Segments

namespace OdbcHandleStmt

variable {E : Engine ρ V} {h : OdbcHandleStmt ρ V} {rows : List ρ}

/-! ## The last chunk -/

/-- The cursor is on the chunk `c`, and the end of the result was seen behind it. -/
structure OnLast (h : OdbcHandleStmt ρ V) (c : DataChunk ρ) : Prop where
  opened : h.opened = true
  stored : h.odbcFetcher.chunks.getLast? = some c
  current : h.odbcFetcher.currentChunk = some c
  idx : h.odbcFetcher.currentChunkIdx + 1 = h.odbcFetcher.chunks.length
  low : -1 ≤ h.odbcFetcher.chunkRow
  seen : h.odbcFetcher.resultsetEnd = true

namespace OnLast

variable {c : DataChunk ρ} {h' : OdbcHandleStmt ρ V}

/-- Its last chunk can be read. -/
theorem deref (ho : OnLast h c) : h.odbcFetcher.deref = .ok c :=
  OdbcFetch.deref_eq_ok ho.current (List.mem_of_getLast? ho.stored)

/-- A chunk is needed just at the end of the last one. -/
theorem requireFetch_iff (ho : OnLast h c) :
    h.odbcFetcher.requireFetch = true ↔ (c.size : ℤ) ≤ h.odbcFetcher.chunkRow + 1 := by
  simp only [OdbcFetch.requireFetch, ho.stored, decide_eq_true_eq]
  omega

theorem noted (ho : OnLast h c) : OnLast h.noted c :=
  ⟨ho.opened, ho.stored, ho.current, ho.idx, ho.low, ho.seen⟩

/-- Rows that are delivered leave it on its last chunk. -/
theorem advanced {k : ℕ} (ho : OnLast h c) (hadv : Advanced h k h') : OnLast h' c := by
  have hrow := hadv.chunkRow
  have hlow := ho.low
  obtain ⟨count, last, diag, rfl⟩ := hadv
  exact ⟨ho.opened, ho.stored, ho.current, ho.idx, by rw [hrow]; omega, ho.seen⟩

/-- Behind the last row the engine is not asked. -/
theorem next_end (ho : OnLast h c) (hrow : (c.size : ℤ) ≤ h.odbcFetcher.chunkRow + 1) :
    h.fetchNextChunk .next 0 = .ok (.noData, h.noted) := by
  rw [fetchNextChunk_next, if_pos (ho.requireFetch_iff.2 hrow), if_pos ⟨ho.seen, ho.idx⟩]

/-- Within the chunk a fetch moves on. -/
theorem next_within (ho : OnLast h c) (hrow : h.odbcFetcher.chunkRow + 1 < c.size) :
    h.fetchNextChunk .next 0 = .ok (.success, h.noted) := by
  rw [fetchNextChunk_next, if_neg]
  rw [ho.requireFetch_iff]
  omega

end OnLast

/-! ## What is left to read -/

/-- Where the cursor of a statement is : some rows of its result are left, or an error was met.
The engine may have closed the result, with one of the messages `msgs`. -/
inductive Position (E : Engine ρ V) (msgs : String → Prop) (h : OdbcHandleStmt ρ V) :
    Option (List ρ) → Prop
  | scanning {rs : List (List ρ)} (hs : Scanning E h rs) : Position E msgs h (some rs.flatten)
  | onLast {c : DataChunk ρ} (ho : OnLast h c) (hhigh : h.odbcFetcher.chunkRow < c.size)
      (hread : h.ReadSoFar) (hr : Readable E h c.columnCount [c.block]) :
      Position E msgs h (some (c.rows.drop h.firstRow))
  | cut {msg : String} {rs : List (List ρ)} {rows : List ρ} (hs : ScanningTo E h msg rs)
      (hmsg : msgs msg) (hrows : rs.flatten <+: rows) : Position E msgs h (some rows)
  | broken (hb : Broken h) : Position E msgs h none

/-- What a fetch replies for a statement with some rows left, and what is left after it : some of
the rows, the end behind the last one, or an error, after which nothing comes. -/
inductive Answer (msgs : String → Prop) (r : Reply ρ V) : Option (List ρ) → Option (List ρ) → Prop
  | rows {left : List ρ} (hret : r.ret.succeeded) (hne : r.rows ≠ []) :
      Answer msgs r (some (r.rows ++ left)) (some left)
  | noData (hret : r.ret = .noData) (hr : r.rows = []) : Answer msgs r (some []) (some [])
  | error {left : List ρ} {msg : String} (hret : r.ret = .error) (hr : r.rows = [])
    (hmsg : msgs msg)
      (hposted : r.h.Posted msg) : Answer msgs r (some left) none
  | after (hret : r.ret = .noData) (hr : r.rows = []) : Answer msgs r none none

/-- The reply of a fetch that came to the result. -/
def fetchReply (d : Delivery ρ V) : Reply ρ V :=
  { ret := d.ret, h := d.h, rows := d.rows, writes := d.writes }

variable {msgs : String → Prop}

/-- The handles that a fetch goes through keep the statement. -/
theorem SameStatement.step {h₀ h' : OdbcHandleStmt ρ V} (hs : SameStatement h₀ h)
    (hstep : CursorStep h h') : SameStatement h₀ h' := by
  have hm : Moved h h' := CursorSteps.moved (.single hstep)
  exact ⟨hm.stmt.trans hs.stmt, hm.retrieveData.trans hs.retrieveData,
    hm.paramDesc.trans hs.paramDesc⟩

/-- A delivery leaves the statement as it is. -/
theorem SameStatement.deliver {h₀ : OdbcHandleStmt ρ V} {d : Delivery ρ V}
    (hs : SameStatement h₀ h) (hx : h.deliver E = .ok d) : SameStatement h₀ d.h := by
  obtain ⟨row, count, last, diag, heq⟩ := sameChunk_deliver hx
  rw [heq]
  exact ⟨hs.stmt, hs.retrieveData, hs.paramDesc⟩

/-- So does a fetch. -/
theorem sameStatement_fetchStmtResult {d : Delivery ρ V}
    (hx : h.fetchStmtResult E .next 0 = .ok d) : SameStatement h d.h :=
  fetchStmtResult_invariant SameStatement.step SameStatement.deliver ⟨rfl, rfl, rfl⟩ hx

/-- The rowsets of a scan are not empty. -/
theorem Scanning.ne_nil {rs : List (List ρ)} (hs : Scanning E h rs) : ∀ r ∈ rs, r ≠ [] := by
  cases hs with
  | empty => simp
  | onChunk _ _ _ _ hr =>
    intro r hmem
    rcases List.mem_append.1 hmem with hmem | hmem
    · exact List.length_pos_iff.1 (length_of_mem_segments hr.pos hmem).1
    · exact List.length_pos_iff.1 (length_of_mem_rowsets hr.pos hmem).1

theorem ScanningTo.ne_nil {msg : String} {rs : List (List ρ)} (hs : ScanningTo E h msg rs) :
    ∀ r ∈ rs, r ≠ [] := by
  obtain ⟨-, -, -, -, hr⟩ := hs
  intro r hmem
  rcases List.mem_append.1 hmem with hmem | hmem
  · exact List.length_pos_iff.1 (length_of_mem_segments hr.pos hmem).1
  · exact List.length_pos_iff.1 (length_of_mem_rowsets hr.pos hmem).1

/-- Before the end of a chunk a rowset has a row. -/
theorem rowset_ne_nil {c : DataChunk ρ} (hlow : -1 ≤ h.odbcFetcher.chunkRow)
    (hrow : h.odbcFetcher.chunkRow + 1 < c.size) (hpos : 1 ≤ h.rowsetSize) : h.rowset c ≠ [] := by
  intro hnil
  have hfirst := firstRow_of_low hlow
  have hlen := congrArg List.length hnil
  rw [rowset, List.length_take, List.length_drop, List.length_nil] at hlen
  change min h.rowsetSize (c.size - h.firstRow) = 0 at hlen
  omega

/-- A fetch on the last chunk : its next rowset, or the end. -/
theorem OnLast.fetch {c : DataChunk ρ} (ho : OnLast h c) (hhigh : h.odbcFetcher.chunkRow < c.size)
    (hread : h.ReadSoFar) (hr : Readable E h c.columnCount [c.block]) :
    ∃ d left, h.fetchStmtResult E .next 0 = .ok d ∧
      Answer msgs (fetchReply d) (some (c.rows.drop h.firstRow)) left ∧
      Position E msgs d.h left := by
  have hfirst := firstRow_of_low ho.low
  have hlen : c.rows.length = c.size := rfl
  by_cases hrow : h.odbcFetcher.chunkRow + 1 < c.size
  · have hr' : Readable E h.noted c.columnCount [c.block] :=
      hr.of_same ⟨rfl, rfl, rfl, rfl⟩ (List.Subset.refl _)
    have hnoted : h.noted.ReadSoFar := hread
    obtain ⟨d, hdeliver, hdel, hadv, hread'⟩ :=
      deliver_readable ho.noted.deref ho.noted.low hrow (.inr (hnoted.unread _)) rfl hr'
    have hcr := hadv.chunkRow
    have hleft : Position E msgs d.h (some (c.rows.drop d.h.firstRow)) :=
      .onLast (ho.noted.advanced hadv) (hadv.chunkRow_lt ho.noted.low hrow)
        (hnoted.of_readRows hread' (by omega))
        (hr'.of_same hadv.sameBindings (List.Subset.refl _))
    have hrows : c.rows.drop h.firstRow = d.rows ++ c.rows.drop d.h.firstRow := by
      have hflat := congrArg List.flatten (segments_rowset ho.noted.low hrow hr'.pos hcr)
      rw [List.flatten_cons, flatten_segments hr'.pos, flatten_segments hr'.pos] at hflat
      rw [hdel.2.1]
      exact hflat
    have hne : d.rows ≠ [] := by
      rw [hdel.2.1]
      exact rowset_ne_nil ho.noted.low hrow hr'.pos
    refine ⟨d, _, ?_, ?_, hleft⟩
    · rw [fetchStmtResult_of_open ho.opened (ho.next_within hrow)]
      exact hdeliver
    · rw [hrows]
      exact .rows (r := fetchReply d) hdel.1 hne
  · have hdone : c.rows.drop h.firstRow = [] := by
      rw [List.drop_eq_nil_iff]
      omega
    have hleft : Position E msgs h.noted (some (c.rows.drop h.firstRow)) :=
      .onLast ho.noted hhigh hread (hr.of_same ⟨rfl, rfl, rfl, rfl⟩ (List.Subset.refl _))
    rw [hdone] at hleft ⊢
    refine ⟨⟨.noData, h.noted, [], []⟩, _, ?_, .noData rfl rfl, hleft⟩
    rw [fetchStmtResult_of_open ho.opened (ho.next_end (by omega))]

/-- A fetch of what is left. -/
theorem Position.fetch {left : Option (List ρ)} (hp : Position E msgs h left) :
    ∃ d left', h.fetchStmtResult E .next 0 = .ok d ∧ Answer msgs (fetchReply d) left left' ∧
      Position E msgs d.h left' := by
  cases hp with
  | broken hb =>
    refine ⟨⟨.noData, h, [], []⟩, none, ?_, .after rfl rfl, .broken hb⟩
    exact if_pos (by simp [hb.closed])
  | onLast ho hhigh hread hr => exact ho.fetch hhigh hread hr
  | @scanning rs hs =>
    obtain ⟨d, hd, hdel, hscan⟩ := scanning_step hs
    cases rs with
    | nil => exact ⟨d, _, hd, .noData hdel.1 hdel.2.1, .scanning hscan⟩
    | cons r rs =>
      obtain ⟨hret, rfl, -⟩ : d.ret.succeeded = true ∧ d.rows = r ∧ StoresCount d r.length := hdel
      have hne := hs.ne_nil d.rows List.mem_cons_self
      exact ⟨d, _, hd, .rows (r := fetchReply d) hret hne, .scanning hscan⟩
  | @cut msg rs rows hs hmsg hrows =>
    obtain ⟨d, hd, -, hfinds⟩ := hs.step
    cases rs with
    | nil =>
      obtain ⟨hret, hdrows, hbroken, hposted⟩ := hfinds
      exact ⟨d, none, hd, .error hret hdrows hmsg hposted, .broken hbroken⟩
    | cons r rs =>
      obtain ⟨⟨hret, rfl, -⟩, hscan⟩ :
        (d.ret.succeeded = true ∧ d.rows = r ∧ StoresCount d r.length) ∧
          ScanningTo E d.h msg rs := hfinds
      obtain ⟨left, rfl⟩ := hrows
      have hne := hs.ne_nil d.rows List.mem_cons_self
      refine ⟨d, some (rs.flatten ++ left), hd, ?_,
        .cut hscan hmsg (List.prefix_append rs.flatten left)⟩
      rw [List.flatten_cons, List.append_assoc]
      exact .rows (r := fetchReply d) hret hne

/-! ## A result that is closed -/

open OdbcHandleDbc (closeResult)

theorem Readable.closeResult {cols : ℕ} {b : Block ρ} {bs : List (Block ρ)}
    (hr : Readable E h cols (b :: bs)) (msg : String) : Readable E (closeResult msg h) cols [b] :=
  hr.of_same ⟨rfl, rfl, rfl, rfl⟩ (by simp)

/-- What the engine closes ends in an error behind the current chunk, if its end was not seen. -/
theorem Position.closeResult {left : Option (List ρ)} (hp : Position E msgs h left) {msg : String}
    (hmsg : msgs msg) : Position E msgs (closeResult msg h) left := by
  cases hp with
  | broken hb =>
    obtain ⟨hclosed, res, hres, herror⟩ := hb
    refine .broken ⟨hclosed, { res with pending := [], failure := some msg }, ?_, herror⟩
    simp [OdbcHandleDbc.closeResult, hres]
  | onLast ho hhigh hread hr =>
    exact .onLast (h := OdbcHandleDbc.closeResult msg h)
      ⟨ho.opened, ho.stored, ho.current, ho.idx, ho.low, ho.seen⟩ hhigh hread
      (hr.closeResult msg)
  | scanning hs =>
    cases hs with
    | empty hopen hchunks hend hcurrent => exact .scanning (.empty hopen hchunks hend hcurrent)
    | @onChunk cols c bs ha hhigh hread hcols hr =>
      have hpos := hr.pos
      have hone := hr.closeResult msg
      rw [List.flatten_append, flatten_segments hpos, flatten_rowsets hpos]
      cases hend : h.odbcFetcher.resultsetEnd with
      | true =>
        obtain rfl := ha.seen hend
        rw [List.flatMap_nil, List.append_nil]
        exact .onLast (h := OdbcHandleDbc.closeResult msg h)
          ⟨ha.opened, ha.stored, ha.current, ha.idx, ha.low, hend⟩ hhigh hread (hcols ▸ hone)
      | false =>
        obtain ⟨res, hres, -, -, hcount⟩ := ha.res
        have hb : BeforeError (OdbcHandleDbc.closeResult msg h) cols c [] msg := by
          refine ⟨ha.opened, ⟨{ res with pending := [], failure := some msg }, ?_, rfl,
            rfl, hcount⟩,
            ha.stored, ha.current, ha.idx, ha.low, hend⟩
          simp [OdbcHandleDbc.closeResult, hres]
        refine .cut (.onChunk hb hhigh hread hcols hone) hmsg ?_
        rw [List.flatten_append, flatten_segments hone.pos, flatten_rowsets hone.pos,
          List.flatMap_nil, List.append_nil]
        exact List.prefix_append _ _
  | @cut old rs rows hs hold hrows =>
    obtain @⟨cols, c, bs, hb, hhigh, hread, hcols, hr⟩ := hs
    have hpos := hr.pos
    have hone := hr.closeResult msg
    obtain ⟨res, hres, -, -, hcount⟩ := hb.res
    have hb' : BeforeError (OdbcHandleDbc.closeResult msg h) cols c [] msg := by
      refine ⟨hb.opened, ⟨{ res with pending := [], failure := some msg }, ?_, rfl, rfl, hcount⟩,
        hb.stored, hb.current, hb.idx, hb.low, hb.unseen⟩
      simp [OdbcHandleDbc.closeResult, hres]
    refine .cut (.onChunk hb' hhigh hread hcols hone) hmsg (.trans ?_ hrows)
    rw [List.flatten_append, flatten_segments hone.pos, flatten_rowsets hone.pos, List.flatMap_nil,
      List.append_nil, List.flatten_append, flatten_segments hpos, flatten_rowsets hpos]
    exact List.prefix_append _ _

/-! ## The fetches of a statement -/

/-- A handle that is ready scans its result. -/
theorem ScanReady.scanning {result : QueryResult ρ} (hx : ScanReady E h result)
    (hreads : ReadsRows h) : Scanning E h (rowsets h.rowsetSize result.pending) := by
  refine hx.inFront.scanning ?_
  by_cases hb : h.boundCols = []
  · exact .inr ⟨hb, hreads.resolve_left (by simpa using hb)⟩
  · exact .inl ⟨hx.bindings hb, hx.converts⟩

/-- The replies of fetches, from a statement with some rows left. -/
def Answered (msgs : String → Prop) : Option (List ρ) → List (Reply ρ V) → Prop
  | _, [] => True
  | left, r :: replies => ∃ left', Answer msgs r left left' ∧ Answered msgs left' replies

/-- A statement that can be fetched from, with some rows left. -/
structure Reading (E : Engine ρ V) (msgs : String → Prop) (h : OdbcHandleStmt ρ V)
    (left : Option (List ρ)) : Prop where
  retrieves : Retrieves h
  position : Position E msgs h left

theorem Position.convertHSTMT {left : Option (List ρ)} (hp : Position E msgs h left) :
    Position E msgs h.convertHSTMT left := by
  cases hp with
  | broken hb => exact .broken ⟨hb.closed, hb.res⟩
  | onLast ho hhigh hread hr =>
    exact .onLast (h := h.convertHSTMT)
      ⟨ho.opened, ho.stored, ho.current, ho.idx, ho.low, ho.seen⟩ hhigh hread
      (hr.of_same ⟨rfl, rfl, rfl, rfl⟩ (List.Subset.refl _))
  | cut hs hmsg hrows => exact .cut hs.convertHSTMT hmsg hrows
  | scanning hs =>
    cases hs with
    | empty hopen hchunks hend hcurrent => exact .scanning (.empty hopen hchunks hend hcurrent)
    | onChunk ha hhigh hread hcols hr =>
      have ha' : AtLast h.convertHSTMT _ _ _ :=
        ⟨ha.opened, ha.res, ha.stored, ha.current, ha.idx, ha.low, ha.seen⟩
      exact .scanning (.onChunk ha' hhigh hread hcols
        (hr.of_same ⟨rfl, rfl, rfl, rfl⟩ (List.Subset.refl _)))

/-- One `SQLFetch`. -/
theorem Reading.fetch {left : Option (List ρ)} (hr : Reading E msgs h left)
    (source : ParamSource V) (result : QueryResult ρ) :
    ∃ r left', h.sqlFetch E source result = .ok r ∧ Answer msgs r left left' ∧
      Reading E msgs r.h left' := by
  obtain ⟨d, left', hd, hanswer, hleft⟩ := hr.position.convertHSTMT.fetch
  have hsame : Retrieves h.convertHSTMT := hr.retrieves.of_same ⟨rfl, rfl, rfl⟩
  refine ⟨fetchReply d, left', ?_, hanswer, hsame.of_same (sameStatement_fetchStmtResult hd), hleft⟩
  rw [sqlFetch_of_retrieves hr.retrieves, hd]
  rfl

/-- Closing the result leaves what is stored. -/
theorem Reading.closeResult {left : Option (List ρ)} (hr : Reading E msgs h left) {msg : String}
    (hmsg : msgs msg) : Reading E msgs (OdbcHandleDbc.closeResult msg h) left :=
  ⟨hr.retrieves.of_same ⟨rfl, rfl, rfl⟩, hr.position.closeResult hmsg⟩

end OdbcHandleStmt

namespace OdbcHandleDbc

open OdbcHandleStmt

variable {E : Engine ρ V} {msgs : String → Prop} {i : ℕ} {d d' : OdbcHandleDbc ρ V}
  {c : DbcCall ρ V} {left : Option (List ρ)}

/-! ## The calls on the connection -/

/-- The statement `i` after a call, at its place among the statements that are left. -/
def placeAfter (i : ℕ) : DbcCall ρ V → ℕ
  | .freeStmt j => if j < i then i - 1 else i
  | _ => i

/-- A call that is not on the statement `i`, and does not commit while it is the last one. -/
def Leaves (i : ℕ) (d : OdbcHandleDbc ρ V) : DbcCall ρ V → Prop
  | .freeStmt j | .onStmt j _ => j ≠ i
  | .endTran .commit => i + 1 < d.vecStmtRef.length
  | _ => True

/-- A run of calls on the connection, with the replies to the fetches of the statement `i`. -/
inductive Replies (E : Engine ρ V) :
    ℕ → OdbcHandleDbc ρ V → List (DbcCall ρ V) → List (Reply ρ V) → Prop
  | nil {i : ℕ} {d : OdbcHandleDbc ρ V} : Replies E i d [] []
  | fetch {i n : ℕ} {d : OdbcHandleDbc ρ V} {h : OdbcHandleStmt ρ V} {source : ParamSource V}
      {result : QueryResult ρ} {r : Reply ρ V} {calls : List (DbcCall ρ V)}
      {replies : List (Reply ρ V)} (hi : d.vecStmtRef[i]? = some h)
      (hfetch : h.perform E n (.fetch source result) = some (.ok r))
      (hrest : Replies E i { d with vecStmtRef := d.vecStmtRef.set i r.h } calls replies) :
      Replies E i d (.onStmt i (.fetch source result) :: calls) (r :: replies)
  | other {i : ℕ} {d d' : OdbcHandleDbc ρ V} {c : DbcCall ρ V} {calls : List (DbcCall ρ V)}
      {replies : List (Reply ρ V)} (hc : Leaves i d c) (hstep : Step E d c d')
      (hrest : Replies E (placeAfter i c) d' calls replies) : Replies E i d (c :: calls) replies

/-- A call that leaves the statement `i` leaves it as it is, or closes its result. -/
theorem getElem?_of_leaves {h : OdbcHandleStmt ρ V} (hi : d.vecStmtRef[i]? = some h)
    (hc : Leaves i d c) (hstep : Step E d c d') :
    d'.vecStmtRef[placeAfter i c]? = some h ∨
      ∃ msg, c = .closeResult i msg ∧ d'.vecStmtRef[i]? = some (closeResult msg h) := by
  obtain ⟨n, ret, hx⟩ := hstep
  have hlt := (List.getElem?_eq_some_iff.1 hi).1
  cases c with
  | allocStmt junk =>
    obtain rfl := (Prod.mk.inj (Except.ok.inj (Option.some.inj hx))).2
    left
    change (d.vecStmtRef ++ [OdbcHandleStmt.alloc junk])[i]? = some h
    rwa [List.getElem?_append_left hlt]
  | freeStmt j =>
    obtain rfl := (Prod.mk.inj (Except.ok.inj (Option.some.inj hx))).2
    left
    change (d.vecStmtRef.eraseIdx j)[if j < i then i - 1 else i]? = some h
    have hne : j ≠ i := hc
    by_cases hj : j < i
    · rw [if_pos hj, List.getElem?_eraseIdx_of_ge (by omega), Nat.sub_add_cancel (by omega)]
      exact hi
    · rw [if_neg hj, List.getElem?_eraseIdx_of_lt (by omega)]
      exact hi
  | onStmt j call =>
    left
    have hne : j ≠ i := hc
    cases hj : d.vecStmtRef[j]? with
    | none =>
      simp only [perform, hj, Option.some.injEq, Except.ok.injEq, Prod.mk.injEq] at hx
      obtain ⟨-, rfl⟩ := hx
      exact hi
    | some h' =>
      simp only [perform, hj, Option.map_eq_some_iff] at hx
      obtain ⟨x, -, hmap⟩ := hx
      cases x with
      | error e => cases hmap
      | ok r =>
        cases hmap
        change (d.vecStmtRef.set j r.h)[i]? = some h
        rwa [List.getElem?_set_ne hne]
  | closeResult j msg =>
    obtain rfl := (Prod.mk.inj (Except.ok.inj (Option.some.inj hx))).2
    by_cases hj : j = i
    · subst hj
      right
      refine ⟨msg, rfl, ?_⟩
      rw [List.getElem?_modify_eq, hi]
      rfl
    · left
      change (d.vecStmtRef.modify j (closeResult msg))[i]? = some h
      rw [List.getElem?_modify_ne _ _ hj, hi]
  | setAutoCommit on =>
    obtain rfl := (Prod.mk.inj (Except.ok.inj (Option.some.inj hx))).2
    exact .inl hi
  | endTran t =>
    left
    cases t with
    | rollback failed =>
      obtain rfl := (Prod.mk.inj (Except.ok.inj (Option.some.inj hx))).2
      exact hi
    | other =>
      obtain rfl := (Prod.mk.inj (Except.ok.inj (Option.some.inj hx))).2
      exact hi
    | commit =>
      have hlast : i + 1 < d.vecStmtRef.length := hc
      cases hl : d.vecStmtRef.getLast? with
      | none =>
        simp only [perform, sqlEndTran, materializeResult, hl, Option.map_some, Option.some.injEq,
          Except.map, Except.ok.injEq, Prod.mk.injEq] at hx
        obtain ⟨-, rfl⟩ := hx
        exact hi
      | some h' =>
        simp only [perform, sqlEndTran, materializeResult, hl, Option.map_eq_some_iff] at hx
        obtain ⟨x, ⟨y, -, hmap⟩, hmap'⟩ := hx
        cases y with
        | error e =>
          cases hmap
          cases hmap'
        | ok p =>
          cases hmap
          cases hmap'
          change (d.vecStmtRef.dropLast ++ [p.2])[i]? = some h
          rw [List.getElem?_append_left (by rw [List.length_dropLast]; omega),
            List.getElem?_dropLast, if_pos (by omega), hi]

/-- The statement `i` can be fetched from. -/
def ReadsAt (E : Engine ρ V) (msgs : String → Prop) (i : ℕ) (d : OdbcHandleDbc ρ V)
    (left : Option (List ρ)) : Prop :=
  ∃ h, d.vecStmtRef[i]? = some h ∧ Reading E msgs h left

/-- Calls on other handles leave this one reading. -/
theorem ReadsAt.other (hr : ReadsAt E msgs i d left) (hc : Leaves i d c) (hstep : Step E d c d')
    (hmsgs : ∀ j msg, c = .closeResult j msg → msgs msg) :
    ReadsAt E msgs (placeAfter i c) d' left := by
  obtain ⟨h, hi, hreading⟩ := hr
  rcases getElem?_of_leaves hi hc hstep with hsame | ⟨msg, rfl, hclosed⟩
  · exact ⟨h, hsame, hreading⟩
  · exact ⟨_, hclosed, hreading.closeResult (hmsgs i msg rfl)⟩

/-- A fetch answers with the next rows. -/
theorem ReadsAt.fetch (hr : ReadsAt E msgs i d left) (n : ℕ) (source : ParamSource V)
    (result : QueryResult ρ) :
    ∃ h r left', d.vecStmtRef[i]? = some h ∧ h.perform E n (.fetch source result) = some (.ok r) ∧
      Answer msgs r left left' ∧
      ReadsAt E msgs i { d with vecStmtRef := d.vecStmtRef.set i r.h } left' := by
  obtain ⟨h, hi, hreading⟩ := hr
  obtain ⟨r, left', hfetch, hanswer, hreading'⟩ := hreading.fetch source result
  have hlt := (List.getElem?_eq_some_iff.1 hi).1
  exact ⟨h, r, left', hi, congrArg some hfetch, hanswer, r.h, List.getElem?_set_self hlt, hreading'⟩

/-- The replies of a run, by induction on it, and the one to a fetch after it. -/
theorem ReadsAt.replies {calls : List (DbcCall ρ V)} {replies : List (Reply ρ V)}
    (hrun : Replies E i d calls replies) (hr : ReadsAt E msgs i d left)
    (hmsgs : ∀ j msg, DbcCall.closeResult j msg ∈ calls → msgs msg) :
    Answered msgs left replies ∧ ∀ source result, ∃ r,
      Replies E i d (calls ++ [.onStmt (calls.foldl placeAfter i) (.fetch source result)])
        (replies ++ [r]) := by
  induction hrun generalizing left with
  | nil =>
    refine ⟨trivial, fun source result => ?_⟩
    obtain ⟨h, r, -, hi, hfetch, -⟩ := hr.fetch 0 source result
    exact ⟨r, .fetch hi hfetch .nil⟩
  | @fetch i n d h source result r calls replies hi hfetch hrest ih =>
    obtain ⟨h', r', left', hi', hfetch', hanswer, hr'⟩ := hr.fetch n source result
    obtain rfl : h = h' := Option.some.inj (hi.symm.trans hi')
    obtain rfl : r = r' := Except.ok.inj (Option.some.inj (hfetch.symm.trans hfetch'))
    obtain ⟨horder, hnext⟩ := ih hr' fun j msg hmem => hmsgs j msg (List.mem_cons_of_mem _ hmem)
    refine ⟨⟨left', hanswer, horder⟩, fun source' result' => ?_⟩
    obtain ⟨r', hr'⟩ := hnext source' result'
    exact ⟨r', .fetch hi hfetch hr'⟩
  | @other i d d' c calls replies hc hstep hrest ih =>
    have hr' := hr.other hc hstep fun j msg heq => hmsgs j msg (heq ▸ List.mem_cons_self)
    obtain ⟨horder, hnext⟩ := ih hr' fun j msg hmem => hmsgs j msg (List.mem_cons_of_mem _ hmem)
    refine ⟨horder, fun source result => ?_⟩
    obtain ⟨r, hr⟩ := hnext source result
    exact ⟨r, .other hc hstep hr⟩

/-- A statement was executed and its columns are bound. Whatever calls are made between its
fetches, these deliver the rows of its result in order, each of them some rows, and no data is
found only behind the last row : a result that the engine closed before ends in an error with its
message. Every fetch is answered. -/
theorem fetches_in_order {h : OdbcHandleStmt ρ V} {result : QueryResult ρ}
    (hi : d.vecStmtRef[i]? = some h) (hready : ScanReady E h result) (hreads : ReadsRows h)
    (hretrieves : Retrieves h) {calls : List (DbcCall ρ V)} {replies : List (Reply ρ V)}
    (hrun : Replies E i d calls replies) :
    Answered (fun msg => ∃ j, DbcCall.closeResult j msg ∈ calls)
        (some (result.pending.flatMap Block.rows)) replies ∧
      ∀ source result, ∃ r,
        Replies E i d (calls ++ [.onStmt (calls.foldl placeAfter i) (.fetch source result)])
          (replies ++ [r]) := by
  have hscan := hready.scanning hreads
  have hposition : Position E (fun msg => ∃ j, DbcCall.closeResult j msg ∈ calls) h
      (some (rowsets h.rowsetSize result.pending).flatten) := .scanning hscan
  rw [flatten_rowsets hready.pos] at hposition
  exact ReadsAt.replies hrun ⟨h, hi, hretrieves, hposition⟩ fun j msg hmem => ⟨j, hmem⟩

/-- A statement is fetched from, its result is closed, and another statement is allocated. -/
def closedBetween : List (DbcCall ℕ ℕ) :=
  let next := Call.fetch (fun _ _ => .failed .error) (queryResult 1 [])
  [.onStmt 0 next, .closeResult 0 "closed", .allocStmt .blank, .onStmt 0 next, .onStmt 0 next,
    .onStmt 0 next]

/-- Three rows in a chunk and one in another, two rows a rowset : the row of the second chunk is
not delivered, which the error says. -/
theorem fetches_in_order_bytes :
    ∃ x replies, preparedQuery.batchExecuteStmt 1
        (select 1 [⟨[1, 2, 3], by simp⟩, ⟨[4], by simp⟩]).exec = some (.ok x) ∧
      Replies byteEngine 0 ⟨[x.h], true⟩ closedBetween replies ∧
      replies.map (fun r => (r.ret, r.rows)) =
        [(.success, [1, 2]), (.success, [3]), (.error, []), (.noData, [])] ∧
      Answered (fun msg => ∃ j, DbcCall.closeResult j msg ∈ closedBetween) (some [1, 2, 3, 4])
        replies := by
  obtain ⟨x, hrun, hret, hs, hretrieves, replies, hreplies, hmap⟩ : ∃ x,
      preparedQuery.batchExecuteStmt 1 (select 1 [⟨[1, 2, 3], by simp⟩, ⟨[4], by simp⟩]).exec =
        some (.ok x) ∧ x.ret.succeeded = true ∧ SameBindings preparedBytes x.h ∧ Retrieves x.h ∧
      ∃ replies, Replies byteEngine 0 ⟨[x.h], true⟩ closedBetween replies ∧
        replies.map (fun r => (r.ret, r.rows)) =
          [(.success, [1, 2]), (.success, [3]), (.error, []), (.noData, [])] := by
    refine ⟨_, rfl, rfl, ⟨rfl, rfl, rfl, rfl⟩, ⟨⟨_, rfl, rfl⟩, rfl, rfl⟩, _,
      .fetch (n := 0) rfl rfl (.other trivial ⟨0, _, rfl⟩ (.other trivial ⟨0, _, rfl⟩
        (.fetch (n := 0) rfl rfl (.fetch (n := 0) rfl rfl (.fetch (n := 0) rfl rfl .nil))))), ?_⟩
    rfl
  have hb : Bindings preparedBytes 1 :=
    ⟨rfl, List.cons_ne_nil _ _, by decide, by decide, by decide⟩
  have hready : ScanReady byteEngine x.h (queryResult 1 [⟨[1, 2, 3], by simp⟩, ⟨[4], by simp⟩]) :=
    ⟨⟨1, _, preparedQuery, x, hrun, hret, rfl, .refl _⟩, rfl, (hb.of_same hs).pos,
      fun _ => hb.of_same hs, fun b _ => (preparedBytes_converts b).of_same hs⟩
  have hreads : ReadsRows x.h := .inl (by rw [hs.2.1]; exact List.cons_ne_nil _ _)
  exact ⟨x, replies, hrun, hreplies, hmap,
    (fetches_in_order rfl hready hreads hretrieves hreplies).1⟩

end OdbcHandleDbc

end HaybarnOdbc
