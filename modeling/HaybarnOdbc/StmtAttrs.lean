import HaybarnOdbc.Current
import HaybarnOdbc.Lib.LastSet

/-!
# Attributes of statements

`SQLSetStmtAttr` and `SQLGetStmtAttr`. The value of an attribute is the word that the caller
passes as `value_ptr` : a number, or the address of a variable or of a descriptor. Most
attributes are fields of the headers of the descriptors that the statement owns, whatever
descriptors are current; the rest are fields of the statement and of its fetcher
(`StmtFields`).

Zero is passed as a null pointer, which some branches take for no value at all.
`SQL_ATTR_CURSOR_SCROLLABLE` sets the cursor type too, `SQL_ATTR_CURSOR_TYPE` sets nothing
else.
-/

namespace HaybarnOdbc.Desc

/-- `(SQLINTEGER)` of a word. -/
def sqlInteger (n : ℕ) : ℤ := (n : ℤ).bmod (2 ^ 32)

/-- `(SQLULEN)` of a number. -/
def sqlUlen (n : ℤ) : ℕ := (n % 2 ^ 64).toNat

/-- The attributes that the two functions have a branch for, and any other. -/
inductive StmtAttr
  | appParamDesc
  | impParamDesc
  | appRowDesc
  | impRowDesc
  | paramBindOffsetPtr
  | paramBindType
  | paramsProcessedPtr
  | paramStatusPtr
  | paramsetSize
  | rowArraySize
  | rowsFetchedPtr
  | rowBindType
  | rowStatusPtr
  | cursorType
  | cursorScrollable
  | concurrency
  | queryTimeout
  | retrieveData
  | maxLength
  | other (n : ℤ)
  deriving DecidableEq, Repr

/-- The constants of `sql.h` and `sqlext.h`. -/
def StmtAttr.number : StmtAttr → ℤ
  | appParamDesc => 10011
  | impParamDesc => 10013
  | appRowDesc => 10010
  | impRowDesc => 10012
  | paramBindOffsetPtr => 17
  | paramBindType => 18
  | paramsProcessedPtr => 21
  | paramStatusPtr => 20
  | paramsetSize => 22
  | rowArraySize => 27
  | rowsFetchedPtr => 26
  | rowBindType => 5
  | rowStatusPtr => 25
  | cursorType => 6
  | cursorScrollable => -1
  | concurrency => 7
  | queryTimeout => 0
  | retrieveData => 11
  | maxLength => 3
  | other n => n

/-- What a statement has for its attributes apart from its descriptors. -/
structure StmtFields where
  rowsFetchedPtr : Addr := 0
  -- `SQL_CURSOR_FORWARD_ONLY`
  cursorType : ℕ := 0
  -- `SQL_NONSCROLLABLE`
  cursorScrollable : ℕ := 0
  -- `SQL_RD_ON`
  retrieveData : ℕ := 1
  maxLen : ℕ := 0
  deriving DecidableEq, Repr

/-- The handles, the fields of the statements and the variables of the application that count
parameter sets. -/
structure AttrWorld where
  world : World
  fields : Handle → StmtFields
  counters : Addr → ℕ

/-- What `SQLSetStmtAttr` returns and leaves. -/
structure SetReply where
  ret : SqlReturn
  posted : List Posted := []
  after : AttrWorld

/-- What `SQLGetStmtAttr` writes to `value_ptr`. -/
inductive AttrValue
  | integer (n : ℤ)
  | ulen (n : ℕ)
  | pointer (p : Addr)
  | handle (d : Handle)
  deriving DecidableEq, Repr

/-- The value as a word. -/
def AttrValue.word : AttrValue → ℕ
  | integer n => sqlUlen n
  | ulen n => n
  | pointer p => p.toNat
  | handle d => d

/-- What `SQLGetStmtAttr` returns, and writes to its arguments. -/
structure GetReply where
  ret : SqlReturn
  posted : List Posted := []
  value : Option AttrValue := none
  stringLength : Option ℤ := none
  deriving DecidableEq, Repr

namespace AttrWorld

variable (x : AttrWorld) (a : Handle)

/-- `SQL_SUCCESS`. -/
def ok (w : World) : Option SetReply := some { ret := .success, after := { x with world := w } }

/-- `SQL_SUCCESS` with fields of the statement set. -/
def okFields (w : World) (f : StmtFields → StmtFields) : Option SetReply :=
  some
    { ret := .success
      after := { x with world := w, fields := Function.update x.fields a (f (x.fields a)) } }

/-- `SetDiagnosticRecord` on the statement. -/
def posts (ret : SqlReturn) (msg : String) (attr : StmtAttr) (sqlState : String) :
    Option SetReply :=
  some
    { ret := ret
      posted := [⟨"SQLSetStmtAttr", msg ++ toString attr.number, sqlState⟩]
      after := x }

/-- `SetParamProcessedPtr`. -/
def setParamProcessedPtr (s : OdbcHandleStmt) (ptr : Addr) : AttrWorld :=
  { x with
    world := x.world.modifyHeader s.ipd fun h => { h with rowsProcessedPtr := ptr }
    counters := if ptr ≠ 0 then Function.update x.counters ptr 0 else x.counters }

/-- `SetStmtAttrInternal`, once the handle is converted. `none` is a call that writes through a
null pointer, or through one to no descriptor. -/
def setStmtAttrInternal (s : OdbcHandleStmt) (v : ℕ) (attr : StmtAttr) : Option SetReply :=
  match attr with
  | .paramsetSize => x.ok (x.world.setParamsetSize s v)
  | .paramBindType =>
    if v ≠ 0 then
      x.ok (x.world.modifyHeader s.apd fun h => { h with bindType := sqlInteger v })
    else x.ok x.world
  | .paramsProcessedPtr => some { ret := .success, after := x.setParamProcessedPtr s v }
  | .paramStatusPtr => x.ok (x.world.modifyHeader s.ipd fun h => { h with arrayStatusPtr := v })
  | .rowArraySize => x.ok (x.world.setRowArraySize s v)
  | .rowsFetchedPtr =>
    x.okFields a (x.world.modifyHeader s.ird fun h => { h with rowsProcessedPtr := v })
      fun f => { f with rowsFetchedPtr := v }
  | .rowBindType =>
    if v = 0 then some { ret := .error, after := x }
    else x.ok (x.world.modifyHeader s.ard fun h => { h with bindType := sqlInteger v })
  | .rowStatusPtr => x.ok (x.world.modifyHeader s.ird fun h => { h with arrayStatusPtr := v })
  | .cursorType => x.okFields a x.world fun f => { f with cursorType := v }
  | .appRowDesc => if v = 0 then none else (x.world.setARD a s v).bind fun p => x.ok p.2
  | .appParamDesc => if v = 0 then none else (x.world.setAPD a s v).bind fun p => x.ok p.2
  | .impParamDesc | .impRowDesc => x.posts .error "Option value changed:" attr "HY017"
  | .paramBindOffsetPtr => x.ok (x.world.setBindOffsetPtr s v)
  | .concurrency =>
    -- `SQL_CONCUR_LOCK`
    if v ≠ 2 then x.posts .successWithInfo "Option value changed:" attr "01S02"
    else x.ok x.world
  | .queryTimeout => x.ok x.world
  | .retrieveData =>
    if v = 1 ∨ v = 0 then x.okFields a x.world fun f => { f with retrieveData := v }
    else x.posts .error "Invalid attribute value: " attr "HY024"
  | .cursorScrollable =>
    if v = 0 then
      x.okFields a x.world fun f => { f with cursorType := 0, cursorScrollable := v }
    else if v = 1 then
      -- `SQL_CURSOR_STATIC`
      x.okFields a x.world fun f => { f with cursorType := 3, cursorScrollable := v }
    else x.posts .error "Invalid attribute value:" attr "HY024"
  | .maxLength => x.okFields a x.world fun f => { f with maxLen := v }
  | .other _ => x.posts .successWithInfo "Option value changed:" attr "01S02"

/-- `SQLSetStmtAttr`. -/
def sqlSetStmtAttr (attr : StmtAttr) (v : ℕ) : Option SetReply := do
  let (ret, s) ← x.world.convertHSTMT a
  if ret = .success then x.setStmtAttrInternal a s v attr else some { ret := ret, after := x }

/-- `SQL_SUCCESS` with a value. -/
def gives (value : AttrValue) : Option GetReply := some { ret := .success, value := some value }

/-- `SQL_SUCCESS` with a value, for an attribute that refuses a null `value_ptr`. -/
def givesIf (valuePtr : Addr) (value : AttrValue) : Option GetReply :=
  if valuePtr = 0 then some { ret := .error } else gives value

/-- `SQL_SUCCESS` with a value that is written without a look at `value_ptr`. -/
def givesAt (valuePtr : Addr) (value : AttrValue) : Option GetReply :=
  if valuePtr = 0 then none else gives value

/-- A descriptor, with `SQL_IS_POINTER` as its length. -/
def givesDesc (valuePtr stringLengthPtr : Addr) (d : Handle) : Option GetReply :=
  (givesAt valuePtr (.handle d)).map fun r =>
    { r with stringLength := if stringLengthPtr ≠ 0 then some (-4) else none }

/-- `GetStmtAttrInternal`, once the handle is converted. `none` is a call that writes through a
null pointer. -/
def getStmtAttrInternal (s : OdbcHandleStmt) (valuePtr stringLengthPtr : Addr) (attr : StmtAttr) :
    Option GetReply :=
  match attr with
  | .appParamDesc => givesDesc valuePtr stringLengthPtr s.curApd
  | .impParamDesc => givesDesc valuePtr stringLengthPtr s.ipd
  | .appRowDesc => givesDesc valuePtr stringLengthPtr s.curArd
  | .impRowDesc => givesDesc valuePtr stringLengthPtr s.ird
  | .paramBindOffsetPtr => givesIf valuePtr (.pointer (x.world.getBindOffsetPtr s))
  | .paramBindType => givesIf valuePtr (.integer (x.world.header s.apd).bindType)
  | .paramsProcessedPtr => givesIf valuePtr (.pointer (x.world.header s.ipd).rowsProcessedPtr)
  | .paramsetSize => givesIf valuePtr (.ulen (x.world.getParamsetSize s))
  | .rowArraySize => givesIf valuePtr (.ulen (x.world.getRowArraySize s))
  | .rowsFetchedPtr => givesIf valuePtr (.pointer (x.fields a).rowsFetchedPtr)
  | .rowBindType =>
    -- the address of the value, and not the bind type, is compared with `SQL_BIND_BY_COLUMN`
    if valuePtr = 0 then some { ret := .error }
    else if valuePtr ≠ 0 then gives (.ulen (sqlUlen (x.world.getRowBindType s)))
    else gives (.ulen 0)
  | .rowStatusPtr => givesIf valuePtr (.pointer (x.world.header s.ird).arrayStatusPtr)
  | .cursorType => givesIf valuePtr (.ulen (x.fields a).cursorType)
  | .concurrency => givesAt valuePtr (.ulen 2)
  | .queryTimeout => givesAt valuePtr (.integer 0)
  | .retrieveData => givesAt valuePtr (.ulen (x.fields a).retrieveData)
  | .cursorScrollable => givesAt valuePtr (.ulen (x.fields a).cursorScrollable)
  | .maxLength => givesAt valuePtr (.ulen (x.fields a).maxLen)
  | .paramStatusPtr | .other _ =>
    some
      { ret := .error
        posted := [⟨"SQLGetStmtAttr", "Unsupported attribute type:" ++ toString attr.number,
          "HY092"⟩] }

/-- `SQLGetStmtAttr`. -/
def sqlGetStmtAttr (attr : StmtAttr) (valuePtr stringLengthPtr : Addr) : Option GetReply := do
  let (ret, s) ← x.world.convertHSTMT a
  if ret = .success then x.getStmtAttrInternal a s valuePtr stringLengthPtr attr
  else some { ret := ret }

end AttrWorld

/-! ## The attributes of one statement -/

/-- The attributes that both functions have and that are stored. -/
def StmtAttr.Stored : StmtAttr → Bool
  | impParamDesc | impRowDesc | paramStatusPtr | concurrency | queryTimeout | other _ => false
  | _ => true

/-- What a statement has for the attributes that are stored. -/
structure AttrView where
  appParamDesc : Handle
  appRowDesc : Handle
  paramBindOffsetPtr : Addr
  paramBindType : ℤ
  paramsProcessedPtr : Addr
  paramsetSize : ℕ
  rowArraySize : ℕ
  rowBindType : ℤ
  rowStatusPtr : Addr
  fields : StmtFields

/-- What a statement of a world has for its attributes. -/
def AttrWorld.view (x : AttrWorld) (a : Handle) (s : OdbcHandleStmt) : AttrView where
  appParamDesc := s.curApd
  appRowDesc := s.curArd
  paramBindOffsetPtr := (x.world.header s.apd).bindOffsetPtr
  paramBindType := (x.world.header s.apd).bindType
  paramsProcessedPtr := (x.world.header s.ipd).rowsProcessedPtr
  paramsetSize := (x.world.header s.apd).arraySize
  rowArraySize := (x.world.header s.ard).arraySize
  rowBindType := (x.world.header s.ard).bindType
  rowStatusPtr := (x.world.header s.ird).arrayStatusPtr
  fields := x.fields a

namespace AttrView

variable (p : AttrView)

/-- What `SQLGetStmtAttr` gives of an attribute that is stored. -/
def read : StmtAttr → Option AttrValue
  | .appParamDesc => some (.handle p.appParamDesc)
  | .appRowDesc => some (.handle p.appRowDesc)
  | .paramBindOffsetPtr => some (.pointer p.paramBindOffsetPtr)
  | .paramBindType => some (.integer p.paramBindType)
  | .paramsProcessedPtr => some (.pointer p.paramsProcessedPtr)
  | .paramsetSize => some (.ulen p.paramsetSize)
  | .rowArraySize => some (.ulen p.rowArraySize)
  | .rowsFetchedPtr => some (.pointer p.fields.rowsFetchedPtr)
  | .rowBindType => some (.ulen (sqlUlen p.rowBindType))
  | .rowStatusPtr => some (.pointer p.rowStatusPtr)
  | .cursorType => some (.ulen p.fields.cursorType)
  | .cursorScrollable => some (.ulen p.fields.cursorScrollable)
  | .retrieveData => some (.ulen p.fields.retrieveData)
  | .maxLength => some (.ulen p.fields.maxLen)
  | _ => none

/-- What `SQLSetStmtAttr` leaves when it succeeds. -/
def write (v : ℕ) : StmtAttr → AttrView
  | .appParamDesc => { p with appParamDesc := v }
  | .appRowDesc => { p with appRowDesc := v }
  | .paramBindOffsetPtr => { p with paramBindOffsetPtr := v }
  | .paramBindType => { p with paramBindType := if v ≠ 0 then sqlInteger v else p.paramBindType }
  | .paramsProcessedPtr => { p with paramsProcessedPtr := v }
  | .paramsetSize => { p with paramsetSize := v }
  | .rowArraySize => { p with rowArraySize := if v ≠ 0 then v else p.rowArraySize }
  | .rowsFetchedPtr => { p with fields.rowsFetchedPtr := v }
  | .rowBindType => { p with rowBindType := sqlInteger v }
  | .rowStatusPtr => { p with rowStatusPtr := v }
  | .cursorType => { p with fields.cursorType := v }
  | .cursorScrollable =>
    { p with fields.cursorScrollable := v, fields.cursorType := if v = 0 then 0 else 3 }
  | .retrieveData => { p with fields.retrieveData := v }
  | .maxLength => { p with fields.maxLen := v }
  | _ => p

/-- What was set last is read, and a cursor that is not forward-only is scrollable. -/
structure Kept (last : StmtAttr → Option ℕ) : Prop where
  reads : ∀ k u, k.Stored = true → last k = some u → (p.read k).map AttrValue.word = some u
  scrolls : p.fields.cursorScrollable = 1 ↔ p.fields.cursorType ≠ 0

/-- When a set that succeeds leaves an attribute with its value, and the others with theirs. -/
def Fits (last : StmtAttr → Option ℕ) (v : ℕ) : StmtAttr → Prop
  | .paramBindType => if v ≠ 0 then sqlUlen (sqlInteger v) = v else sqlUlen p.paramBindType = 0
  | .rowBindType => sqlUlen (sqlInteger v) = v
  | .rowArraySize => v = 0 → p.rowArraySize = 0
  | .cursorType => p.fields.cursorScrollable = 1 ↔ v ≠ 0
  | .cursorScrollable => ∀ t, last .cursorType = some t → t = if v = 0 then 0 else 3
  | _ => True

variable {p} {last : StmtAttr → Option ℕ} {v : ℕ} {attr : StmtAttr}

theorem fields_rowBindType (n : ℤ) : { p with rowBindType := n }.fields = p.fields := rfl

theorem read_rowBindType_of_ne {k : StmtAttr} (hk : k ≠ .rowBindType) (n : ℤ) :
    { p with rowBindType := n }.read k = p.read k := by
  cases k <;> first | exact absurd rfl hk | rfl

/-- A set leaves the other attributes, but that the scrollability sets the cursor type. -/
theorem read_write_of_ne {k : StmtAttr} (hk : k ≠ attr)
    (hcursor : attr = .cursorScrollable → k ≠ .cursorType) :
    (p.write v attr).read k = p.read k := by
  cases attr with
  | cursorScrollable =>
    cases k <;>
      first | exact absurd rfl hk | exact absurd rfl (hcursor rfl) | simp only [write, read]
  | rowBindType =>
    exact read_rowBindType_of_ne hk _
  | _ => cases k <;> first | exact absurd rfl hk | simp only [write, read]

/-- An attribute that is stored is read as it was set. -/
theorem read_write_iff (hstored : attr.Stored = true)
    (hcursor : attr ≠ .cursorType ∧ attr ≠ .cursorScrollable) :
    ((p.write v attr).read attr).map AttrValue.word = some v ↔ p.Fits last v attr := by
  cases attr with
  | paramBindType =>
    by_cases hv : v = 0
    · subst hv
      simp [write, read, Fits, AttrValue.word]
    · simp [write, read, Fits, AttrValue.word, hv]
  | rowArraySize =>
    by_cases hv : v = 0
    · subst hv
      simp [write, read, Fits, AttrValue.word]
    · simp [write, read, Fits, AttrValue.word, hv]
  | cursorType => exact absurd rfl hcursor.1
  | cursorScrollable => exact absurd rfl hcursor.2
  | _ =>
    first
    | exact absurd hstored Bool.false_ne_true
    | simp [write, read, Fits, AttrValue.word]

/-- An attribute other than the two of the cursor leaves both of these. -/
theorem cursor_write (hcursor : attr ≠ .cursorType ∧ attr ≠ .cursorScrollable) :
    (p.write v attr).fields.cursorType = p.fields.cursorType ∧
      (p.write v attr).fields.cursorScrollable = p.fields.cursorScrollable := by
  cases attr with
  | cursorType => exact absurd rfl hcursor.1
  | cursorScrollable => exact absurd rfl hcursor.2
  | rowBindType =>
    have hfields : (p.write v .rowBindType).fields = p.fields := fields_rowBindType _
    rw [hfields]
    exact ⟨rfl, rfl⟩
  | _ => simp only [write, and_self]

theorem kept_write_iff_of_ne (hk : p.Kept last) (hattr : attr ≠ .cursorScrollable) :
    (p.write v attr).Kept (Function.update last attr (some v)) ↔
      (attr.Stored = true → ((p.write v attr).read attr).map AttrValue.word = some v) ∧
        ((p.write v attr).fields.cursorScrollable = 1 ↔
        (p.write v attr).fields.cursorType ≠ 0) := by
  constructor
  · exact fun h => ⟨fun hs => h.reads attr v hs (Function.update_self ..), h.scrolls⟩
  · rintro ⟨hread, hscrolls⟩
    refine ⟨fun k u hs hlast => ?_, hscrolls⟩
    by_cases hne : k = attr
    · subst hne
      rw [Function.update_self] at hlast
      exact Option.some.inj hlast ▸ hread hs
    · rw [Function.update_of_ne hne] at hlast
      rw [read_write_of_ne hne fun h => absurd h hattr]
      exact hk.reads k u hs hlast

/-- The scrollability sets the cursor type that goes with it, which may not be the one set last. -/
theorem kept_write_scrollable_iff (hk : p.Kept last) (hv : v ≤ 1) :
    (p.write v .cursorScrollable).Kept (Function.update last .cursorScrollable (some v)) ↔
      ∀ t, last .cursorType = some t → t = if v = 0 then 0 else 3 := by
  constructor
  · intro h t ht
    have hread := h.reads .cursorType t rfl (by rwa [Function.update_of_ne (by decide)])
    exact (Option.some.inj hread).symm
  · intro h
    refine ⟨fun k u hs hlast => ?_, ?_⟩
    · by_cases hne : k = .cursorScrollable
      · subst hne
        rw [Function.update_self] at hlast
        exact hlast
      · rw [Function.update_of_ne hne] at hlast
        by_cases htype : k = .cursorType
        · subst htype
          exact congrArg some (h u hlast).symm
        · rw [read_write_of_ne hne fun _ => htype]
          exact hk.reads k u hs hlast
    · have hzero : v = 0 ∨ v = 1 := by omega
      rcases hzero with rfl | rfl <;> simp [write]

theorem fits_of_not_stored (hs : ¬attr.Stored = true) : p.Fits last v attr := by
  cases attr <;> first | exact absurd rfl hs | exact trivial

/-- A set that succeeds keeps what was set last just when it fits. -/
theorem kept_write_iff (hk : p.Kept last) (hv : attr = .cursorScrollable → v ≤ 1) :
    (p.write v attr).Kept (Function.update last attr (some v)) ↔ p.Fits last v attr := by
  by_cases hscroll : attr = .cursorScrollable
  · subst hscroll
    exact kept_write_scrollable_iff hk (hv rfl)
  rw [kept_write_iff_of_ne hk hscroll]
  by_cases htype : attr = .cursorType
  · subst htype
    exact and_iff_right fun _ => rfl
  · obtain ⟨htype', hscroll'⟩ := cursor_write (p := p) (v := v) ⟨htype, hscroll⟩
    rw [htype', hscroll', and_iff_left hk.scrolls]
    by_cases hs : attr.Stored = true
    · rw [← read_write_iff hs ⟨htype, hscroll⟩]
      exact ⟨fun h => h hs, fun h _ => h⟩
    · exact iff_of_true (fun h => absurd h hs) (fits_of_not_stored hs)

end AttrView

/-! ## A call in the world -/

/-- The statements own four live descriptors each, and share none. -/
structure Steady (w : World) : Prop where
  owned : ∀ a s, w.stmts a = some s → ∀ d ∈ s.owned, (w.descs d).isSome
  four : OwnsFour w
  apart : ∀ a b s t, w.stmts a = some s → w.stmts b = some t → a ≠ b → s.owned.Disjoint t.owned

theorem Registered.steady {w : World} (h : Registered w) (hfour : OwnsFour w) : Steady w :=
  ⟨h.owned, hfour, h.apart⟩

/-- The world after a call : as it was, with the header of a descriptor that the statement owns
changed, or with other current descriptors. -/
inductive Effect (w : World) (b : Handle) (t : OdbcHandleStmt) : World → Prop
  | none : Effect w b t w
  | header (d : Handle) (hd : d ∈ t.owned) (f : DescHeader → DescHeader) :
    Effect w b t (w.modifyHeader d f)
  | current (p r d : Handle) :
    Effect w b t ((w.setStmt b { t with curApd := p, curArd := r }).modifyHeader d fun h =>
      { h with allocType := .user })

/-- The header, whoever allocated it. -/
def DescHeader.anyAlloc (h : DescHeader) : DescHeader := { h with allocType := .auto }

section

variable {x : AttrWorld} {w w' : World} {a b d : Handle} {s t : OdbcHandleStmt} {v : ℕ}
  {attr : StmtAttr} {r : SetReply}

theorem World.header_modifyHeader_of_ne {e : Handle} (h : e ≠ d) (f : DescHeader → DescHeader) :
    (w.modifyHeader d f).header e = w.header e := by
  simp [header, modifyHeader, modifyDesc, h]

theorem World.anyAlloc_modifyHeader (w : World) (d e : Handle) :
    ((w.modifyHeader d fun h => { h with allocType := .user }).header e).anyAlloc
      = (w.header e).anyAlloc := by
  by_cases he : e = d
  · subst he
    have hdesc : (w.modifyHeader e fun h => { h with allocType := .user }).descs e
        = (w.descs e).map fun y => { y with header.allocType := .user } := Function.update_self ..
    rw [header, hdesc, header]
    cases w.descs e <;> rfl
  · rw [header_modifyHeader_of_ne he]

/-- What a branch may do to the world and the fields of the statements. -/
def Keeps (x : AttrWorld) (b : Handle) (t : OdbcHandleStmt) (y : AttrWorld) : Prop :=
  Effect x.world b t y.world ∧ ∀ c, c ≠ b → y.fields c = x.fields c

theorem Keeps.refl (x : AttrWorld) (b : Handle) (t : OdbcHandleStmt) : Keeps x b t x :=
  ⟨.none, fun _ _ => rfl⟩

theorem Keeps.ok (hw : Effect x.world b t w) (h : x.ok w = some r) : Keeps x b t r.after := by
  cases h
  exact ⟨hw, fun _ _ => rfl⟩

theorem Keeps.okFields {f : StmtFields → StmtFields} (hw : Effect x.world b t w)
    (h : x.okFields b w f = some r) : Keeps x b t r.after := by
  cases h
  exact ⟨hw, fun c hc => Function.update_of_ne hc ..⟩

theorem Keeps.posts {ret : SqlReturn} {msg sqlState : String}
    (h : x.posts ret msg attr sqlState = some r) : Keeps x b t r.after := by
  cases h
  exact .refl x b t

theorem mem_owned (t : OdbcHandleStmt) :
    t.apd ∈ t.owned ∧ t.ipd ∈ t.owned ∧ t.ard ∈ t.owned ∧ t.ird ∈ t.owned := by
  simp [OdbcHandleStmt.owned]

theorem keeps_setStmtAttrInternal (h : x.setStmtAttrInternal b t v attr = some r) :
    Keeps x b t r.after := by
  obtain ⟨hapd, hipd, hard, hird⟩ := mem_owned t
  unfold AttrWorld.setStmtAttrInternal at h
  cases attr with
  | paramsetSize => exact .ok (.header _ hapd _) h
  | paramBindType =>
    dsimp only at h
    split_ifs at h
    · exact .ok (.header _ hapd _) h
    · exact .ok .none h
  | paramsProcessedPtr =>
    cases h
    exact ⟨.header _ hipd fun h => { h with rowsProcessedPtr := v }, fun _ _ => rfl⟩
  | paramStatusPtr => exact .ok (.header _ hipd _) h
  | rowArraySize =>
    refine .ok ?_ h
    unfold World.setRowArraySize
    split_ifs
    · exact .none
    · exact .header _ hard _
  | rowsFetchedPtr => exact .okFields (.header _ hird _) h
  | rowBindType =>
    dsimp only at h
    split_ifs at h
    · cases h
      exact .refl x b t
    · exact .ok (.header _ hard _) h
  | rowStatusPtr => exact .ok (.header _ hird _) h
  | cursorType | maxLength => exact .okFields .none h
  | appRowDesc =>
    dsimp only at h
    split_ifs at h
    obtain ⟨q, hq, h⟩ := Option.bind_eq_some_iff.1 h
    obtain ⟨y, -, hq⟩ := Option.bind_eq_some_iff.1 hq
    cases hq
    exact .ok (.current t.curApd v v) h
  | appParamDesc =>
    dsimp only at h
    split_ifs at h
    obtain ⟨q, hq, h⟩ := Option.bind_eq_some_iff.1 h
    obtain ⟨y, -, hq⟩ := Option.bind_eq_some_iff.1 hq
    cases hq
    exact .ok (.current v t.curArd v) h
  | impParamDesc | impRowDesc | other n => exact .posts h
  | paramBindOffsetPtr => exact .ok (.header _ hapd _) h
  | concurrency =>
    dsimp only at h
    split_ifs at h
    · exact .posts h
    · exact .ok .none h
  | queryTimeout => exact .ok .none h
  | retrieveData =>
    dsimp only at h
    split_ifs at h
    · exact .okFields .none h
    · exact .posts h
  | cursorScrollable =>
    dsimp only at h
    split_ifs at h
    · exact .okFields .none h
    · exact .okFields .none h
    · exact .posts h

namespace Effect

theorem steady (h : Effect w b t w') (hw : Steady w) (ht : w.stmts b = some t) : Steady w' := by
  have hmodify : ∀ w d f, Steady w → Steady (World.modifyHeader w d f) := fun w d f hw =>
    { owned := fun a s hs e he => by
        rw [(SameHandles.modifyHeader w d f).isSome_descs]
        exact hw.owned a s hs e he
      four := hw.four
      apart := hw.apart }
  cases h with
  | none => exact hw
  | header d _ f => exact hmodify w d f hw
  | current p r d =>
    refine hmodify _ d _ ?_
    have howned : ∀ a s, (w.setStmt b { t with curApd := p, curArd := r }).stmts a = some s →
        ∃ s', w.stmts a = some s' ∧ s.owned = s'.owned := by
      intro a s hs
      simp only [World.setStmt, Function.update_apply] at hs
      split_ifs at hs with hab
      · cases hs
        exact ⟨t, hab ▸ ht, rfl⟩
      · exact ⟨s, hs, rfl⟩
    refine ⟨fun a s hs e he => ?_, fun a s hs => ?_, fun a c s u hs hu hne => ?_⟩
    · obtain ⟨s', hs', heq⟩ := howned a s hs
      exact hw.owned a s' hs' e (heq ▸ he)
    · obtain ⟨s', hs', heq⟩ := howned a s hs
      exact heq ▸ hw.four a s' hs'
    · obtain ⟨s', hs', heq⟩ := howned a s hs
      obtain ⟨u', hu', hequ⟩ := howned c u hu
      rw [heq, hequ]
      exact hw.apart a c s' u' hs' hu' hne

/-- Another statement is left, with the headers of its descriptors. -/
theorem of_ne (h : Effect w b t w') (hw : Steady w) (ht : w.stmts b = some t)
    (hs : w.Open a s) (hne : a ≠ b) :
    w'.Open a s ∧ ∀ e ∈ s.owned, (w'.header e).anyAlloc = (w.header e).anyAlloc := by
  cases h with
  | none => exact ⟨hs, fun _ _ => rfl⟩
  | header d hd f =>
    refine ⟨hs, fun e he => ?_⟩
    rw [World.header_modifyHeader_of_ne]
    rintro rfl
    exact hw.apart a b s t hs.1 ht hne he hd
  | current p r d =>
    refine ⟨⟨?_, hs.2⟩, fun e _ => ?_⟩
    · exact (Function.update_of_ne hne ..).trans hs.1
    · rw [World.anyAlloc_modifyHeader]
      rfl

end Effect

/-- The four descriptors of a statement are there, and apart. -/
theorem Steady.descs (hw : Steady w) (hs : w.stmts a = some s) :
    ((w.descs s.apd).isSome ∧ (w.descs s.ipd).isSome ∧ (w.descs s.ard).isSome ∧
      (w.descs s.ird).isSome) ∧
    (s.apd ≠ s.ipd ∧ s.apd ≠ s.ard ∧ s.apd ≠ s.ird) ∧ (s.ipd ≠ s.ard ∧ s.ipd ≠ s.ird) ∧
      s.ard ≠ s.ird := by
  obtain ⟨hapd, hipd, hard, hird⟩ := mem_owned s
  have hlive := hw.owned a s hs
  refine ⟨⟨hlive _ hapd, hlive _ hipd, hlive _ hard, hlive _ hird⟩, ?_⟩
  simpa [OdbcHandleStmt.owned] using hw.four a s hs

theorem World.Open.convertHSTMT (h : w.Open a s) : w.convertHSTMT a = some (.success, s) := by
  simp [World.convertHSTMT, h.1, h.2]

namespace AttrWorld

/-- The view is of the headers of the descriptors that the statement owns. -/
theorem view_eq {y : AttrWorld} {s' : OdbcHandleStmt} (howned : s'.owned = s.owned)
    (hh : ∀ e ∈ s.owned, (y.world.header e).anyAlloc = (x.world.header e).anyAlloc) :
    y.view a s' = { x.view a s with
      appParamDesc := s'.curApd, appRowDesc := s'.curArd, fields := y.fields a } := by
  obtain ⟨hapd, hipd, hard, hird⟩ := mem_owned s
  simp only [OdbcHandleStmt.owned, List.cons.injEq, and_true] at howned
  obtain ⟨h1, h2, h3, h4⟩ := howned
  have e1 := hh _ hapd
  have e2 := hh _ hipd
  have e3 := hh _ hard
  have e4 := hh _ hird
  simp only [DescHeader.anyAlloc, DescHeader.mk.injEq, true_and] at e1 e2 e3 e4
  simp only [view, h1, h2, h3, h4, e1, e2, e3, e4]

section

variable {y : AttrWorld} {p : AttrView} (hw : Steady x.world) (hs : x.world.stmts a = some s)
  (hp : x.view a s = p) (f : DescHeader → DescHeader)

include hw hs hp

theorem view_apd (hy : y.world = x.world.modifyHeader s.apd f) :
    y.view a s = { p with
      paramBindOffsetPtr := (f (x.world.header s.apd)).bindOffsetPtr
      paramBindType := (f (x.world.header s.apd)).bindType
      paramsetSize := (f (x.world.header s.apd)).arraySize
      fields := y.fields a } := by
  subst hp
  obtain ⟨⟨hlive, -⟩, ⟨h1, h2, h3⟩, -⟩ := hw.descs hs
  simp only [view, hy, World.header_modifyHeader hlive, World.header_modifyHeader_of_ne h1.symm,
    World.header_modifyHeader_of_ne h2.symm, World.header_modifyHeader_of_ne h3.symm]

theorem view_ipd (hy : y.world = x.world.modifyHeader s.ipd f) :
    y.view a s = { p with
      paramsProcessedPtr := (f (x.world.header s.ipd)).rowsProcessedPtr
      fields := y.fields a } := by
  subst hp
  obtain ⟨⟨-, hlive, -⟩, ⟨h1, -⟩, ⟨h2, h3⟩, -⟩ := hw.descs hs
  simp only [view, hy, World.header_modifyHeader hlive, World.header_modifyHeader_of_ne h1,
    World.header_modifyHeader_of_ne h2.symm, World.header_modifyHeader_of_ne h3.symm]

theorem view_ard (hy : y.world = x.world.modifyHeader s.ard f) :
    y.view a s = { p with
      rowArraySize := (f (x.world.header s.ard)).arraySize
      rowBindType := (f (x.world.header s.ard)).bindType
      fields := y.fields a } := by
  subst hp
  obtain ⟨⟨-, -, hlive, -⟩, ⟨-, h1, -⟩, ⟨h2, -⟩, h3⟩ := hw.descs hs
  simp only [view, hy, World.header_modifyHeader hlive, World.header_modifyHeader_of_ne h1,
    World.header_modifyHeader_of_ne h2, World.header_modifyHeader_of_ne h3.symm]

theorem view_rowBindType (n : ℤ)
    (hy : y.world = x.world.modifyHeader s.ard fun h => { h with bindType := n })
    (hfields : y.fields = x.fields) : y.view a s = { p with rowBindType := n } := by
  rw [view_ard hw hs hp _ hy, hfields, ← hp]
  rfl

theorem view_ird (hy : y.world = x.world.modifyHeader s.ird f) :
    y.view a s = { p with
      rowStatusPtr := (f (x.world.header s.ird)).arrayStatusPtr
      fields := y.fields a } := by
  subst hp
  obtain ⟨⟨-, -, -, hlive⟩, ⟨-, -, h1⟩, ⟨-, h2⟩, h3⟩ := hw.descs hs
  simp only [view, hy, World.header_modifyHeader hlive, World.header_modifyHeader_of_ne h1,
    World.header_modifyHeader_of_ne h2, World.header_modifyHeader_of_ne h3]

end

/-- A set that succeeds writes the attribute. -/
theorem view_set (hw : Steady x.world) (hs : x.world.Open a s)
    (h : x.setStmtAttrInternal a s v attr = some r) (hret : r.ret = .success) :
    ∃ s', r.after.world.Open a s' ∧ r.after.view a s' = (x.view a s).write v attr := by
  unfold setStmtAttrInternal at h
  cases attr with
  | paramsetSize =>
    cases h
    exact ⟨s, hs, view_apd hw hs.1 rfl (fun h => { h with arraySize := v }) rfl⟩
  | paramBindType =>
    dsimp only at h
    split_ifs at h with hv
    · cases h
      refine ⟨s, hs, (view_apd hw hs.1 rfl (fun h => { h with bindType := sqlInteger v }) rfl).trans
        ?_⟩
      simp only [AttrView.write, if_pos hv]
      rfl
    · cases h
      refine ⟨s, hs, ?_⟩
      simp only [AttrView.write, if_neg hv]
  | paramsProcessedPtr =>
    cases h
    exact ⟨s, hs, view_ipd hw hs.1 rfl (fun h => { h with rowsProcessedPtr := v }) rfl⟩
  | paramStatusPtr =>
    cases h
    exact ⟨s, hs, view_ipd hw hs.1 rfl (fun h => { h with arrayStatusPtr := v }) rfl⟩
  | rowArraySize =>
    cases h
    by_cases hv : v = 0
    · refine ⟨s, ?_, ?_⟩ <;> simp only [World.setRowArraySize, if_pos hv]
      · exact hs
      · simp only [AttrView.write, if_neg (not_not.2 hv)]
    · refine ⟨s, ?_, ?_⟩ <;> simp only [World.setRowArraySize, if_neg hv]
      · exact hs
      · refine (view_ard hw hs.1 rfl (fun h => { h with arraySize := v }) rfl).trans ?_
        simp only [AttrView.write, if_pos hv]
        rfl
  | rowsFetchedPtr =>
    cases h
    refine ⟨s, hs, (view_ird hw hs.1 rfl (fun h => { h with rowsProcessedPtr := v }) rfl).trans ?_⟩
    simp only [AttrView.write, Function.update_self]
    rfl
  | rowBindType =>
    dsimp only at h
    split_ifs at h
    · cases h
      cases hret
    · cases h
      exact ⟨s, hs, view_rowBindType hw hs.1 rfl _ rfl rfl⟩
  | rowStatusPtr =>
    cases h
    exact ⟨s, hs, view_ird hw hs.1 rfl (fun h => { h with arrayStatusPtr := v }) rfl⟩
  | cursorType | maxLength =>
    cases h
    refine ⟨s, hs, ?_⟩
    simp only [view, AttrView.write, Function.update_self]
  | appRowDesc =>
    dsimp only at h
    split_ifs at h
    obtain ⟨q, hq, h⟩ := Option.bind_eq_some_iff.1 h
    obtain ⟨y, -, hq⟩ := Option.bind_eq_some_iff.1 hq
    cases hq
    cases h
    refine ⟨{ s with curArd := v }, ⟨Function.update_self .., hs.2⟩, view_eq rfl fun e _ => ?_⟩
    exact World.anyAlloc_modifyHeader ..
  | appParamDesc =>
    dsimp only at h
    split_ifs at h
    obtain ⟨q, hq, h⟩ := Option.bind_eq_some_iff.1 h
    obtain ⟨y, -, hq⟩ := Option.bind_eq_some_iff.1 hq
    cases hq
    cases h
    refine ⟨{ s with curApd := v }, ⟨Function.update_self .., hs.2⟩, view_eq rfl fun e _ => ?_⟩
    exact World.anyAlloc_modifyHeader ..
  | impParamDesc | impRowDesc | other n =>
    cases h
    cases hret
  | paramBindOffsetPtr =>
    cases h
    exact ⟨s, hs, view_apd hw hs.1 rfl (fun h => { h with bindOffsetPtr := v }) rfl⟩
  | concurrency =>
    dsimp only at h
    split_ifs at h
    · cases h
      cases hret
    · cases h
      exact ⟨s, hs, rfl⟩
  | queryTimeout =>
    cases h
    exact ⟨s, hs, rfl⟩
  | retrieveData =>
    dsimp only at h
    split_ifs at h
    · cases h
      refine ⟨s, hs, ?_⟩
      simp only [view, AttrView.write, Function.update_self]
    · cases h
      cases hret
  | cursorScrollable =>
    dsimp only at h
    split_ifs at h with hzero hone
    · cases h
      refine ⟨s, hs, ?_⟩
      simp only [view, AttrView.write, Function.update_self, if_pos hzero]
    · cases h
      refine ⟨s, hs, ?_⟩
      simp only [view, AttrView.write, Function.update_self, if_neg hzero]
    · cases h
      cases hret

/-- The values that a set of a stored attribute succeeds with. -/
def Accepts (w : World) (v : ℕ) : StmtAttr → Prop
  | .rowBindType => v ≠ 0
  | .retrieveData | .cursorScrollable => v ≤ 1
  | .appParamDesc | .appRowDesc => v ≠ 0 ∧ (w.descs v).isSome
  | _ => True

theorem set_success_iff (hstored : attr.Stored = true) :
    (x.setStmtAttrInternal a s v attr).map SetReply.ret = some .success ↔
      Accepts x.world v attr := by
  cases attr with
  | rowBindType =>
    by_cases hv : v = 0 <;> simp [setStmtAttrInternal, Accepts, ok, hv]
  | paramBindType =>
    by_cases hv : v = 0 <;> simp [setStmtAttrInternal, Accepts, ok, hv]
  | retrieveData =>
    have hle : v = 1 ∨ v = 0 ↔ v ≤ 1 := by omega
    by_cases hv : v ≤ 1 <;> simp [setStmtAttrInternal, Accepts, okFields, posts, hle, hv]
  | cursorScrollable =>
    have hle : v ≤ 1 ↔ v = 0 ∨ v = 1 := by omega
    by_cases hzero : v = 0
    · simp [setStmtAttrInternal, Accepts, okFields, hzero]
    · by_cases hone : v = 1 <;>
        simp [setStmtAttrInternal, Accepts, okFields, posts, hle, hzero, hone]
  | appParamDesc | appRowDesc =>
    by_cases hv : v = 0
    · simp [setStmtAttrInternal, Accepts, hv]
    · cases hd : x.world.descs v <;>
        simp [setStmtAttrInternal, Accepts, ok, hv, hd, World.setAPD, World.setARD]
  | _ =>
    first
    | exact absurd hstored Bool.false_ne_true
    | simp [setStmtAttrInternal, Accepts, ok, okFields]

/-- A set that does not succeed sets nothing. -/
theorem after_of_ne_success (h : x.setStmtAttrInternal a s v attr = some r)
    (hret : r.ret ≠ .success) : r.after = x := by
  unfold setStmtAttrInternal at h
  cases attr with
  | rowBindType | concurrency | retrieveData | cursorScrollable | paramBindType =>
    dsimp only at h
    split_ifs at h <;> cases h <;> first | rfl | exact absurd rfl hret
  | appParamDesc | appRowDesc =>
    dsimp only at h
    split_ifs at h
    obtain ⟨q, -, h⟩ := Option.bind_eq_some_iff.1 h
    cases h
    exact absurd rfl hret
  | _ => cases h; first | rfl | exact absurd rfl hret

/-- A get returns the value. -/
def Reads (x : AttrWorld) (a : Handle) (attr : StmtAttr) (v : ℕ) : Prop :=
  ∀ valuePtr stringLengthPtr, valuePtr ≠ 0 →
    ∃ r, x.sqlGetStmtAttr a attr valuePtr stringLengthPtr = some r ∧ r.ret = .success ∧
      r.value.map AttrValue.word = some v

theorem sqlGetStmtAttr_eq (hs : x.world.Open a s) (hstored : attr.Stored = true) {p l : Addr}
    (hp : p ≠ 0) : ∃ n, x.sqlGetStmtAttr a attr p l
      = some { ret := .success, value := (x.view a s).read attr, stringLength := n } := by
  simp only [sqlGetStmtAttr, hs.convertHSTMT, Option.bind_eq_bind, Option.bind_some, if_true]
  cases attr <;> first
    | exact absurd hstored Bool.false_ne_true
    | exact ⟨_, by simp only [getStmtAttrInternal, givesDesc, givesAt, givesIf, gives, if_neg hp,
        if_pos hp, Option.map_some]; rfl⟩

theorem reads_iff (hs : x.world.Open a s) (hstored : attr.Stored = true) :
    x.Reads a attr v ↔ ((x.view a s).read attr).map AttrValue.word = some v := by
  constructor
  · intro h
    obtain ⟨r, hr, -, hv⟩ := h 1 0 one_ne_zero
    obtain ⟨n, hn⟩ := @sqlGetStmtAttr_eq x a s attr hs hstored 1 0 one_ne_zero
    rw [hn] at hr
    cases hr
    exact hv
  · intro h p l hp
    obtain ⟨n, hn⟩ := @sqlGetStmtAttr_eq x a s attr hs hstored p l hp
    exact ⟨_, hn, rfl, h⟩

end AttrWorld

end

/-! ## Sequences of calls -/

/-- The calls, on any statement. -/
inductive AttrCall
  | set (a : Handle) (attr : StmtAttr) (v : ℕ)
  | get (a : Handle) (attr : StmtAttr) (valuePtr stringLengthPtr : Addr)

/-- The values that an attribute may be set to. -/
def Legal (w : World) (v : ℕ) : StmtAttr → Prop
  | .paramsetSize | .rowArraySize => 1 ≤ v
  | .cursorType => v ≤ 3
  | .cursorScrollable | .retrieveData => v ≤ 1
  | .appParamDesc | .appRowDesc => v = 0 ∨ (w.descs v).isSome
  | _ => True

namespace AttrWorld

/-- A call. One that writes through a null pointer is not followed further. -/
def step (x : AttrWorld) : AttrCall → AttrWorld
  | .set a attr v => ((x.sqlSetStmtAttr a attr v).map SetReply.after).getD x
  | .get .. => x

/-- The value that a call sets an attribute of the statement to, if it succeeds. -/
def sets (x : AttrWorld) (a : Handle) (c : AttrCall) (k : StmtAttr) : Option ℕ :=
  match c with
  | .set b attr v =>
    if b = a ∧ k = attr ∧ (x.sqlSetStmtAttr a attr v).map SetReply.ret = some .success then some v
    else none
  | .get .. => none

/-- What the calls set on the statement. -/
def machine (a : Handle) : LastSet.Machine AttrWorld AttrCall StmtAttr ℕ :=
  ⟨step, fun x c k => x.sets a c k⟩

/-- A cursor is scrollable just when it is not forward-only. -/
def Scrolls (a : Handle) (x : AttrWorld) : Prop :=
  (x.fields a).cursorScrollable = 1 ↔ (x.fields a).cursorType ≠ 0

/-- A legal value is set. -/
def Granted (a : Handle) (x : AttrWorld) : AttrCall → Prop
  | .set b attr v => b = a → attr.Stored = true → Legal x.world v attr →
      (x.sqlSetStmtAttr a attr v).map SetReply.ret = some .success
  | .get .. => True

/-- The law of the attributes over a sequence of calls : in every state each attribute of the
statement that is stored is read as it was set last, the cursor is scrollable just when it is not
forward-only, and every legal value is set. -/
def Lawful (a : Handle) (x : AttrWorld) (cs : List AttrCall) : Prop :=
  (machine a).Lawful (fun x k v => k.Stored = true → x.Reads a k v) (Scrolls a) (Granted a) x cs

/-- The word is an `SQLINTEGER`, negative ones as the caller's `SQLLEN`. -/
def IsInteger (v : ℕ) : Prop := v < 2 ^ 31 ∨ 2 ^ 64 - 2 ^ 31 ≤ v ∧ v < 2 ^ 64

/-- The condition on a call. No zero is passed where another value is in force, nor a null
descriptor, bind types are of their type, and each of the cursor attributes agrees with the
other : a cursor type with the scrollability, and a scrollability with a type set before. -/
def Meets (a : Handle) (x : AttrWorld) (last : StmtAttr → Option ℕ) : AttrCall → Prop
  | .set b attr v => b = a →
    match attr with
    | .paramBindType => if v ≠ 0 then IsInteger v else x.Reads a .paramBindType 0
    | .rowBindType => v ≠ 0 ∧ IsInteger v
    | .rowArraySize => v = 0 → x.Reads a .rowArraySize 0
    | .cursorType => (x.fields a).cursorScrollable = 1 ↔ v ≠ 0
    | .cursorScrollable =>
      v ≤ 1 → ∀ t, last .cursorType = some t → t = if v = 0 then 0 else 3
    | .appParamDesc | .appRowDesc => v ≠ 0
    | _ => True
  | .get .. => True

end AttrWorld

theorem sqlUlen_sqlInteger_iff (v : ℕ) : sqlUlen (sqlInteger v) = v ↔ AttrWorld.IsInteger v := by
  unfold sqlUlen sqlInteger AttrWorld.IsInteger
  rw [Int.bmod_def]
  split_ifs <;> omega

namespace AttrWorld

variable {x : AttrWorld} {a b : Handle} {s t : OdbcHandleStmt} {v : ℕ} {attr : StmtAttr}
  {last : StmtAttr → Option ℕ}

theorem sqlSetStmtAttr_eq (hs : x.world.Open b t) :
    x.sqlSetStmtAttr b attr v = x.setStmtAttrInternal b t v attr := by
  simp only [sqlSetStmtAttr, hs.convertHSTMT, Option.bind_eq_bind, Option.bind_some, if_true]

/-- A call on a statement that is not open does nothing. -/
theorem step_set_of_not_open (h : ∀ t, ¬x.world.Open b t) : x.step (.set b attr v) = x := by
  have hset : ∀ r, x.sqlSetStmtAttr b attr v = some r → r.after = x := by
    intro r hr
    obtain ⟨⟨ret, t⟩, hconv, hr⟩ := Option.bind_eq_some_iff.1 hr
    obtain ⟨t', ht, heq⟩ := Option.bind_eq_some_iff.1 hconv
    obtain ⟨hret, rfl⟩ := Prod.mk.inj (Option.some.inj heq)
    have hconn : x.world.conn t'.dbc ≠ true := fun hc => h t' ⟨ht, hc⟩
    rw [if_neg hconn] at hret
    subst hret
    cases hr
    rfl
  rw [step]
  cases hr : x.sqlSetStmtAttr b attr v with
  | none => rfl
  | some r => exact hset r hr

/-- What a call leaves of the statements and of another one. -/
theorem step_set (hw : Steady x.world) (hs : x.world.Open a s) :
    Steady (x.step (.set b attr v)).world ∧ (a ≠ b →
      (x.step (.set b attr v)).world.Open a s ∧
        (x.step (.set b attr v)).view a s = x.view a s) := by
  by_cases hb : ∃ t, x.world.Open b t
  · obtain ⟨t, ht⟩ := hb
    rw [step, sqlSetStmtAttr_eq ht]
    cases hr : x.setStmtAttrInternal b t v attr with
    | none => exact ⟨hw, fun _ => ⟨hs, rfl⟩⟩
    | some r =>
      obtain ⟨heffect, hfields⟩ := keeps_setStmtAttrInternal hr
      refine ⟨heffect.steady hw ht.1, fun hne => ?_⟩
      obtain ⟨hopen, hheaders⟩ := heffect.of_ne hw ht.1 hs hne
      refine ⟨hopen, (view_eq rfl hheaders).trans ?_⟩
      rw [hfields a hne]
      rfl
  · rw [step_set_of_not_open fun t ht => hb ⟨t, ht⟩]
    exact ⟨hw, fun _ => ⟨hs, rfl⟩⟩

/-- The statement stays open. -/
theorem open_step (hw : Steady x.world) (hs : x.world.Open a s) (c : AttrCall) :
    Steady (x.step c).world ∧ ∃ s', (x.step c).world.Open a s' := by
  cases c with
  | get b k p l => exact ⟨hw, s, hs⟩
  | set b attr v =>
    obtain ⟨hsteady, hother⟩ := @step_set x a b s v attr hw hs
    refine ⟨hsteady, ?_⟩
    by_cases hab : a = b
    · subst hab
      rw [step, sqlSetStmtAttr_eq hs]
      cases hr : x.setStmtAttrInternal a s v attr with
      | none => exact ⟨s, hs⟩
      | some r =>
        by_cases hret : r.ret = .success
        · obtain ⟨s', hs', -⟩ := view_set hw hs hr hret
          exact ⟨s', hs'⟩
        · exact ⟨s, (after_of_ne_success hr hret).symm ▸ hs⟩
    · exact ⟨s, (hother hab).1⟩

/-- What is read and scrolls, by the view. -/
theorem kept_iff (hs : x.world.Open a s) :
    LastSet.Machine.Kept (fun x k v => k.Stored = true → Reads x a k v) (Scrolls a) x last ↔
      (x.view a s).Kept last := by
  constructor
  · exact fun h => ⟨fun k u hk hl => (reads_iff hs hk).1 (h.1 k u hl hk), h.2⟩
  · exact fun h => ⟨fun k u hl hk => (reads_iff hs hk).2 (h.reads k u hk hl), h.scrolls⟩

/-- A set of the statement that succeeds leaves the law as it was just when it fits. -/
theorem kept_set_iff (hw : Steady x.world) (hs : x.world.Open a s) (hk : (x.view a s).Kept last)
    {r : SetReply} (hr : x.setStmtAttrInternal a s v attr = some r) (hret : r.ret = .success) :
    LastSet.Machine.Kept (fun x k v => k.Stored = true → Reads x a k v) (Scrolls a) r.after
      (Function.update last attr (some v)) ↔ (x.view a s).Fits last v attr := by
  obtain ⟨s', hs', hview⟩ := view_set hw hs hr hret
  rw [kept_iff hs', hview]
  refine AttrView.kept_write_iff hk fun hscroll => ?_
  subst hscroll
  exact (set_success_iff rfl).1 (by rw [hr, Option.map_some, hret])

/-- A set that is to be granted is, just when no zero is passed for a row and no null descriptor. -/
theorem granted_iff (hs : x.world.Open a s) :
    Granted a x (.set a attr v) ↔ attr.Stored = true → Legal x.world v attr →
      Accepts x.world v attr := by
  rw [Granted, sqlSetStmtAttr_eq hs]
  exact ⟨fun h hst hl => (set_success_iff hst).1 (h rfl hst hl),
    fun h _ hst hl => (set_success_iff hst).2 (h hst hl)⟩

/-- The condition on a set : it fits if it is accepted, and is accepted if it is legal. -/
theorem meets_iff (hs : x.world.Open a s) :
    Meets a x last (.set a attr v) ↔
      ((attr.Stored = true → Accepts x.world v attr) → (x.view a s).Fits last v attr) ∧
        (attr.Stored = true → Legal x.world v attr → Accepts x.world v attr) := by
  cases attr with
  | paramBindType =>
    have hzero : x.Reads a .paramBindType 0 ↔ sqlUlen (x.view a s).paramBindType = 0 := by
      rw [reads_iff hs rfl]
      exact Option.some_inj
    simp [Meets, Accepts, AttrView.Fits, sqlUlen_sqlInteger_iff, hzero]
  | rowArraySize =>
    have hzero : x.Reads a .rowArraySize 0 ↔ (x.view a s).rowArraySize = 0 := by
      rw [reads_iff hs rfl]
      exact Option.some_inj
    simp [Meets, Accepts, AttrView.Fits, hzero]
  | rowBindType =>
    simp only [Meets, Accepts, AttrView.Fits, sqlUlen_sqlInteger_iff, Legal, StmtAttr.Stored,
      forall_const]
    exact ⟨fun h => ⟨fun _ => h.2, h.1⟩, fun h => ⟨h.2, h.1 h.2⟩⟩
  | cursorType => simp [Meets, Accepts, AttrView.Fits, view]
  | cursorScrollable => simp [Meets, Accepts, AttrView.Fits, Legal, StmtAttr.Stored]
  | appParamDesc | appRowDesc =>
    simp only [Meets, Accepts, AttrView.Fits, Legal, StmtAttr.Stored]
    tauto
  | _ => simp [Meets, Accepts, AttrView.Fits, Legal, StmtAttr.Stored]

/-- One call keeps the law, and what is to be granted is, just when it meets the condition. -/
theorem lawful_step_iff (hw : Steady x.world) (hs : x.world.Open a s)
    (hk : (x.view a s).Kept last) (c : AttrCall) :
    (LastSet.Machine.Kept (fun x k v => k.Stored = true → Reads x a k v) (Scrolls a) (x.step c)
        (fun k => (x.sets a c k).or (last k)) ∧ Granted a x c) ↔ Meets a x last c := by
  cases c with
  | get b k p l => exact iff_of_true ⟨(kept_iff hs).2 hk, trivial⟩ trivial
  | set b attr v =>
    by_cases hab : a = b
    · subst hab
      rw [granted_iff hs, meets_iff hs]
      by_cases hret : (x.sqlSetStmtAttr a attr v).map SetReply.ret = some .success
      · have hlast : (fun k => (x.sets a (.set a attr v) k).or (last k))
            = Function.update last attr (some v) := by
          funext k
          by_cases hkey : k = attr <;> simp [sets, hkey, hret]
        rw [sqlSetStmtAttr_eq hs] at hret
        obtain ⟨r, hr, hr'⟩ := Option.map_eq_some_iff.1 hret
        have hstep : x.step (.set a attr v) = r.after := by
          rw [step, sqlSetStmtAttr_eq hs, hr]
          rfl
        have haccepts : attr.Stored = true → Accepts x.world v attr :=
          fun hst => (set_success_iff hst).1 hret
        rw [hlast, hstep, kept_set_iff hw hs hk hr hr']
        exact ⟨fun h => ⟨fun _ => h.1, h.2⟩, fun h => ⟨h.1 haccepts, h.2⟩⟩
      · have hlast : (fun k => (x.sets a (.set a attr v) k).or (last k)) = last := by
          funext k
          simp [sets, hret]
        rw [sqlSetStmtAttr_eq hs] at hret
        have hstep : x.step (.set a attr v) = x := by
          rw [step, sqlSetStmtAttr_eq hs]
          cases hr : x.setStmtAttrInternal a s v attr with
          | none => rfl
          | some r => exact after_of_ne_success hr fun h => hret (by rw [hr, Option.map_some, h])
        rw [hlast, hstep, kept_iff hs]
        refine ⟨fun h => ⟨fun h' => ?_, h.2⟩, fun h => ⟨hk, h.2⟩⟩
        by_cases hst : attr.Stored = true
        · exact absurd ((set_success_iff hst).2 (h' hst)) hret
        · exact AttrView.fits_of_not_stored hst
    · obtain ⟨-, hother⟩ := @step_set x a b s v attr hw hs
      obtain ⟨hopen, hview⟩ := hother hab
      have hlast : (fun k => (x.sets a (.set b attr v) k).or (last k)) = last := by
        funext k
        simp [sets, Ne.symm hab]
      rw [hlast, kept_iff hopen, hview]
      exact iff_of_true ⟨hk, fun h => absurd h.symm hab⟩ fun h => absurd h.symm hab

end AttrWorld

/-- A sequence of calls keeps the law of the attributes of a statement just when every call on
the statement meets the condition, in the state that it is made in. -/
theorem attributes_lawful_iff {x : AttrWorld} {a : Handle} {s : OdbcHandleStmt}
    (hreg : Registered x.world) (hfour : OwnsFour x.world) (hs : x.world.Open a s)
    (hscrolls : x.Scrolls a) (cs : List AttrCall) :
    x.Lawful a cs ↔ ∀ pre c, pre ++ [c] <+: cs →
      ((AttrWorld.machine a).run x pre).Meets a ((AttrWorld.machine a).last x pre) c := by
  refine LastSet.Machine.lawful_iff (fun y => Steady y.world ∧ ∃ t, y.world.Open a t)
    (fun y last c => y.Meets a last c) ?_ ?_ ⟨hreg.steady hfour, s, hs⟩ hscrolls cs
  · rintro y c ⟨hw, t, ht⟩
    exact AttrWorld.open_step hw ht c
  · rintro y last c ⟨hw, t, ht⟩ hk
    exact AttrWorld.lawful_step_iff hw ht ((AttrWorld.kept_iff ht).1 hk) c

/-- A statement that was allocated at the address 10, with nothing set. -/
def newStmt : AttrWorld where
  world :=
    { (World.start fun _ => 0).allocStmt 1 10 11 12 13 14 with conn := fun _ => true }
  fields _ := {}
  counters _ := 0

theorem newStmt_registered : Registered newStmt.world := by
  have h : Registered ((World.start fun _ => 0).allocStmt 1 10 11 12 13 14) :=
    (Registered.start fun _ => 0).allocStmt rfl fun _ _ => rfl
  exact ⟨h.1, h.2, h.3, h.4, h.5, h.6, h.7, h.8⟩

theorem newStmt_ownsFour : OwnsFour newStmt.world := by
  intro a s hs
  simp only [newStmt, World.allocStmt, World.start, Function.update_apply] at hs
  split_ifs at hs
  cases hs
  decide

theorem attributes_lawful_iff_set : newStmt.Lawful 10
    [.set 10 .paramsetSize 5, .set 10 .rowBindType 24, .set 10 .cursorScrollable 1,
      .set 10 .cursorType 3] := by
  refine (attributes_lawful_iff newStmt_registered newStmt_ownsFour ⟨rfl, rfl⟩
    (show (0 : ℕ) = 1 ↔ (0 : ℕ) ≠ 0 by decide) _).2 ?_
  simp only [LastSet.forall_prefix_cons]
  refine ⟨fun _ => trivial, fun _ => ⟨by decide, .inl (by decide)⟩, ?_, ?_, fun pre d h => ?_⟩
  · intro _ _ t ht
    cases show none = some t from ht
  · exact fun _ => show (1 : ℕ) = 1 ↔ (3 : ℕ) ≠ 0 by decide
  · simp at h

/-- Neither bind type goes back to its default : the one is refused, the other is not set. A
cursor type leaves the scrollability. -/
theorem default_not_set_again :
    ¬newStmt.Lawful 10 [.set 10 .rowBindType 0] ∧
      ¬newStmt.Lawful 10 [.set 10 .paramBindType 24, .set 10 .paramBindType 0] ∧
      ¬newStmt.Lawful 10 [.set 10 .cursorType 3] := by
  refine ⟨fun h => ?_, fun h => ?_, fun h => ?_⟩
  · have hgranted := h.granted [] (.set 10 .rowBindType 0) (List.prefix_refl _) rfl rfl trivial
    exact absurd hgranted (by decide)
  · have hreads := (h.kept _ (List.prefix_refl _)).1 .paramBindType 0 rfl rfl 1 0 one_ne_zero
    obtain ⟨r, hr, -, hv⟩ := hreads
    cases hr
    exact absurd hv (by decide)
  · have hscrolls := (h.kept _ (List.prefix_refl _)).2
    exact absurd (hscrolls.2 (show (3 : ℕ) ≠ 0 by decide)) (show (0 : ℕ) ≠ 1 by decide)

end HaybarnOdbc.Desc
