import HaybarnOdbc.DiagReads
import HaybarnOdbc.Statements

/-!
# The counts of the descriptors

A descriptor has its records and, in its header, their number. The two are stored apart, and the
calls change them one by one. They agree as long as no call is one of those that change one only
(`Matching`) : filling the row descriptor sets its count to zero and leaves it there, closing a
statement sets the counts to zero and leaves the records, and a copy to another connection adds
records to those that there are.
-/

namespace HaybarnOdbc.Desc

open Diag (smallInt smallInt_natCast)

/-- The count of the header is the number of records. -/
def OdbcHandleDesc.Counted (d : OdbcHandleDesc) : Prop := d.header.count = d.records.length

/-- Every descriptor has the count of its records. -/
def Counted (w : World) : Prop := ∀ d x, w.descs d = some x → x.Counted

/-! ## Descriptors -/

namespace OdbcHandleDesc

variable {d : OdbcHandleDesc}

/-- A record that is called for is counted. -/
theorem Counted.getDescRecord (h : d.Counted) {idx : ℕ} (hidx : idx + 1 < 2 ^ 15) :
    (d.getDescRecord idx).Counted := by
  unfold OdbcHandleDesc.getDescRecord
  split_ifs
  · simp only [Counted, length_resize]
    exact smallInt_natCast (by omega)
  · exact h

theorem counted_addMoreRecords (n : ℕ) : (d.addMoreRecords n).Counted := by
  simp [Counted, addMoreRecords]

/-- So is one that is filled. -/
theorem Counted.fillRecord (h : d.Counted) {idx : ℕ} (hidx : idx + 1 < 2 ^ 15)
    (f : DescRecord → DescRecord) : (d.fillRecord idx f).Counted := by
  simpa [Counted, OdbcHandleDesc.fillRecord] using h.getDescRecord hidx

/-- Setting a field of a record changes no count and no number of records. -/
theorem setRecordField_eq (findDataType : ℤ → Option OdbcTypeInfo) (k : Kind) (idx : ℕ)
    (f : DescField) : (d.setRecordField findDataType k idx f).2.header = d.header ∧
      (d.setRecordField findDataType k idx f).2.records.length = d.records.length := by
  have hfield : ∀ readonly set, (d.setField idx readonly set).2.header = d.header ∧
      (d.setField idx readonly set).2.records.length = d.records.length := by
    intro readonly set
    cases readonly <;>
      simp [setField, returnInvalidFieldIdentifier, setDiagnosticRecord]
  have htype : ∀ readonly type,
    (d.setTypeField findDataType idx readonly type).2.header = d.header ∧
      (d.setTypeField findDataType idx readonly type).2.records.length = d.records.length := by
    intro readonly type
    cases readonly <;> cases hinfo : findDataType type <;>
      simp [setTypeField, hinfo, returnInvalidFieldIdentifier, setDiagnosticRecord]
  cases f <;> first | exact hfield _ _ | exact htype _ _ | exact ⟨rfl, rfl⟩

/-- Whether a field can be set without a disagreement : only the count itself can not. -/
def FieldMatches (d : OdbcHandleDesc) (k : Kind) : DescField → Prop
  | .count n => k.isIRD = true ∨ n = d.records.length
  | _ => True

/-- A field that is set keeps the count, if it is not the count. -/
theorem Counted.setDescField (h : d.Counted) {findDataType : ℤ → Option OdbcTypeInfo} {k : Kind}
    {recNumber : ℤ} {f : DescField} (hrec : recNumber < 2 ^ 15) (hf : d.FieldMatches k f) :
    (d.setDescField findDataType k recNumber f).2.Counted := by
  have hrecord : ((if recNumber ≤ 0 then
      d.setDiagnosticRecord .error "SQLSetDescField" "Invalid descriptor index." "07009"
    else (d.getDescRecord (recNumber - 1).toNat).setRecordField findDataType k
      (recNumber - 1).toNat f) : SqlReturn × OdbcHandleDesc).2.Counted := by
    split_ifs with hpos
    · exact h
    · obtain ⟨hheader, hlen⟩ := (d.getDescRecord (recNumber - 1).toNat).setRecordField_eq
        findDataType k (recNumber - 1).toNat f
      rw [Counted, hheader, hlen]
      exact h.getDescRecord (by omega)
  cases f <;> try exact hrecord
  case allocType => exact h
  case arraySize size => unfold OdbcHandleDesc.setDescField; dsimp only; split_ifs <;> exact h
  case arrayStatusPtr ptr => exact h
  case bindOffsetPtr ptr => unfold OdbcHandleDesc.setDescField; dsimp only; split_ifs <;> exact h
  case bindType type => unfold OdbcHandleDesc.setDescField; dsimp only; split_ifs <;> exact h
  case count n =>
    unfold OdbcHandleDesc.setDescField
    dsimp only
    split_ifs with hird
    · exact h
    · exact hf.resolve_left hird
  case rowsProcessedPtr ptr =>
    unfold OdbcHandleDesc.setDescField; dsimp only; split_ifs <;> exact h

theorem Counted.setDescFields {findDataType : ℤ → Option OdbcTypeInfo} {k : Kind} {recNumber : ℤ}
    (hrec : recNumber < 2 ^ 15) : ∀ {fs : List DescField} {p : SqlReturn × OdbcHandleDesc},
    (∀ f ∈ fs, ∀ n, f ≠ .count n) → p.2.Counted →
      (OdbcHandleDesc.setDescFields findDataType k recNumber fs p).2.Counted
  | [], _, _, hp => hp
  | f :: fs, p, hfs, hp => by
    rw [OdbcHandleDesc.setDescFields]
    split_ifs
    · have hmatch : p.2.FieldMatches k f := by
        cases f with
        | count n => exact absurd rfl (hfs _ (List.mem_cons_self ..) n)
        | _ => trivial
      exact Counted.setDescFields hrec (fun f hf => hfs f (List.mem_cons_of_mem _ hf))
        (hp.setDescField hrec hmatch)
    · exact hp

/-- So does a whole record that is set. -/
theorem Counted.sqlSetDescRec (h : d.Counted) {findDataType : ℤ → Option OdbcTypeInfo} {k : Kind}
    {recNumber type length precision scale : ℤ} {args : Addr × Addr × Addr}
    (hrec : recNumber < 2 ^ 15) :
    (d.sqlSetDescRec findDataType k recNumber type length precision scale args).2.Counted := by
  have hfields : ∀ {d : OdbcHandleDesc}, d.Counted →
      (OdbcHandleDesc.setDescFields findDataType k recNumber
        (setDescRecFields type length precision scale args) (.success, d)).2.Counted := by
    refine fun hd => Counted.setDescFields hrec (fun f hf n => ?_) hd
    simp only [setDescRecFields, List.mem_cons, List.mem_append, List.not_mem_nil, or_false] at hf
    rintro rfl
    split_ifs at hf <;> simp at hf
  unfold OdbcHandleDesc.sqlSetDescRec
  by_cases hird : k.isIRD = true
  · rw [if_pos hird]
    exact h
  rw [if_neg hird]
  by_cases hpos : recNumber ≤ 0
  · rw [if_pos hpos]
    exact h
  rw [if_neg hpos]
  refine hfields ?_
  split_ifs
  · exact counted_addMoreRecords _
  · exact h

end OdbcHandleDesc

/-! ## The condition on a call -/

/-- The statement is at the address and its connection is open. -/
def World.Open (w : World) (a : Handle) (s : OdbcHandleStmt) : Prop :=
  w.stmts a = some s ∧ w.conn s.dbc = true

/-- A call that leaves counts and records in agreement : it fills the row descriptor with no
column, binds a parameter whose number is a count, closes a statement whose parameter
descriptors have no records, sets a count to the number of records, or copies to a descriptor
without records. -/
def Matching (w : World) : Call → Prop
  | .prepare a p _ => ∀ s, w.Open a s → p.error = none → p.knownColumns = 0
  | .execute a e => ∀ s stmt, w.Open a s → s.stmt = some stmt → stmt.boundAllParameters = false →
      ∀ turn columns, e.results turn = some columns → columns = 0
  | .bindParameter a args => ∀ s, w.Open a s → args.inputOutputType = 1 →
      args.parameterNumber < 2 ^ 15
  | .close a => ∀ s, w.Open a s → w.records s.ipd = [] ∧ w.records s.curApd = []
  | .setDescField d _ f => ∀ x, w.descs d = some x → x.FieldMatches (w.kind d) f
  | .copyDesc source target => ∀ src tgt, w.descs source = some src → w.descs target = some tgt →
      src.dbc ≠ tgt.dbc → w.env src.dbc = w.env tgt.dbc →
      World.copyCheck source target ((w.vecStmtRef src.dbc).filterMap w.stmts) = none →
      tgt.records = []
  | _ => True

/-! ## Steps -/

namespace World

variable {w : World}

@[simp] theorem records_modifyHeader (d e : Handle) (f : DescHeader → DescHeader) :
    (w.modifyHeader d f).records e = w.records e := by
  simp only [records, modifyHeader, modifyDesc, Function.update_apply]
  split_ifs with h
  · rw [h]
    cases w.descs d <;> rfl
  · rfl

theorem records_eq {d : Handle} {x : OdbcHandleDesc} (h : w.descs d = some x) :
    w.records d = x.records := by
  simp [records, h]

/-- The statements that are reset keep the descriptors as they are. -/
theorem descs_resetStmtDescriptors {old : Handle} : ∀ {l : List Handle} {w w' : World},
    resetStmtDescriptors old l w = some w' → w'.descs = w.descs
  | [], _, _, h => by
    cases h
    rfl
  | a :: l, w, w', h => by
    rw [resetStmtDescriptors] at h
    obtain ⟨s, -, h⟩ := Option.bind_eq_some_iff.1 h
    exact (descs_resetStmtDescriptors h).trans rfl

end World

namespace Counted

variable {w w' : World}

/-- A new environment has nothing to count. -/
theorem start (env : Handle → Handle) : Counted (World.start env) := by
  simp [Counted, World.start]

/-- Descriptors that were there with the same header and records, and none else. -/
theorem of_descs (h : Counted w) (hd : w'.descs = w.descs) : Counted w' := by
  intro d x hx
  rw [hd] at hx
  exact h d x hx

theorem setStmt (h : Counted w) (a : Handle) (s : OdbcHandleStmt) : Counted (w.setStmt a s) :=
  h.of_descs rfl

/-- A change that keeps the count of its descriptor keeps all. -/
theorem modifyDesc (h : Counted w) {d : Handle} {f : OdbcHandleDesc → OdbcHandleDesc}
    (hf : ∀ x, w.descs d = some x → x.Counted → (f x).Counted) : Counted (w.modifyDesc d f) := by
  intro e y hy
  simp only [World.modifyDesc, Function.update_apply] at hy
  split_ifs at hy
  · obtain ⟨x, hx, rfl⟩ := Option.map_eq_some_iff.1 hy
    exact hf x hx (h d x hx)
  · exact h e y hy

/-- A change of the header that leaves the count. -/
theorem modifyHeader (h : Counted w) {d : Handle} {f : DescHeader → DescHeader}
    (hf : ∀ x, (f x).count = x.count) : Counted (w.modifyHeader d f) :=
  h.modifyDesc fun x _ hx => (hf x.header).trans hx

/-- The count is set to zero and there are no records. -/
theorem zeroHeader (h : Counted w) {d : Handle} (hd : w.records d = []) :
    Counted (w.modifyHeader d fun h => { h with count := 0 }) :=
  h.modifyDesc fun x hx _ => by
    rw [World.records_eq hx] at hd
    simp [OdbcHandleDesc.Counted, hd]

/-- Parameters that were bound to nothing may be reset. -/
theorem resetParamDesc (h : Counted w) {a : Handle} {s : OdbcHandleStmt}
    (hipd : w.records s.ipd = []) (hcur : w.records s.curApd = []) :
    Counted (w.resetParamDesc a s) := by
  have h' := (h.zeroHeader hipd).zeroHeader (d := s.curApd) (by simpa using hcur)
  exact h'.setStmt a _

/-- The records go and the counts are set to zero. -/
theorem clearParamDesc (h : Counted w) (a : Handle) (s : OdbcHandleStmt) :
    Counted (w.clearParamDesc a s) := by
  intro e y hy
  simp only [World.clearParamDesc, World.resetParamDesc, World.setStmt, World.modifyHeader,
    World.modifyDesc, Function.update_apply] at hy
  by_cases hcur : e = s.curApd <;> by_cases hipd : e = s.ipd <;> cases hx : w.descs e <;>
    simp_all [OdbcHandleDesc.reset] <;> subst hy <;> first | rfl | exact h e _ hx

theorem resetParams (h : Counted w) {s : OdbcHandleStmt} {count : ℤ}
    (hw : w.resetParams s count = .ok w') : Counted w' := by
  unfold World.resetParams at hw
  split_ifs at hw
  cases hw
  exact (h.modifyDesc fun _ _ _ => OdbcHandleDesc.counted_addMoreRecords _).modifyDesc
    fun _ _ _ => OdbcHandleDesc.counted_addMoreRecords _

theorem fillIRD (h : Counted w) (s : OdbcHandleStmt) (column : ℕ → DescRecord) :
    Counted (w.fillIRD s 0 column) :=
  h.modifyDesc fun _ _ _ => rfl

/-- A statement whose columns are not known keeps the counts. -/
theorem finalizeStmt (h : Counted w) {a : Handle} {s : OdbcHandleStmt} {p : PreparedStatement}
    {column : ℕ → DescRecord} {ret : SqlReturn} (hp : p.error = none → p.knownColumns = 0)
    (hw : w.finalizeStmt a s p column = .ok (ret, w')) : Counted w' := by
  unfold World.finalizeStmt at hw
  by_cases herr : p.error.isSome
  · rw [if_pos herr] at hw
    cases hw
    exact h.setStmt a _
  rw [if_neg herr] at hw
  have hzero := hp (by simpa using herr)
  unfold PreparedStatement.knownColumns at hzero
  cases hbound : p.boundAllParameters with
  | true =>
    rw [if_pos hbound] at hzero
    simp only [hbound, if_true] at hw
    obtain ⟨w₁, hreset, hw⟩ := Outcome.bind_eq_ok.1 hw
    cases hw
    rw [hzero]
    exact ((h.setStmt a _).resetParams hreset).fillIRD s column
  | false =>
    simp only [hbound, Bool.false_eq_true, if_false] at hw
    obtain ⟨w₁, hreset, hw⟩ := Outcome.bind_eq_ok.1 hw
    cases hw
    exact ((h.setStmt a _).resetParams hreset).fillIRD s column

/-- Binding a parameter keeps them. -/
theorem bindParameterStmt (h : Counted w) {s : OdbcHandleStmt} {args : BindParameterArgs}
    (hargs : args.inputOutputType = 1 → args.parameterNumber < 2 ^ 15) :
    Counted (w.bindParameterStmt s args).2 := by
  unfold World.bindParameterStmt
  by_cases htype : args.inputOutputType ≠ 1
  · rw [if_pos htype]
    exact h
  rw [if_neg htype]
  by_cases hnum : args.parameterNumber < 1
  · rw [if_pos hnum]
    exact h
  rw [if_neg hnum]
  have hlt := hargs (not_not.1 htype)
  have hidx : args.parameterNumber - 1 + 1 < 2 ^ 15 := by omega
  exact (h.modifyDesc fun _ _ hx => hx.fillRecord hidx _).modifyDesc
    fun _ _ hx => hx.fillRecord hidx _

/-- So does an execution that brings no columns. -/
theorem batchExecuteStmt (h : Counted w) {n : ℕ} {a : Handle} {s : OdbcHandleStmt}
    {e : ExecAnswers} {ret : SqlReturn}
    (he : ∀ stmt, s.stmt = some stmt → stmt.boundAllParameters = false →
      ∀ turn columns, e.results turn = some columns → columns = 0)
    (hw : w.batchExecuteStmt n a s e = some (.ok (ret, w'))) : Counted w' := by
  rcases World.batchExecuteStmt_cases hw with
    ⟨idx, rfl⟩ | ⟨idx, stmt, turn, columns, hstmt, hbound, hturn, rfl⟩
  · exact h.setStmt a _
  · rw [he stmt hstmt hbound turn columns hturn]
    exact (h.setStmt a _).fillIRD s e.column

/-- So does a copy to a descriptor without records. -/
theorem sqlCopyDesc (h : Counted w) {source target : Handle}
    (hcopy : ∀ src tgt, w.descs source = some src → w.descs target = some tgt →
      src.dbc ≠ tgt.dbc → w.env src.dbc = w.env tgt.dbc →
      World.copyCheck source target ((w.vecStmtRef src.dbc).filterMap w.stmts) = none →
      tgt.records = []) : Counted (w.sqlCopyDesc source target).2 := by
  unfold World.sqlCopyDesc
  cases hsrc : w.descs source with
  | none => exact h
  | some src =>
    cases htgt : w.descs target with
    | none => exact h
    | some tgt =>
      dsimp only
      cases hcheck : World.copyCheck source target ((w.vecStmtRef src.dbc).filterMap w.stmts) with
      | some p => exact h.modifyDesc fun _ _ hx => hx
      | none =>
        dsimp only
        split_ifs with henv
        · refine h.modifyDesc fun x hx _ => ?_
          obtain rfl : tgt = x := Option.some.inj (htgt.symm.trans hx)
          have hnil := hcopy src tgt hsrc htgt henv.1 henv.2 hcheck
          simpa [OdbcHandleDesc.Counted, OdbcHandleDesc.copyOnlyOdbcFields, hnil] using h
            source src hsrc
        · exact h

/-- New descriptors have neither records nor a count. -/
theorem perform (h : Counted w) {i : Action} (hw : w.perform i = some w') : Counted w' := by
  have hdelete : ∀ {w w' : World} {a : Handle}, Counted w → w.freeHandleStmt a = some w' →
      Counted w' := by
    intro w w' a h hw
    obtain ⟨s, -, hw⟩ := Option.bind_eq_some_iff.1 hw
    cases hw
    intro d x hx
    simp only [World.deleteStmt, World.eraseStmtRef] at hx
    split_ifs at hx
    exact h d x hx
  have hcall : ∀ {a : Handle} {body : OdbcHandleStmt → Option (SqlReturn × World)},
      (∀ s p, body s = some p → Counted p.2) → (w.onStmt a body).map Prod.snd = some w' →
      Counted w' := by
    intro a body hbody hw
    obtain ⟨p, hp, rfl⟩ := Option.map_eq_some_iff.1 hw
    obtain ⟨⟨ret, s⟩, -, hp⟩ := Option.bind_eq_some_iff.1 hp
    dsimp only at hp
    split_ifs at hp
    · exact hbody s p hp
    · cases hp
      exact h
  cases i with
  | allocStmt dbc a apd ipd ard ird =>
    cases hw
    intro d x hx
    simp only [World.allocStmt] at hx
    split_ifs at hx <;> first | (cases hx; rfl) | exact h d x hx
  | allocDesc dbc a =>
    cases hw
    intro d x hx
    simp only [World.allocDesc, Function.update_apply] at hx
    split_ifs at hx <;> first | (cases hx; rfl) | exact h d x hx
  | freeHandleStmt a => exact hdelete h hw
  | freeHandleDesc a =>
    obtain ⟨y, -, hw⟩ := Option.bind_eq_some_iff.1 hw
    obtain ⟨w₁, hreset, hw⟩ := Option.bind_eq_some_iff.1 hw
    cases hw
    intro d x hx
    simp only [Function.update_apply] at hx
    split_ifs at hx
    exact (h.of_descs (World.descs_resetStmtDescriptors hreset)) d x hx
  | freeStmtDrop a =>
    refine hcall (fun s p hp => ?_) hw
    obtain ⟨w₁, hfree, rfl⟩ := Option.map_eq_some_iff.1 hp
    exact hdelete h hfree
  | setAppParamDesc a d =>
    refine hcall (fun s p hp => ?_) hw
    obtain ⟨x, -, hp⟩ := Option.bind_eq_some_iff.1 hp
    cases hp
    exact (h.setStmt a _).modifyDesc fun _ _ hx => hx
  | setAppRowDesc a d =>
    refine hcall (fun s p hp => ?_) hw
    obtain ⟨x, -, hp⟩ := Option.bind_eq_some_iff.1 hp
    cases hp
    exact (h.setStmt a _).modifyDesc fun _ _ hx => hx
  | setConn dbc isOpen =>
    cases hw
    exact h.of_descs rfl

/-- A call on a statement. -/
theorem callStmt (h : Counted w) {a : Handle}
    {body : OdbcHandleStmt → Option (Except Fault (SqlReturn × World))} {ret : SqlReturn}
    (hw : w.callStmt a body = some (.ok (ret, w')))
    (hbody : ∀ s, w.Open a s → body s = some (.ok (ret, w')) → Counted w') : Counted w' := by
  obtain ⟨s, hs, ⟨hconn, hw⟩ | ⟨-, -, rfl⟩⟩ := World.callStmt_cases hw
  · exact hbody s ⟨hs, hconn⟩ hw
  · exact h

/-- A call that matches leaves counts and records in agreement. -/
theorem calls (h : Counted w) {findDataType : ℤ → Option OdbcTypeInfo} {c : Call}
    (hc : Matching w c) (hcall : Calls findDataType w c w') : Counted w' := by
  obtain ⟨hallowed, n, ret, hw⟩ := hcall
  cases c with
  | handles i =>
    cases hi : w.perform i with
    | none => simp [World.call, hi] at hw
    | some w₁ =>
      simp only [World.call, hi] at hw
      cases hw
      exact h.perform hi
  | prepare a p column =>
    exact h.callStmt hw fun s hs hbody => h.finalizeStmt (hc s hs) (Option.some.inj hbody)
  | execute a e =>
    exact h.callStmt hw fun s hs hbody => h.batchExecuteStmt (fun stmt => hc s stmt hs) hbody
  | bindParameter a args =>
    refine h.callStmt hw fun s hs hbody => ?_
    obtain rfl : (w.bindParameterStmt s args).2 = w' :=
      congrArg Prod.snd (Except.ok.inj (Option.some.inj hbody))
    exact h.bindParameterStmt (hc s hs)
  | close a =>
    refine h.callStmt hw fun s hs hbody => ?_
    cases hbody
    exact h.resetParamDesc (hc s hs).1 (hc s hs).2
  | resetParams a =>
    refine h.callStmt hw fun s hs hbody => ?_
    cases hbody
    exact h.clearParamDesc a s
  | setParamsetSize a size =>
    refine h.callStmt hw fun s hs hbody => ?_
    cases hbody
    exact h.modifyHeader fun _ => rfl
  | setBindOffsetPtr a ptr =>
    refine h.callStmt hw fun s hs hbody => ?_
    cases hbody
    exact h.modifyHeader fun _ => rfl
  | setRowArraySize a size =>
    refine h.callStmt hw fun s hs hbody => ?_
    cases hbody
    unfold World.setRowArraySize
    split_ifs
    · exact h
    · exact h.modifyHeader fun _ => rfl
  | setRowBindType a size =>
    refine h.callStmt hw fun s hs hbody => ?_
    obtain rfl : (w.setRowBindType s size).2 = w' :=
      congrArg Prod.snd (Except.ok.inj (Option.some.inj hbody))
    unfold World.setRowBindType
    split_ifs
    · exact h
    · exact Counted.modifyHeader (f := fun x => { x with bindType := size }) h fun _ => rfl
  | setDescField d recNumber f =>
    cases hw
    exact h.modifyDesc fun x hx hcount => hcount.setDescField hallowed.2 (hc x hx)
  | setDescRec d recNumber type length precision scale args =>
    cases hw
    exact h.modifyDesc fun x hx hcount => hcount.sqlSetDescRec hallowed.2
  | copyDesc source target =>
    obtain rfl : (w.sqlCopyDesc source target).2 = w' :=
      congrArg Prod.snd (Except.ok.inj (Option.some.inj hw))
    exact h.sqlCopyDesc hc

end Counted

/-- As long as no call is one of those that change one of the two only, every descriptor has the
count of its records. -/
theorem count_eq_records {env : Handle → Handle} {findDataType : ℤ → Option OdbcTypeInfo}
    {cs : List Call}
    {w : World} (hmatch : Run.Along (Calls findDataType) Matching (World.start env) cs)
    (h : Run.Reaches (Calls findDataType) (World.start env) cs w) : Counted w :=
  Run.Reaches.invariant Counted (fun _ _ _ hw hc hcall => hw.calls hc hcall) (Counted.start env)
    hmatch h

/-- Preparing a query of one column leaves the row descriptor with a record and the count zero. -/
theorem not_counted : ¬ ∀ (env : Handle → Handle) (findDataType : ℤ → Option OdbcTypeInfo)
    (cs : List Call) (w : World), Run.Reaches (Calls findDataType) (World.start env) cs w →
      Counted w := by
  intro h
  have hcount := h (fun _ => 0) (fun _ => none)
    [.handles (.setConn 1 true), .handles (.allocStmt 1 10 11 12 13 14),
      .prepare 10 ⟨none, 0, 1, true, false⟩ fun _ => {}] _
    ⟨_, ⟨trivial, 0, _, rfl⟩, _, ⟨⟨rfl, by simp [World.start]⟩, 0, _, rfl⟩, _,
      ⟨rfl, 0, _, rfl⟩, rfl⟩
    14 _ rfl
  exact absurd (show (0 : ℤ) = 1 from hcount) (by decide)

/-- A statement without columns is prepared, and one of its two parameters is bound. -/
theorem count_eq_records_bound : ∃ w : World, (w.records 11).length = 2 ∧ Counted w := by
  have hrun : ∃ w : World, Run.Reaches (Calls fun _ => none) (World.start fun _ => 0)
      [.handles (.setConn 1 true), .handles (.allocStmt 1 10 11 12 13 14),
        .prepare 10 ⟨none, 2, 0, true, true⟩ fun _ => {},
        .bindParameter 10 ⟨2, 1, 1, 12, 10, 0, 500, 10, 600⟩] w ∧ (w.records 11).length = 2 :=
    ⟨_, ⟨_, ⟨trivial, 0, _, rfl⟩, _, ⟨⟨rfl, by simp [World.start]⟩, 0, _, rfl⟩, _,
      ⟨rfl, 0, _, rfl⟩, _, ⟨⟨rfl, by decide⟩, 0, _, rfl⟩, rfl⟩, rfl⟩
  obtain ⟨w, hw, hlen⟩ := hrun
  refine ⟨w, hlen, count_eq_records ?_ hw⟩
  refine ⟨trivial, ?_⟩
  rintro t ⟨-, n, ret, ht⟩
  cases ht
  refine ⟨trivial, ?_⟩
  rintro t ⟨-, n, ret, ht⟩
  cases ht
  refine ⟨fun _ _ _ => rfl, ?_⟩
  rintro t ⟨-, n, ret, ht⟩
  cases ht
  exact ⟨fun _ _ _ => by decide, fun _ _ => trivial⟩

end HaybarnOdbc.Desc
