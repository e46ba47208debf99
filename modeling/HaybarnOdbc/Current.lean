import HaybarnOdbc.Counts

/-!
# The current application descriptors

Execution reads the current application descriptor of the parameters (`curApd`), and so do
preparing and closing; binding a parameter, the size of the parameter set and the offset of the
bindings go to the one that the statement owns (`apd`), and so does one of the lengths of a text.
For the rows it is the one that the statement owns throughout (`ard`).

The calls that are not about handles leave who owns and uses which descriptor as it is
(`SameHandles`), so that the registry of the statements stays exact over all calls. As long as a
statement is bound, and its attributes are set, while its own descriptors are the current ones, and
it is executed while they have as many records as there are parameters, every call uses the same
descriptor (`current_used`).
-/

namespace HaybarnOdbc.Desc

/-! ## Frames -/

/-- What a statement owns and refers to. -/
def OdbcHandleStmt.refs (s : OdbcHandleStmt) : OdbcHandleStmt :=
  { s with stmt := none, paramsetIdx := 0, curParamsetIdx := 0, curParamIdx := 0 }

/-- The same handles are live, own and refer to the same. -/
structure SameHandles (w w' : World) : Prop where
  vec : w'.vecStmtRef = w.vecStmtRef
  clock : w'.clock = w.clock
  stmts : ∀ a, (w'.stmts a).map OdbcHandleStmt.refs = (w.stmts a).map OdbcHandleStmt.refs
  descs : ∀ d, (w'.descs d).map OdbcHandleDesc.dbc = (w.descs d).map OdbcHandleDesc.dbc

namespace SameHandles

variable {w w' w'' : World}

theorem refl (w : World) : SameHandles w w := ⟨rfl, rfl, fun _ => rfl, fun _ => rfl⟩

theorem symm (h : SameHandles w w') : SameHandles w' w :=
  ⟨h.vec.symm, h.clock.symm, fun a => (h.stmts a).symm, fun d => (h.descs d).symm⟩

theorem trans (h : SameHandles w w') (h' : SameHandles w' w'') : SameHandles w w'' :=
  ⟨h'.vec.trans h.vec, h'.clock.trans h.clock, fun a => (h'.stmts a).trans (h.stmts a),
    fun d => (h'.descs d).trans (h.descs d)⟩

theorem setStmt {a : Handle} {s : OdbcHandleStmt} (s' : OdbcHandleStmt) (hs : w.stmts a = some s)
    (hrefs : s'.refs = s.refs) : SameHandles w (w.setStmt a s') where
  vec := rfl
  clock := rfl
  stmts b := by
    simp only [World.setStmt, Function.update_apply]
    split_ifs with hb
    · rw [hb, hs, Option.map_some, Option.map_some, hrefs]
    · rfl
  descs _ := rfl

theorem modifyDesc (w : World) (d : Handle) (f : OdbcHandleDesc → OdbcHandleDesc)
    (hf : ∀ x, (f x).dbc = x.dbc) : SameHandles w (w.modifyDesc d f) where
  vec := rfl
  clock := rfl
  stmts _ := rfl
  descs e := by
    simp only [World.modifyDesc, Function.update_apply]
    split_ifs with he
    · rw [he]
      cases w.descs d with
      | none => rfl
      | some x => exact congrArg some (hf x)
    · rfl

theorem modifyHeader (w : World) (d : Handle) (f : DescHeader → DescHeader) :
    SameHandles w (w.modifyHeader d f) := modifyDesc w d _ fun _ => rfl

/-- A statement of `w'` is one of `w`. -/
theorem stmt_of (h : SameHandles w w') {a : Handle} {s' : OdbcHandleStmt}
    (hs : w'.stmts a = some s') : ∃ s, w.stmts a = some s ∧ s.refs = s'.refs := by
  have heq := h.stmts a
  rw [hs, Option.map_some, eq_comm] at heq
  exact Option.map_eq_some_iff.1 heq

theorem isSome_descs (h : SameHandles w w') (d : Handle) :
    (w'.descs d).isSome = (w.descs d).isSome := by
  rw [← Option.isSome_map (f := OdbcHandleDesc.dbc), h.descs, Option.isSome_map]

end SameHandles

namespace OdbcHandleStmt

variable {s s' : OdbcHandleStmt}

theorem dbc_of_refs (h : s.refs = s'.refs) : s.dbc = s'.dbc := (congrArg dbc h :)

theorem owned_of_refs (h : s.refs = s'.refs) : s.owned = s'.owned := (congrArg owned h :)

theorem born_of_refs (h : s.refs = s'.refs) : s.born = s'.born := (congrArg born h :)

theorem apd_of_refs (h : s.refs = s'.refs) : s.apd = s'.apd := (congrArg apd h :)

theorem ard_of_refs (h : s.refs = s'.refs) : s.ard = s'.ard := (congrArg ard h :)

theorem curApd_of_refs (h : s.refs = s'.refs) : s.curApd = s'.curApd := (congrArg curApd h :)

theorem curArd_of_refs (h : s.refs = s'.refs) : s.curArd = s'.curArd := (congrArg curArd h :)

end OdbcHandleStmt

/-- The registry is about handles only. -/
theorem Registered.of_sameHandles {w w' : World} (h : Registered w) (hs : SameHandles w w') :
    Registered w' := by
  have hcur : ∀ dbc d, w.ExplicitOf dbc d → w'.ExplicitOf dbc d := by
    intro dbc d hd
    refine hd.mono (hs.descs d) fun a s' hs' hmem => ?_
    obtain ⟨s, hs, hrefs⟩ := hs.stmt_of hs'
    exact ⟨a, s, hs, OdbcHandleStmt.owned_of_refs hrefs ▸ hmem⟩
  refine ⟨fun dbc a => ?_, fun dbc => ?_, fun dbc => ?_, fun a s' hs' => ?_,
    fun a s' hs' d hd => ?_, fun a b s' t' hs' ht' hne => ?_, fun a s' hs' => ?_,
      fun a s' hs' => ?_⟩
  · rw [hs.vec, h.exact]
    constructor
    · rintro ⟨s, hstmt, hdbc⟩
      obtain ⟨s', hs', hrefs⟩ := hs.symm.stmt_of hstmt
      exact ⟨s', hs', (OdbcHandleStmt.dbc_of_refs hrefs).trans hdbc⟩
    · rintro ⟨s', hs', hdbc⟩
      obtain ⟨s, hstmt, hrefs⟩ := hs.stmt_of hs'
      exact ⟨s, hstmt, (OdbcHandleStmt.dbc_of_refs hrefs).trans hdbc⟩
  · rw [hs.vec]
    exact h.nodup dbc
  · rw [hs.vec]
    refine (h.order dbc).imp fun hlt s' t' hs' ht' => ?_
    obtain ⟨s, hstmt, hrefs⟩ := hs.stmt_of hs'
    obtain ⟨t, htmt, hrefs'⟩ := hs.stmt_of ht'
    rw [← OdbcHandleStmt.born_of_refs hrefs, ← OdbcHandleStmt.born_of_refs hrefs']
    exact hlt s t hstmt htmt
  · obtain ⟨s, hstmt, hrefs⟩ := hs.stmt_of hs'
    rw [hs.clock, ← OdbcHandleStmt.born_of_refs hrefs]
    exact h.born a s hstmt
  · obtain ⟨s, hstmt, hrefs⟩ := hs.stmt_of hs'
    rw [hs.isSome_descs]
    exact h.owned a s hstmt d (OdbcHandleStmt.owned_of_refs hrefs ▸ hd)
  · obtain ⟨s, hstmt, hrefs⟩ := hs.stmt_of hs'
    obtain ⟨t, htmt, hrefs'⟩ := hs.stmt_of ht'
    rw [← OdbcHandleStmt.owned_of_refs hrefs, ← OdbcHandleStmt.owned_of_refs hrefs']
    exact h.apart a b s t hstmt htmt hne
  · obtain ⟨s, hstmt, hrefs⟩ := hs.stmt_of hs'
    rw [← OdbcHandleStmt.apd_of_refs hrefs, ← OdbcHandleStmt.curApd_of_refs hrefs,
      ← OdbcHandleStmt.dbc_of_refs hrefs]
    exact (h.curApd a s hstmt).imp_right (hcur _ _)
  · obtain ⟨s, hstmt, hrefs⟩ := hs.stmt_of hs'
    rw [← OdbcHandleStmt.ard_of_refs hrefs, ← OdbcHandleStmt.curArd_of_refs hrefs,
      ← OdbcHandleStmt.dbc_of_refs hrefs]
    exact (h.curArd a s hstmt).imp_right (hcur _ _)

/-! ## What the calls leave -/

namespace OdbcHandleDesc

variable {findDataType : ℤ → Option OdbcTypeInfo}

theorem dbc_getDescRecord (d : OdbcHandleDesc) (idx : ℕ) : (d.getDescRecord idx).dbc = d.dbc := by
  unfold getDescRecord
  split_ifs <;> rfl

theorem dbc_setRecordField (d : OdbcHandleDesc) (k : Kind) (idx : ℕ) (f : DescField) :
    (d.setRecordField findDataType k idx f).2.dbc = d.dbc := by
  have hfield : ∀ readonly set, (d.setField idx readonly set).2.dbc = d.dbc := by
    intro readonly set
    cases readonly <;> rfl
  have htype : ∀ readonly type, (d.setTypeField findDataType idx readonly type).2.dbc = d.dbc := by
    intro readonly type
    unfold setTypeField
    split_ifs
    · rfl
    · split <;> rfl
  cases f <;> first | exact hfield _ _ | exact htype _ _ | rfl

theorem dbc_setDescField (d : OdbcHandleDesc) (k : Kind) (recNumber : ℤ) (f : DescField) :
    (d.setDescField findDataType k recNumber f).2.dbc = d.dbc := by
  have hrecord : ((if recNumber ≤ 0 then
      d.setDiagnosticRecord .error "SQLSetDescField" "Invalid descriptor index." "07009"
    else (d.getDescRecord (recNumber - 1).toNat).setRecordField findDataType k
      (recNumber - 1).toNat f) : SqlReturn × OdbcHandleDesc).2.dbc = d.dbc := by
    split_ifs
    · rfl
    · exact (dbc_setRecordField ..).trans (dbc_getDescRecord ..)
  cases f <;> first
    | exact hrecord
    | rfl
    | (unfold setDescField; dsimp only; split_ifs <;> rfl)

theorem dbc_setDescFields (k : Kind) (recNumber : ℤ) :
    ∀ (fs : List DescField) (p : SqlReturn × OdbcHandleDesc),
      (setDescFields findDataType k recNumber fs p).2.dbc = p.2.dbc
  | [], _ => rfl
  | f :: fs, p => by
    rw [setDescFields]
    split_ifs
    · exact (dbc_setDescFields k recNumber fs _).trans (dbc_setDescField ..)
    · rfl

/-- Setting a descriptor does not move it to another connection. -/
theorem dbc_sqlSetDescRec (d : OdbcHandleDesc) (k : Kind)
    (recNumber type length precision scale : ℤ)
    (args : Addr × Addr × Addr) :
    (d.sqlSetDescRec findDataType k recNumber type length precision scale args).2.dbc = d.dbc := by
  unfold sqlSetDescRec
  split_ifs
  · rfl
  · rfl
  · exact dbc_setDescFields ..
  · exact dbc_setDescFields ..

end OdbcHandleDesc

namespace SameHandles

variable {w w' : World} {a : Handle} {s : OdbcHandleStmt}

/-- Resetting the parameters keeps the handles. -/
theorem resetParamDesc (hs : w.stmts a = some s) : SameHandles w (w.resetParamDesc a s) := by
  have hcount := (modifyHeader w s.ipd fun h => { h with count := 0 }).trans
    (modifyHeader _ s.curApd fun h => { h with count := 0 })
  exact hcount.trans (setStmt _ hs rfl)

theorem clearParamDesc (hs : w.stmts a = some s) : SameHandles w (w.clearParamDesc a s) := by
  have hreset := (modifyDesc w s.ipd OdbcHandleDesc.reset fun _ => rfl).trans
    (modifyDesc _ s.curApd OdbcHandleDesc.reset fun _ => rfl)
  exact hreset.trans (resetParamDesc hs)

theorem resetParams {count : ℤ} (h : w.resetParams s count = .ok w') : SameHandles w w' := by
  unfold World.resetParams at h
  split_ifs at h
  cases h
  exact (modifyDesc w s.ipd (fun d => d.addMoreRecords count.toNat) fun _ => rfl).trans
    (modifyDesc _ s.curApd (fun d => d.addMoreRecords count.toNat) fun _ => rfl)

theorem fillIRD (w : World) (s : OdbcHandleStmt) (columnCount : ℕ) (column : ℕ → DescRecord) :
    SameHandles w (w.fillIRD s columnCount column) := modifyDesc w s.ird _ fun _ => rfl

/-- Preparing a statement keeps the handles. -/
theorem finalizeStmt {p : PreparedStatement} {column : ℕ → DescRecord} {ret : SqlReturn}
    (hs : w.stmts a = some s) (h : w.finalizeStmt a s p column = .ok (ret, w')) :
    SameHandles w w' := by
  unfold World.finalizeStmt at h
  by_cases herr : p.error.isSome
  · rw [if_pos herr] at h
    cases h
    exact setStmt _ hs rfl
  rw [if_neg herr] at h
  dsimp only at h
  obtain ⟨w₁, hreset, h⟩ := Outcome.bind_eq_ok.1 h
  cases h
  refine SameHandles.trans ?_ (fillIRD ..)
  refine SameHandles.trans ?_ (resetParams hreset)
  exact setStmt _ hs rfl

/-- Binding a parameter keeps the handles. -/
theorem bindParameterStmt (w : World) (s : OdbcHandleStmt) (args : BindParameterArgs) :
    SameHandles w (w.bindParameterStmt s args).2 := by
  unfold World.bindParameterStmt
  split_ifs
  · exact refl w
  · exact refl w
  · refine SameHandles.trans (modifyDesc w s.ipd
      (fun d => d.fillRecord (args.parameterNumber - 1) (bindIpdRecord args)) ?_)
        (modifyDesc _ s.apd _ ?_)
    · exact fun x => x.dbc_getDescRecord _
    · exact fun x => x.dbc_getDescRecord _

/-- An execution keeps the handles. -/
theorem batchExecuteStmt {n : ℕ} {e : ExecAnswers} {ret : SqlReturn} (hs : w.stmts a = some s)
    (h : w.batchExecuteStmt n a s e = some (.ok (ret, w'))) : SameHandles w w' := by
  rcases World.batchExecuteStmt_cases h with
    ⟨idx, rfl⟩ | ⟨idx, stmt, turn, columns, -, -, -, rfl⟩
  · exact setStmt _ hs rfl
  · refine SameHandles.trans ?_ (fillIRD ..)
    exact setStmt _ hs rfl

/-- A copy keeps the handles. -/
theorem sqlCopyDesc (w : World) (source target : Handle) :
    SameHandles w (w.sqlCopyDesc source target).2 := by
  unfold World.sqlCopyDesc
  split
  · split
    · exact modifyDesc w _ _ fun _ => rfl
    · dsimp only
      split_ifs
      · exact modifyDesc w _ _ fun _ => rfl
      · exact refl w
  · exact refl w

/-- A call on a statement. -/
theorem callStmt {body : OdbcHandleStmt → Option (Except Fault (SqlReturn × World))}
    {ret : SqlReturn} (h : w.callStmt a body = some (.ok (ret, w')))
    (hbody : ∀ s, w.stmts a = some s → body s = some (.ok (ret, w')) → SameHandles w w') :
    SameHandles w w' := by
  obtain ⟨s, hs, ⟨-, h⟩ | ⟨-, -, rfl⟩⟩ := World.callStmt_cases h
  · exact hbody s hs h
  · exact refl _

/-- Every call that is not one about handles. -/
theorem call {findDataType : ℤ → Option OdbcTypeInfo} {n : ℕ} {c : Call} {ret : SqlReturn}
    (hc : ∀ i, c ≠ .handles i) (h : w.call findDataType n c = some (.ok (ret, w'))) :
    SameHandles w w' := by
  cases c with
  | handles i => exact absurd rfl (hc i)
  | prepare a p column => exact callStmt h fun s hs hbody => finalizeStmt hs (Option.some.inj hbody)
  | execute a e => exact callStmt h fun s hs hbody => batchExecuteStmt hs hbody
  | bindParameter a args =>
    refine callStmt h fun s hs hbody => ?_
    obtain rfl : (w.bindParameterStmt s args).2 = w' :=
      congrArg Prod.snd (Except.ok.inj (Option.some.inj hbody))
    exact bindParameterStmt w s args
  | close a =>
    refine callStmt h fun s hs hbody => ?_
    cases hbody
    exact resetParamDesc hs
  | resetParams a =>
    refine callStmt h fun s hs hbody => ?_
    cases hbody
    exact clearParamDesc hs
  | setParamsetSize a size =>
    refine callStmt h fun s hs hbody => ?_
    cases hbody
    exact modifyHeader w s.apd _
  | setBindOffsetPtr a ptr =>
    refine callStmt h fun s hs hbody => ?_
    cases hbody
    exact modifyHeader w s.apd _
  | setRowArraySize a size =>
    refine callStmt h fun s hs hbody => ?_
    cases hbody
    unfold World.setRowArraySize
    split_ifs
    · exact refl w
    · exact modifyHeader w s.ard _
  | setRowBindType a size =>
    refine callStmt h fun s hs hbody => ?_
    obtain rfl : (w.setRowBindType s size).2 = w' :=
      congrArg Prod.snd (Except.ok.inj (Option.some.inj hbody))
    unfold World.setRowBindType
    split_ifs
    · exact refl w
    · exact modifyHeader w s.ard fun h => { h with bindType := size }
  | setDescField d recNumber f =>
    cases h
    exact modifyDesc w d _ fun x => x.dbc_setDescField ..
  | setDescRec d recNumber type length precision scale args =>
    cases h
    exact modifyDesc w d _ fun x => x.dbc_sqlSetDescRec ..
  | copyDesc source target =>
    obtain rfl : (w.sqlCopyDesc source target).2 = w' :=
      congrArg Prod.snd (Except.ok.inj (Option.some.inj h))
    exact sqlCopyDesc w source target

end SameHandles

/-- The registry of the statements stays exact over all calls. -/
theorem Registered.calls {w w' : World} (h : Registered w) {findDataType : ℤ → Option OdbcTypeInfo}
    {c : Call} (hcall : Calls findDataType w c w') : Registered w' := by
  obtain ⟨hallowed, n, ret, hw⟩ := hcall
  by_cases hc : ∃ i, c = .handles i
  · obtain ⟨i, rfl⟩ := hc
    obtain ⟨w₁, hperform, h₁⟩ := h.perform hallowed
    simp only [World.call, hperform] at hw
    cases hw
    exact h₁
  · exact h.of_sameHandles (SameHandles.call (fun i hi => hc ⟨i, hi⟩) hw)

/-! ## The descriptors of a statement are different ones -/

/-- Every statement owns four descriptors. -/
def OwnsFour (w : World) : Prop := ∀ a s, w.stmts a = some s → s.owned.Nodup

namespace OwnsFour

variable {w w' : World}

/-- Statements that own what a statement owned. -/
theorem of_owned (h : OwnsFour w)
    (hs : ∀ a s', w'.stmts a = some s' → ∃ b s, w.stmts b = some s ∧ s.owned = s'.owned) :
    OwnsFour w' := by
  intro a s' hs'
  obtain ⟨b, s, hs, heq⟩ := hs a s' hs'
  exact heq ▸ h b s hs

/-- Where the handles are kept, so are the four descriptors of each statement. -/
theorem of_sameHandles (h : OwnsFour w) (hs : SameHandles w w') : OwnsFour w' :=
  h.of_owned fun a _ hs' =>
    let ⟨s, hstmt, hrefs⟩ := hs.stmt_of hs'
    ⟨a, s, hstmt, OdbcHandleStmt.owned_of_refs hrefs⟩

theorem setStmt (h : OwnsFour w) {a : Handle} {s : OdbcHandleStmt} (s' : OdbcHandleStmt)
    (hs : w.stmts a = some s) (howned : s'.owned = s.owned) : OwnsFour (w.setStmt a s') := by
  intro b t ht
  simp only [World.setStmt, Function.update_apply] at ht
  split_ifs at ht
  · cases ht
    exact howned ▸ h a s hs
  · exact h b t ht

theorem resetStmtDescriptors {old : Handle} : ∀ {l : List Handle} {w w' : World}, OwnsFour w →
    World.resetStmtDescriptors old l w = some w' → OwnsFour w'
  | [], _, _, h, hx => by
    cases hx
    exact h
  | a :: l, w, w', h, hx => by
    rw [World.resetStmtDescriptors] at hx
    obtain ⟨s, hs, hx⟩ := Option.bind_eq_some_iff.1 hx
    have hreset : OwnsFour (w.setStmt a (World.resetCurrent old s)) := h.setStmt _ hs rfl
    exact resetStmtDescriptors hreset hx

/-- A statement that is freed takes its own four with it. -/
theorem freeHandleStmt (h : OwnsFour w) {a : Handle} (hx : w.freeHandleStmt a = some w') :
    OwnsFour w' := by
  obtain ⟨s, -, hx⟩ := Option.bind_eq_some_iff.1 hx
  cases hx
  refine h.of_owned fun b t ht => ⟨b, t, ?_, rfl⟩
  simp only [World.deleteStmt, World.eraseStmtRef, Function.update_apply] at ht
  split_ifs at ht
  exact ht

theorem onStmt (h : OwnsFour w) {a : Handle} {body : OdbcHandleStmt → Option (SqlReturn × World)}
    (hx : (w.onStmt a body).map Prod.snd = some w')
    (hbody : ∀ s p, w.stmts a = some s → body s = some p → OwnsFour p.2) : OwnsFour w' := by
  obtain ⟨p, hp, rfl⟩ := Option.map_eq_some_iff.1 hx
  obtain ⟨⟨ret, s⟩, hconv, hp⟩ := Option.bind_eq_some_iff.1 hp
  obtain ⟨s', hs, heq⟩ := Option.bind_eq_some_iff.1 hconv
  obtain ⟨-, rfl⟩ := Prod.mk.inj (Option.some.inj heq)
  dsimp only at hp
  split_ifs at hp
  · exact hbody s' p hs hp
  · cases hp
    exact h

/-- The allocator gives four addresses to a new statement, and nothing changes what the others
own. -/
theorem perform (h : OwnsFour w) {i : Action} (hx : w.perform i = some w')
    (hnew : ∀ dbc a apd ipd ard ird, i = .allocStmt dbc a apd ipd ard ird →
      [apd, ipd, ard, ird].Nodup) : OwnsFour w' := by
  cases i with
  | allocStmt dbc a apd ipd ard ird =>
    cases hx
    intro b t ht
    simp only [World.allocStmt, Function.update_apply] at ht
    split_ifs at ht
    · cases ht
      exact hnew dbc a apd ipd ard ird rfl
    · exact h b t ht
  | allocDesc dbc a =>
    cases hx
    exact h
  | freeHandleStmt a => exact h.freeHandleStmt hx
  | freeHandleDesc a =>
    obtain ⟨d, -, hx⟩ := Option.bind_eq_some_iff.1 hx
    obtain ⟨w₁, hreset, hx⟩ := Option.bind_eq_some_iff.1 hx
    cases hx
    have hkeep := resetStmtDescriptors h hreset
    exact hkeep
  | freeStmtDrop a =>
    refine h.onStmt hx fun s p hs hp => ?_
    obtain ⟨w₁, hfree, rfl⟩ := Option.map_eq_some_iff.1 hp
    exact h.freeHandleStmt hfree
  | setAppParamDesc a d =>
    refine h.onStmt hx fun s p hs hp => ?_
    obtain ⟨x, -, hp⟩ := Option.bind_eq_some_iff.1 hp
    cases hp
    exact h.setStmt { s with curApd := d } hs rfl
  | setAppRowDesc a d =>
    refine h.onStmt hx fun s p hs hp => ?_
    obtain ⟨x, -, hp⟩ := Option.bind_eq_some_iff.1 hp
    cases hp
    exact h.setStmt { s with curArd := d } hs rfl
  | setConn dbc isOpen =>
    cases hx
    exact h

end OwnsFour

/-! ## The same current descriptor -/

/-- The records that execution reads for the parameter are as it was bound. -/
def World.HasBound (w : World) (s : OdbcHandleStmt) (args : BindParameterArgs) : Prop :=
  (∃ r, w.record s.curApd (args.parameterNumber - 1) = .ok (bindApdRecord args r)) ∧
    ∃ r, w.record s.ipd (args.parameterNumber - 1) = .ok (bindIpdRecord args r)

/-- A call uses the current application descriptor. A parameter is bound in the records that
execution reads; the attributes set the header of the current descriptor, which is the one that
execution or a fetch reads, and the getter returns what was set; and execution indexes no record
that is not there. -/
def UsesCurrent (findDataType : ℤ → Option OdbcTypeInfo) (w : World) (c : Call) : Prop :=
  match c with
  | .bindParameter a args => ∀ s w', w.Open a s → args.inputOutputType = 1 →
      1 ≤ args.parameterNumber → Calls findDataType w c w' → w'.HasBound s args
  | .setParamsetSize a size => ∀ s w', w.Open a s → Calls findDataType w c w' →
      (w'.execHeader s).arraySize = size ∧ w'.getParamsetSize s = size
  | .setBindOffsetPtr a ptr => ∀ s w', w.Open a s → Calls findDataType w c w' →
      (w'.execHeader s).bindOffsetPtr = ptr ∧ w'.getBindOffsetPtr s = ptr
  | .setRowArraySize a size => ∀ s w', w.Open a s → size ≠ 0 → Calls findDataType w c w' →
      (w'.header s.curArd).arraySize = size ∧ (w'.fetchHeader s).arraySize = size ∧
        w'.getRowArraySize s = size
  | .setRowBindType a size => ∀ s w', w.Open a s → size ≠ 0 → Calls findDataType w c w' →
      (w'.header s.curArd).bindType = size ∧ (w'.fetchHeader s).bindType = size ∧
        w'.getRowBindType s = size
  | .execute a _ => ∀ s n, w.Open a s → w.call findDataType n c ≠ some (.error .outOfRange)
  | _ => True

/-- Some value is read with the octet length of its parameter. -/
def ExecAnswers.UsesLength (e : ExecAnswers) : Prop :=
  ∃ r p offset set f, e.source r p offset set = .withLength f

/-- The current descriptor has a record for every parameter, and so has the own one where a length
is read there. -/
def World.HasRecords (w : World) (s : OdbcHandleStmt) (e : ExecAnswers) : Prop :=
  (w.records s.ipd).length ≤ (w.records s.curApd).length ∧
    (e.UsesLength → (w.records s.ipd).length ≤ (w.records s.apd).length)

/-- The condition on a call. The parameters of a statement are bound, and their attributes set,
while its own descriptor is the current one, and so for the rows; and it is executed while there is
a record for every parameter. -/
def OwnIsCurrent (w : World) : Call → Prop
  | .handles (.allocStmt _ _ apd ipd ard ird) => [apd, ipd, ard, ird].Nodup
  | .bindParameter a _ | .setParamsetSize a _ | .setBindOffsetPtr a _ =>
    ∀ s, w.Open a s → s.curApd = s.apd
  | .setRowArraySize a _ | .setRowBindType a _ => ∀ s, w.Open a s → s.curArd = s.ard
  | .execute a e => ∀ s, w.Open a s → w.HasRecords s e
  | _ => True

/-! ## Headers and records after a change -/

namespace World

variable {w : World}

/-- A header that is changed is that of a descriptor that is there. -/
theorem header_modifyHeader {d : Handle} (hd : (w.descs d).isSome) (f : DescHeader → DescHeader) :
    (w.modifyHeader d f).header d = f (w.header d) := by
  obtain ⟨x, hx⟩ := Option.isSome_iff_exists.1 hd
  simp [header, modifyHeader, modifyDesc, hx]

theorem records_modifyDesc_of_ne {d e : Handle} (f : OdbcHandleDesc → OdbcHandleDesc) (h : e ≠ d) :
    (w.modifyDesc d f).records e = w.records e := by
  simp [records, modifyDesc, h]

/-- A filled record is there, and filled. -/
theorem getElem?_fillRecord (x : OdbcHandleDesc) (idx : ℕ) (f : DescRecord → DescRecord) :
    ∃ r, (x.fillRecord idx f).records[idx]? = some (f r) := by
  have hlt : idx < (x.getDescRecord idx).records.length := by
    unfold OdbcHandleDesc.getDescRecord
    split_ifs with hle
    · simp
    · exact Nat.lt_of_not_le hle
  refine ⟨(x.getDescRecord idx).records[idx], ?_⟩
  simp [OdbcHandleDesc.fillRecord, hlt]

/-- A record that is filled is there. -/
theorem record_fillRecord {d : Handle} (hd : (w.descs d).isSome) (idx : ℕ)
    (f : DescRecord → DescRecord) :
    ∃ r, (w.modifyDesc d fun x => x.fillRecord idx f).record d idx = .ok (f r) := by
  obtain ⟨x, hx⟩ := Option.isSome_iff_exists.1 hd
  obtain ⟨r, hr⟩ := getElem?_fillRecord x idx f
  exact ⟨r, by simp [record, records, modifyDesc, hx, hr]⟩

theorem record_of_records {w' : World} {d : Handle} (h : w'.records d = w.records d) (i : ℕ) :
    w'.record d i = w.record d i := by
  rw [record, record, h]

/-! ## Records that execution indexes -/

open Outcome (Safe)

/-- A record within its descriptor is read. -/
theorem safe_record {d : Handle} {i : ℕ} (hi : i < (w.records d).length) :
    Safe (· = .outOfRange) (fun _ => True) (w.record d i) := by
  unfold record
  rw [List.getElem?_eq_getElem hi]
  trivial

/-- With records for its parameters, a value is read from records that are there. -/
theorem HasRecords.safe_setValue {s : OdbcHandleStmt} {e : ExecAnswers} (h : w.HasRecords s e)
    {i : ℕ} (hi : i < (w.records s.ipd).length) :
    Safe (· = .outOfRange) (fun _ => True) (w.setValue s e.source i) := by
  unfold setValue
  refine (safe_record (Nat.lt_of_lt_of_le hi h.1)).bind fun r _ =>
    (safe_record hi).bind fun p _ => ?_
  cases hread : e.source r p (w.header s.curApd).bindOffsetPtr s.paramsetIdx with
  | done code => trivial
  | withLength f =>
    have hown := h.2 ⟨_, _, _, _, f, hread⟩
    exact (safe_record (Nat.lt_of_lt_of_le hi hown)).bind fun _ _ => trivial

/-- So are all values of a set. -/
theorem HasRecords.safe_readRecords {s : OdbcHandleStmt} {e : ExecAnswers} (h : w.HasRecords s e) :
    ∀ {recs : List ℕ}, (∀ i ∈ recs, i < (w.records s.ipd).length) →
      Safe (· = .outOfRange) (fun _ => True) (w.readRecords s e.source recs)
  | [], _ => trivial
  | i :: recs, hi => by
    have hrest := h.safe_readRecords fun j hj => hi j (List.mem_cons_of_mem _ hj)
    rw [readRecords]
    refine (h.safe_setValue (hi i (List.mem_cons_self ..))).bind fun code _ => ?_
    cases code with
    | value => exact hrest
    | needData => trivial
    | failed =>
      dsimp only
      split_ifs
      · trivial
      · exact hrest

theorem HasRecords.safe_getParamValues {s : OdbcHandleStmt} {e : ExecAnswers}
    (h : w.HasRecords s e) :
    Safe (· = .outOfRange) (fun _ => True) (w.getParamValues s e.source) := by
  unfold getParamValues
  split_ifs
  · trivial
  · refine (h.safe_readRecords fun i hi => List.mem_range.1 hi).bind fun ret _ => ?_
    split_ifs <;> trivial

/-- No turn of a batch reads beyond the records. -/
theorem HasRecords.safe_batchBody {b : Batch} {e : ExecAnswers} (h : w.HasRecords b.s e) :
    Safe (· = .outOfRange) (fun _ => True) (w.batchBody e b) := by
  refine Safe.bind (P := fun _ => True) ?_ fun _ _ => trivial
  refine h.safe_getParamValues.bind fun p _ => ?_
  obtain ⟨ret, s⟩ := p
  dsimp only
  by_cases hret : ret = .needData ∨ ret = .error
  · rw [if_pos hret]
    trivial
  · rw [if_neg hret]
    split
    · simp [Safe]
    · trivial
    · trivial

theorem batchFinish_ne (a : Handle) (e : ExecAnswers) (ret : SqlReturn) (b : Batch) :
    w.batchFinish a e ret b ≠ .error .outOfRange := by
  unfold batchFinish
  repeat' split
  all_goals nofun

/-- No execution reads beyond the records. -/
theorem HasRecords.batchExecuteStmt_ne {s : OdbcHandleStmt} {e : ExecAnswers}
    (h : w.HasRecords s e) (n : ℕ) (a : Handle) :
    w.batchExecuteStmt n a s e ≠ some (.error .outOfRange) := by
  intro hx
  obtain ⟨x, hrun, hx⟩ := Option.map_eq_some_iff.1 hx
  have hsafe : Safe (· = .outOfRange) (fun _ => True) x := by
    refine DoWhile.run_invariant (w.batchBody e) (· = .stillExecuting)
      (fun b => w.HasRecords b.s e) (Safe (· = .outOfRange) fun _ => True) ?_ ?_ ?_ h hrun
    · intro b err hb hbody
      have hsafe := hb.safe_batchBody
      rwa [hbody] at hsafe
    · rintro b r b' hb hbody -
      -- the turn leaves the statement, but for the index of the set
      obtain ⟨⟨r', s', columns⟩, hsingle, hret⟩ := Outcome.bind_eq_ok.1 hbody
      obtain ⟨⟨idx, rfl⟩, -⟩ := singleExecuteStmt_stmt hsingle
      cases hret
      exact hb
    · exact fun _ _ _ _ _ _ => trivial
  cases x with
  | error err =>
    cases hx
    exact hsafe rfl
  | ok p => exact batchFinish_ne a e p.1 p.2 hx

end World

/-! ## Calls -/

section Calls

variable {findDataType : ℤ → Option OdbcTypeInfo} {w w' : World} {a : Handle} {s : OdbcHandleStmt}

/-- A call on a statement whose connection is open. -/
theorem World.Open.callStmt (h : w.Open a s)
    (body : OdbcHandleStmt → Option (Except Fault (SqlReturn × World))) :
    w.callStmt a body = body s := by
  simp [World.callStmt, World.convertHSTMT, h.1, h.2]

/-- The descriptors of an open statement are there. -/
theorem Registered.live (h : Registered w) (hs : w.Open a s) {d : Handle} (hd : d ∈ s.owned) :
    (w.descs d).isSome := h.owned a s hs.1 d hd

/-- A parameter that is bound while the own descriptor is the current one. -/
theorem hasBound (h : Registered w) (h4 : OwnsFour w) (hs : w.Open a s) (hcur : s.curApd = s.apd)
    {args : BindParameterArgs} (htype : args.inputOutputType = 1) (hnum : 1 ≤ args.parameterNumber)
    (hcall : Calls findDataType w (.bindParameter a args) w') : w'.HasBound s args := by
  obtain ⟨-, n, ret, hw⟩ := hcall
  rw [World.call, hs.callStmt] at hw
  obtain rfl : (w.bindParameterStmt s args).2 = w' :=
    congrArg Prod.snd (Except.ok.inj (Option.some.inj hw))
  unfold World.bindParameterStmt
  rw [if_neg (not_not.2 htype), if_neg (by omega)]
  set idx := args.parameterNumber - 1 with hidx
  have hne : s.apd ≠ s.ipd := by
    have hnodup := h4 a s hs.1
    simp only [OdbcHandleStmt.owned, List.nodup_cons, List.mem_cons, not_or] at hnodup
    exact hnodup.1.1
  have hapd : (w.descs s.apd).isSome := h.live hs (by simp [OdbcHandleStmt.owned])
  have hipd : (w.descs s.ipd).isSome := h.live hs (by simp [OdbcHandleStmt.owned])
  set w₁ := w.modifyDesc s.ipd fun d => d.fillRecord idx (bindIpdRecord args) with hw₁
  constructor
  · rw [hcur]
    refine World.record_fillRecord ?_ idx (bindApdRecord args)
    simpa [hw₁, World.modifyDesc, hne] using hapd
  · obtain ⟨r, hr⟩ := World.record_fillRecord hipd idx (bindIpdRecord args)
    refine ⟨r, ?_⟩
    rw [← hr]
    exact World.record_of_records (World.records_modifyDesc_of_ne _ hne.symm) idx

/-- The attributes of the rows are the ones that a fetch reads, whichever descriptor is the current
one. -/
theorem fetchHeader_rowArraySize (h : Registered w) (hs : w.Open a s) {size : ℕ} (hsize : size ≠ 0)
    (hcall : Calls findDataType w (.setRowArraySize a size) w') :
    (w'.fetchHeader s).arraySize = size := by
  obtain ⟨-, n, ret, hw⟩ := hcall
  rw [World.call, hs.callStmt] at hw
  cases hw
  have hlive := h.live hs (d := s.ard) (by simp [OdbcHandleStmt.owned])
  rw [World.fetchHeader, World.setRowArraySize, if_neg hsize, World.header_modifyHeader hlive]

/-- The row bind type that was set is the one a fetch reads. -/
theorem fetchHeader_rowBindType (h : Registered w) (hs : w.Open a s) {size : ℤ} (hsize : size ≠ 0)
    (hcall : Calls findDataType w (.setRowBindType a size) w') :
    (w'.fetchHeader s).bindType = size := by
  obtain ⟨-, n, ret, hw⟩ := hcall
  rw [World.call, hs.callStmt] at hw
  obtain rfl : (w.setRowBindType s size).2 = w' :=
    congrArg Prod.snd (Except.ok.inj (Option.some.inj hw))
  have hlive := h.live hs (d := s.ard) (by simp [OdbcHandleStmt.owned])
  rw [World.fetchHeader, World.setRowBindType, if_neg hsize, World.header_modifyHeader hlive]

/-- Every call that meets its condition uses the current descriptor. -/
theorem usesCurrent (h : Registered w) (h4 : OwnsFour w) {c : Call} (hc : OwnIsCurrent w c) :
    UsesCurrent findDataType w c := by
  cases c with
  | bindParameter a args =>
    intro s w' hs htype hnum hcall
    exact hasBound h h4 hs (hc s hs) htype hnum hcall
  | setParamsetSize a size =>
    rintro s w' hs ⟨-, n, ret, hw⟩
    rw [World.call, hs.callStmt] at hw
    cases hw
    have hlive := h.live hs (d := s.apd) (by simp [OdbcHandleStmt.owned])
    rw [World.execHeader, hc s hs, World.getParamsetSize, World.setParamsetSize,
      World.header_modifyHeader hlive]
    exact ⟨rfl, rfl⟩
  | setBindOffsetPtr a ptr =>
    rintro s w' hs ⟨-, n, ret, hw⟩
    rw [World.call, hs.callStmt] at hw
    cases hw
    have hlive := h.live hs (d := s.apd) (by simp [OdbcHandleStmt.owned])
    rw [World.execHeader, hc s hs, World.getBindOffsetPtr, World.setBindOffsetPtr,
      World.header_modifyHeader hlive]
    exact ⟨rfl, rfl⟩
  | setRowArraySize a size =>
    intro s w' hs hsize hcall
    have hfetch := fetchHeader_rowArraySize h hs hsize hcall
    exact ⟨by rw [hc s hs]; exact hfetch, hfetch, hfetch⟩
  | setRowBindType a size =>
    intro s w' hs hsize hcall
    have hfetch := fetchHeader_rowBindType h hs hsize hcall
    exact ⟨by rw [hc s hs]; exact hfetch, hfetch, hfetch⟩
  | execute a e =>
    intro s n hs
    rw [World.call, hs.callStmt]
    exact (hc s hs).batchExecuteStmt_ne n a
  | _ => trivial

/-- The statements keep their four descriptors. -/
theorem OwnsFour.calls (h4 : OwnsFour w) {c : Call} (hc : OwnIsCurrent w c)
    (hcall : Calls findDataType w c w') : OwnsFour w' := by
  obtain ⟨-, n, ret, hw⟩ := hcall
  by_cases hi : ∃ i, c = .handles i
  · obtain ⟨i, rfl⟩ := hi
    cases hperform : w.perform i with
    | none => simp [World.call, hperform] at hw
    | some w₁ =>
      simp only [World.call, hperform] at hw
      cases hw
      refine h4.perform hperform fun dbc a apd ipd ard ird heq => ?_
      subst heq
      exact hc
  · exact h4.of_sameHandles (SameHandles.call (fun i heq => hi ⟨i, heq⟩) hw)

end Calls

end HaybarnOdbc.Desc
