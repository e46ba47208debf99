import HaybarnOdbc.Statements

/-!
# Copying a descriptor

`SQLCopyDesc` assigns a pointer where both descriptors are of one connection, so that nothing is
copied, and adds the records of the source to those of the target where the connections are of
one environment, so that a second copy adds them once more. What it is to do comes out only where
there is nothing to copy (`sqlCopyDesc_iff`).
-/

namespace HaybarnOdbc.Desc

open HaybarnOdbc.Desc.World

/-- The target has the records of the source, and its header but for how it was allocated. -/
structure Alike (src tgt : OdbcHandleDesc) : Prop where
  records : tgt.records = src.records
  header : { tgt.header with allocType := src.header.allocType } = src.header

/-- What a copy is to do : afterwards the target is like the source, the source is as it was, and
a second copy changes nothing. -/
structure Copies (w : World) (source target : Handle) : Prop where
  alike : ∀ src, w.descs source = some src →
    ∃ tgt, (w.sqlCopyDesc source target).2.descs target = some tgt ∧ Alike src tgt
  kept : (w.sqlCopyDesc source target).2.descs source = w.descs source
  again : ((w.sqlCopyDesc source target).2.sqlCopyDesc source target).2
    = (w.sqlCopyDesc source target).2

/-- There is nothing to copy between the two. -/
def NothingToCopy (src tgt : OdbcHandleDesc) : Prop :=
  if src.dbc = tgt.dbc then Alike src tgt else src.records = [] ∧ tgt.records = []

variable {w : World} {source target : Handle} {src tgt : OdbcHandleDesc}

/-- The checks go by the statements, which a copy leaves alone. -/
theorem sqlCopyDesc_of_check (hsrc : w.descs source = some src) (htgt : w.descs target = some tgt)
    (hcheck : copyCheck source target ((w.vecStmtRef src.dbc).filterMap w.stmts) = none) :
    w.sqlCopyDesc source target = (.success,
      if src.dbc ≠ tgt.dbc ∧ w.env src.dbc = w.env tgt.dbc then
        w.modifyDesc target fun x => x.copyOnlyOdbcFields src
      else w) := by
  simp only [sqlCopyDesc, hsrc, htgt, hcheck]

/-- What there is where a copy succeeds. -/
theorem sqlCopyDesc_success (h : (w.sqlCopyDesc source target).1 = .success) :
    ∃ src tgt, w.descs source = some src ∧ w.descs target = some tgt ∧
      copyCheck source target ((w.vecStmtRef src.dbc).filterMap w.stmts) = none := by
  cases hsrc : w.descs source with
  | none => simp [sqlCopyDesc, hsrc] at h
  | some src =>
    cases htgt : w.descs target with
    | none => simp [sqlCopyDesc, hsrc, htgt] at h
    | some tgt =>
      cases hcheck : copyCheck source target ((w.vecStmtRef src.dbc).filterMap w.stmts) with
      | none => exact ⟨src, tgt, rfl, rfl, hcheck⟩
      | some failed => simp [sqlCopyDesc, hsrc, htgt, hcheck] at h

/-! ## One connection -/

/-- Within a connection nothing is copied. -/
theorem sqlCopyDesc_same (hsrc : w.descs source = some src) (htgt : w.descs target = some tgt)
    (hcheck : copyCheck source target ((w.vecStmtRef src.dbc).filterMap w.stmts) = none)
    (hdbc : src.dbc = tgt.dbc) : w.sqlCopyDesc source target = (.success, w) := by
  rw [sqlCopyDesc_of_check hsrc htgt hcheck, if_neg fun h => h.1 hdbc]

/-- Between descriptors of one connection the target is to be like the source before. -/
theorem copies_same_iff (hsrc : w.descs source = some src) (htgt : w.descs target = some tgt)
    (hcheck : copyCheck source target ((w.vecStmtRef src.dbc).filterMap w.stmts) = none)
    (hdbc : src.dbc = tgt.dbc) : Copies w source target ↔ Alike src tgt := by
  have hcopy := sqlCopyDesc_same hsrc htgt hcheck hdbc
  constructor
  · intro h
    obtain ⟨tgt', htgt', halike⟩ := h.alike src hsrc
    rw [hcopy, htgt] at htgt'
    exact Option.some.inj htgt' ▸ halike
  · intro halike
    refine ⟨fun src' hsrc' => ?_, by rw [hcopy], by rw [hcopy, hcopy]⟩
    obtain rfl := Option.some.inj (hsrc.symm.trans hsrc')
    exact ⟨tgt, by rw [hcopy, htgt], halike⟩

/-! ## Two connections -/

/-- A copy adds the records, none of which loses a field. -/
theorem copyOnlyOdbcFields_eq (src tgt : OdbcHandleDesc) : tgt.copyOnlyOdbcFields src
    = { tgt with header := src.header, records := tgt.records ++ src.records } := by
  rw [OdbcHandleDesc.copyOnlyOdbcFields, List.map_id'' DescRecord.copy_eq]

/-- The world after a copy. -/
def copied (w : World) (target : Handle) (src : OdbcHandleDesc) : World :=
  w.modifyDesc target fun x => x.copyOnlyOdbcFields src

/-- To another connection the fields are copied. -/
theorem sqlCopyDesc_different (hsrc : w.descs source = some src)
    (htgt : w.descs target = some tgt)
    (hcheck : copyCheck source target ((w.vecStmtRef src.dbc).filterMap w.stmts) = none)
    (hdbc : src.dbc ≠ tgt.dbc) (henv : w.env src.dbc = w.env tgt.dbc) :
    w.sqlCopyDesc source target = (.success, copied w target src) := by
  rw [sqlCopyDesc_of_check hsrc htgt hcheck, if_pos ⟨hdbc, henv⟩, copied]

/-- The target has what was copied. -/
theorem descs_target (htgt : w.descs target = some tgt) :
    (copied w target src).descs target = some (tgt.copyOnlyOdbcFields src) := by
  simp [copied, modifyDesc, htgt]

/-- The source stays. -/
theorem descs_source (hne : source ≠ target) (hsrc : w.descs source = some src) :
    (copied w target src).descs source = some src := by
  simp [copied, modifyDesc, Function.update_of_ne hne, hsrc]

/-- A source without records adds none the second time. -/
theorem copied_twice (htgt : w.descs target = some tgt) (hnil : src.records = []) :
    copied (copied w target src) target src = copied w target src := by
  have hkept : (tgt.copyOnlyOdbcFields src).copyOnlyOdbcFields src
      = tgt.copyOnlyOdbcFields src := by
    simp [copyOnlyOdbcFields_eq, hnil]
  simp only [copied, modifyDesc, Function.update_self, htgt, Option.map_some, hkept,
    Function.update_idem]

/-- Between two connections neither is to have records. -/
theorem copies_different_iff (hne : source ≠ target) (hsrc : w.descs source = some src)
    (htgt : w.descs target = some tgt)
    (hcheck : copyCheck source target ((w.vecStmtRef src.dbc).filterMap w.stmts) = none)
    (hdbc : src.dbc ≠ tgt.dbc) (henv : w.env src.dbc = w.env tgt.dbc) :
    Copies w source target ↔ src.records = [] ∧ tgt.records = [] := by
  have hcopy := sqlCopyDesc_different hsrc htgt hcheck hdbc henv
  have htarget : (copied w target src).descs target = _ := descs_target htgt
  have hsource : (copied w target src).descs source = _ := descs_source hne hsrc
  -- the checks and the connections are as they were
  have htwice : (copied w target src).sqlCopyDesc source target
      = (.success, copied (copied w target src) target src) :=
    sqlCopyDesc_different hsource htarget hcheck hdbc henv
  constructor
  · rintro ⟨halike, -, hagain⟩
    obtain ⟨tgt', htgt', hrecords, -⟩ := halike src hsrc
    rw [hcopy, htarget] at htgt'
    obtain rfl := Option.some.inj htgt'
    have hnil : tgt.records = [] := by
      simpa [copyOnlyOdbcFields_eq] using hrecords
    rw [hcopy, htwice] at hagain
    have hsame := congrArg (fun w => (w.descs target).map OdbcHandleDesc.records) hagain
    have htarget' : (copied (copied w target src) target src).descs target = _ :=
      descs_target htarget
    simp only [htarget, htarget', Option.map_some, copyOnlyOdbcFields_eq, hnil, List.nil_append,
      Option.some.injEq] at hsame
    exact ⟨List.self_eq_append_left.1 hsame.symm, hnil⟩
  · rintro ⟨hsrcnil, htgtnil⟩
    refine ⟨fun src' hsrc' => ?_, by rw [hcopy, hsource, hsrc], ?_⟩
    · obtain rfl := Option.some.inj (hsrc.symm.trans hsrc')
      refine ⟨tgt.copyOnlyOdbcFields src, by rw [hcopy, htarget], ?_, rfl⟩
      rw [copyOnlyOdbcFields_eq, hsrcnil, htgtnil]
      rfl
    · rw [hcopy, htwice, copied_twice htgt hsrcnil]

/-- A copy that succeeds between two descriptors of an environment does what it is to do just
when there is nothing to copy : the target is like the source before where they are of one
connection, and neither has records where they are not. -/
theorem sqlCopyDesc_iff (hne : source ≠ target)
    (hret : (w.sqlCopyDesc source target).1 = .success)
    (henv : ∀ src tgt, w.descs source = some src → w.descs target = some tgt →
      w.env src.dbc = w.env tgt.dbc) :
    Copies w source target ↔ ∀ src tgt, w.descs source = some src → w.descs target = some tgt →
      NothingToCopy src tgt := by
  obtain ⟨src, tgt, hsrc, htgt, hcheck⟩ := sqlCopyDesc_success hret
  have hiff : Copies w source target ↔ NothingToCopy src tgt := by
    by_cases hdbc : src.dbc = tgt.dbc
    · rw [NothingToCopy, if_pos hdbc, copies_same_iff hsrc htgt hcheck hdbc]
    · rw [NothingToCopy, if_neg hdbc,
        copies_different_iff hne hsrc htgt hcheck hdbc (henv src tgt hsrc htgt)]
  rw [hiff]
  constructor
  · intro h src' tgt' hsrc' htgt'
    obtain rfl := Option.some.inj (hsrc.symm.trans hsrc')
    obtain rfl := Option.some.inj (htgt.symm.trans htgt')
    exact h
  · exact fun h => h src tgt hsrc htgt

/-- Two descriptors that an application allocated, at the addresses 1 and 2, with their
records. -/
def twoDescs (dbc dbc' : Handle) (records records' : List DescRecord) : World where
  conn _ := true
  env _ := 0
  vecStmtRef _ := []
  stmts _ := none
  descs a :=
    if a = 1 then some { dbc := dbc, stmt := none, records := records }
    else if a = 2 then some { dbc := dbc', stmt := none, records := records' }
    else none
  clock := 0

theorem descs_twoDescs (dbc dbc' : Handle) (records records' : List DescRecord) :
    (twoDescs dbc dbc' records records').descs 1
        = some { dbc := dbc, stmt := none, records := records } ∧
      (twoDescs dbc dbc' records records').descs 2
        = some { dbc := dbc', stmt := none, records := records' } :=
  ⟨rfl, rfl⟩

/-- Within a connection, between descriptors with the same record, and to another connection,
between descriptors without one. -/
theorem sqlCopyDesc_iff_alike :
    let record : DescRecord := { name := [97], precision := 18 }
    Copies (twoDescs 3 3 [record] [record]) 1 2 ∧ Copies (twoDescs 3 4 [] []) 1 2 := by
  intro record
  constructor
  · refine (sqlCopyDesc_iff (by decide) rfl fun _ _ _ _ => rfl).2 fun src tgt hsrc htgt => ?_
    obtain rfl := Option.some.inj hsrc
    obtain rfl := Option.some.inj htgt
    exact ⟨rfl, rfl⟩
  · refine (sqlCopyDesc_iff (by decide) rfl fun _ _ _ _ => rfl).2 fun src tgt hsrc htgt => ?_
    obtain rfl := Option.some.inj hsrc
    obtain rfl := Option.some.inj htgt
    exact ⟨rfl, rfl⟩

/-- A record is not copied within a connection, and twice to another one. -/
theorem copy_keeps_no_record :
    ¬Copies (twoDescs 3 3 [{}] []) 1 2 ∧ ¬Copies (twoDescs 3 4 [{}] []) 1 2 := by
  constructor
  · obtain ⟨hsrc, htgt⟩ := descs_twoDescs 3 3 [{}] []
    rw [copies_same_iff hsrc htgt rfl rfl]
    exact fun h => absurd h.records (by decide)
  · obtain ⟨hsrc, htgt⟩ := descs_twoDescs 3 4 [{}] []
    rw [copies_different_iff (by decide) hsrc htgt rfl (by decide) rfl]
    exact fun h => absurd h.1 (by decide)

end HaybarnOdbc.Desc
