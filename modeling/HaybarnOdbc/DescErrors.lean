import HaybarnOdbc.DescValues

/-!
# A descriptor after an error

`SetDescField` makes the record before it looks at the field, and `SQLSetDescRec` makes records
and sets the type, and what comes after it, before a later field fails. So an error leaves a
descriptor as it was just when the record is there, and what was set until then was in it
(`error_keeps_iff`).
-/

namespace HaybarnOdbc.Desc

/-- The header and the records are the same. -/
structure Same (d d' : OdbcHandleDesc) : Prop where
  header : d'.header = d.header
  records : d'.records = d.records

/-- A field of the header. -/
def DescField.isHeader : DescField → Bool
  | .allocType | .arraySize _ | .arrayStatusPtr _ | .bindOffsetPtr _ | .bindType _ | .count _
  | .rowsProcessedPtr _ => true
  | _ => false

variable {d x : OdbcHandleDesc} {k : Kind} {n : ℤ} {f : DescField}

theorem Same.refl (d : OdbcHandleDesc) : Same d d := ⟨rfl, rfl⟩

/-- What is posted changes neither. -/
@[simp] theorem same_setDiagnosticRecord (ret : SqlReturn) (component msg sqlState : String) :
    Same d (x.setDiagnosticRecord ret component msg sqlState).2 ↔ Same d x :=
  ⟨fun h => ⟨h.header, h.records⟩, fun h => ⟨h.header, h.records⟩⟩

@[simp] theorem same_returnInvalidFieldIdentifier (isReadonly : Bool) :
    Same d (x.returnInvalidFieldIdentifier isReadonly).2 ↔ Same d x :=
  same_setDiagnosticRecord ..

/-! ## One field -/

/-- A field of a record that fails changes nothing of it. -/
theorem same_setRecordField {idx : ℕ}
    (h : (x.setRecordField findDataType k idx f).1 = .error) :
    Same d (x.setRecordField findDataType k idx f).2 ↔ Same d x := by
  have hfield : ∀ readonly set, (x.setField idx readonly set).1 = .error →
      (Same d (x.setField idx readonly set).2 ↔ Same d x) := by
    intro readonly set h
    cases readonly with
    | true => exact same_returnInvalidFieldIdentifier true
    | false => cases h
  have htype : ∀ readonly t, (x.setTypeField findDataType idx readonly t).1 = .error →
      (Same d (x.setTypeField findDataType idx readonly t).2 ↔ Same d x) := by
    intro readonly t h
    unfold OdbcHandleDesc.setTypeField at h ⊢
    cases readonly with
    | true => exact same_returnInvalidFieldIdentifier true
    | false =>
      cases hinfo : findDataType t with
      | none => exact same_setDiagnosticRecord ..
      | some info =>
        simp only [hinfo] at h
        cases h
  cases f <;> first
    | exact hfield _ _ h
    | exact htype _ _ h
    | exact same_returnInvalidFieldIdentifier _

/-- A record is added unless it is there. -/
theorem same_getDescRecord_iff (idx : ℕ) :
    Same d (d.getDescRecord idx) ↔ idx < d.records.length := by
  constructor
  · intro h
    have hlen := congrArg List.length h.records
    rw [length_getDescRecord] at hlen
    omega
  · intro hlt
    rw [OdbcHandleDesc.getDescRecord, if_neg (by omega)]
    exact .refl d

/-- A field that fails leaves the descriptor as it was just when it is one of the header, or the
record number is none, or the record is there. -/
theorem same_setDescField_iff (h : (d.setDescField findDataType k n f).1 = .error) :
    Same d (d.setDescField findDataType k n f).2 ↔
      f.isHeader = true ∨ n ≤ 0 ∨ n ≤ d.records.length := by
  by_cases hheader : f.isHeader = true
  · refine iff_of_true ?_ (.inl hheader)
    cases f with
    | allocType => exact ⟨rfl, rfl⟩
    | arraySize size =>
      unfold OdbcHandleDesc.setDescField at h ⊢
      dsimp only at h ⊢
      split_ifs at h ⊢ with hid hzero
      · exact ⟨rfl, rfl⟩
      · exact ⟨rfl, rfl⟩
    | arrayStatusPtr ptr => cases h
    | bindOffsetPtr ptr | bindType t | count c | rowsProcessedPtr ptr =>
      unfold OdbcHandleDesc.setDescField at h ⊢
      dsimp only at h ⊢
      split_ifs at h ⊢
      exact ⟨rfl, rfl⟩
    | _ => cases hheader
  · have hrecord : d.setDescField findDataType k n f = if n ≤ 0 then
        d.setDiagnosticRecord .error "SQLSetDescField" "Invalid descriptor index." "07009"
      else (d.getDescRecord (n - 1).toNat).setRecordField findDataType k (n - 1).toNat f := by
      cases f <;> first | rfl | exact absurd rfl hheader
    rw [hrecord] at h ⊢
    by_cases hn : n ≤ 0
    · rw [if_pos hn, same_setDiagnosticRecord]
      exact iff_of_true (.refl d) (.inr (.inl hn))
    · rw [if_neg hn] at h ⊢
      rw [same_setRecordField h, same_getDescRecord_iff]
      constructor
      · intro hlt
        exact .inr (.inr (by omega))
      · rintro (hf | hle | hle)
        · exact absurd hf hheader
        · exact absurd hle hn
        · omega

/-! ## SQLSetDescRec -/

/-- A change of a record is none just if it leaves the record as it is. -/
theorem modify_eq_self_iff {l : List DescRecord} {idx : ℕ} {set : DescRecord → DescRecord} :
    l.modify idx set = l ↔ ∀ r, l[idx]? = some r → set r = r := by
  constructor
  · intro h r hr
    have hget := congrArg (·[idx]?) h
    simpa only [List.getElem?_modify_eq, hr, Option.map_eq_map, Option.map_some,
      Option.some.injEq] using hget
  · intro h
    refine List.ext_getElem? fun i => ?_
    rw [List.getElem?_modify]
    by_cases hi : idx = i
    · subst hi
      cases hr : l[idx]? with
      | none => simp
      | some r => simp [h r hr]
    · simp [hi]

/-- What `SQLSetDescRec` does to a descriptor is nothing just when its record number is counted,
the record is there, and has what is set. -/
theorem same_setRecord_iff (hn : 1 ≤ n) (set : DescRecord → DescRecord) :
    Same d ((grown d n).setRecord (n - 1).toNat set) ↔
      n ≤ d.header.count ∧ n ≤ d.records.length ∧
        ∀ r, d.records[(n - 1).toNat]? = some r → set r = r := by
  by_cases hcount : n ≤ d.header.count
  · have hgrown : grown d n = d := if_neg (by omega)
    rw [hgrown]
    by_cases hlen : n ≤ d.records.length
    · have hthere : d.getDescRecord (n - 1).toNat = d := if_neg (by omega)
      rw [OdbcHandleDesc.setRecord, hthere]
      simp only [hcount, hlen, true_and, ← modify_eq_self_iff]
      exact ⟨fun h => h.records, fun h => ⟨rfl, h⟩⟩
    · simp only [hlen, false_and, and_false, iff_false]
      intro h
      have hsame := congrArg List.length h.records
      rw [length_setRecord] at hsame
      omega
  · simp only [hcount, false_and, iff_false]
    intro h
    have hgrown : grown d n = d.addMoreRecords n.toNat := if_pos (by omega)
    have hthere : (grown d n).getDescRecord (n - 1).toNat = grown d n := by
      refine if_neg ?_
      rw [hgrown, OdbcHandleDesc.addMoreRecords, length_resize]
      omega
    have hheader := congrArg DescHeader.count h.header
    rw [OdbcHandleDesc.setRecord, hthere, hgrown] at hheader
    simp only [OdbcHandleDesc.addMoreRecords] at hheader
    omega

/-- A record that is called for is new unless it is counted and there. -/
theorem same_grown_iff (hn : 1 ≤ n) :
    Same d ((grown d n).getDescRecord (n - 1).toNat) ↔
      n ≤ d.header.count ∧ n ≤ d.records.length := by
  have hid : (grown d n).setRecord (n - 1).toNat id = (grown d n).getDescRecord (n - 1).toNat := by
    rw [OdbcHandleDesc.setRecord, List.modify_id]
  rw [← hid, same_setRecord_iff hn]
  simp

/-- The fields that are set before the pointers. -/
def partSet (info : OdbcTypeInfo) (length precision scale : ℤ) : DescRecord → DescRecord :=
  [.octetLength length, .precision precision, .scale scale].foldl
    (fun set (f : DescField) => f.assign ∘ set) fun r => r.setSqlDescType info

/-- Where the descriptor has a statement the first pointer fails. -/
theorem setDescField_dataPtr (hstmt : d.stmt ≠ none) (hn : 1 ≤ n) (ptr : Addr) :
    d.setDescField findDataType k n (.dataPtr ptr)
      = (d.getDescRecord (n - 1).toNat).returnInvalidFieldIdentifier true := by
  have hpos : ¬n ≤ 0 := by omega
  have hid : (d.getDescRecord (n - 1).toNat).isID = true := by
    simp [OdbcHandleDesc.isID, Option.isSome_iff_ne_none, hstmt]
  simp only [OdbcHandleDesc.setDescField, hpos, if_false, OdbcHandleDesc.setRecordField,
    OdbcHandleDesc.setField, hid, if_true]

/-- `SQLSetDescRec` of a descriptor with a statement. -/
theorem sqlSetDescRec_of_stmt {type length precision scale : ℤ} {args : Addr × Addr × Addr}
    {info : OdbcTypeInfo} (hk : k.isIRD = false) (hstmt : d.stmt ≠ none) (hn : 1 ≤ n)
    (hinfo : findDataType type = some info) :
    d.sqlSetDescRec findDataType k n type length precision scale args
      = ((grown d n).setRecord (n - 1).toNat
          (partSet info length precision scale)).returnInvalidFieldIdentifier true := by
  have htype : (grown d n).setDescField findDataType k n (.type type) = _ :=
    setDescField_type hk hn hinfo
  have hassign := @setDescFields_assign Unit (grown d n) n k hk hn
    [.dataPtr args.1, .octetLengthPtr args.2.1, .indicatorPtr args.2.2]
    [.octetLength length, .precision precision, .scale scale] (fun r => r.setSqlDescType info)
    (by simp [DescField.value, DescField.isPointer])
  have hthere : ∀ set, ((grown d n).setRecord (n - 1).toNat set).getDescRecord (n - 1).toNat
      = (grown d n).setRecord (n - 1).toNat set := by
    intro set
    refine if_neg ?_
    rw [length_setRecord]
    omega
  have hfails := setDescField_dataPtr (d := (grown d n).setRecord (n - 1).toNat
    (partSet info length precision scale)) (k := k) (by rwa [stmt_setRecord, stmt_grown]) hn args.1
  rw [hthere] at hfails
  have hfields : recFields length precision scale args
      = [.octetLength length, .precision precision, .scale scale] ++
        [.dataPtr args.1, .octetLengthPtr args.2.1, .indicatorPtr args.2.2] := rfl
  rw [sqlSetDescRec_call hk hn, setDescRecFields_eq hinfo, setDescFields_cons, htype, hfields,
    hassign, ← partSet, setDescFields_cons, hfails, setDescFields_error _ _ rfl]

/-- `SQLSetDescRec` that fails leaves the descriptor as it was just when it is refused at once, or
the record number is counted, the record is there, and what was set before the failure was in it. -/
theorem same_sqlSetDescRec_iff {type length precision scale : ℤ} {args : Addr × Addr × Addr}
    (h : (d.sqlSetDescRec findDataType k n type length precision scale args).1 = .error) :
    Same d (d.sqlSetDescRec findDataType k n type length precision scale args).2 ↔
      k.isIRD = true ∨ n ≤ 0 ∨ (n ≤ d.header.count ∧ n ≤ d.records.length ∧
        ∀ info r, findDataType type = some info → d.records[(n - 1).toNat]? = some r →
          partSet info length precision scale r = r) := by
  by_cases hird : k.isIRD = true
  · refine iff_of_true ?_ (.inl hird)
    simp only [OdbcHandleDesc.sqlSetDescRec, hird, if_true]
    exact (same_setDiagnosticRecord ..).2 (.refl d)
  rw [Bool.not_eq_true] at hird
  by_cases hpos : n ≤ 0
  · refine iff_of_true ?_ (.inr (.inl hpos))
    simp only [OdbcHandleDesc.sqlSetDescRec, hird, hpos, Bool.false_eq_true, if_false, if_true]
    exact (same_setDiagnosticRecord ..).2 (.refl d)
  have hn : 1 ≤ n := by omega
  simp only [hird, Bool.false_eq_true, hpos, false_or]
  cases hinfo : findDataType type with
  | none =>
    rw [sqlSetDescRec_call hird hn, OdbcHandleDesc.setDescRecFields, List.cons_append,
      setDescFields_cons, setDescField_type_none hird hn hinfo, setDescFields_error _ _ rfl,
      same_setDiagnosticRecord, same_grown_iff hn]
    simp
  | some info =>
    by_cases hstmt : d.stmt = none
    · rw [sqlSetDescRec_eq hird hstmt hn hinfo] at h
      cases h
    · rw [sqlSetDescRec_of_stmt hird hstmt hn hinfo, same_returnInvalidFieldIdentifier,
        same_setRecord_iff hn]
      simp only [Option.some.injEq]
      constructor
      · rintro ⟨h1, h2, h3⟩
        exact ⟨h1, h2, by rintro _ r rfl hr; exact h3 r hr⟩
      · rintro ⟨h1, h2, h3⟩
        exact ⟨h1, h2, fun r hr => h3 info r rfl hr⟩

/-- An error leaves header and records as they were just when there was nothing to make or to
set : a field of the header or no record number, or a record that is there; and for
`SQLSetDescRec` a record number that is counted, and a record that has what was set before. -/
theorem error_keeps_iff (d : OdbcHandleDesc) (k : Kind) (n : ℤ) :
    (∀ f : DescField, (d.setDescField findDataType k n f).1 = .error →
      (Same d (d.setDescField findDataType k n f).2 ↔
        f.isHeader = true ∨ n ≤ 0 ∨ n ≤ d.records.length)) ∧
    ∀ (type length precision scale : ℤ) (args : Addr × Addr × Addr),
      (d.sqlSetDescRec findDataType k n type length precision scale args).1 = .error →
      (Same d (d.sqlSetDescRec findDataType k n type length precision scale args).2 ↔
        k.isIRD = true ∨ n ≤ 0 ∨ (n ≤ d.header.count ∧ n ≤ d.records.length ∧
          ∀ info r, findDataType type = some info → d.records[(n - 1).toNat]? = some r →
            partSet info length precision scale r = r)) :=
  ⟨fun _ h => same_setDescField_iff h, fun _ _ _ _ _ h => same_sqlSetDescRec_iff h⟩

/-- A field that cannot be set, and a type that is none, leave a record behind. -/
theorem error_adds_record :
    (newDesc.setDescField findDataType written 1 .readOnly).1 = .error ∧
      ¬Same newDesc (newDesc.setDescField findDataType written 1 .readOnly).2 ∧
      (newDesc.sqlSetDescRec findDataType written 1 77 4 10 0 (1, 2, 3)).1 = .error ∧
      ¬Same newDesc (newDesc.sqlSetDescRec findDataType written 1 77 4 10 0 (1, 2, 3)).2 := by
  refine ⟨rfl, fun h => ?_, by decide +kernel, fun h => ?_⟩
  · exact absurd h.records (by decide)
  · exact absurd h.records (by decide +kernel)

end HaybarnOdbc.Desc
