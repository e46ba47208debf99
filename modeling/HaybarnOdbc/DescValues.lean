import HaybarnOdbc.DescTypes

/-!
# The values of a descriptor

What `SQLSetDescField` and `SQLSetDescRec` set of a descriptor, and what `SQLGetDescField`
returns of it. `SQLSetDescRec` sets the three pointers to the addresses of its own arguments,
and `SQLGetDescField` assigns the pointer to the data to its own argument, so that nothing is
returned. A type that the table takes for a text becomes one. All other fields are returned as
they were set (`holds_iff`).
-/

namespace HaybarnOdbc.Desc

open Diag (smallInt CharType)

/-! ## SQLGetDescField -/

/-- The fields of a column with a number of their own for `SQLColAttribute`, the `SQL_COLUMN_…` of
which no descriptor has a field. -/
inductive ColumnField
  | count
  | length
  | name
  | nullable
  | precision
  | scale
  deriving DecidableEq, Repr

/-- The fields of a descriptor or of a column, `other` for a number that is none. -/
inductive FieldId
  | allocType
  | arraySize
  | arrayStatusPtr
  | bindOffsetPtr
  | bindType
  | count
  | rowsProcessedPtr
  | autoUniqueValue
  | baseColumnName
  | baseTableName
  | caseSensitive
  | catalogName
  | conciseType
  | dataPtr
  | datetimeIntervalCode
  | datetimeIntervalPrecision
  | displaySize
  | fixedPrecScale
  | indicatorPtr
  | label
  | length
  | literalPrefix
  | literalSuffix
  | localTypeName
  | name
  | nullable
  | numPrecRadix
  | octetLength
  | octetLengthPtr
  | parameterType
  | precision
  | rowver
  | scale
  | schemaName
  | searchable
  | tableName
  | type
  | typeName
  | unnamed
  | unsigned
  | updatable
  | column (field : ColumnField)
  | other
  deriving DecidableEq, Repr

/-- `IsNumericDescriptorField`. -/
def FieldId.isNumericDescriptorField : FieldId → Bool
  | .allocType | .arraySize | .bindType | .count | .autoUniqueValue | .caseSensitive
  | .conciseType | .datetimeIntervalCode | .datetimeIntervalPrecision | .displaySize
  | .fixedPrecScale | .length | .nullable | .numPrecRadix | .octetLength | .parameterType
  | .precision | .rowver | .scale | .searchable | .type | .unnamed | .unsigned | .updatable => true
  | _ => false

/-- What is stored at the pointer of the caller : a number, a pointer, a text with the length
that is stored elsewhere, or nothing. -/
inductive Stored (α : Type)
  | number (n : ℤ)
  | pointer (ptr : Addr)
  | text (units : Option (List α)) (length : ℤ)
  | nothing
  deriving DecidableEq, Repr

/-- What a call returns, what it stores, and the descriptor with what was posted on it. -/
structure Got (α : Type) where
  ret : SqlReturn
  stored : Stored α
  desc : OdbcHandleDesc
  deriving DecidableEq, Repr

/-- `SQL_DESC_ALLOC_AUTO` and `SQL_DESC_ALLOC_USER` as numbers. -/
def AllocType.toInt : AllocType → ℤ
  | .auto => 1
  | .user => 2

section Get

variable {α : Type} (C : CharType α)

/-- `WriteStringDesc`, where the caller has a buffer or none. -/
def writeStringDesc (d : OdbcHandleDesc) (str : List UInt8) (valuePtr : Bool)
    (bufferLength : ℤ) : Got α :=
  if bufferLength < 0 then
    let p := d.setDiagnosticRecord .error "SQLGetDescField"
      "Invalid string or buffer length" "HY090"
    ⟨p.1, .nothing, p.2⟩
  else
    let written := if valuePtr then some (C.copied str bufferLength) else none
    let stored := .text written ((C.units str).length : ℤ)
    if written.any (·.length < (C.units str).length) then
      let p := d.setDiagnosticRecord .successWithInfo "SQLGetDescField"
        "String data, right truncated" "01004"
      ⟨p.1, stored, p.2⟩
    else ⟨.success, stored, d⟩

/-- A field that the descriptor does not have. -/
def invalidField (d : OdbcHandleDesc) : Got α :=
  let p := d.returnInvalidFieldIdentifier false
  ⟨p.1, .nothing, p.2⟩

/-- A value that is returned unless the descriptor does not have the field. -/
def storeUnless (d : OdbcHandleDesc) (invalid : Bool) (stored : Stored α) : Got α :=
  if invalid then invalidField d else ⟨.success, stored, d⟩

/-- A text that is returned unless the descriptor does not have the field. -/
def textUnless (d : OdbcHandleDesc) (invalid : Bool) (str : List UInt8) (valuePtr : Bool)
    (bufferLength : ℤ) : Got α :=
  if invalid then invalidField d else writeStringDesc C d str valuePtr bufferLength

/-- The fields of the header. -/
def getHeaderField (d : OdbcHandleDesc) : FieldId → Option (Got α)
  | .allocType => some (storeUnless d false (.number d.header.allocType.toInt))
  | .arraySize => some (storeUnless d d.isID (.number d.header.arraySize))
  | .arrayStatusPtr => some (storeUnless d false (.pointer d.header.arrayStatusPtr))
  | .bindOffsetPtr => some (storeUnless d d.isID (.pointer d.header.bindOffsetPtr))
  | .bindType => some (storeUnless d d.isID (.number d.header.bindType))
  | .count => some (storeUnless d false (.number d.header.count))
  | .rowsProcessedPtr => some (storeUnless d d.isAD (.pointer d.header.rowsProcessedPtr))
  | _ => none

/-- The fields of a record. -/
def getRecordField (d : OdbcHandleDesc) (k : Kind) (r : DescRecord) (f : FieldId)
    (valuePtr : Bool) (bufferLength : ℤ) : Got α :=
  match f with
  | .autoUniqueValue => storeUnless d (!k.isIRD) (.number 0)
  | .baseColumnName => textUnless C d (!k.isIRD) r.baseColumnName valuePtr bufferLength
  | .baseTableName => textUnless C d (!k.isIRD) r.baseTableName valuePtr bufferLength
  | .caseSensitive => storeUnless d (!k.isIRD) (.number r.caseSensitive)
  | .catalogName => textUnless C d (!k.isIRD) r.catalogName valuePtr bufferLength
  | .conciseType => storeUnless d false (.number r.conciseType)
  -- the pointer is assigned to the argument itself
  | .dataPtr => storeUnless d d.isID .nothing
  | .datetimeIntervalCode => storeUnless d false (.number r.datetimeIntervalCode)
  | .datetimeIntervalPrecision => storeUnless d false (.number r.datetimeIntervalPrecision)
  | .displaySize => storeUnless d (!k.isIRD) (.number r.displaySize)
  | .fixedPrecScale => storeUnless d (!k.isIRD) (.number r.fixedPrecScale)
  | .indicatorPtr => storeUnless d d.isID (.pointer r.indicatorPtr)
  | .label => textUnless C d (!k.isIRD) r.label valuePtr bufferLength
  | .length => storeUnless d false (.number r.length)
  | .literalPrefix => textUnless C d (!k.isIRD) r.literalPrefix valuePtr bufferLength
  | .literalSuffix => textUnless C d (!k.isIRD) r.literalSuffix valuePtr bufferLength
  | .localTypeName => textUnless C d d.isAD r.localTypeName valuePtr bufferLength
  | .name => textUnless C d d.isAD r.name valuePtr bufferLength
  | .nullable => storeUnless d (!d.isAD) (.number r.nullable)
  | .numPrecRadix => storeUnless d false (.number r.numPrecRadix)
  | .octetLength => storeUnless d false (.number r.octetLength)
  | .octetLengthPtr => storeUnless d d.isID (.pointer r.octetLengthPtr)
  | .parameterType => storeUnless d (!k.isIPD) (.number r.parameterType)
  | .precision => storeUnless d false (.number r.precision)
  | .rowver => storeUnless d (!d.isAD) (.number r.rowver)
  | .scale => storeUnless d false (.number r.scale)
  | .schemaName => textUnless C d (!k.isIRD) r.schemaName valuePtr bufferLength
  | .searchable => storeUnless d (!k.isIRD) (.number r.searchable)
  | .tableName => textUnless C d (!k.isIRD) r.tableName valuePtr bufferLength
  | .type => storeUnless d false (.number r.type)
  | .typeName => textUnless C d d.isAD r.typeName valuePtr bufferLength
  | .unnamed => storeUnless d (!d.isAD) (.number r.unnamed)
  | .unsigned => storeUnless d (!d.isAD) (.number r.unsigned)
  | .updatable => storeUnless d (!k.isIRD) (.number r.updatable)
  | _ => invalidField d

/-- `GetDescFieldInternal`. `none` is a pointer stored at a null pointer, or an index that is out
of range. -/
def getDescField (d : OdbcHandleDesc) (k : Kind) (recNumber : ℤ) (f : FieldId)
    (valuePtr : Bool) (bufferLength : ℤ) : Option (Got α) :=
  let checked (got : Got α) : Option (Got α) :=
    match got.stored with
    | .pointer _ => if valuePtr then some got else none
    | _ => some got
  if f.isNumericDescriptorField && !valuePtr then
    let p := d.setDiagnosticRecord .error "SQLGetDescField"
      "Invalid null value pointer for descriptor numeric field" "HY009"
    some ⟨p.1, .nothing, p.2⟩
  else
    match getHeaderField d f with
    | some got => checked got
    | none =>
      if recNumber ≤ 0 ∨ recNumber > smallInt d.records.length then
        let p := d.setDiagnosticRecord .error "SQLGetDescField" "Invalid descriptor index" "07009"
        some ⟨p.1, .nothing, p.2⟩
      else
        (d.records[(recNumber - 1).toNat]?).bind fun r =>
          checked (getRecordField C d k r f valuePtr bufferLength)

end Get

/-! ## What is to be held -/

/-- A descriptor that may be written has no statement, and is neither of the two that belong to
one. -/
def written : Kind := ⟨false, false⟩

/-- The field of a value that is set, and the value as it is returned. -/
def DescField.value (α : Type) : DescField → Option (FieldId × Stored α)
  | .conciseType t => some (.conciseType, .number t)
  | .type t => some (.type, .number t)
  | .length n => some (.length, .number n)
  | .octetLength n => some (.octetLength, .number n)
  | .precision n => some (.precision, .number n)
  | .scale n => some (.scale, .number n)
  | .dataPtr ptr => some (.dataPtr, .pointer ptr)
  | .octetLengthPtr ptr => some (.octetLengthPtr, .pointer ptr)
  | .indicatorPtr ptr => some (.indicatorPtr, .pointer ptr)
  | _ => none

/-- What a record has in these fields. -/
def DescRecord.stored (α : Type) (r : DescRecord) : FieldId → Stored α
  | .conciseType => .number r.conciseType
  | .type => .number r.type
  | .length => .number r.length
  | .octetLength => .number r.octetLength
  | .precision => .number r.precision
  | .scale => .number r.scale
  | .dataPtr => .pointer r.dataPtr
  | .octetLengthPtr => .pointer r.octetLengthPtr
  | .indicatorPtr => .pointer r.indicatorPtr
  | _ => .nothing

/-- The values of `SQLSetDescRec`. -/
def recValues (α : Type) (type length precision scale : ℤ) (ptrs : Addr × Addr × Addr) :
    List (FieldId × Stored α) :=
  [(.type, .number type), (.octetLength, .number length), (.precision, .number precision),
    (.scale, .number scale), (.dataPtr, .pointer ptrs.1), (.octetLengthPtr, .pointer ptrs.2.1),
    (.indicatorPtr, .pointer ptrs.2.2)]

section Values

variable {α : Type}

/-- The record has the value. -/
def Has (d : OdbcHandleDesc) (recNumber : ℤ) (id : FieldId) (v : Stored α) : Prop :=
  ∃ r, d.records[(recNumber - 1).toNat]? = some r ∧ r.stored α id = v

/-- `SQLGetDescField` returns the value. -/
def Returns (C : CharType α) (d : OdbcHandleDesc) (recNumber : ℤ) (id : FieldId)
    (v : Stored α) : Prop :=
  ∀ bufferLength, getDescField C d written recNumber id true bufferLength = some ⟨.success, v, d⟩

/-- The value is there, and is returned. -/
def Holds (C : CharType α) (d : OdbcHandleDesc) (recNumber : ℤ) (id : FieldId)
    (v : Stored α) : Prop :=
  Has d recNumber id v ∧ Returns C d recNumber id v

variable {C : CharType α} {d d' : OdbcHandleDesc} {n : ℤ} {f : DescField} {id : FieldId}
  {v : Stored α}

/-! ## One field -/

/-- What is made of the record by a field that is only assigned. -/
def DescField.assign : DescField → DescRecord → DescRecord
  | .conciseType t => fun r => { r with conciseType := t }
  | .length n => fun r => { r with length := n }
  | .octetLength n => fun r => { r with octetLength := n }
  | .precision n => fun r => { r with precision := n }
  | .scale n => fun r => { r with scale := n }
  | .dataPtr ptr => fun r => { r with dataPtr := ptr }
  | .octetLengthPtr ptr => fun r => { r with octetLengthPtr := ptr }
  | .indicatorPtr ptr => fun r => { r with indicatorPtr := ptr }
  | _ => fun r => r

/-- A field that is assigned holds its value. -/
theorem stored_assign (hf : f.value α = some (id, v)) (htype : ∀ t, f ≠ .type t)
    (r : DescRecord) : (f.assign r).stored α id = v := by
  cases f with
  | type t => exact absurd rfl (htype t)
  | conciseType | length | octetLength | precision | scale | dataPtr | octetLengthPtr
  | indicatorPtr =>
    obtain ⟨rfl, rfl⟩ := Prod.mk.inj (Option.some.inj hf)
    rfl
  | _ => cases hf

/-- All other fields stay as they are. -/
theorem stored_assign_eq (hf : f.value α = some (id, v)) (htype : ∀ t, f ≠ .type t)
    (id' : FieldId) (r : DescRecord) :
    (f.assign r).stored α id' = if id' = id then v else r.stored α id' := by
  split_ifs with heq
  · rw [heq, stored_assign hf htype]
  · cases f with
    | type t => exact absurd rfl (htype t)
    | conciseType | length | octetLength | precision | scale | dataPtr | octetLengthPtr
    | indicatorPtr =>
      obtain ⟨rfl, rfl⟩ := Prod.mk.inj (Option.some.inj hf)
      cases id' <;> first | rfl | exact absurd rfl heq
    | _ => cases hf

/-- The fields that an implementation descriptor does not have. -/
def DescField.isPointer : DescField → Bool
  | .dataPtr _ | .octetLengthPtr _ | .indicatorPtr _ => true
  | _ => false

/-- The record at the index is changed, and is there before. -/
def OdbcHandleDesc.setRecord (d : OdbcHandleDesc) (idx : ℕ) (set : DescRecord → DescRecord) :
    OdbcHandleDesc :=
  { d.getDescRecord idx with records := (d.getDescRecord idx).records.modify idx set }

theorem length_getDescRecord (d : OdbcHandleDesc) (idx : ℕ) :
    (d.getDescRecord idx).records.length = max d.records.length (idx + 1) := by
  unfold OdbcHandleDesc.getDescRecord
  split_ifs with h
  · rw [length_resize]
    omega
  · omega

@[simp] theorem stmt_getDescRecord (d : OdbcHandleDesc) (idx : ℕ) :
    (d.getDescRecord idx).stmt = d.stmt := by
  unfold OdbcHandleDesc.getDescRecord
  split_ifs <;> rfl

@[simp] theorem stmt_setRecord (d : OdbcHandleDesc) (idx : ℕ) (set : DescRecord → DescRecord) :
    (d.setRecord idx set).stmt = d.stmt := stmt_getDescRecord d idx

/-- A record that is set is there, with those in front of it. -/
theorem length_setRecord (d : OdbcHandleDesc) (idx : ℕ) (set : DescRecord → DescRecord) :
    (d.setRecord idx set).records.length = max d.records.length (idx + 1) := by
  rw [OdbcHandleDesc.setRecord, List.length_modify, length_getDescRecord]

/-- It is the record that was set. -/
theorem getElem?_setRecord (d : OdbcHandleDesc) (idx : ℕ) (set : DescRecord → DescRecord) :
    ∃ r, (d.setRecord idx set).records[idx]? = some (set r) := by
  have hlt : idx < (d.getDescRecord idx).records.length := by
    rw [length_getDescRecord]
    omega
  exact ⟨_, by rw [OdbcHandleDesc.setRecord, List.getElem?_modify_eq,
    List.getElem?_eq_getElem hlt]; rfl⟩

/-- A record that is there is changed twice at once. -/
theorem setRecord_setRecord (d : OdbcHandleDesc) (idx : ℕ) (set set' : DescRecord → DescRecord) :
    (d.setRecord idx set).setRecord idx set' = d.setRecord idx (set' ∘ set) := by
  have hthere : (d.setRecord idx set).getDescRecord idx = d.setRecord idx set := by
    rw [OdbcHandleDesc.getDescRecord, if_neg]
    rw [length_setRecord]
    omega
  rw [OdbcHandleDesc.setRecord, hthere]
  simp only [OdbcHandleDesc.setRecord, List.modify_modify_eq]

/-- A field that is only assigned is assigned whenever the record number is one. -/
theorem setDescField_assign {k : Kind} (hk : k.isIRD = false)
    (hstmt : f.isPointer = true → d.stmt = none) (hn : 1 ≤ n) (hf : (f.value α).isSome)
    (htype : ∀ t, f ≠ .type t) :
    d.setDescField findDataType k n f = (.success, d.setRecord (n - 1).toNat f.assign) := by
  have hpos : ¬n ≤ 0 := by omega
  cases f with
  | type t => exact absurd rfl (htype t)
  | conciseType | length | octetLength | precision | scale =>
    simp only [OdbcHandleDesc.setDescField, hpos, if_false, OdbcHandleDesc.setRecordField,
      OdbcHandleDesc.setField, hk, Bool.false_eq_true]
    rfl
  | dataPtr | octetLengthPtr | indicatorPtr =>
    have hid : (d.getDescRecord (n - 1).toNat).isID = false := by
      simp [OdbcHandleDesc.isID, hstmt rfl]
    simp only [OdbcHandleDesc.setDescField, hpos, if_false, OdbcHandleDesc.setRecordField,
      OdbcHandleDesc.setField, hid, Bool.false_eq_true]
    rfl
  | _ => cases hf

/-- The type is set with what the table has for it. -/
theorem setDescField_type {k : Kind} (hk : k.isIRD = false) (hn : 1 ≤ n) {t : ℤ}
    {info : OdbcTypeInfo} (hinfo : findDataType t = some info) :
    d.setDescField findDataType k n (.type t)
      = (.success, d.setRecord (n - 1).toNat fun r => r.setSqlDescType info) := by
  have hpos : ¬n ≤ 0 := by omega
  simp only [OdbcHandleDesc.setDescField, hpos, if_false, OdbcHandleDesc.setRecordField,
    OdbcHandleDesc.setTypeField, hk, hinfo, Bool.false_eq_true]
  rfl

/-- A type that the table does not have is refused, once there is the record. -/
theorem setDescField_type_none {k : Kind} (hk : k.isIRD = false) (hn : 1 ≤ n) {t : ℤ}
    (hinfo : findDataType t = none) :
    d.setDescField findDataType k n (.type t) = (d.getDescRecord (n - 1).toNat).setDiagnosticRecord
      .error "SQLSetDescField" "Inconsistent descriptor information." "HY021" := by
  have hpos : ¬n ≤ 0 := by omega
  simp only [OdbcHandleDesc.setDescField, hpos, if_false, OdbcHandleDesc.setRecordField,
    OdbcHandleDesc.setTypeField, hk, hinfo, Bool.false_eq_true]

/-- A type that is set is in the table. -/
theorem findDataType_of_success {t : ℤ} (hn : 1 ≤ n)
    (h : d.setDescField findDataType written n (.type t) = (.success, d')) :
    ∃ info, findDataType t = some info := by
  cases hinfo : findDataType t with
  | some info => exact ⟨info, rfl⟩
  | none =>
    rw [setDescField_type_none rfl hn hinfo] at h
    cases congrArg Prod.fst h

/-- Only records can be set, not the bookmark. -/
theorem one_le_of_success (hf : (f.value α).isSome)
    (h : d.setDescField findDataType written n f = (.success, d')) : 1 ≤ n := by
  by_contra hn
  have hpos : n ≤ 0 := by omega
  have hret := congrArg Prod.fst h
  cases f with
  | type | conciseType | length | octetLength | precision | scale | dataPtr | octetLengthPtr
  | indicatorPtr =>
    simp only [OdbcHandleDesc.setDescField, hpos, if_true,
      OdbcHandleDesc.setDiagnosticRecord] at hret
    cases hret
  | _ => cases hf

/-- The type of the record is the SQL data type of the table. -/
theorem type_setSqlDescType {t : ℤ} {info : OdbcTypeInfo} (hinfo : findDataType t = some info)
    (r : DescRecord) : (r.setSqlDescType info).type = if IsText t then 12 else t := by
  have hle := (bounds_of_findDataType hinfo).2.2
  have hinterval : ¬(101 ≤ info.sqlDataType ∧ info.sqlDataType ≤ 113) := by omega
  rw [← sqlDataType_of_findDataType hinfo]
  simp only [DescRecord.setSqlDescType, DescRecord.setSqlDataType,
    HaybarnOdbc.DescRecord.setSqlDataType, if_neg hinterval]

/-- The type that is set is stored just if it is no text. -/
theorem type_eq_iff {t : ℤ} {info : OdbcTypeInfo} (hinfo : findDataType t = some info)
    (r : DescRecord) : (r.setSqlDescType info).type = t ↔ ¬IsText t := by
  rw [type_setSqlDescType hinfo]
  split_ifs with htext
  · simp only [htext, not_true_eq_false, iff_false]
    unfold IsText at htext
    omega
  · simp [htext]

/-- What a call that succeeds has made of the record. -/
theorem setDescField_success (hstmt : d.stmt = none) (hf : f.value α = some (id, v))
    (h : d.setDescField findDataType written n f = (.success, d')) :
    ∃ set, d' = d.setRecord (n - 1).toNat set ∧
      ∀ r, (set r).stored α id = v ↔ ∀ t, f = .type t → ¬IsText t := by
  have hsome : (f.value α).isSome := by simp [hf]
  have hn := one_le_of_success hsome h
  by_cases htype : ∃ t, f = .type t
  · obtain ⟨t, rfl⟩ := htype
    obtain ⟨info, hinfo⟩ := findDataType_of_success hn h
    rw [setDescField_type rfl hn hinfo] at h
    obtain ⟨rfl, rfl⟩ := Prod.mk.inj (Option.some.inj hf)
    refine ⟨_, (Prod.mk.inj h).2.symm, fun r => ?_⟩
    simp only [DescRecord.stored, Stored.number.injEq, type_eq_iff hinfo, DescField.type.injEq,
      forall_eq']
  · rw [setDescField_assign rfl (fun _ => hstmt) hn hsome fun t ht => htype ⟨t, ht⟩] at h
    refine ⟨_, (Prod.mk.inj h).2.symm, fun r => ⟨fun _ t ht => absurd ⟨t, ht⟩ htype, fun _ => ?_⟩⟩
    exact stored_assign hf (fun t ht => htype ⟨t, ht⟩) r

/-! ## What is returned -/

/-- The value of a field is returned, but for the pointer to the data. -/
theorem getDescField_eq (hstmt : d.stmt = none) (hf : f.value α = some (id, v))
    {r : DescRecord} (hr : d.records[(n - 1).toNat]? = some r) (hn : 1 ≤ n)
    (hle : n ≤ smallInt d.records.length) (bufferLength : ℤ) :
    getDescField C d written n id true bufferLength
      = some ⟨.success, if id = .dataPtr then .nothing else r.stored α id, d⟩ := by
  have hrange : ¬(n ≤ 0 ∨ n > smallInt d.records.length) := by omega
  rw [Int.pred_toNat] at hr
  cases f with
  | type | conciseType | length | octetLength | precision | scale | dataPtr | octetLengthPtr
  | indicatorPtr =>
    obtain ⟨rfl, rfl⟩ := Prod.mk.inj (Option.some.inj hf)
    simp [getDescField, getHeaderField, getRecordField, storeUnless, hrange, hr, DescRecord.stored,
      OdbcHandleDesc.isID, hstmt]
  | _ => cases hf

/-- Above the number of the records as an `SQLSMALLINT` nothing is returned. -/
theorem not_returns (hf : f.value α = some (id, v)) (hle : ¬n ≤ smallInt d.records.length) :
    ¬Returns C d n id v := by
  intro h
  have hret := congrArg (Option.map Got.ret) (h 0)
  have hrange : n ≤ 0 ∨ n > smallInt d.records.length := by omega
  cases f with
  | type | conciseType | length | octetLength | precision | scale | dataPtr | octetLengthPtr
  | indicatorPtr =>
    obtain ⟨rfl, rfl⟩ := Prod.mk.inj (Option.some.inj hf)
    simp [getDescField, getHeaderField, hrange, OdbcHandleDesc.setDiagnosticRecord] at hret
  | _ => cases hf

/-- A field that can be set has a value. -/
theorem ne_nothing (hf : f.value α = some (id, v)) : v ≠ .nothing := by
  cases f with
  | type | conciseType | length | octetLength | precision | scale | dataPtr | octetLengthPtr
  | indicatorPtr =>
    obtain ⟨-, rfl⟩ := Prod.mk.inj (Option.some.inj hf)
    exact nofun
  | _ => cases hf

/-- The value is returned just if the record is counted and the field is not the data pointer. -/
theorem returns_iff (hstmt : d.stmt = none) (hf : f.value α = some (id, v)) {r : DescRecord}
    (hr : d.records[(n - 1).toNat]? = some r) (hn : 1 ≤ n) :
    Returns C d n id v ↔
      n ≤ smallInt d.records.length ∧ id ≠ .dataPtr ∧ r.stored α id = v := by
  by_cases hle : n ≤ smallInt d.records.length
  swap
  · exact ⟨fun h => absurd h (not_returns hf hle), fun h => absurd h.1 hle⟩
  have hget := getDescField_eq (C := C) hstmt hf hr hn hle
  constructor
  · intro h
    have hsame := congrArg Got.stored (Option.some.inj ((hget 0).symm.trans (h 0)))
    by_cases hdata : id = .dataPtr
    · rw [if_pos hdata] at hsame
      exact absurd hsame.symm (ne_nothing hf)
    · rw [if_neg hdata] at hsame
      exact ⟨hle, hdata, hsame⟩
  · rintro ⟨-, hdata, hv⟩ bufferLength
    rw [hget, if_neg hdata, hv]

/-! ## SQLSetDescRec -/

theorem setDescFields_cons (k : Kind) (fs : List DescField) :
    OdbcHandleDesc.setDescFields findDataType k n (f :: fs) (.success, d)
      = OdbcHandleDesc.setDescFields findDataType k n fs (d.setDescField findDataType k n f) := rfl

/-- After an error no field is set. -/
theorem setDescFields_error (k : Kind) (fs : List DescField) {p : SqlReturn × OdbcHandleDesc}
    (hp : p.1 = .error) : OdbcHandleDesc.setDescFields findDataType k n fs p = p := by
  cases fs with
  | nil => rfl
  | cons f fs => simp [OdbcHandleDesc.setDescFields, hp, SqlReturn.succeeded]

/-- Fields that are only assigned are assigned one after the other. -/
theorem setDescFields_assign {k : Kind} (hk : k.isIRD = false) (hn : 1 ≤ n)
    (rest : List DescField) :
    ∀ {fs : List DescField} (set : DescRecord → DescRecord),
      (∀ f ∈ fs, (f.isPointer = true → d.stmt = none) ∧ (f.value α).isSome ∧ ∀ t, f ≠ .type t) →
      OdbcHandleDesc.setDescFields findDataType k n (fs ++ rest)
          (.success, d.setRecord (n - 1).toNat set)
        = OdbcHandleDesc.setDescFields findDataType k n rest
          (.success, d.setRecord (n - 1).toNat (fs.foldl (fun set f => f.assign ∘ set) set))
  | [], set, _ => rfl
  | f :: fs, set, hfs => by
    obtain ⟨⟨hstmt, hf, htype⟩, hrest⟩ := List.forall_mem_cons.1 hfs
    have hset : (d.setRecord (n - 1).toNat set).setDescField findDataType k n f = _ :=
      setDescField_assign hk (fun hp => by rw [stmt_setRecord, hstmt hp]) hn hf htype
    rw [List.cons_append, setDescFields_cons, hset, setRecord_setRecord]
    exact setDescFields_assign hk hn rest (f.assign ∘ set) hrest

/-- The fields that `SQLSetDescRec` assigns after the type. The addresses are those of its
arguments. -/
def recFields (length precision scale : ℤ) (args : Addr × Addr × Addr) : List DescField :=
  [.octetLength length, .precision precision, .scale scale, .dataPtr args.1,
    .octetLengthPtr args.2.1, .indicatorPtr args.2.2]

/-- What it makes of a record where the table has `info` for the type. -/
def recSet (info : OdbcTypeInfo) (length precision scale : ℤ) (args : Addr × Addr × Addr) :
    DescRecord → DescRecord :=
  (recFields length precision scale args).foldl (fun set f => f.assign ∘ set)
    fun r => r.setSqlDescType info

/-- The values that a record has then. -/
theorem stored_recSet (info : OdbcTypeInfo) (length precision scale : ℤ)
    (args : Addr × Addr × Addr) (r : DescRecord) :
    let r' := recSet info length precision scale args r
    r'.stored α .type = .number (r.setSqlDescType info).type ∧
      r'.stored α .octetLength = .number length ∧ r'.stored α .precision = .number precision ∧
      r'.stored α .scale = .number scale ∧ r'.stored α .dataPtr = .pointer args.1 ∧
      r'.stored α .octetLengthPtr = .pointer args.2.1 ∧
      r'.stored α .indicatorPtr = .pointer args.2.2 := by
  have h1 := @stored_assign_eq α (.octetLength length) _ _ rfl nofun
  have h2 := @stored_assign_eq α (.precision precision) _ _ rfl nofun
  have h3 := @stored_assign_eq α (.scale scale) _ _ rfl nofun
  have h4 := @stored_assign_eq α (.dataPtr args.1) _ _ rfl nofun
  have h5 := @stored_assign_eq α (.octetLengthPtr args.2.1) _ _ rfl nofun
  have h6 := @stored_assign_eq α (.indicatorPtr args.2.2) _ _ rfl nofun
  simp only [recSet, recFields, List.foldl_cons, List.foldl_nil, Function.comp_apply, h1, h2, h3,
    h4, h5, h6, reduceCtorEq, if_false, if_true]
  exact ⟨rfl, trivial, trivial, trivial, trivial, trivial, trivial⟩

/-- The fields after the type, which is never that of a date or an interval. -/
theorem setDescRecFields_eq {type length precision scale : ℤ} {args : Addr × Addr × Addr}
    {info : OdbcTypeInfo} (hinfo : findDataType type = some info) :
    OdbcHandleDesc.setDescRecFields type length precision scale args
      = .type type :: recFields length precision scale args := by
  obtain ⟨h9, h10, -⟩ := bounds_of_findDataType hinfo
  rw [OdbcHandleDesc.setDescRecFields, if_neg (by simp [h9, h10])]
  rfl

/-- The descriptor in which `SQLSetDescRec` sets the fields. -/
def grown (d : OdbcHandleDesc) (recNumber : ℤ) : OdbcHandleDesc :=
  if recNumber > d.header.count then d.addMoreRecords recNumber.toNat else d

@[simp] theorem stmt_grown (d : OdbcHandleDesc) (n : ℤ) : (grown d n).stmt = d.stmt := by
  unfold grown
  split_ifs <;> rfl

/-- `SQLSetDescRec` sets the fields in the descriptor with the record number. -/
theorem sqlSetDescRec_call {k : Kind} {type length precision scale : ℤ}
    {args : Addr × Addr × Addr} (hk : k.isIRD = false) (hn : 1 ≤ n) :
    d.sqlSetDescRec findDataType k n type length precision scale args
      = OdbcHandleDesc.setDescFields findDataType k n
        (OdbcHandleDesc.setDescRecFields type length precision scale args)
        (.success, grown d n) := by
  have hpos : ¬n ≤ 0 := by omega
  simp only [OdbcHandleDesc.sqlSetDescRec, hk, Bool.false_eq_true, if_false, hpos, grown]

/-- `SQLSetDescRec` with a type that the table has. -/
theorem sqlSetDescRec_eq {k : Kind} {type length precision scale : ℤ}
    {args : Addr × Addr × Addr} {info : OdbcTypeInfo} (hk : k.isIRD = false)
    (hstmt : d.stmt = none) (hn : 1 ≤ n) (hinfo : findDataType type = some info) :
    d.sqlSetDescRec findDataType k n type length precision scale args
      = (.success,
        (grown d n).setRecord (n - 1).toNat
          (recSet info length precision scale args)) := by
  have htype : (grown d n).setDescField findDataType k n (.type type) = _ :=
    setDescField_type hk hn hinfo
  have hassign := @setDescFields_assign Unit (grown d n) n k hk hn []
    (recFields length precision scale args) (fun r => r.setSqlDescType info)
    (by simp [recFields, DescField.value, hstmt])
  rw [List.append_nil] at hassign
  rw [sqlSetDescRec_call hk hn, setDescRecFields_eq hinfo, setDescFields_cons, htype, hassign,
    recSet]
  rfl

/-- A call of `SQLSetDescRec` that succeeds had a record number and a type of the table. -/
theorem sqlSetDescRec_success {type length precision scale : ℤ} {args : Addr × Addr × Addr}
    (h : d.sqlSetDescRec findDataType written n type length precision scale args
      = (.success, d')) : 1 ≤ n ∧ ∃ info, findDataType type = some info := by
  have hret := congrArg Prod.fst h
  by_cases hn : n ≤ 0
  · simp [OdbcHandleDesc.sqlSetDescRec, written, hn, OdbcHandleDesc.setDiagnosticRecord] at hret
  refine ⟨by omega, ?_⟩
  cases hinfo : findDataType type with
  | some info => exact ⟨info, rfl⟩
  | none =>
    rw [sqlSetDescRec_call rfl (by omega), OdbcHandleDesc.setDescRecFields, List.cons_append,
      setDescFields_cons, setDescField_type_none rfl (by omega) hinfo,
      setDescFields_error _ _ rfl] at hret
    cases hret

/-! ## Both -/

/-- Every value of `SQLSetDescRec` is there in the record. -/
def HasAll (d : OdbcHandleDesc) (recNumber : ℤ) (values : List (FieldId × Stored α)) : Prop :=
  ∀ p ∈ values, Has d recNumber p.1 p.2

/-- A record has a value in a field. -/
theorem has_iff {idx : ℕ} (hidx : (n - 1).toNat = idx) {r : DescRecord}
    (hr : d.records[idx]? = some r) : Has d n id v ↔ r.stored α id = v := by
  subst hidx
  constructor
  · rintro ⟨r', hr', hv⟩
    obtain rfl := Option.some.inj (hr.symm.trans hr')
    exact hv
  · exact fun hv => ⟨r, hr, hv⟩

end Values

/-- The values that are set are held and returned by a descriptor that may be written. After
`SQLSetDescField` just when the field is not the pointer to the data, the type is not one that
the table takes for a text, and the record number is not above the number of the records as an
`SQLSMALLINT` ; after `SQLSetDescRec` never, and the record has the values just when the type is
its own and the pointers are the addresses of the arguments of the call. -/
theorem holds_iff {α : Type} (C : CharType α) {d : OdbcHandleDesc} (hstmt : d.stmt = none)
    (n : ℤ) (d' : OdbcHandleDesc) :
    (∀ (f : DescField) (id : FieldId) (v : Stored α), f.value α = some (id, v) →
      d.setDescField findDataType written n f = (.success, d') →
      (Holds C d' n id v ↔ id ≠ .dataPtr ∧ (∀ t, f = .type t → ¬IsText t) ∧
        n ≤ smallInt (max d.records.length n.toNat : ℕ))) ∧
    (∀ (type length precision scale : ℤ) (ptrs args : Addr × Addr × Addr),
      d.sqlSetDescRec findDataType written n type length precision scale args = (.success, d') →
      (HasAll d' n (recValues α type length precision scale ptrs) ↔ ¬IsText type ∧ ptrs = args) ∧
      ¬∀ p ∈ recValues α type length precision scale ptrs, Holds C d' n p.1 p.2) := by
  constructor
  · intro f id v hf h
    have hn := one_le_of_success (by simp [hf] : (f.value α).isSome) h
    obtain ⟨set, rfl, hset⟩ := setDescField_success hstmt hf h
    obtain ⟨r, hr⟩ := getElem?_setRecord d (n - 1).toNat set
    have hlen : (d.setRecord (n - 1).toNat set).records.length = max d.records.length n.toNat := by
      rw [length_setRecord]
      omega
    rw [Holds, has_iff rfl hr, returns_iff (by rw [stmt_setRecord, hstmt]) hf hr hn, hlen, hset]
    exact ⟨fun h => ⟨h.2.2.1, h.1, h.2.1⟩, fun h => ⟨h.2.1, h.2.2, h.1, h.2.1⟩⟩
  · intro type length precision scale ptrs args h
    obtain ⟨hn, info, hinfo⟩ := sqlSetDescRec_success h
    rw [sqlSetDescRec_eq rfl hstmt hn hinfo] at h
    obtain rfl := (Prod.mk.inj h).2
    obtain ⟨r, hr⟩ := getElem?_setRecord (grown d n) (n - 1).toNat
      (recSet info length precision scale args)
    obtain ⟨htype, hlength, hprecision, hscale, hdata, hoctet, hindicator⟩ :=
      stored_recSet (α := α) info length precision scale args r
    constructor
    · simp only [HasAll, recValues, List.forall_mem_cons, has_iff rfl hr, htype, hlength,
        hprecision, hscale, hdata, hoctet, hindicator, List.not_mem_nil, false_imp_iff,
        implies_true, and_true, Stored.number.injEq, Stored.pointer.injEq, true_and,
        type_eq_iff hinfo, Prod.ext_iff]
      exact and_congr_right fun _ => ⟨fun h => ⟨h.1.symm, h.2.1.symm, h.2.2.symm⟩,
        fun h => ⟨h.1.symm, h.2.1.symm, h.2.2.symm⟩⟩
    · intro hall
      have hholds := (hall (.dataPtr, .pointer ptrs.1) (by simp [recValues])).2
      have hf : (DescField.dataPtr ptrs.1).value α = some (.dataPtr, .pointer ptrs.1) := rfl
      exact ((returns_iff (by rw [stmt_setRecord, stmt_grown, hstmt]) hf hr hn).1 hholds).2.1 rfl

/-- A descriptor that an application allocated. -/
def newDesc : OdbcHandleDesc := { dbc := 0, stmt := none }

/-- A scale is returned as it was set. -/
theorem holds_iff_scale :
    Holds Diag.char (newDesc.setDescField findDataType written 1 (.scale 2)).2 1 .scale
      (.number 2) :=
  ((holds_iff Diag.char rfl 1 _).1 (.scale 2) .scale (.number 2) rfl
    (show newDesc.setDescField findDataType written 1 (.scale 2) = (.success, _) from rfl)).2
    ⟨nofun, nofun, by decide⟩

/-- The record of an integer has the addresses of the arguments in place of the pointers. -/
theorem setDescRec_stores_addresses :
    ∃ d', newDesc.sqlSetDescRec findDataType written 1 4 4 10 0 (1, 2, 3) = (.success, d') ∧
      ¬HasAll d' 1 (recValues UInt8 4 4 10 0 (1000, 2000, 3000)) ∧
      ¬Returns Diag.char d' 1 .dataPtr (.pointer 1000) := by
  refine ⟨_, rfl, ?_, ?_⟩
  · intro hall
    obtain ⟨r, hr, hv⟩ := hall (.dataPtr, .pointer 1000) (by simp [recValues])
    obtain rfl := Option.some.inj hr
    exact absurd hv (by decide)
  · intro hreturns
    have hstored := congrArg (Option.map Got.stored) (hreturns 0)
    exact absurd hstored (by decide)

end HaybarnOdbc.Desc
