import HaybarnOdbc.DiagPieces

/-!
# The fields of a diagnostic record

`SQLGetDiagField` and `SQLGetDiagRec` read the same records. The class and the subclass origin
are those of the record at the record number itself, all other fields those of the record that
`vec_record_idx` has there; the two differ once a message was split. A record number is checked
against the number of records, and not against that of the indices, and a field of the first
record resets what `SQLGetDiagRec` has read so far. The number of records is a field of the
header that nothing writes, so that the two calls agree in all of this just when there are no
records (`coherent_iff`).
-/

namespace HaybarnOdbc.Diag

variable {α : Type} {C : CharType α} {type : HandleType} {d d' : OdbcDiagnostic} {n : ℕ}
  {a : FieldArgs} {b : RecArgs}

/-- What the fields say that are read of a record, with the origins of another one. -/
def fieldWith (C : CharType α) (a : FieldArgs) (r origin : DiagRecord) : FieldReply α :=
  match a.diagIdentifier with
  | .sqlstate => writeStringDiag C a r.sqlstate
  | .messageText => writeStringDiag C a r.rest
  | .native => .store r.native
  | .classOrigin => writeStringDiag C a origin.classOrigin
  | .subclassOrigin => writeStringDiag C a origin.subclassOrigin
  | _ => .code .error

/-- The fields that are asked for, of the record number `n`. -/
structure Asks (type : HandleType) (n : ℕ) (a : FieldArgs) : Prop where
  handleType : a.handleType = some type
  recNumber : a.recNumber = n
  field : a.diagIdentifier ∈ [.sqlstate, .messageText, .native, .classOrigin, .subclassOrigin]
  bufferLength : 0 ≤ a.bufferLength

/-- A call of `SQLGetDiagRec` for the record number `n`. -/
structure Calls (type : HandleType) (n : ℕ) (b : RecArgs) : Prop where
  handleType : b.handleType = some type
  recNumber : b.recNumber = n
  bufferLength : 0 ≤ b.bufferLength

/-- The record that `SQLGetDiagRec` reads at an index. -/
def recordAt (d : OdbcDiagnostic) (recIdx : ℕ) : Option DiagRecord := do
  let i ← (d.opened recIdx).vecRecordIdx[recIdx]?
  (d.opened recIdx).diagRecords[i.toNat]?

/-- What calls of `SQLGetDiagRec` return, one after the other. -/
def recReplies (C : CharType α) (type : HandleType) :
    OdbcDiagnostic → List RecArgs → Option (List (RecReply α))
  | _, [] => some []
  | d, b :: bs => do
    let (reply, d) ← getDiagRecInternal C type d b
    let replies ← recReplies C type d bs
    some (reply :: replies)

/-! ## What the two calls have in common -/

/-- The fields are those of the record that `SQLGetDiagRec` returns. -/
def SameRecord (C : CharType α) (type : HandleType) (d : OdbcDiagnostic) : Prop :=
  ∀ (n : ℕ) (a : FieldArgs) (reply : FieldReply α) (d' : OdbcDiagnostic), 1 ≤ n → Asks type n a →
    getDiagFieldInternal C type d a = some (reply, d') → reply.ret ≠ .error →
    ∃ r, recordAt d (n - 1) = some r ∧ reply = fieldWith C a r r ∧ ∀ b, Calls type n b →
      ∃ e, getDiagRecInternal C type d b = some (recReply C b r, e)

/-- A field leaves alone what `SQLGetDiagRec` returns later. -/
def LeavesReads (C : CharType α) (type : HandleType) (d : OdbcDiagnostic) : Prop :=
  ∀ (a : FieldArgs) (reply : FieldReply α) (d' : OdbcDiagnostic),
    getDiagFieldInternal C type d a = some (reply, d') →
    ∀ bs, recReplies C type d' bs = recReplies C type d bs

/-- `SQL_DIAG_NUMBER` is the number of the records. -/
def CountsRecords (C : CharType α) (type : HandleType) (d : OdbcDiagnostic) : Prop :=
  ∀ (a : FieldArgs) (reply : FieldReply α) (d' : OdbcDiagnostic), a.handleType = some type →
    a.diagIdentifier = .number → getDiagFieldInternal C type d a = some (reply, d') →
    reply.number = some (d.diagRecords.length : ℤ)

/-- There is a field of a record number just when `SQLGetDiagRec` has data of it. -/
def SameNumbers (C : CharType α) (type : HandleType) (d : OdbcDiagnostic) : Prop :=
  ∀ (n : ℕ) (a : FieldArgs) (b : RecArgs) (field : FieldReply α) (reply : RecReply α)
    (d' e : OdbcDiagnostic), 1 ≤ n → n ≤ 32767 → Asks type n a → Calls type n b →
    getDiagFieldInternal C type d a = some (field, d') →
    getDiagRecInternal C type d b = some (reply, e) → (field.ret ≠ .error ↔ reply.ret ≠ .noData)

/-- The two calls tell of the same records. -/
structure Coherent (C : CharType α) (type : HandleType) (d : OdbcDiagnostic) : Prop where
  sameRecord : SameRecord C type d
  leavesReads : LeavesReads C type d
  countsRecords : CountsRecords C type d
  sameNumbers : SameNumbers C type d

/-! ## One call -/

/-- A text fails for a negative length only. -/
theorem ret_writeStringDiag (hbuffer : 0 ≤ a.bufferLength) (str : List UInt8) :
    (writeStringDiag C a str).ret ≠ .error := by
  rw [writeStringDiag, if_neg (by omega)]
  dsimp only
  split_ifs <;> exact nofun

/-- So does a field. -/
theorem Asks.ret_fieldWith (ha : Asks type n a) (r origin : DiagRecord) :
    (fieldWith C a r origin).ret ≠ .error := by
  have hfield := ha.field
  simp only [List.mem_cons, List.not_mem_nil, or_false] at hfield
  rcases hfield with h | h | h | h | h <;> simp only [fieldWith, h]
  any_goals exact ret_writeStringDiag ha.bufferLength _
  exact nofun

theorem Asks.headerField (ha : Asks type n a) : headerField C type a = none ∧
    a.diagIdentifier.isDiagRecordField = true := by
  have hfield := ha.field
  simp only [List.mem_cons, List.not_mem_nil, or_false] at hfield
  rcases hfield with h | h | h | h | h <;> simp [Diag.headerField, h,
    DiagIdentifier.isDiagRecordField]

/-- A record number above that of the records has no fields. -/
theorem Asks.beyond (ha : Asks type n a) (hn : d.diagRecords.length < n) :
    getDiagFieldInternal C type d a = some (.code .error, d) := by
  obtain ⟨hheader, hrecord⟩ := ha.headerField (C := C)
  have h2 : ¬(n : ℤ) ≤ 0 := by omega
  have h3 : d.verifyRecordIndex (n - 1) = false := by
    simp only [OdbcDiagnostic.verifyRecordIndex, Bool.and_eq_false_iff, decide_eq_false_iff_not]
    omega
  simp [getDiagFieldInternal, ha.handleType, ha.recNumber, hheader, hrecord, h3]

/-- What a field is read of. -/
theorem Asks.reads (ha : Asks type n a) (h : d.Valid) (h1 : 1 ≤ n)
    (hn : n ≤ d.diagRecords.length) :
    ∃ (i : ℕ) (r origin : DiagRecord), (d.opened (n - 1)).vecRecordIdx[n - 1]? = some (i : ℤ) ∧
      (d.opened (n - 1)).diagRecords[i]? = some r ∧
      (d.opened (n - 1)).diagRecords[n - 1]? = some origin ∧
      getDiagFieldInternal C type d a = some (fieldWith C a r origin, d.opened (n - 1)) := by
  obtain ⟨hheader, hrecord⟩ := ha.headerField (C := C)
  have hk : ((n : ℤ) - 1).toNat = n - 1 := by omega
  have h2 : ¬(n : ℤ) ≤ 0 := by omega
  have h3 : d.verifyRecordIndex (n - 1) = true := by
    simp only [OdbcDiagnostic.verifyRecordIndex, Bool.and_eq_true, decide_eq_true_eq]
    omega
  have hlt : n - 1 < d.vecRecordIdx.length := by
    have hle := h.length_le
    omega
  obtain ⟨i, r, hi, hr, hrvalid, hget⟩ := h.getDiagRecord_eq hlt
  have horigin := List.getElem?_eq_getElem (l := (d.opened (n - 1)).diagRecords) (i := n - 1)
    (by rw [OdbcDiagnostic.length_opened]; omega)
  refine ⟨i, r, _, hi, hr, horigin, ?_⟩
  have hfield := ha.field
  simp only [List.mem_cons, List.not_mem_nil, or_false] at hfield
  simp only [getDiagFieldInternal, ha.handleType, ha.recNumber, hheader, hrecord, h2, h3, hk, hget,
    hr, if_false, Bool.not_true, Bool.false_eq_true, Option.bind_eq_bind, Option.bind_some,
    OdbcDiagnostic.getDiagClassOrigin, OdbcDiagnostic.getDiagSubclassOrigin, horigin,
    hrvalid.getMessage_eq, reduceCtorEq]
  rcases hfield with h | h | h | h | h <;> simp only [h, fieldWith] <;> rfl

/-- Any field leaves the records as they are, or as the first record number does. -/
theorem eq_or_eq_reset {reply : FieldReply α}
    (h : getDiagFieldInternal C type d a = some (reply, d')) : d' = d ∨ d' = d.reset := by
  rcases getDiagFieldInternal_state h with heq | ⟨k, i, hget⟩
  · exact .inl heq
  obtain ⟨originIdx, -, hget⟩ := Option.bind_eq_some_iff.1 hget
  split_ifs at hget
  · exact .inr (Prod.mk.inj (Option.some.inj hget)).2.symm
  · exact .inl (Prod.mk.inj (Option.some.inj hget)).2.symm

theorem Calls.reads (hb : Calls type n b) (h1 : 1 ≤ n) (hn : n ≤ d.vecRecordIdx.length) :
    Reads type d b :=
  ⟨hb.handleType, by rw [hb.recNumber]; omega, hb.bufferLength, by rw [hb.recNumber]; omega⟩

theorem recordAt_eq {i k : ℕ} {r : DiagRecord} (hi : (d.opened k).vecRecordIdx[k]? = some (i : ℤ))
    (hr : (d.opened k).diagRecords[i]? = some r) : recordAt d k = some r := by
  simp only [recordAt, hi, Option.bind_eq_bind, Option.bind_some, Int.toNat_natCast, hr]

/-- A record that is asked for is answered. -/
theorem Calls.reply (hb : Calls type n b) (h : d.Valid) (h1 : 1 ≤ n)
    (hn : n ≤ d.vecRecordIdx.length) :
    ∃ r e, recordAt d (n - 1) = some r ∧
      getDiagRecInternal C type d b = some (recReply C b r, e) := by
  have hk : (b.recNumber - 1).toNat = n - 1 := by
    rw [hb.recNumber]
    omega
  obtain ⟨i, r, hi, hr, -, -, heq⟩ := getDiagRecInternal_reads (C := C) h (hb.reads h1 hn)
  rw [hk] at hi hr
  exact ⟨r, _, recordAt_eq hi hr, heq⟩

/-- There is no data just behind the last record number. -/
theorem Calls.noData_iff {reply : RecReply α} {e : OdbcDiagnostic} (hb : Calls type n b)
    (h1 : 1 ≤ n) (hcall : getDiagRecInternal C type d b = some (reply, e)) :
    reply.ret = .noData ↔ d.vecRecordIdx.length < n := by
  constructor
  · intro hret
    have hlt := lt_of_noData hb.handleType hcall hret
    rw [hb.recNumber] at hlt
    omega
  · intro hlt
    have h2 : ¬(n : ℤ) ≤ 0 := by omega
    have h3 : (n : ℤ) > d.vecRecordIdx.length := by omega
    have h4 : ¬b.bufferLength < 0 := Int.not_lt.2 hb.bufferLength
    simp only [getDiagRecInternal, hb.handleType, hb.recNumber, ne_eq, not_true_eq_false, if_false,
      h2, h3, h4, if_true] at hcall
    rw [← (Prod.mk.inj (Option.some.inj hcall)).1]

/-- A field is refused just behind the last record. -/
theorem Asks.error_iff {reply : FieldReply α} (ha : Asks type n a) (h : d.Valid) (h1 : 1 ≤ n)
    (hcall : getDiagFieldInternal C type d a = some (reply, d')) :
    reply.ret = .error ↔ d.diagRecords.length < n := by
  constructor
  · intro hret
    by_contra hn
    obtain ⟨i, r, origin, -, -, -, heq⟩ := ha.reads (C := C) h h1 (Nat.not_lt.1 hn)
    obtain ⟨rfl, -⟩ := Prod.mk.inj (Option.some.inj (hcall.symm.trans heq))
    exact ha.ret_fieldWith _ _ hret
  · intro hlt
    rw [← (Prod.mk.inj (Option.some.inj ((ha.beyond hlt).symm.trans hcall))).1]
    rfl

/-! ## Record numbers -/

/-- A call for a field with nine characters, and one for the record. -/
def fieldCall (type : HandleType) (n : ℕ) (f : DiagIdentifier) : FieldArgs :=
  ⟨some type, n, f, true, 9, true⟩

/-- A call for the record, with nine characters. -/
def recCall (type : HandleType) (n : ℕ) : RecArgs := ⟨some type, n, true, true, true, 9, true⟩

/-- It is a call for this record. -/
theorem calls_recCall (type : HandleType) (n : ℕ) : Calls type n (recCall type n) :=
  ⟨rfl, rfl, show (0 : ℤ) ≤ 9 by decide⟩

/-- The two count alike just if there are as many numbers as records. -/
theorem sameNumbers_iff (h : d.Valid) : SameNumbers C type d ↔
    d.vecRecordIdx.length = d.diagRecords.length ∨ d.diagRecords.length = 32767 := by
  have hle := h.length_le
  have hcount := h.count
  constructor
  · intro hsame
    by_contra hne
    let n := d.diagRecords.length + 1
    have ha : Asks type n (fieldCall type n .sqlstate) :=
      ⟨rfl, rfl, List.mem_cons_self, show (0 : ℤ) ≤ 9 by decide⟩
    have hb := calls_recCall type n
    obtain ⟨field, d', hfield, -⟩ :=
      getDiagFieldInternal_valid C type h (fieldCall type n .sqlstate)
    obtain ⟨reply, e, hreply, -⟩ := getDiagRecInternal_valid C type h (recCall type n)
    have hiff := hsame n _ _ field reply d' e (by omega) (by omega) ha hb hfield hreply
    rw [ne_eq, ne_eq, ha.error_iff h (by omega) hfield, hb.noData_iff (by omega) hreply] at hiff
    omega
  · intro hnumbers n a b field reply d' e h1 hn ha hb hfield hreply
    rw [ne_eq, ne_eq, ha.error_iff h h1 hfield, hb.noData_iff h1 hreply]
    omega

/-! ## Origins -/

/-- Every record number after the first has the origins of the record that it stands for. -/
def OriginsAgree (d : OdbcDiagnostic) : Prop :=
  ∀ (k i : ℕ) (r origin : DiagRecord), 1 ≤ k → d.vecRecordIdx[k]? = some (i : ℤ) →
    d.diagRecords[i]? = some r → d.diagRecords[k]? = some origin →
    r.classOrigin = origin.classOrigin ∧ r.subclassOrigin = origin.subclassOrigin

/-- Of the other record a field has the origins only. -/
theorem fieldWith_congr {r origin origin' : DiagRecord}
    (hclass : origin.classOrigin = origin'.classOrigin)
    (hsubclass : origin.subclassOrigin = origin'.subclassOrigin) :
    fieldWith C a r origin = fieldWith C a r origin' := by
  simp only [fieldWith, hclass, hsubclass]

/-- If the origins agree, the field is that of the record. -/
theorem sameRecord_of_originsAgree (h : d.Valid) (hagree : OriginsAgree d) :
    SameRecord C type d := by
  intro n a reply d' h1 ha hcall hret
  have hn : n ≤ d.diagRecords.length := by
    by_contra hlt
    exact hret ((ha.error_iff h h1 hcall).2 (Nat.not_le.1 hlt))
  obtain ⟨i, r, origin, hi, hr, horigin, heq⟩ := ha.reads (C := C) h h1 hn
  obtain ⟨rfl, -⟩ := Prod.mk.inj (Option.some.inj (hcall.symm.trans heq))
  refine ⟨r, recordAt_eq hi hr, ?_, fun b hb => ?_⟩
  · by_cases hfirst : n = 1
    · -- the first record number stands for the first record
      subst hfirst
      have hvec : (d.opened 0).vecRecordIdx[0]? = some (0 : ℤ) := by
        rw [show d.opened 0 = d.reset from rfl, OdbcDiagnostic.reset_vecRecordIdx h.count,
          List.getElem?_map, List.getElem?_range (by omega)]
        rfl
      obtain rfl : i = 0 := Int.ofNat.inj (Option.some.inj (hi.symm.trans hvec))
      obtain rfl := Option.some.inj (hr.symm.trans horigin)
      rfl
    · have hopened : d.opened (n - 1) = d := if_neg (by omega)
      rw [hopened] at hi hr horigin
      obtain ⟨hclass, hsubclass⟩ := hagree (n - 1) i r origin (by omega) hi hr horigin
      exact fieldWith_congr hclass.symm hsubclass.symm
  · obtain ⟨r', e, hr', heq'⟩ := hb.reply (C := C) h h1 (Nat.le_trans hn h.length_le)
    obtain rfl := Option.some.inj (hr'.symm.trans (recordAt_eq hi hr))
    exact ⟨e, heq'⟩

theorem length_classOrigin (r : DiagRecord) : r.classOrigin.length = 8 := by
  unfold DiagRecord.classOrigin
  split_ifs <;> rfl

theorem length_subclassOrigin (r : DiagRecord) : r.subclassOrigin.length = 8 := by
  unfold DiagRecord.subclassOrigin
  split_ifs <;> rfl

/-- Nine characters have room for an origin. -/
theorem writeStringDiag_inj {f : DiagIdentifier} {s t : List UInt8} (hs : s.length = 8)
    (ht : t.length = 8)
    (h : writeStringDiag char (fieldCall type n f) s =
      writeStringDiag char (fieldCall type n f) t) :
    s = t := by
  have hsize : sizeT (sizeT 9 - 1) = 8 := by decide
  have htext := congrArg FieldReply.text h
  simp only [writeStringDiag, fieldCall, char, hsize, if_true, Int.reduceLT, if_false,
    Option.some.injEq] at htext
  rwa [List.take_of_length_le (by omega), List.take_of_length_le (by omega)] at htext

/-- What a field with nine characters says is what the record says. -/
theorem SameRecord.fieldWith_eq (hsame : SameRecord char type d) (h : d.Valid) {k i : ℕ}
    {r origin : DiagRecord} {f : DiagIdentifier} (h1 : 1 ≤ k)
    (hf : f ∈ [.sqlstate, .messageText, .native, .classOrigin, .subclassOrigin])
    (hi : d.vecRecordIdx[k]? = some (i : ℤ)) (hr : d.diagRecords[i]? = some r)
    (horigin : d.diagRecords[k]? = some origin) :
    fieldWith char (fieldCall type (k + 1) f) r origin
      = fieldWith char (fieldCall type (k + 1) f) r r := by
  have hopened : d.opened k = d := if_neg (by omega)
  have ha : Asks type (k + 1) (fieldCall type (k + 1) f) :=
    ⟨rfl, rfl, hf, show (0 : ℤ) ≤ 9 by decide⟩
  have hk := (List.getElem?_eq_some_iff.1 horigin).1
  obtain ⟨j, r', origin', hj, hr', horigin', heq⟩ := ha.reads (C := char) h (by omega) hk
  rw [Nat.add_sub_cancel, hopened] at hj hr' horigin'
  obtain rfl : i = j := Int.ofNat.inj (Option.some.inj (hi.symm.trans hj))
  obtain rfl := Option.some.inj (hr.symm.trans hr')
  obtain rfl := Option.some.inj (horigin.symm.trans horigin')
  obtain ⟨r'', hat, hreply, -⟩ := hsame (k + 1) _ _ _ (by omega) ha heq (ha.ret_fieldWith _ _)
  rw [Nat.add_sub_cancel, recordAt_eq (by rw [hopened]; exact hi) (by rw [hopened]; exact hr)]
    at hat
  obtain rfl := Option.some.inj hat
  exact hreply

/-- The field is that of the record just if the origins agree. -/
theorem sameRecord_iff (h : d.Valid) : SameRecord char type d ↔ OriginsAgree d := by
  refine ⟨fun hsame k i r origin h1 hi hr horigin => ⟨?_, ?_⟩, sameRecord_of_originsAgree h⟩
  · exact (writeStringDiag_inj (length_classOrigin _) (length_classOrigin _)
      (hsame.fieldWith_eq h (f := .classOrigin) h1 (by simp) hi hr horigin)).symm
  · exact (writeStringDiag_inj (length_subclassOrigin _) (length_subclassOrigin _)
      (hsame.fieldWith_eq h (f := .subclassOrigin) h1 (by simp) hi hr horigin)).symm

/-! ## Records that were not read -/

/-- Nothing of the records was read. -/
structure Unread (d : OdbcDiagnostic) : Prop where
  indices : d.vecRecordIdx = d.reset.vecRecordIdx
  offsets : ∀ r ∈ d.diagRecords, r.offset = 0

/-- Before anything is read a reset changes nothing that is seen. -/
theorem Unread.canon_reset (hunread : Unread d) (h : d.Valid) : d.reset.canon = d.canon := by
  have hrecords : d.reset.diagRecords.map DiagRecord.canon = d.diagRecords.map
    DiagRecord.canon := by
    simp only [OdbcDiagnostic.reset, List.map_map]
    refine List.map_congr_left fun r hr => DiagRecord.canon_eq_iff.2 ⟨rfl, ?_⟩
    rw [(h.records r hr).clear.2, hunread.offsets r hr]
  simp only [OdbcDiagnostic.canon, hrecords, ← hunread.indices]

theorem recReplies_canon (bs : List RecArgs) :
    ∀ {d e : OdbcDiagnostic}, d.Valid → e.Valid → d.canon = e.canon →
      recReplies C type d bs = recReplies C type e bs := by
  induction bs with
  | nil => exact fun _ _ _ => rfl
  | cons b bs ih =>
    intro d e hd he heq
    obtain ⟨reply, d', e', hcall, hcall', hd', he', hcanon⟩ :=
      getDiagRecInternal_canon C type hd he heq b
    simp only [recReplies, hcall, hcall', Option.bind_eq_bind, Option.bind_some, ih hd' he' hcanon]

/-- So the fields may be asked for in between. -/
theorem Unread.leavesReads (hunread : Unread d) (h : d.Valid) : LeavesReads C type d := by
  intro a reply d' hcall bs
  rcases eq_or_eq_reset hcall with rfl | rfl
  · rfl
  · exact recReplies_canon bs h.reset h (hunread.canon_reset h)

/-- Before anything is read the origins agree. -/
theorem Unread.originsAgree (hunread : Unread d) (h : d.Valid) : OriginsAgree d := by
  intro k i r origin _ hi hr horigin
  have hk := (List.getElem?_eq_some_iff.1 horigin).1
  rw [hunread.indices, OdbcDiagnostic.reset_vecRecordIdx h.count, List.getElem?_map,
    List.getElem?_range hk] at hi
  obtain rfl : k = i := Int.ofNat.inj (Option.some.inj hi)
  obtain rfl := Option.some.inj (hr.symm.trans horigin)
  exact ⟨rfl, rfl⟩

theorem Unread.length_eq (hunread : Unread d) :
    d.vecRecordIdx.length = d.diagRecords.length := by
  rw [hunread.indices]
  simp [OdbcDiagnostic.reset]

/-! ## All of it -/

/-- The header counts the records just if there are none. -/
theorem countsRecords_iff : CountsRecords C type d ↔ d.diagRecords = [] := by
  have hcall : ∀ a : FieldArgs, a.handleType = some type → a.diagIdentifier = .number →
      getDiagFieldInternal C type d a = some (.store 0, d) := by
    intro a htype hnumber
    simp [getDiagFieldInternal, headerField, htype, hnumber]
  constructor
  · intro hcounts
    have hzero := hcounts (fieldCall type 0 .number) _ d rfl rfl (hcall _ rfl rfl)
    have hlen : d.diagRecords.length = 0 := by
      simpa [FieldReply.store] using hzero.symm
    exact List.length_eq_zero_iff.1 hlen
  · intro hnil a reply d' htype hnumber heq
    obtain ⟨rfl, -⟩ := Prod.mk.inj (Option.some.inj ((hcall a htype hnumber).symm.trans heq))
    rw [hnil]
    rfl

/-- Without records everything agrees. -/
theorem coherent_of_nil (hnil : d.diagRecords = []) (h : d.Valid) : Coherent C type d := by
  have hvec : d.vecRecordIdx = [] := by
    rw [List.eq_nil_iff_forall_not_mem]
    intro i hi
    have hrange := (h.indices i).1 hi
    simp only [hnil, List.length_nil] at hrange
    omega
  have hunread : Unread d := by
    refine ⟨?_, by simp [hnil]⟩
    simp [hvec, OdbcDiagnostic.reset, hnil]
  exact ⟨sameRecord_of_originsAgree h (hunread.originsAgree h), hunread.leavesReads h,
    countsRecords_iff.2 hnil, (sameNumbers_iff h).2 (.inl hunread.length_eq)⟩

/-- After any operations on the records of a handle, the two calls tell of the same just when
there are no records. What is left when records are there, but for their number : the fields are
those of one record just when the origins are, they are there for the same record numbers just
when no message was split, and all is well as long as nothing was read. -/
theorem coherent_iff (type : HandleType) {ops : List Op}
    (hrun : Run.Reaches (Performs type) .new ops d) :
    (Coherent char type d ↔ d.diagRecords = []) ∧ (Coherent wchar type d ↔ d.diagRecords = []) ∧
      (d.diagRecords.length ≤ 32767 →
        (SameRecord char type d ↔ OriginsAgree d) ∧
        (SameNumbers char type d ↔ d.vecRecordIdx.length = d.diagRecords.length ∨
          d.diagRecords.length = 32767) ∧
        (Unread d → SameRecord char type d ∧ LeavesReads char type d ∧
          SameNumbers char type d)) := by
  have hd := counted_of_reaches hrun
  have hvalid (hnil : d.diagRecords = []) : d.Valid := hd.valid (by simp [hnil])
  refine ⟨⟨fun h => countsRecords_iff.1 h.countsRecords, fun h => coherent_of_nil h (hvalid h)⟩,
    ⟨fun h => countsRecords_iff.1 h.countsRecords, fun h => coherent_of_nil h (hvalid h)⟩,
    fun hcount => ?_⟩
  have h := hd.valid hcount
  refine ⟨sameRecord_iff h, sameNumbers_iff h, fun hunread => ?_⟩
  exact ⟨(sameRecord_iff h).2 (hunread.originsAgree h), hunread.leavesReads h,
    (sameNumbers_iff h).2 (.inl hunread.length_eq)⟩

/-- A new handle has none. -/
theorem coherent_iff_new : Coherent char .stmt .new ∧ Coherent wchar .stmt .new :=
  have h := @coherent_iff .new .stmt [] rfl
  ⟨h.1.2 rfl, h.2.1.2 rfl⟩

/-- Two records, of which the first was read in part. -/
def partlyRead : OdbcDiagnostic :=
  ⟨[⟨-1, 0, -1, [], bytes "01004", bytes "ODBC_Haybarn\nmessage", [8, 0]⟩,
    ⟨-1, 0, -1, [], bytes "IM001", bytes "ODBC_Haybarn\nmessage", [0]⟩], [0, 0, 1]⟩

/-- Two records, of which the first was read in part. -/
theorem reaches_partlyRead : Run.Reaches (Performs .stmt) .new
    [.setDiagnosticRecord [] (bytes "message") (bytes "01004") [],
      .setDiagnosticRecord [] (bytes "message") (bytes "IM001") [],
      .getDiagRec ⟨some .stmt, 1, true, true, true, 8, true⟩] partlyRead := by
  refine ⟨_, rfl, _, rfl, partlyRead, ?_, rfl⟩
  unfold Performs
  decide +kernel

/-- A record that was read in part makes the two calls differ in everything : the second record
number has the state of the first record and the class of the second, it has no field where
`SQLGetDiagRec` has a third one, a field of the first makes the next piece of the message be
lost, and the number of the records is said to be zero. -/
theorem partly_read_differs : ∃ ops d, Run.Reaches (Performs .stmt) .new ops d ∧
    ¬SameRecord char .stmt d ∧ ¬LeavesReads char .stmt d ∧ ¬CountsRecords char .stmt d ∧
    ¬SameNumbers char .stmt d := by
  have h : partlyRead.Valid := (counted_of_reaches reaches_partlyRead).valid (by decide)
  refine ⟨_, _, reaches_partlyRead, ?_, ?_, ?_, ?_⟩
  · rw [sameRecord_iff h]
    intro hagree
    have hclass := (hagree 1 0 _ _ (by decide) rfl rfl rfl).1
    exact absurd hclass (by decide +kernel)
  · intro hleaves
    have hfield : getDiagFieldInternal char .stmt partlyRead (fieldCall .stmt 1 .native)
        = some (.store 0, partlyRead.reset) := rfl
    have hlost := hleaves _ _ _ hfield [recCall .stmt 3]
    exact absurd hlost (by decide +kernel)
  · rw [countsRecords_iff]
    exact nofun
  · rw [sameNumbers_iff h]
    decide

end HaybarnOdbc.Diag
