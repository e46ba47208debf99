import Mathlib.Algebra.BigOperators.Group.List.Basic
import Mathlib.Data.List.DropRight
import HaybarnOdbc.DiagReads

/-!
# Messages read in pieces

`GetMessage` moves on by the whole size of the buffer, while what is copied leaves room for
the terminator, so that every piece but the last one loses a character; the last piece loses
one too when it fills the buffer, since nothing more is expected then. So the pieces of a
pass are the messages just when none of them has to be cut (`reassembles_iff`).
-/

namespace HaybarnOdbc.Diag

variable {α : Type} {C : CharType α} {type : HandleType} {d d' : OdbcDiagnostic} {p : PassArgs}

/-- The calls of a pass with buffers of `B` units, that a text is written to. -/
def PassArgs.ofSize (B : ℕ) (sqlState nativeErrorPtr : ℕ → Bool) : PassArgs :=
  ⟨fun _ => B, sqlState, nativeErrorPtr, fun _ => true⟩

/-- The texts that the calls write, one after the other. -/
def written (replies : List (RecReply α)) : List α :=
  replies.flatMap fun reply => reply.text.getD []

/-- The messages of the records, one after the other. -/
def messages (C : CharType α) (d : OdbcDiagnostic) : List α :=
  d.diagRecords.flatMap fun r => C.units r.messageText

/-- The pass comes to its end, and what it writes are the messages. -/
def Reassembles (C : CharType α) (type : HandleType) (p : PassArgs) (d : OdbcDiagnostic) : Prop :=
  ∃ replies d', Pass C type p 1 d replies d' ∧ written replies = messages C d

/-- Every message has less than `B` units, and every record has a record number before the
last one. -/
structure Fits (C : CharType α) (d : OdbcDiagnostic) (B : ℕ) : Prop where
  messages : ∀ r ∈ d.diagRecords, (C.units r.messageText).length < B
  count : d.diagRecords.length < 32767

/-! ## Records and their numbers -/

namespace OdbcDiagnostic

/-- Records can have been posted without end : then there are still as many record numbers. -/
structure Counted (d : OdbcDiagnostic) : Prop where
  le : d.diagRecords.length ≤ d.vecRecordIdx.length
  valid : d.diagRecords.length ≤ 32767 → d.Valid

/-- A new handle counts none. -/
theorem counted_new : new.Counted := ⟨Nat.le_refl _, fun _ => valid_new⟩

/-- Asking for a record keeps the records. -/
theorem getDiagRecord_le {k i : ℕ} (h : d.getDiagRecord k = some (i, d')) :
    d'.diagRecords.length = d.diagRecords.length ∧
      (d.diagRecords.length ≤ d.vecRecordIdx.length →
        d'.diagRecords.length ≤ d'.vecRecordIdx.length) := by
  simp only [getDiagRecord, Option.bind_eq_bind, Option.bind_eq_some_iff] at h
  obtain ⟨originIdx, -, h⟩ := h
  by_cases hrange : 0 ≤ originIdx ∧ originIdx < d.diagRecords.length
  · rw [if_pos hrange] at h
    by_cases hk : k = 0
    · rw [if_pos hk] at h
      obtain ⟨-, rfl⟩ := Prod.mk.inj (Option.some.inj h)
      simp [reset]
    · rw [if_neg hk] at h
      obtain ⟨-, rfl⟩ := Prod.mk.inj (Option.some.inj h)
      exact ⟨rfl, id⟩
  · rw [if_neg hrange] at h
    cases h

/-- A number that is added keeps them. -/
theorem addNewRecIdx_le {k : ℕ} (h : d.addNewRecIdx k = some d') :
    d'.diagRecords = d.diagRecords ∧ d.vecRecordIdx.length ≤ d'.vecRecordIdx.length := by
  simp only [addNewRecIdx, Option.bind_eq_bind, Option.bind_eq_some_iff, Option.some.injEq] at h
  obtain ⟨originIdx, -, rfl⟩ := h
  exact ⟨rfl, List.length_le_length_insertIdx⟩

end OdbcDiagnostic

/-- A call keeps the number of the records, and as many record numbers. -/
theorem getDiagRecInternal_le {a : RecArgs} {reply : RecReply α}
    (h : getDiagRecInternal C type d a = some (reply, d')) :
    d'.diagRecords.length = d.diagRecords.length ∧
      (d.diagRecords.length ≤ d.vecRecordIdx.length →
        d'.diagRecords.length ≤ d'.vecRecordIdx.length) := by
  by_cases ha : Reads type d a
  swap
  · obtain ⟨_, heq, -⟩ := getDiagRecInternal_other (C := C) d d rfl ha
    obtain ⟨-, rfl⟩ := Prod.mk.inj (Option.some.inj (heq.symm.trans h))
    exact ⟨rfl, id⟩
  obtain ⟨htype, hfirst, hbuffer, hlast⟩ := ha
  have h1 : ¬a.recNumber ≤ 0 := by omega
  have h2 : ¬a.bufferLength < 0 := by omega
  have h3 : ¬a.recNumber > d.vecRecordIdx.length := by omega
  simp only [getDiagRecInternal, htype, ne_eq, not_true_eq_false, if_false, h1, h2, h3,
    Option.bind_eq_bind, Option.bind_eq_some_iff] at h
  obtain ⟨⟨i, d₁⟩, hget, diagRecord, -, ⟨msg, diagRecord'⟩, -, h⟩ := h
  obtain ⟨hlen, hle⟩ := OdbcDiagnostic.getDiagRecord_le hget
  have hset : ∀ d₂ : OdbcDiagnostic, d₂.diagRecords = d₁.diagRecords.set i diagRecord' →
      d₁.vecRecordIdx.length ≤ d₂.vecRecordIdx.length →
      d₂.diagRecords.length = d.diagRecords.length ∧
        (d.diagRecords.length ≤ d.vecRecordIdx.length →
          d₂.diagRecords.length ≤ d₂.vecRecordIdx.length) := by
    intro d₂ hrecords hvec
    rw [hrecords, List.length_set]
    exact ⟨hlen, fun h => Nat.le_trans (hle h) hvec⟩
  by_cases hm : (!a.messageText) = true
  · rw [if_pos hm] at h
    obtain ⟨-, rfl⟩ := Prod.mk.inj (Option.some.inj h)
    exact hset _ rfl (Nat.le_refl _)
  rw [if_neg hm] at h
  by_cases hs : (a.textLengthPtr && splits C msg a.bufferLength) = true
  · rw [if_pos hs] at h
    obtain ⟨d₂, hadd, h⟩ := Option.bind_eq_some_iff.1 h
    obtain ⟨-, rfl⟩ := Prod.mk.inj (Option.some.inj h)
    obtain ⟨hrecords, hvec⟩ := OdbcDiagnostic.addNewRecIdx_le hadd
    exact hset _ hrecords hvec
  · rw [if_neg hs] at h
    obtain ⟨-, rfl⟩ := Prod.mk.inj (Option.some.inj h)
    exact hset _ rfl (Nat.le_refl _)

/-- A field leaves the records alone, or gets one of them. -/
theorem getDiagFieldInternal_state {a : FieldArgs} {reply : FieldReply α}
    (h : getDiagFieldInternal C type d a = some (reply, d')) :
    d' = d ∨ ∃ k i, d.getDiagRecord k = some (i, d') := by
  have hsame : ∀ {reply' : FieldReply α}, some (reply', d) = some (reply, d') →
      d' = d ∨ ∃ k i, d.getDiagRecord k = some (i, d') := by
    intro reply' h
    exact .inl (Prod.mk.inj (Option.some.inj h)).2.symm
  unfold getDiagFieldInternal at h
  by_cases h0 : a.handleType = none
  · exact hsame (by simpa only [h0, if_true] using h)
  cases hheader : headerField C type a with
  | some reply' => exact hsame (by simpa only [h0, if_false, hheader] using h)
  | none =>
    simp only [h0, if_false, hheader] at h
    by_cases h1 : (!a.diagIdentifier.isDiagRecordField) = true
    · exact hsame (by simpa only [h1, if_true] using h)
    by_cases h2 : a.recNumber ≤ 0
    · exact hsame (by simpa only [h1, h2, Bool.false_eq_true, if_false, if_true] using h)
    by_cases h3 : (!d.verifyRecordIndex (a.recNumber - 1)) = true
    · exact hsame (by simpa only [h1, h2, h3, Bool.false_eq_true, if_false, if_true] using h)
    simp only [h1, h2, h3, if_false, Option.bind_eq_bind] at h
    obtain ⟨⟨i, d₁⟩, hget, h⟩ := Option.bind_eq_some_iff.1 h
    obtain ⟨diagRecord, -, h⟩ := Option.bind_eq_some_iff.1 h
    obtain rfl : d₁ = d' := by
      split at h <;>
        (obtain ⟨_, -, h⟩ := Option.bind_eq_some_iff.1 h
         exact (Prod.mk.inj (Option.some.inj h)).2)
    exact .inr ⟨_, i, hget⟩

/-- So does asking for a field. -/
theorem getDiagFieldInternal_le {a : FieldArgs} {reply : FieldReply α}
    (h : getDiagFieldInternal C type d a = some (reply, d')) :
    d'.diagRecords.length = d.diagRecords.length ∧
      (d.diagRecords.length ≤ d.vecRecordIdx.length →
        d'.diagRecords.length ≤ d'.vecRecordIdx.length) := by
  rcases getDiagFieldInternal_state h with rfl | ⟨k, i, hget⟩
  · exact ⟨rfl, id⟩
  · exact OdbcDiagnostic.getDiagRecord_le hget

/-- An operation that is performed, however many records there are. -/
def Performs (type : HandleType) (d : OdbcDiagnostic) (op : Op) (d' : OdbcDiagnostic) : Prop :=
  op.perform type d = some d'

theorem OdbcDiagnostic.Counted.kept (h : d.Counted)
    (hle : d'.diagRecords.length = d.diagRecords.length ∧
      (d.diagRecords.length ≤ d.vecRecordIdx.length →
        d'.diagRecords.length ≤ d'.vecRecordIdx.length))
    (hvalid : d.Valid → d'.Valid) : d'.Counted :=
  ⟨hle.2 h.le, fun hcount => hvalid (h.valid (hle.1 ▸ hcount))⟩

/-- One operation keeps as many record numbers as records. -/
theorem Performs.counted {op : Op} (hstep : Performs type d op d') (h : d.Counted) :
    d'.Counted := by
  have hreads (hop : op.reads = true) (hvalid : d.Valid) : d'.Valid :=
    (Op.perform_reads hvalid hop hstep).1
  cases op with
  | setDiagnosticRecord component msg sqlstate serverName =>
    obtain rfl := Option.some.inj hstep
    constructor
    · simpa [OdbcDiagnostic.setDiagnosticRecord, OdbcDiagnostic.addDiagRecord] using h.le
    · intro hcount
      have hroom : d.diagRecords.length < 32767 := by
        simpa [OdbcDiagnostic.setDiagnosticRecord, OdbcDiagnostic.addDiagRecord,
          Nat.succ_le_iff] using hcount
      exact (h.valid (by omega)).setDiagnosticRecord hroom component msg sqlstate serverName
  | clean =>
    obtain rfl := Option.some.inj hstep
    exact OdbcDiagnostic.counted_new
  | getDiagRec a =>
    obtain ⟨⟨reply, _⟩, hcall, rfl⟩ := Option.map_eq_some_iff.1 hstep
    exact h.kept (getDiagRecInternal_le hcall) (hreads rfl)
  | getDiagRecW a =>
    obtain ⟨⟨reply, _⟩, hcall, rfl⟩ := Option.map_eq_some_iff.1 hstep
    exact h.kept (getDiagRecInternal_le hcall) (hreads rfl)
  | getDiagField a =>
    obtain ⟨⟨reply, _⟩, hcall, rfl⟩ := Option.map_eq_some_iff.1 hstep
    exact h.kept (getDiagFieldInternal_le hcall) (hreads rfl)
  | getDiagFieldW a =>
    obtain ⟨⟨reply, _⟩, hcall, rfl⟩ := Option.map_eq_some_iff.1 hstep
    obtain ⟨⟨reply', _⟩, hinner, heq⟩ := Option.map_eq_some_iff.1 hcall
    obtain ⟨-, rfl⟩ := Prod.mk.inj heq
    exact h.kept (getDiagFieldInternal_le hinner) (hreads rfl)

/-- Every handle in a run is counted. -/
theorem counted_of_reaches {ops : List Op} (hrun : Run.Reaches (Performs type) .new ops d) :
    d.Counted :=
  Run.Reaches.invariant (P := fun _ _ => True) OdbcDiagnostic.Counted
    (fun _ _ _ hs _ hstep => hstep.counted hs) OdbcDiagnostic.counted_new
    (Run.along_of_forall (fun _ _ _ => trivial) _) hrun

/-- The call that returns `SQL_NO_DATA` has a number above those of all records. -/
theorem lt_of_noData {a : RecArgs} {reply : RecReply α} (ha : a.handleType = some type)
    (h : getDiagRecInternal C type d a = some (reply, d')) (hret : reply.ret = .noData) :
    (d.vecRecordIdx.length : ℤ) < a.recNumber := by
  by_contra hle
  have h3 : ¬a.recNumber > d.vecRecordIdx.length := hle
  by_cases h1 : a.recNumber ≤ 0
  · simp only [getDiagRecInternal, ha, ne_eq, not_true_eq_false, if_false, h1, if_true,
      Option.some.injEq, Prod.mk.injEq] at h
    rw [← h.1] at hret
    cases hret
  by_cases h2 : a.bufferLength < 0
  · simp only [getDiagRecInternal, ha, ne_eq, not_true_eq_false, if_false, h1, h2, if_true,
      Option.some.injEq, Prod.mk.injEq] at h
    rw [← h.1] at hret
    cases hret
  simp only [getDiagRecInternal, ha, ne_eq, not_true_eq_false, if_false, h1, h2, h3,
    Option.bind_eq_bind, Option.bind_eq_some_iff] at h
  obtain ⟨⟨i, d₁⟩, -, diagRecord, -, ⟨msg, diagRecord'⟩, -, h⟩ := h
  by_cases hm : (!a.messageText) = true
  · rw [if_pos hm] at h
    obtain ⟨rfl, -⟩ := Prod.mk.inj (Option.some.inj h)
    cases hret
  rw [if_neg hm] at h
  by_cases hs : (a.textLengthPtr && splits C msg a.bufferLength) = true
  · rw [if_pos hs] at h
    obtain ⟨d₂, -, h⟩ := Option.bind_eq_some_iff.1 h
    obtain ⟨rfl, -⟩ := Prod.mk.inj (Option.some.inj h)
    cases hret
  · rw [if_neg hs] at h
    obtain ⟨rfl, -⟩ := Prod.mk.inj (Option.some.inj h)
    cases hret

/-- A pass that comes to its end leaves a record number over. -/
theorem Pass.count {n : ℕ} {replies : List (RecReply α)} (h : Pass C type p n d replies d')
    (hle : d.diagRecords.length ≤ d.vecRecordIdx.length) : d.diagRecords.length < 32767 := by
  induction h with
  | @last n d _ reply hn hcall hret =>
    have hlt : (d.vecRecordIdx.length : ℤ) < n := lt_of_noData rfl hcall hret
    omega
  | next _ hcall _ _ ih =>
    obtain ⟨hlen, hle'⟩ := getDiagRecInternal_le hcall
    exact hlen ▸ ih (hle' hle)

/-! ## Where a pass is -/

theorem sizeT_natCast (n : ℕ) : sizeT n = n := by
  unfold sizeT
  split_ifs <;> omega

theorem sizeT_pred {n : ℕ} (h : 1 ≤ n) : sizeT ((n : ℤ) - 1) = n - 1 := by
  unfold sizeT
  split_ifs <;> omega

theorem DiagRecord.clear_clear (r : DiagRecord) :
    r.clearStackMsgOffset.clearStackMsgOffset = r.clearStackMsgOffset := by
  simp only [DiagRecord.clearStackMsgOffset, List.dropWhile_idempotent]

/-- A second reset does nothing. -/
theorem OdbcDiagnostic.reset_reset (d : OdbcDiagnostic) : d.reset.reset = d.reset := by
  simp [OdbcDiagnostic.reset, Function.comp_def, DiagRecord.clear_clear]

/-- The pass is about to call with the record number `k + 1`, and goes on with the `i`-th
record. -/
structure At (d : OdbcDiagnostic) (k i : ℕ) : Prop where
  valid : d.Valid
  start : k = 0 → d.reset = d
  le : i ≤ d.diagRecords.length
  vec : d.vecRecordIdx.drop k = (List.range' i (d.diagRecords.length - i)).map Nat.cast

/-- The record that is read is open. -/
theorem At.opened {k i : ℕ} (h : At d k i) : d.opened k = d := by
  unfold OdbcDiagnostic.opened
  split_ifs with hk
  · exact h.start hk
  · rfl

/-- After a reset reading starts in front of the first record. -/
theorem at_reset (h : d.Valid) : At d.reset 0 0 where
  valid := h.reset
  start _ := d.reset_reset
  le := Nat.zero_le _
  vec := by
    rw [List.drop_zero, OdbcDiagnostic.reset_vecRecordIdx h.count, List.range_eq_range']
    simp [OdbcDiagnostic.reset]

theorem At.getElem? {k i : ℕ} (h : At d k i) (hi : i < d.diagRecords.length) :
    d.vecRecordIdx[k]? = some (i : ℤ) := by
  have hget := congrArg List.head? h.vec
  rw [List.head?_drop] at hget
  rw [hget, List.head?_map, List.head?_range']
  simp [Nat.sub_ne_zero_of_lt hi]

/-- The numbers behind the current one are those of the next records. -/
theorem At.drop_succ {k i : ℕ} (h : At d k i) (hi : i < d.diagRecords.length) :
    d.vecRecordIdx.drop (k + 1)
      = (List.range' (i + 1) (d.diagRecords.length - (i + 1))).map Nat.cast := by
  obtain ⟨n, hn⟩ : ∃ n, d.diagRecords.length - i = n + 1 := ⟨d.diagRecords.length - i - 1, by omega⟩
  have hn' : d.diagRecords.length - (i + 1) = n := by omega
  rw [← List.drop_drop, h.vec, hn, hn', List.range'_succ]
  rfl

section Step

variable {k i B : ℕ} {sqlState nativeErrorPtr : ℕ → Bool} {r : DiagRecord}

/-- The call reads the record that the pass is at, and goes on with what is left of it, or with
the next one. -/
theorem At.step (C : CharType α) (type : HandleType) (B : ℕ) (sqlState nativeErrorPtr : ℕ → Bool)
    (h : At d k i) (hr : d.diagRecords[i]? = some r) :
    let a := (PassArgs.ofSize B sqlState nativeErrorPtr).call type (k + 1)
    getDiagRecInternal C type d a = some (recReply C a r, afterRead C d a i r) ∧
      (afterRead C d a i r).diagRecords = d.diagRecords.set i (r.advance B) ∧
      At (afterRead C d a i r) (k + 1) (if splits C r.rest B then i else i + 1) := by
  intro a
  have hi : i < d.diagRecords.length := (List.getElem?_eq_some_iff.1 hr).1
  have hk : (a.recNumber - 1).toNat = k := by
    change ((k + 1 : ℕ) - 1 : ℤ).toNat = k
    omega
  have hvec := h.getElem? hi
  have hlt : k < d.vecRecordIdx.length := (List.getElem?_eq_some_iff.1 hvec).1
  have hreads : Reads type d a := by
    refine ⟨rfl, ?_, Int.natCast_nonneg B, ?_⟩
    · change (1 : ℤ) ≤ (k + 1 : ℕ)
      omega
    · change ((k + 1 : ℕ) : ℤ) ≤ d.vecRecordIdx.length
      omega
  obtain ⟨j, r', hj, hr', -, hvalid, hcall⟩ := getDiagRecInternal_reads (C := C) h.valid hreads
  rw [hk, h.opened] at hj hr'
  obtain rfl : i = j := Int.ofNat.inj (Option.some.inj (hvec.symm.trans hj))
  obtain rfl : r = r' := Option.some.inj (hr.symm.trans hr')
  have hinserts : inserts C a r = splits C r.rest B := rfl
  have hrecords : (afterRead C d a i r).diagRecords = d.diagRecords.set i (r.advance B) := by
    simp only [afterRead, hk, h.opened, OdbcDiagnostic.advance]
    split_ifs <;> rfl
  have hlen : (afterRead C d a i r).diagRecords.length = d.diagRecords.length := by
    rw [hrecords, List.length_set]
  refine ⟨hcall, hrecords, hvalid, fun h0 => absurd h0 (Nat.succ_ne_zero k), ?_, ?_⟩
  · rw [hlen]
    split_ifs <;> omega
  · rw [hlen]
    simp only [afterRead, hk, h.opened, hinserts, OdbcDiagnostic.advance]
    split_ifs
    · rw [OdbcDiagnostic.insertIdx_take_drop _ _ (Nat.succ_le_of_lt hlt),
        List.drop_left' (by rw [List.length_take]; omega), h.drop_succ hi]
      obtain ⟨n, hn⟩ : ∃ n, d.diagRecords.length - i = n + 1 :=
        ⟨d.diagRecords.length - i - 1, by omega⟩
      rw [hn, List.range'_succ, show d.diagRecords.length - (i + 1) = n by omega]
      rfl
    · exact h.drop_succ hi

/-- After the last record there is nothing more to read. -/
theorem At.stop (h : At d k d.diagRecords.length) :
    getDiagRecInternal C type d ((PassArgs.ofSize B sqlState nativeErrorPtr).call type (k + 1))
      = some (⟨.noData, none, none, none, none⟩, d) := by
  have hle : d.vecRecordIdx.length ≤ k := by
    have hvec := h.vec
    rwa [Nat.sub_self, List.range'_zero, List.map_nil, List.drop_eq_nil_iff] at hvec
  have h1 : ¬((k + 1 : ℕ) : ℤ) ≤ 0 := by omega
  have h2 : ¬(B : ℤ) < 0 := by omega
  have h3 : ((k + 1 : ℕ) : ℤ) > d.vecRecordIdx.length := by omega
  simp only [getDiagRecInternal, PassArgs.call, PassArgs.ofSize, ne_eq, not_true_eq_false, if_false,
    h1, h2, h3, if_true]

/-- The first record number resets what was read before. -/
theorem OdbcDiagnostic.Valid.call_reset (h : d.Valid) {a : RecArgs} (ha : a.handleType = some type)
    (hfirst : a.recNumber = 1) (hbuffer : 0 ≤ a.bufferLength) :
    getDiagRecInternal C type d a = getDiagRecInternal C type d.reset a := by
  have hk : (a.recNumber - 1).toNat = 0 := by omega
  have hlen : d.reset.vecRecordIdx.length = d.diagRecords.length := by
    simp [OdbcDiagnostic.reset]
  by_cases hzero : d.diagRecords.length = 0
  · have hsame : d.reset = d := by
      have hrecords : d.diagRecords = [] := List.length_eq_zero_iff.1 hzero
      have hvec : d.vecRecordIdx = [] := by
        rw [List.eq_nil_iff_forall_not_mem]
        intro i hi
        have hrange := (h.indices i).1 hi
        omega
      obtain ⟨records, vec⟩ := d
      subst hrecords hvec
      rfl
    rw [hsame]
  · have hle := h.length_le
    obtain ⟨i, r, hi, hr, -, -, hcall⟩ := getDiagRecInternal_reads (C := C) h
      (show Reads type d a from ⟨ha, by omega, hbuffer, by omega⟩)
    obtain ⟨j, r', hj, hr', -, -, hcall'⟩ := getDiagRecInternal_reads (C := C) h.reset
      (show Reads type d.reset a from ⟨ha, by omega, hbuffer, by omega⟩)
    have hopened : d.opened 0 = d.reset := rfl
    have hopened' : d.reset.opened 0 = d.reset := d.reset_reset
    rw [hk, hopened] at hi hr
    rw [hk, hopened'] at hj hr'
    obtain rfl : i = j := Int.ofNat.inj (Option.some.inj (hi.symm.trans hj))
    obtain rfl : r = r' := Option.some.inj (hr.symm.trans hr')
    rw [hcall, hcall']
    simp only [afterRead, hk, hopened, hopened']

/-- A pass starts from a reset. -/
theorem Pass.reset (h : d.Valid) {replies : List (RecReply α)} :
    (∃ d', Pass C type p 1 d replies d') ↔ ∃ d', Pass C type p 1 d.reset replies d' := by
  have hcall : getDiagRecInternal C type d (p.call type 1)
      = getDiagRecInternal C type d.reset (p.call type 1) :=
    h.call_reset rfl rfl (Int.natCast_nonneg _)
  constructor
  · rintro ⟨d', hpass⟩
    cases hpass with
    | last hn heq hret => exact ⟨_, .last hn (hcall ▸ heq) hret⟩
    | next hn heq hret hrest => exact ⟨_, .next hn (hcall ▸ heq) hret hrest⟩
  · rintro ⟨d', hpass⟩
    cases hpass with
    | last hn heq hret => exact ⟨_, .last hn (hcall.trans heq) hret⟩
    | next hn heq hret hrest => exact ⟨_, .next hn (hcall.trans heq) hret hrest⟩

end Step

/-! ## Messages that fit -/

section Whole

variable {k i B : ℕ} {sqlState nativeErrorPtr : ℕ → Bool}

/-- The text is written without a cut, and nothing more of it is expected. -/
structure Whole (C : CharType α) (B : ℕ) (msg : List UInt8) : Prop where
  text : (C.writeStringWithLenInChars msg true B true).text = some (C.units msg)
  splits : splits C msg B = false

/-- A text that fits is not split. -/
theorem splits_of_lt {msg : List UInt8} (hB : B ≤ 32767) (h : (C.units msg).length < B) :
    splits C msg B = false := by
  have hlen := smallInt_natCast (n := (C.units msg).length) (by omega)
  have hsmall : ∀ n : ℕ, n < B → smallInt ((n : ℤ) - B) ≤ 0 := by
    intro n hn
    unfold smallInt
    rw [Int.bmod_def]
    split_ifs <;> omega
  unfold splits
  rw [hlen, decide_eq_false_iff_not, Int.not_lt]
  split_ifs
  · exact hsmall 0 (by omega)
  · exact hsmall _ h

/-- A short text comes in one piece. -/
theorem whole_char {msg : List UInt8} (hB : B ≤ 32767) (h : msg.length < B) :
    Whole char B msg := by
  refine ⟨?_, splits_of_lt hB h⟩
  simp only [char, writeStringUtf8, sizeT_natCast, sizeT_pred (n := B) (by omega), if_true, id]
  rw [List.take_of_length_le (by omega)]

/-- So does a short wide one. -/
theorem whole_wchar {msg : List UInt8} (h2 : 2 ≤ B) (hB : B ≤ 32767)
    (h : (utf16 msg).length < B) : Whole wchar B msg := by
  refine ⟨?_, splits_of_lt hB h⟩
  have hone : ¬((B : ℤ) ≤ 1) := by omega
  simp only [wchar, writeStringUtf16, hone, false_and, if_false, sizeT_pred (n := B) (by omega),
    if_true]
  rw [List.take_of_length_le (by omega)]

/-- A text has no more code units than bytes. -/
theorem length_utf16_le (msg : List UInt8) : (utf16 msg).length ≤ msg.length := by
  obtain ⟨w, pos, heq, hle⟩ := Widechar.utf8ToUtf16Lenient_total msg
  simp only [utf16, heq]
  exact hle

/-- From where the pass is it reads what is left of the records, if that fits. -/
theorem At.reads {n : ℕ} : ∀ {d : OdbcDiagnostic} {k i : ℕ}, At d k i →
    d.diagRecords.length = i + n → k + n < 32767 →
    (∀ r ∈ d.diagRecords.drop i, Whole C B r.rest) →
    ∃ replies d', Pass C type (.ofSize B sqlState nativeErrorPtr) (k + 1) d replies d' ∧
      written replies = (d.diagRecords.drop i).flatMap fun r => C.units r.rest := by
  induction n with
  | zero =>
    intro d k i h hlen hk hwhole
    obtain rfl : i = d.diagRecords.length := by omega
    exact ⟨_, d, .last (by omega) h.stop rfl, by simp [written]⟩
  | succ n ih =>
    intro d k i h hlen hk hwhole
    have hi : i < d.diagRecords.length := by omega
    have hr := List.getElem?_eq_getElem hi
    rw [List.drop_eq_getElem_cons hi] at hwhole ⊢
    obtain ⟨htext, hsplits⟩ := hwhole _ (List.mem_cons_self ..)
    obtain ⟨hcall, hrecords, hat⟩ := h.step C type B sqlState nativeErrorPtr hr
    rw [hsplits, if_neg Bool.false_ne_true] at hat
    have hdrop : (afterRead C d ((PassArgs.ofSize B sqlState nativeErrorPtr).call type (k + 1)) i
        d.diagRecords[i]).diagRecords.drop (i + 1) = d.diagRecords.drop (i + 1) := by
      rw [hrecords, List.drop_set_of_lt (Nat.lt_succ_self i)]
    obtain ⟨replies, d', hpass, hwritten⟩ := ih hat (by rw [hrecords, List.length_set]; omega)
      (by omega) (hdrop ▸ fun r hr => hwhole r (List.mem_cons_of_mem _ hr))
    refine ⟨_, d', .next (by omega) hcall ?_ hpass, ?_⟩
    · simp only [recReply]
      split_ifs <;> simp
    · rw [List.flatMap_cons, ← hdrop, ← hwritten]
      simp only [written, List.flatMap_cons]
      congr 1
      simp only [recReply, PassArgs.call, PassArgs.ofSize, if_true, htext, Option.getD_some]

/-! ## Messages that are cut -/

/-- How much is left of the records from the `i`-th on. -/
def left (d : OdbcDiagnostic) (i : ℕ) : ℕ :=
  ((d.diagRecords.drop i).map fun r => r.rest.length).sum

/-- What is left is the rest of this record and what is behind it. -/
theorem left_eq {i : ℕ} (hi : i < d.diagRecords.length) :
    left d i = d.diagRecords[i].rest.length + left d (i + 1) := by
  unfold left
  rw [List.drop_eq_getElem_cons hi, List.map_cons, List.sum_cons]

theorem drop_of_set {i : ℕ} {r : DiagRecord} (h : d'.diagRecords = d.diagRecords.set i r) :
    d'.diagRecords.drop (i + 1) = d.diagRecords.drop (i + 1) := by
  rw [h, List.drop_set_of_lt (Nat.lt_succ_self i)]

theorem left_of_set {i : ℕ} {r : DiagRecord} (hi : i < d.diagRecords.length)
    (h : d'.diagRecords = d.diagRecords.set i r) :
    left d' i = r.rest.length + left d (i + 1) := by
  have hi' : i < d'.diagRecords.length := by rwa [h, List.length_set]
  have hr : d'.diagRecords[i] = r := by simp only [h, List.getElem_set_self]
  rw [left_eq hi', hr, left, left, drop_of_set h]

/-- Only a text longer than the buffer is split. -/
theorem lt_of_splits {msg : List UInt8} (hB : B ≤ 32767) (h : splits char msg B = true) :
    B < msg.length := by
  by_contra hle
  have hneg : ∀ n : ℕ, n ≤ B → ¬0 < smallInt ((n : ℤ) - B) := by
    intro n hn
    unfold smallInt
    rw [Int.bmod_def]
    split_ifs <;> omega
  have hlen := smallInt_natCast (n := msg.length) (by omega)
  simp only [splits, char, id, hlen, decide_eq_true_eq] at h
  split_ifs at h
  · exact hneg 0 (Nat.zero_le B) h
  · exact hneg _ (by omega) h

/-- A piece is taken off the rest. -/
theorem DiagRecord.Valid.length_rest_advance {r : DiagRecord} (h : r.Valid)
    (hB : B < r.rest.length) : (r.advance B).rest.length = r.rest.length - B := by
  have hsize : sizeT ((r.offset : ℤ) + B) = r.offset + B := by
    unfold sizeT
    split_ifs <;> omega
  have htext : (r.advance B).messageText = r.messageText := by
    unfold DiagRecord.advance
    split_ifs <;> rfl
  simp only [DiagRecord.rest, List.length_drop] at hB ⊢
  rw [htext, h.offset_advance, hsize, if_neg (by omega)]
  omega

/-- No pass writes more than what is left, and one that writes as much does not cut. -/
theorem Pass.length_written_le {n : ℕ} {replies : List (RecReply UInt8)}
    (h : Pass char type (.ofSize B sqlState nativeErrorPtr) n d replies d') (h2 : 2 ≤ B)
    (hB : B ≤ 32767) :
    ∀ {k i : ℕ}, n = k + 1 → At d k i → (written replies).length ≤ left d i ∧
      ((written replies).length = left d i → ∀ r ∈ d.diagRecords.drop i, r.rest.length < B) := by
  induction h with
  | @last n d _ reply hn hcall hret =>
    rintro k i rfl hat
    by_cases hi : i < d.diagRecords.length
    · have hcall' := (hat.step char type B sqlState nativeErrorPtr (List.getElem?_eq_getElem hi)).1
      obtain ⟨rfl, -⟩ := Prod.mk.inj (Option.some.inj (hcall.symm.trans hcall'))
      simp only [recReply] at hret
      split_ifs at hret
    · obtain rfl : i = d.diagRecords.length := Nat.le_antisymm hat.le (Nat.not_lt.1 hi)
      obtain ⟨rfl, -⟩ := Prod.mk.inj (Option.some.inj (hcall.symm.trans hat.stop))
      simp [written]
  | @next n d _ _ reply replies hn hcall hret hrest ih =>
    rintro k i rfl hat
    by_cases hi : i < d.diagRecords.length
    swap
    · obtain rfl : i = d.diagRecords.length := Nat.le_antisymm hat.le (Nat.not_lt.1 hi)
      obtain ⟨rfl, -⟩ := Prod.mk.inj (Option.some.inj (hcall.symm.trans hat.stop))
      exact absurd rfl hret
    obtain ⟨hcall', hrecords, hat'⟩ :=
      hat.step char type B sqlState nativeErrorPtr (List.getElem?_eq_getElem hi)
    obtain ⟨rfl, rfl⟩ := Prod.mk.inj (Option.some.inj (hcall.symm.trans hcall'))
    have hpiece : (written (recReply char ((PassArgs.ofSize B sqlState nativeErrorPtr).call type
        (k + 1)) d.diagRecords[i] :: replies)).length
        = min (B - 1) d.diagRecords[i].rest.length + (written replies).length := by
      simp only [written, List.flatMap_cons, List.length_append, recReply, PassArgs.call,
        PassArgs.ofSize, if_true, char, writeStringUtf8, sizeT_natCast,
        sizeT_pred (n := B) (by omega), Option.getD_some, List.length_take]
    rw [hpiece, left_eq hi]
    cases hs : splits char d.diagRecords[i].rest B with
    | true =>
      -- the pass moves on by one character more than it writes
      rw [hs, if_pos rfl] at hat'
      have hlt := lt_of_splits hB hs
      have hle := (ih rfl hat').1
      have hrest' := (hat.valid.records _ (List.getElem_mem hi)).length_rest_advance hlt
      rw [left_of_set hi hrecords, hrest'] at hle
      have hmin := Nat.min_le_left (B - 1) d.diagRecords[i].rest.length
      exact ⟨by omega, fun heq => by omega⟩
    | false =>
      rw [hs, if_neg Bool.false_ne_true] at hat'
      obtain ⟨hle, heq⟩ := ih rfl hat'
      have hsame : left _ (i + 1) = left d (i + 1) :=
        congrArg (fun l => (l.map fun r => r.rest.length).sum) (drop_of_set hrecords)
      rw [hsame] at hle heq
      have hmin := Nat.min_le_right (B - 1) d.diagRecords[i].rest.length
      refine ⟨by omega, fun htotal => ?_⟩
      rw [List.drop_eq_getElem_cons hi]
      refine List.forall_mem_cons.2 ⟨by omega, ?_⟩
      rw [← drop_of_set hrecords]
      exact heq (by omega)

/-! ## The pieces of a pass -/

/-- Once all is reset, what is left of the records are their messages. -/
theorem rest_reset (h : d.Valid) {r : DiagRecord} (hr : r ∈ d.diagRecords) :
    r.clearStackMsgOffset.rest = r.messageText := by
  rw [DiagRecord.rest, (h.records r hr).clear.2, List.drop_zero]
  rfl

/-- After a reset the rests are the messages. -/
theorem flatMap_reset (h : d.Valid) :
    (d.reset.diagRecords.flatMap fun r => C.units r.rest) = messages C d := by
  simp only [OdbcDiagnostic.reset, List.flatMap_map, messages]
  refine List.flatMap_congr fun r hr => ?_
  rw [rest_reset h hr]

/-- Messages that fit are read as they are. -/
theorem reassembles_of_fits (h : d.Valid) (hwhole : ∀ r ∈ d.diagRecords, Whole C B r.messageText)
    (hcount : d.diagRecords.length < 32767) :
    Reassembles C type (.ofSize B sqlState nativeErrorPtr) d := by
  have hlen : d.reset.diagRecords.length = 0 + d.diagRecords.length := by
    simp [OdbcDiagnostic.reset]
  have hrests : ∀ r ∈ d.reset.diagRecords.drop 0, Whole C B r.rest := by
    intro r hr
    obtain ⟨r, hmem, rfl⟩ := List.mem_map.1 hr
    rw [rest_reset h hmem]
    exact hwhole r hmem
  have hread : ∃ replies d',
      Pass C type (.ofSize B sqlState nativeErrorPtr) (0 + 1) d.reset replies d' ∧
      written replies = (d.reset.diagRecords.drop 0).flatMap fun r => C.units r.rest :=
    (at_reset h).reads hlen (by omega) hrests
  obtain ⟨replies, d', hpass, hwritten⟩ := hread
  obtain ⟨d'', hpass'⟩ := (Pass.reset h).2 ⟨d', hpass⟩
  exact ⟨replies, d'', hpass', by rw [hwritten, List.drop_zero, flatMap_reset h]⟩

/-- Messages that are read as they are fit into the buffer. -/
theorem fits_of_reassembles (h2 : 2 ≤ B) (hB : B ≤ 32767) (hd : d.Counted)
    (h : Reassembles char type (.ofSize B sqlState nativeErrorPtr) d) : Fits char d B := by
  obtain ⟨replies, d', hpass, hwritten⟩ := h
  have hcount := hpass.count hd.le
  have hvalid := hd.valid (by omega)
  refine ⟨fun r hr => ?_, hcount⟩
  obtain ⟨d'', hpass'⟩ := (Pass.reset hvalid).1 ⟨d', hpass⟩
  have hleft : left d.reset 0 = (messages char d).length := by
    rw [← flatMap_reset hvalid, List.length_flatMap, left, List.drop_zero]
    rfl
  have hfits := (hpass'.length_written_le h2 hB rfl (at_reset hvalid)).2 (by rw [hwritten, hleft])
  have hlt := hfits r.clearStackMsgOffset (List.mem_map_of_mem hr)
  rwa [rest_reset hvalid hr] at hlt

end Whole

/-- What is written in pieces of `B` units are the messages just when every message is shorter
than that, and every record has a number. The messages in UTF-16 are no longer than in bytes. -/
theorem reassembles_iff (type : HandleType) {ops : List Op}
    (hrun : Run.Reaches (Performs type) .new ops d) {B : ℕ} (h2 : 2 ≤ B) (hB : B ≤ 32767)
    (sqlState nativeErrorPtr : ℕ → Bool) :
    (Reassembles char type (.ofSize B sqlState nativeErrorPtr) d ∧
        Reassembles wchar type (.ofSize B sqlState nativeErrorPtr) d ↔ Fits char d B) ∧
      (Reassembles char type (.ofSize B sqlState nativeErrorPtr) d ↔ Fits char d B) ∧
      (Fits wchar d B → Reassembles wchar type (.ofSize B sqlState nativeErrorPtr) d) := by
  have hd := counted_of_reaches hrun
  have hnarrow : Fits char d B → Reassembles char type (.ofSize B sqlState nativeErrorPtr) d :=
    fun h => reassembles_of_fits (hd.valid (Nat.le_of_lt h.count))
      (fun r hr => whole_char hB (h.messages r hr)) h.count
  have hwide : Fits wchar d B → Reassembles wchar type (.ofSize B sqlState nativeErrorPtr) d :=
    fun h => reassembles_of_fits (hd.valid (Nat.le_of_lt h.count))
      (fun r hr => whole_wchar h2 hB (h.messages r hr)) h.count
  have hunits : Fits char d B → Fits wchar d B := fun h =>
    ⟨fun r hr => Nat.lt_of_le_of_lt (length_utf16_le r.messageText) (h.messages r hr), h.count⟩
  have hfits : Reassembles char type (.ofSize B sqlState nativeErrorPtr) d → Fits char d B :=
    fits_of_reassembles h2 hB hd
  exact ⟨⟨fun h => hfits h.1, fun h => ⟨hnarrow h, hwide (hunits h)⟩⟩, ⟨hfits, hnarrow⟩, hwide⟩

/-- A record whose message has twenty bytes. -/
def posted : OdbcDiagnostic :=
  OdbcDiagnostic.new.setDiagnosticRecord [] (bytes "message") (bytes "HY000") []

theorem reaches_posted : Run.Reaches (Performs .stmt) .new
    [.setDiagnosticRecord [] (bytes "message") (bytes "HY000") []] posted :=
  ⟨posted, rfl, rfl⟩

/-- A message that fits the buffer comes back, in both encodings. -/
theorem reassembles_iff_posted :
    Reassembles char .stmt (.ofSize 21 (fun _ => true) fun _ => true) posted ∧
      Reassembles wchar .stmt (.ofSize 21 (fun _ => true) fun _ => true) posted := by
  refine (reassembles_iff .stmt reaches_posted (by decide) (by decide) _ _).1.2 ⟨?_, ?_⟩ <;> decide

/-- A buffer of as many bytes as the message has does not get the last one, and nothing is said
to be left. -/
theorem not_reassembles : ¬∀ (type : HandleType) (ops : List Op) (d : OdbcDiagnostic),
    Run.Reaches (Performs type) .new ops d → ∀ B : ℕ, 2 ≤ B → B ≤ 32767 →
    ∀ sqlState nativeErrorPtr : ℕ → Bool,
      Reassembles char type (.ofSize B sqlState nativeErrorPtr) d ∧
        Reassembles wchar type (.ofSize B sqlState nativeErrorPtr) d := by
  intro h
  have hnarrow := (h .stmt _ posted reaches_posted 20 (by decide) (by decide) (fun _ => true)
    fun _ => true).1
  have hfits := fits_of_reassembles (by decide) (by decide) (counted_of_reaches reaches_posted)
    hnarrow
  exact absurd hfits.messages (by decide)

end HaybarnOdbc.Diag
