import Mathlib.Data.List.Nodup
import Mathlib.Data.List.Perm.Subperm
import HaybarnOdbc.Diagnostics
import HaybarnOdbc.Lib.Run

/-!
# Reading the diagnostic records

Reading changes the records : a read remembers how far it came, and inserts an index where
more of the message is to come. What holds all the while is `OdbcDiagnostic.Valid`, under
which no access is out of range. Of the stack of a record only the top matters, since what
lies below a top that is not zero is cleared down to a zero (`canon`), and the first record
number sets every top to zero; so two passes over the same records read the same
(`diag_reads`).
-/

namespace HaybarnOdbc.Diag

/-! ## Offsets of a record -/

namespace DiagRecord

/-- The offsets of the record stand on a zero, and the top one is within the message. -/
structure Valid (r : DiagRecord) : Prop where
  bottom : r.stackMsgOffset.getLast? = some 0
  top : ∀ o, r.stackMsgOffset.head? = some o → o ≤ r.messageText.length

/-- The top of the stack. -/
def offset (r : DiagRecord) : ℕ := r.stackMsgOffset.headD 0

/-- What is left of the message. -/
def rest (r : DiagRecord) : List UInt8 := r.messageText.drop r.offset

/-- The record after its message was read into a buffer. -/
def advance (r : DiagRecord) (buffLength : ℤ) : DiagRecord :=
  if sizeT (r.offset + buffLength) ≥ r.messageText.length then r.clearStackMsgOffset
  else { r with stackMsgOffset := sizeT (r.offset + buffLength) :: r.stackMsgOffset }

/-- The record with no more of its stack than matters. -/
def canon (r : DiagRecord) : DiagRecord :=
  { r with stackMsgOffset := if r.offset = 0 then [0] else [r.offset, 0] }

/-- The record without its stack. -/
def forget (r : DiagRecord) : DiagRecord := { r with stackMsgOffset := [] }

variable {r : DiagRecord}

theorem dropWhile_of_bottom {s : List ℕ} (h : s.getLast? = some 0) :
    ∃ t, s.dropWhile (· != 0) = 0 :: t ∧ (0 :: t).getLast? = some 0 := by
  induction s with
  | nil => cases h
  | cons o s ih =>
    by_cases ho : o = 0
    · subst ho
      exact ⟨s, rfl, h⟩
    · cases s with
      | nil =>
        obtain rfl : o = 0 := by simpa using h
        exact absurd rfl ho
      | cons o' s =>
        rw [List.getLast?_cons_cons] at h
        obtain ⟨t, ht, hlast⟩ := ih h
        exact ⟨t, by rw [List.dropWhile_cons_of_pos (by simpa using ho), ht], hlast⟩

/-- The offset is on top of the stack. -/
theorem Valid.head?_eq (h : r.Valid) : r.stackMsgOffset.head? = some r.offset := by
  have hbottom := h.bottom
  unfold offset
  cases hs : r.stackMsgOffset with
  | nil => simp [hs] at hbottom
  | cons o s => rfl

/-- The offset is within the message. -/
theorem Valid.offset_le (h : r.Valid) : r.offset ≤ r.messageText.length := h.top _ h.head?_eq

/-- Clearing the stack goes back to the start. -/
theorem Valid.clear (h : r.Valid) :
    r.clearStackMsgOffset.Valid ∧ r.clearStackMsgOffset.offset = 0 := by
  obtain ⟨t, ht, hlast⟩ := dropWhile_of_bottom h.bottom
  have hstack : r.clearStackMsgOffset.stackMsgOffset = 0 :: t := ht
  refine ⟨⟨by rw [hstack, hlast], fun o ho => ?_⟩, by rw [offset, hstack]; rfl⟩
  rw [hstack, List.head?_cons] at ho
  cases ho
  exact Nat.zero_le _

/-- `GetMessage` finds its offset, and it is within the message. -/
theorem Valid.getMessage_eq (h : r.Valid) (buffLength : ℤ) :
    r.getMessage buffLength = some (r.rest, r.advance buffLength) := by
  simp only [getMessage, h.head?_eq, Option.bind_eq_bind, Option.bind_some, if_pos h.offset_le]
  rfl

/-- A piece that is read keeps the record in order. -/
theorem Valid.advance (h : r.Valid) (buffLength : ℤ) : (r.advance buffLength).Valid := by
  unfold DiagRecord.advance
  split_ifs with hlen
  · exact h.clear.1
  · refine ⟨?_, fun o ho => ?_⟩
    · have hbottom := h.bottom
      cases hs : r.stackMsgOffset with
      | nil => simp [hs] at hbottom
      | cons o s =>
        rw [hs] at hbottom
        exact hbottom
    · cases ho
      exact Nat.le_of_lt (Nat.lt_of_not_le hlen)

/-- A new record, and one whose text is replaced. -/
theorem valid_new (msg sqlstate serverName : List UInt8) : (new msg sqlstate serverName).Valid :=
  ⟨rfl, by rintro _ ⟨⟩; exact Nat.zero_le _⟩

/-- So does a new message. -/
theorem Valid.setMessage (h : r.Valid) (newMsg : List UInt8) : (r.setMessage newMsg).Valid := by
  obtain ⟨t, ht, hlast⟩ := dropWhile_of_bottom h.bottom
  have hstack : (r.setMessage newMsg).stackMsgOffset = 0 :: t := ht
  refine ⟨by rw [hstack, hlast], fun o ho => ?_⟩
  rw [hstack, List.head?_cons] at ho
  cases ho
  exact Nat.zero_le _

@[simp] theorem forget_clear (r : DiagRecord) : r.clearStackMsgOffset.forget = r.forget := rfl

@[simp] theorem forget_advance (r : DiagRecord) (buffLength : ℤ) :
    (r.advance buffLength).forget = r.forget := by
  unfold DiagRecord.advance
  split_ifs <;> rfl

/-- Two records differ below the tops of their stacks only. -/
theorem canon_eq_iff {r' : DiagRecord} :
    r.canon = r'.canon ↔ r.forget = r'.forget ∧ r.offset = r'.offset := by
  constructor
  · intro h
    have hforget : r.canon.forget = r'.canon.forget := congrArg forget h
    have hstack := congrArg stackMsgOffset h
    simp only [canon] at hstack
    refine ⟨hforget, ?_⟩
    split_ifs at hstack with h1 h2 h2
    · rw [h1, h2]
    · simp at hstack
    · simp at hstack
    · simpa using hstack
  · rintro ⟨hf, ho⟩
    simp only [forget, mk.injEq] at hf
    simp [canon, hf, ho]

/-- The offset is moved by the length of the buffer, or back to the start. -/
theorem Valid.offset_advance (h : r.Valid) (buffLength : ℤ) :
    (r.advance buffLength).offset = if sizeT (r.offset + buffLength) ≥ r.messageText.length then 0
      else sizeT (r.offset + buffLength) := by
  unfold DiagRecord.advance
  split_ifs
  · exact h.clear.2
  · rfl

/-- What is read of a record, and how, does not depend on what lies below the top. -/
theorem canon_advance {r' : DiagRecord} (h : r.Valid) (h' : r'.Valid) (heq : r.canon = r'.canon)
    (buffLength : ℤ) : (r.advance buffLength).canon = (r'.advance buffLength).canon := by
  obtain ⟨hf, ho⟩ := canon_eq_iff.1 heq
  have hmsg : r.messageText = r'.messageText := by
    simp only [forget, mk.injEq] at hf
    exact hf.2.2.2.2.2.1
  rw [canon_eq_iff, forget_advance, forget_advance, h.offset_advance, h'.offset_advance, ho, hmsg]
  exact ⟨hf, rfl⟩

end DiagRecord

/-! ## Records of a handle -/

theorem smallInt_natCast {n : ℕ} (h : n ≤ 32767) : smallInt n = n := by
  unfold smallInt
  rw [Int.bmod_def]
  split_ifs <;> omega

namespace OdbcDiagnostic

/-- `vec_record_idx` is in order and has the indices of the records and no others, and the
offsets of every record are as they should be. -/
structure Valid (d : OdbcDiagnostic) : Prop where
  count : d.diagRecords.length ≤ 32767
  sorted : d.vecRecordIdx.Pairwise (· ≤ ·)
  indices : ∀ i, i ∈ d.vecRecordIdx ↔ 0 ≤ i ∧ i < d.diagRecords.length
  records : ∀ r ∈ d.diagRecords, r.Valid

/-- The records after the index of the record number was taken. -/
def opened (d : OdbcDiagnostic) (recIdx : ℕ) : OdbcDiagnostic := if recIdx = 0 then d.reset else d

/-- The record at an index was read. -/
def advance (d : OdbcDiagnostic) (i : ℕ) (r : DiagRecord) (buffLength : ℤ) : OdbcDiagnostic :=
  { d with diagRecords := d.diagRecords.set i (r.advance buffLength) }

/-- The records with no more of their stacks than matters. -/
def canon (d : OdbcDiagnostic) : OdbcDiagnostic :=
  { d with diagRecords := d.diagRecords.map DiagRecord.canon }

/-- The records without their stacks. -/
def texts (d : OdbcDiagnostic) : List DiagRecord := d.diagRecords.map DiagRecord.forget

variable {d : OdbcDiagnostic}

/-- After a reset the numbers are those of the records. -/
theorem reset_vecRecordIdx (h : d.diagRecords.length ≤ 32767) :
    d.reset.vecRecordIdx = (List.range d.diagRecords.length).map Nat.cast := by
  refine List.map_congr_left fun i hi => smallInt_natCast ?_
  rw [List.mem_range] at hi
  omega

/-- A new handle is in order. -/
theorem valid_new : new.Valid := ⟨by simp [new], by simp [new], by simp [new], by simp [new]⟩

/-- A reset keeps it. -/
theorem Valid.reset (h : d.Valid) : d.reset.Valid where
  count := by
    simp only [OdbcDiagnostic.reset, List.length_map]
    exact h.count
  sorted := by
    rw [reset_vecRecordIdx h.count, List.pairwise_map]
    exact List.pairwise_lt_range.imp fun hlt => Int.ofNat_le.2 (Nat.le_of_lt hlt)
  indices i := by
    rw [reset_vecRecordIdx h.count]
    simp only [List.mem_map, List.mem_range, OdbcDiagnostic.reset, List.length_map]
    constructor
    · rintro ⟨n, hn, rfl⟩
      omega
    · rintro ⟨h0, hlt⟩
      exact ⟨i.toNat, by omega, by omega⟩
  records r hr := by
    obtain ⟨r, hmem, rfl⟩ := List.mem_map.1 hr
    exact (h.records r hmem).clear.1

/-- So does opening a record. -/
theorem Valid.opened (h : d.Valid) (recIdx : ℕ) : (d.opened recIdx).Valid := by
  unfold OdbcDiagnostic.opened
  split_ifs
  · exact h.reset
  · exact h

@[simp] theorem length_opened (d : OdbcDiagnostic) (recIdx : ℕ) :
    (d.opened recIdx).diagRecords.length = d.diagRecords.length := by
  unfold OdbcDiagnostic.opened
  split_ifs <;> simp [OdbcDiagnostic.reset]

/-- A piece that is read keeps it. -/
theorem Valid.advance (h : d.Valid) {i : ℕ} {r : DiagRecord} (hr : r.Valid) (buffLength : ℤ) :
    (d.advance i r buffLength).Valid where
  count := by
    simp only [OdbcDiagnostic.advance, List.length_set]
    exact h.count
  sorted := h.sorted
  indices := by
    simp only [OdbcDiagnostic.advance, List.length_set]
    exact h.indices
  records r' hr' := by
    rcases List.mem_or_eq_of_mem_set hr' with hr' | rfl
    · exact h.records r' hr'
    · exact hr.advance buffLength

theorem insertIdx_take_drop (s : List ℤ) (x : ℤ) :
    ∀ {k : ℕ}, k ≤ s.length → s.insertIdx k x = s.take k ++ x :: s.drop k := by
  induction s with
  | nil =>
    intro k hk
    obtain rfl : k = 0 := by simpa using hk
    rfl
  | cons y s ih =>
    intro k hk
    cases k with
    | zero => rfl
    | succ k => rw [List.insertIdx_succ_cons, ih (by simpa using hk)]; rfl

/-- A new index goes after the one it repeats. -/
theorem Valid.insert (h : d.Valid) {k : ℕ} {i : ℤ} (hk : d.vecRecordIdx[k]? = some i) :
    { d with vecRecordIdx := d.vecRecordIdx.insertIdx (k + 1) i }.Valid where
  count := h.count
  sorted := by
    obtain ⟨hlt, hi⟩ := List.getElem?_eq_some_iff.1 hk
    have hsplit := List.take_append_drop (k + 1) d.vecRecordIdx
    have hsorted := h.sorted
    rw [← hsplit, List.pairwise_append] at hsorted
    simp only [insertIdx_take_drop d.vecRecordIdx i (Nat.succ_le_of_lt hlt)]
    obtain ⟨hfront, hback, hcross⟩ := hsorted
    have hmem : i ∈ d.vecRecordIdx.take (k + 1) := by
      rw [← hi, List.take_succ_eq_append_getElem hlt]
      exact List.mem_append_right _ (List.mem_singleton_self _)
    have hlast : ∀ j ∈ d.vecRecordIdx.take (k + 1), j ≤ i := by
      intro j hj
      rw [List.take_succ_eq_append_getElem hlt] at hj hfront
      rcases List.mem_append.1 hj with hj | hj
      · have hle := (List.pairwise_append.1 hfront).2.2 j hj _ (List.mem_singleton_self _)
        rwa [hi] at hle
      · exact Int.le_of_eq ((List.mem_singleton.1 hj).trans hi)
    refine List.pairwise_append.2 ⟨hfront, List.pairwise_cons.2 ⟨hcross i hmem, hback⟩, ?_⟩
    rintro j hj j' (_ | ⟨_, hj'⟩)
    · exact hlast j hj
    · exact hcross j hj j' hj'
  indices j := by
    have hmem := List.mem_of_getElem? hk
    have hlt := (List.getElem?_eq_some_iff.1 hk).1
    rw [List.mem_insertIdx (by omega), ← h.indices j]
    exact ⟨fun hj => hj.elim (fun heq => heq ▸ hmem) id, .inr⟩
  records := h.records

/-- There are at least as many record numbers as records. -/
theorem Valid.length_le (h : d.Valid) : d.diagRecords.length ≤ d.vecRecordIdx.length := by
  have hsub : (List.range d.diagRecords.length).map (Nat.cast : ℕ → ℤ) ⊆ d.vecRecordIdx := by
    intro i hi
    obtain ⟨n, hn, rfl⟩ := List.mem_map.1 hi
    rw [List.mem_range] at hn
    exact (h.indices n).2 ⟨Int.natCast_nonneg n, by omega⟩
  have hnodup : ((List.range d.diagRecords.length).map (Nat.cast : ℕ → ℤ)).Nodup :=
    List.nodup_range.map fun a b hab => Int.ofNat.inj hab
  simpa using (List.subperm_of_subset hnodup hsub).length_le

/-- What `GetDiagRecord` refers to is a record. -/
theorem Valid.getDiagRecord_eq (h : d.Valid) {recIdx : ℕ} (hlt : recIdx < d.vecRecordIdx.length) :
    ∃ (i : ℕ) (r : DiagRecord), (d.opened recIdx).vecRecordIdx[recIdx]? = some (i : ℤ) ∧
      (d.opened recIdx).diagRecords[i]? = some r ∧ r.Valid ∧
      d.getDiagRecord recIdx = some (i, d.opened recIdx) := by
  have hget := List.getElem?_eq_getElem hlt
  have hmem := List.mem_of_getElem? hget
  obtain ⟨h0, hi⟩ := (h.indices _).1 hmem
  obtain ⟨i, hcast⟩ := Int.eq_ofNat_of_zero_le h0
  rw [hcast] at hget hi hmem
  have hin : i < (d.opened recIdx).diagRecords.length := by
    rw [length_opened]
    omega
  refine ⟨i, _, ?_, List.getElem?_eq_getElem hin,
    (h.opened recIdx).records _ (List.getElem_mem hin), ?_⟩
  · unfold OdbcDiagnostic.opened
    split_ifs with hk
    · -- the first index is that of the first record
      subst hk
      have hzero : (0 : ℤ) ∈ d.vecRecordIdx := (h.indices 0).2 ⟨Int.le_refl 0, by omega⟩
      have hle : (i : ℤ) ≤ 0 := by
        obtain ⟨x, l, hl⟩ := List.exists_cons_of_length_pos hlt
        have hsorted := h.sorted
        rw [hl] at hzero hget hsorted
        obtain rfl : x = i := by simpa using hget
        rcases List.mem_cons.1 hzero with h0 | h0
        · omega
        · exact (List.pairwise_cons.1 hsorted).1 0 h0
      obtain rfl : i = 0 := by omega
      rw [reset_vecRecordIdx h.count, List.getElem?_map, List.getElem?_range (by omega)]
      rfl
    · exact hget
  · simp only [getDiagRecord, hget, Option.bind_eq_bind, Option.bind_some]
    rw [if_pos ⟨Int.natCast_nonneg i, hi⟩, Int.toNat_natCast]
    rfl

end OdbcDiagnostic

/-! ## One call of SQLGetDiagRec -/

section Read

variable {α : Type} (C : CharType α) (type : HandleType) {d : OdbcDiagnostic} {a : RecArgs}

/-- The call reads a record. -/
structure Reads (d : OdbcDiagnostic) (a : RecArgs) : Prop where
  handleType : a.handleType = some type
  first : 1 ≤ a.recNumber
  bufferLength : 0 ≤ a.bufferLength
  last : a.recNumber ≤ d.vecRecordIdx.length

/-- The message of the record is split : its index is inserted once more. -/
def inserts (a : RecArgs) (r : DiagRecord) : Bool :=
  a.messageText && (a.textLengthPtr && splits C r.rest a.bufferLength)

/-- What the call returns and stores of a record. -/
def recReply (a : RecArgs) (r : DiagRecord) : RecReply α where
  ret := if !a.messageText || inserts C a r then .successWithInfo else .success
  sqlState :=
    if a.sqlState then (C.writeStringWithLenInChars r.sqlstate true 6 false).text else none
  nativeError := if a.nativeErrorPtr then some r.native else none
  text :=
    if a.messageText then
      (C.writeStringWithLenInChars r.rest true a.bufferLength a.textLengthPtr).text
    else none
  textLength :=
    if a.messageText then
      (C.writeStringWithLenInChars r.rest true a.bufferLength a.textLengthPtr).length
    else if a.textLengthPtr then some (min r.rest.length 32767) else none

/-- The records after the `i`-th was read under the record number. -/
def afterRead (d : OdbcDiagnostic) (a : RecArgs) (i : ℕ) (r : DiagRecord) : OdbcDiagnostic :=
  let recIdx := (a.recNumber - 1).toNat
  let d := (d.opened recIdx).advance i r a.bufferLength
  if inserts C a r then { d with vecRecordIdx := d.vecRecordIdx.insertIdx (recIdx + 1) i } else d

variable {C type}

/-- A call that reads finds its record. -/
theorem getDiagRecInternal_reads (h : d.Valid) (ha : Reads type d a) :
    ∃ (i : ℕ) (r : DiagRecord),
      (d.opened (a.recNumber - 1).toNat).vecRecordIdx[(a.recNumber - 1).toNat]? = some (i : ℤ) ∧
      (d.opened (a.recNumber - 1).toNat).diagRecords[i]? = some r ∧ r.Valid ∧
      (afterRead C d a i r).Valid ∧
      getDiagRecInternal C type d a = some (recReply C a r, afterRead C d a i r) := by
  obtain ⟨htype, hfirst, hbuffer, hlast⟩ := ha
  have hlt : (a.recNumber - 1).toNat < d.vecRecordIdx.length := by omega
  obtain ⟨i, r, hi', hr, hvalid, hget⟩ := h.getDiagRecord_eq hlt
  have hadvance := (h.opened (a.recNumber - 1).toNat).advance (i := i) hvalid a.bufferLength
  have hinsert : ((d.opened (a.recNumber - 1).toNat).advance i r a.bufferLength).vecRecordIdx[
      (a.recNumber - 1).toNat]? = some (i : ℤ) := hi'
  refine ⟨i, r, hi', hr, hvalid, ?_, ?_⟩
  · simp only [afterRead]
    split_ifs
    · exact hadvance.insert hinsert
    · exact hadvance
  · have h1 : ¬a.recNumber ≤ 0 := by omega
    have h2 : ¬a.bufferLength < 0 := by omega
    have h3 : ¬a.recNumber > d.vecRecordIdx.length := by omega
    have hadd : ((d.opened (a.recNumber - 1).toNat).advance i r a.bufferLength).addNewRecIdx
        (a.recNumber - 1).toNat
        = some { (d.opened (a.recNumber - 1).toNat).advance i r a.bufferLength with
          vecRecordIdx := (d.opened (a.recNumber - 1).toNat).vecRecordIdx.insertIdx
            ((a.recNumber - 1).toNat + 1) i } := by
      rw [OdbcDiagnostic.addNewRecIdx, hinsert]
      rfl
    simp only [OdbcDiagnostic.advance] at hadd
    simp only [getDiagRecInternal, htype, ne_eq, not_true_eq_false, if_false, h1, h2, h3, hget,
      Option.bind_eq_bind, Option.bind_some, hr, hvalid.getMessage_eq]
    cases hm : a.messageText with
    | false => simp [recReply, afterRead, inserts, hm, OdbcDiagnostic.advance]
    | true =>
      cases hs : a.textLengthPtr && splits C r.rest a.bufferLength with
      | false => simp [recReply, afterRead, inserts, hm, hs, OdbcDiagnostic.advance]
      | true =>
        simp only [Bool.not_true, Bool.false_eq_true, if_false, if_true, hadd, Option.bind_some]
        simp [recReply, afterRead, inserts, hm, hs, OdbcDiagnostic.advance]

/-- Any other call leaves the records alone, and goes by their number only. -/
theorem getDiagRecInternal_other (d d' : OdbcDiagnostic)
    (hlen : d.vecRecordIdx.length = d'.vecRecordIdx.length) (ha : ¬Reads type d a) :
    ∃ reply, getDiagRecInternal C type d a = some (reply, d) ∧
      getDiagRecInternal C type d' a = some (reply, d') := by
  simp only [getDiagRecInternal, ← hlen]
  cases ht : a.handleType with
  | none => exact ⟨_, rfl, rfl⟩
  | some t =>
    by_cases h0 : type = t
    swap
    · simp [h0]
    subst h0
    by_cases h1 : a.recNumber ≤ 0
    · simp [h1]
    by_cases h2 : a.bufferLength < 0
    · simp [h1, h2]
    by_cases h3 : a.recNumber > d.vecRecordIdx.length
    · simp [h1, h2, h3]
    · exact absurd ⟨ht, by omega, by omega, by omega⟩ ha

/-- Opening a record keeps the texts. -/
theorem texts_opened (d : OdbcDiagnostic) (recIdx : ℕ) : (d.opened recIdx).texts = d.texts := by
  unfold OdbcDiagnostic.opened
  split_ifs
  · simp [OdbcDiagnostic.texts, OdbcDiagnostic.reset, Function.comp_def]
  · rfl

/-- So does a piece that is read. -/
theorem texts_advance {i : ℕ} {r : DiagRecord} (hr : d.diagRecords[i]? = some r)
    (buffLength : ℤ) : (d.advance i r buffLength).texts = d.texts := by
  obtain ⟨hlt, rfl⟩ := List.getElem?_eq_some_iff.1 hr
  have hlt' : i < d.texts.length := by simpa only [OdbcDiagnostic.texts, List.length_map]
  have hself : d.texts.set i d.texts[i] = d.texts := List.set_getElem_self hlt'
  simp only [OdbcDiagnostic.texts, List.getElem_map] at hself
  simp only [OdbcDiagnostic.texts, OdbcDiagnostic.advance, List.map_set, DiagRecord.forget_advance,
    hself]

/-- A call leaves the texts of the records alone, and stays within range. -/
theorem getDiagRecInternal_valid (C : CharType α) (type : HandleType) (h : d.Valid) (a : RecArgs) :
    ∃ reply d', getDiagRecInternal C type d a = some (reply, d') ∧ d'.Valid ∧
    d'.texts = d.texts := by
  by_cases ha : Reads type d a
  · obtain ⟨i, r, -, hr, -, hvalid, heq⟩ := getDiagRecInternal_reads (C := C) h ha
    refine ⟨_, _, heq, hvalid, ?_⟩
    have htexts : ((d.opened (a.recNumber - 1).toNat).advance i r a.bufferLength).texts =
      d.texts := by
      rw [texts_advance hr, texts_opened]
    simp only [afterRead]
    split_ifs <;> exact htexts
  · obtain ⟨reply, heq, -⟩ := getDiagRecInternal_other (C := C) d d rfl ha
    exact ⟨reply, d, heq, h, rfl⟩

/-- `SQLGetDiagField` stays within range too. -/
theorem getDiagFieldInternal_valid (C : CharType α) (type : HandleType) (h : d.Valid)
    (a : FieldArgs) :
    ∃ reply d', getDiagFieldInternal C type d a = some (reply, d') ∧ d'.Valid ∧
      d'.texts = d.texts := by
  have hother : getDiagFieldInternal C type d a = some (.code .error, d) →
      ∃ reply d', getDiagFieldInternal C type d a = some (reply, d') ∧ d'.Valid ∧
        d'.texts = d.texts := fun heq => ⟨_, d, heq, h, rfl⟩
  by_cases h0 : a.handleType = none
  · exact hother (by simp [getDiagFieldInternal, h0])
  cases hheader : headerField C type a with
  | some reply => exact ⟨reply, d, by simp [getDiagFieldInternal, h0, hheader], h, rfl⟩
  | none =>
    by_cases h1 : a.diagIdentifier.isDiagRecordField = true
    swap
    · exact hother (by simp [getDiagFieldInternal, h0, hheader, h1])
    by_cases h2 : a.recNumber ≤ 0
    · exact hother (by simp [getDiagFieldInternal, h0, hheader, h1, h2])
    by_cases h3 : d.verifyRecordIndex (a.recNumber - 1) = true
    swap
    · exact hother (by simp [getDiagFieldInternal, h0, hheader, h1, h2, h3])
    have hlt : (a.recNumber - 1).toNat < d.diagRecords.length := by
      simp only [OdbcDiagnostic.verifyRecordIndex, Bool.and_eq_true, decide_eq_true_eq] at h3
      omega
    obtain ⟨i, r, -, hr, hrvalid, hget⟩ :=
      h.getDiagRecord_eq (Nat.lt_of_lt_of_le hlt h.length_le)
    have horigin := List.getElem?_eq_getElem
      (l := (d.opened (a.recNumber - 1).toNat).diagRecords) (i := (a.recNumber - 1).toNat)
      (by rwa [OdbcDiagnostic.length_opened])
    have hread : ∃ reply, getDiagFieldInternal C type d a
        = some (reply, d.opened (a.recNumber - 1).toNat) := by
      simp only [getDiagFieldInternal, h0, hheader, h1, h2, h3, hget, hr, if_false, Bool.not_true,
        Bool.false_eq_true, Option.bind_eq_bind, Option.bind_some,
        OdbcDiagnostic.getDiagClassOrigin, OdbcDiagnostic.getDiagSubclassOrigin, horigin,
        hrvalid.getMessage_eq]
      cases a.diagIdentifier <;> exact ⟨_, rfl⟩
    obtain ⟨reply, heq⟩ := hread
    exact ⟨reply, _, heq, h.opened _, texts_opened d _⟩

end Read

/-! ## Two handles that read the same -/

section Alike

variable {α : Type} {C : CharType α} {type : HandleType} {d e : OdbcDiagnostic} {a : RecArgs}

theorem parts_of_canon (h : d.canon = e.canon) : d.vecRecordIdx = e.vecRecordIdx ∧
    d.diagRecords.map DiagRecord.canon = e.diagRecords.map DiagRecord.canon :=
  OdbcDiagnostic.mk.inj h |>.symm

/-- What is seen alike has the same texts. -/
theorem texts_of_canon (h : d.canon = e.canon) : d.texts = e.texts := by
  have hrecords := congrArg OdbcDiagnostic.diagRecords h
  have hforget : ∀ d : OdbcDiagnostic, d.texts = d.canon.diagRecords.map DiagRecord.forget := by
    intro d
    simp [OdbcDiagnostic.texts, OdbcDiagnostic.canon, DiagRecord.canon, DiagRecord.forget,
      Function.comp_def]
  rw [hforget d, hforget e, hrecords]

/-- When all is reset, only the texts matter. -/
theorem canon_reset (h : d.Valid) (h' : e.Valid) (ht : d.texts = e.texts) :
    d.reset.canon = e.reset.canon := by
  have hlen : d.diagRecords.length = e.diagRecords.length := by
    simpa [OdbcDiagnostic.texts] using congrArg List.length ht
  have hfresh : ∀ d : OdbcDiagnostic, d.Valid → d.reset.canon.diagRecords
      = d.texts.map fun r => { r with stackMsgOffset := [0] } := by
    intro d hd
    simp only [OdbcDiagnostic.canon, OdbcDiagnostic.reset, OdbcDiagnostic.texts, List.map_map]
    refine List.map_congr_left fun r hr => ?_
    simp only [Function.comp_apply, DiagRecord.canon, (hd.records r hr).clear.2, if_true]
    rfl
  have hrecords : d.reset.canon.diagRecords = e.reset.canon.diagRecords := by
    rw [hfresh d h, hfresh e h', ht]
  have hvec : d.reset.canon.vecRecordIdx = e.reset.canon.vecRecordIdx := by
    simp only [OdbcDiagnostic.canon, OdbcDiagnostic.reset, hlen]
  exact congrArg₂ OdbcDiagnostic.mk hrecords hvec

/-- A record is opened alike. -/
theorem canon_opened (h : d.Valid) (h' : e.Valid) (heq : d.canon = e.canon) (recIdx : ℕ) :
    (d.opened recIdx).canon = (e.opened recIdx).canon := by
  unfold OdbcDiagnostic.opened
  split_ifs
  · exact canon_reset h h' (texts_of_canon heq)
  · exact heq

theorem rest_eq_of_canon {r r' : DiagRecord} (h : r.canon = r'.canon) :
    r.rest = r'.rest ∧ r.sqlstate = r'.sqlstate ∧ r.native = r'.native := by
  obtain ⟨hf, ho⟩ := DiagRecord.canon_eq_iff.1 h
  simp only [DiagRecord.forget, DiagRecord.mk.injEq] at hf
  exact ⟨by rw [DiagRecord.rest, DiagRecord.rest, ho, hf.2.2.2.2.2.1], hf.2.2.2.2.1, hf.2.1⟩

/-- Two calls that read records which are alike once opened reply the same, and leave them
alike. -/
theorem getDiagRecInternal_alike (h : d.Valid) (h' : e.Valid) (ha : Reads type d a)
    (ha' : Reads type e a) (heq : (d.opened (a.recNumber - 1).toNat).canon
      = (e.opened (a.recNumber - 1).toNat).canon) :
    ∃ reply d' e', getDiagRecInternal C type d a = some (reply, d') ∧
      getDiagRecInternal C type e a = some (reply, e') ∧ d'.Valid ∧ e'.Valid ∧
      d'.canon = e'.canon := by
  obtain ⟨i, r, hi, hr, hvalid, hd, hcall⟩ := getDiagRecInternal_reads (C := C) h ha
  obtain ⟨j, r', hj, hr', hvalid', he, hcall'⟩ := getDiagRecInternal_reads (C := C) h' ha'
  obtain ⟨hvec, hrecords⟩ := parts_of_canon heq
  obtain rfl : i = j := by
    rw [hvec, hj] at hi
    exact (Int.ofNat.inj (Option.some.inj hi)).symm
  have hcanon : r.canon = r'.canon := by
    have hget := congrArg (·[i]?) hrecords
    simpa only [List.getElem?_map, hr, hr', Option.map_some, Option.some.injEq] using hget
  obtain ⟨hrest, hstate, hnative⟩ := rest_eq_of_canon hcanon
  have hreply : recReply C a r = recReply C a r' := by
    unfold recReply inserts
    rw [hrest, hstate, hnative]
  have hadvance : ((d.opened (a.recNumber - 1).toNat).advance i r a.bufferLength).canon
      = ((e.opened (a.recNumber - 1).toNat).advance i r' a.bufferLength).canon := by
    simp only [OdbcDiagnostic.canon, OdbcDiagnostic.advance, List.map_set, hrecords, hvec,
      DiagRecord.canon_advance hvalid hvalid' hcanon]
  refine ⟨_, _, _, hcall, hreply ▸ hcall', hd, he, ?_⟩
  have hinserts : inserts C a r = inserts C a r' := by simp only [inserts, hrest]
  simp only [afterRead, hinserts]
  split_ifs
  · simp only [OdbcDiagnostic.canon, OdbcDiagnostic.mk.injEq] at hadvance ⊢
    exact ⟨hadvance.1, by simp only [OdbcDiagnostic.advance, hvec]⟩
  · exact hadvance

/-- Records that are alike are read alike by any call. -/
theorem getDiagRecInternal_canon (C : CharType α) (type : HandleType) (h : d.Valid) (h' : e.Valid)
    (heq : d.canon = e.canon) (a : RecArgs) :
    ∃ reply d' e', getDiagRecInternal C type d a = some (reply, d') ∧
      getDiagRecInternal C type e a = some (reply, e') ∧ d'.Valid ∧ e'.Valid ∧
      d'.canon = e'.canon := by
  have hvec := (parts_of_canon heq).1
  by_cases ha : Reads type d a
  · have ha' : Reads type e a := ⟨ha.handleType, ha.first, ha.bufferLength, hvec ▸ ha.last⟩
    exact getDiagRecInternal_alike h h' ha ha' (canon_opened h h' heq _)
  · obtain ⟨reply, hd, he⟩ := getDiagRecInternal_other (C := C) d e (by rw [hvec]) ha
    exact ⟨reply, d, e, hd, he, h, h', heq⟩

/-- The first record number reads alike whenever the texts are the same. -/
theorem getDiagRecInternal_first (C : CharType α) (h : d.Valid) (h' : e.Valid)
    (ht : d.texts = e.texts) (hhandle : a.handleType = some type) (hfirst : a.recNumber = 1)
    (hbuffer : 0 ≤ a.bufferLength) :
    ∃ reply d' e', getDiagRecInternal C type d a = some (reply, d') ∧
      getDiagRecInternal C type e a = some (reply, e') ∧ d'.Valid ∧ e'.Valid ∧
      (reply.ret = .noData ∨ d'.canon = e'.canon) := by
  have hlen : d.diagRecords.length = e.diagRecords.length := by
    simpa [OdbcDiagnostic.texts] using congrArg List.length ht
  have hnil : ∀ d : OdbcDiagnostic, d.Valid → d.diagRecords.length = 0 →
      getDiagRecInternal C type d a = some (⟨.noData, none, none, none, none⟩, d) := by
    intro d hd hzero
    have hvec : d.vecRecordIdx = [] := by
      rw [List.eq_nil_iff_forall_not_mem]
      intro i hi
      have hrange := (hd.indices i).1 hi
      omega
    simp [getDiagRecInternal, hhandle, hfirst, Int.not_lt.2 hbuffer, hvec]
  by_cases hzero : d.diagRecords.length = 0
  · exact ⟨_, d, e, hnil d h hzero, hnil e h' (hlen ▸ hzero), h, h', .inl rfl⟩
  · have hreads : ∀ d : OdbcDiagnostic, d.Valid → d.diagRecords.length ≠ 0 → Reads type d a := by
      intro d hd hne
      have hle := hd.length_le
      exact ⟨hhandle, by omega, hbuffer, by omega⟩
    have hopened : (d.opened (a.recNumber - 1).toNat).canon
        = (e.opened (a.recNumber - 1).toNat).canon := by
      rw [hfirst]
      exact canon_reset h h' ht
    obtain ⟨reply, d', e', hd, he, hvd, hve, hcanon⟩ := getDiagRecInternal_alike (C := C) h h'
      (hreads d h hzero) (hreads e h' (hlen ▸ hzero)) hopened
    exact ⟨reply, d', e', hd, he, hvd, hve, .inr hcanon⟩

/-! ## Passes over the records -/

/-- What the calls of a pass are given : the sizes of their buffers, and which pointers are
there. The pointer to the length always is. -/
structure PassArgs where
  bufferLength : ℕ → ℕ
  sqlState : ℕ → Bool
  nativeErrorPtr : ℕ → Bool
  messageText : ℕ → Bool

/-- The call of a pass with a record number. -/
def PassArgs.call (p : PassArgs) (type : HandleType) (n : ℕ) : RecArgs where
  handleType := some type
  recNumber := n
  sqlState := p.sqlState n
  nativeErrorPtr := p.nativeErrorPtr n
  messageText := p.messageText n
  bufferLength := p.bufferLength n
  textLengthPtr := true

/-- The calls with the record numbers from `n` on until one returns `SQL_NO_DATA`, and what
they reply. Record numbers are an `SQLSMALLINT`. -/
inductive Pass (C : CharType α) (type : HandleType) (p : PassArgs) :
    ℕ → OdbcDiagnostic → List (RecReply α) → OdbcDiagnostic → Prop
  | last {n : ℕ} {d d' : OdbcDiagnostic} {reply : RecReply α} (hn : n ≤ 32767)
      (hcall : getDiagRecInternal C type d (p.call type n) = some (reply, d'))
      (hret : reply.ret = .noData) : Pass C type p n d [reply] d'
  | next {n : ℕ} {d d' d'' : OdbcDiagnostic} {reply : RecReply α} {replies : List (RecReply α)}
      (hn : n ≤ 32767)
      (hcall : getDiagRecInternal C type d (p.call type n) = some (reply, d'))
      (hret : reply.ret ≠ .noData) (hrest : Pass C type p (n + 1) d' replies d'') :
      Pass C type p n d (reply :: replies) d''

variable {p : PassArgs} {n : ℕ} {d' e' : OdbcDiagnostic} {replies replies' : List (RecReply α)}

/-- A pass keeps the records as they should be, and their texts. -/
theorem Pass.valid (h : Pass C type p n d replies d') (hd : d.Valid) :
    d'.Valid ∧ d'.texts = d.texts := by
  induction h with
  | last _ hcall _ =>
    obtain ⟨_, _, heq, hvalid, htexts⟩ := getDiagRecInternal_valid C type hd _
    obtain ⟨-, rfl⟩ := Prod.mk.inj (Option.some.inj (hcall.symm.trans heq))
    exact ⟨hvalid, htexts⟩
  | next _ hcall _ _ ih =>
    obtain ⟨_, _, heq, hvalid, htexts⟩ := getDiagRecInternal_valid C type hd _
    obtain ⟨-, rfl⟩ := Prod.mk.inj (Option.some.inj (hcall.symm.trans heq))
    exact ⟨(ih hvalid).1, (ih hvalid).2.trans htexts⟩

/-- What is left of a pass reads alike from records that are alike. -/
theorem Pass.replies_eq_of_canon (h : Pass C type p n d replies d') :
    ∀ {e e' : OdbcDiagnostic} {replies' : List (RecReply α)}, d.Valid → e.Valid →
      d.canon = e.canon → Pass C type p n e replies' e' → replies = replies' := by
  induction h with
  | @last n d _ reply hn hcall hret =>
    intro e e' replies' hd he heq h'
    obtain ⟨_, _, _, hcall₁, hcall₂, -⟩ :=
      getDiagRecInternal_canon C type hd he heq (p.call type n)
    obtain ⟨rfl, -⟩ := Prod.mk.inj (Option.some.inj (hcall.symm.trans hcall₁))
    cases h' with
    | last _ hcall' _ =>
      obtain ⟨rfl, -⟩ := Prod.mk.inj (Option.some.inj (hcall'.symm.trans hcall₂))
      rfl
    | next _ hcall' hret' _ =>
      obtain ⟨rfl, -⟩ := Prod.mk.inj (Option.some.inj (hcall'.symm.trans hcall₂))
      exact absurd hret hret'
  | @next n d _ _ reply replies hn hcall hret hrest ih =>
    intro e e' replies' hd he heq h'
    obtain ⟨_, _, _, hcall₁, hcall₂, hd₁, he₁, hcanon⟩ :=
      getDiagRecInternal_canon C type hd he heq (p.call type n)
    obtain ⟨rfl, rfl⟩ := Prod.mk.inj (Option.some.inj (hcall.symm.trans hcall₁))
    cases h' with
    | last _ hcall' hret' =>
      obtain ⟨rfl, -⟩ := Prod.mk.inj (Option.some.inj (hcall'.symm.trans hcall₂))
      exact absurd hret' hret
    | next _ hcall' _ hrest' =>
      obtain ⟨rfl, rfl⟩ := Prod.mk.inj (Option.some.inj (hcall'.symm.trans hcall₂))
      rw [ih hd₁ he₁ hcanon hrest']

/-- A pass from the first record number reads the texts. -/
theorem Pass.replies_eq (h : Pass C type p 1 d replies d') (h' : Pass C type p 1 e replies' e')
    (hd : d.Valid) (he : e.Valid) (ht : d.texts = e.texts) : replies = replies' := by
  obtain ⟨_, _, _, hcall₁, hcall₂, hd₁, he₁, hcanon⟩ :=
    getDiagRecInternal_first (a := p.call type 1) C hd he ht rfl rfl (Int.natCast_nonneg _)
  cases h with
  | last _ hcall hret =>
    obtain ⟨rfl, -⟩ := Prod.mk.inj (Option.some.inj (hcall.symm.trans hcall₁))
    cases h' with
    | last _ hcall' _ =>
      obtain ⟨rfl, -⟩ := Prod.mk.inj (Option.some.inj (hcall'.symm.trans hcall₂))
      rfl
    | next _ hcall' hret' _ =>
      obtain ⟨rfl, -⟩ := Prod.mk.inj (Option.some.inj (hcall'.symm.trans hcall₂))
      exact absurd hret hret'
  | next _ hcall hret hrest =>
    obtain ⟨rfl, rfl⟩ := Prod.mk.inj (Option.some.inj (hcall.symm.trans hcall₁))
    cases h' with
    | last _ hcall' hret' =>
      obtain ⟨rfl, -⟩ := Prod.mk.inj (Option.some.inj (hcall'.symm.trans hcall₂))
      exact absurd hret' hret
    | next _ hcall' _ hrest' =>
      obtain ⟨rfl, rfl⟩ := Prod.mk.inj (Option.some.inj (hcall'.symm.trans hcall₂))
      rw [hrest.replies_eq_of_canon hd₁ he₁ (hcanon.resolve_left hret) hrest']

end Alike

/-! ## Any sequence of operations -/

section Sequences

variable {type : HandleType} {d d' : OdbcDiagnostic}

/-- One operation on the records of a handle, which never has more of them than an
`SQLSMALLINT` can count. -/
structure Step (type : HandleType) (d : OdbcDiagnostic) (op : Op) (d' : OdbcDiagnostic) : Prop where
  room : op.posts = true → d.diagRecords.length < 32767
  performs : op.perform type d = some d'

/-- A record that is posted keeps it, as long as there is room. -/
theorem OdbcDiagnostic.Valid.setDiagnosticRecord (h : d.Valid)
    (hroom : d.diagRecords.length < 32767)
    (component msg sqlstate serverName : List UInt8) :
    (d.setDiagnosticRecord component msg sqlstate serverName).Valid where
  count := by
    simp only [OdbcDiagnostic.setDiagnosticRecord, OdbcDiagnostic.addDiagRecord, List.length_append,
      List.length_singleton]
    exact hroom
  sorted := by
    simp only [OdbcDiagnostic.setDiagnosticRecord, OdbcDiagnostic.addDiagRecord,
      smallInt_natCast h.count]
    refine List.pairwise_append.2 ⟨h.sorted, List.pairwise_singleton _ _, ?_⟩
    rintro i hi _ (_ | ⟨_, ⟨⟩⟩)
    exact Int.le_of_lt ((h.indices i).1 hi).2
  indices i := by
    simp only [OdbcDiagnostic.setDiagnosticRecord, OdbcDiagnostic.addDiagRecord,
      smallInt_natCast h.count, List.mem_append, List.mem_singleton, h.indices i,
        List.length_append,
      List.length_singleton]
    omega
  records r hr := by
    rcases List.mem_append.1 hr with hr | hr
    · exact h.records r hr
    · rw [List.mem_singleton.1 hr]
      exact (DiagRecord.valid_new msg sqlstate serverName).setMessage _

/-- No operation leaves the range of what it accesses. -/
theorem Op.perform_isSome (h : d.Valid) (op : Op) : (op.perform type d).isSome := by
  cases op with
  | setDiagnosticRecord component msg sqlstate serverName => rfl
  | clean => rfl
  | getDiagRec a =>
    obtain ⟨_, _, heq, -⟩ := getDiagRecInternal_valid char type h a
    simp [Op.perform, heq]
  | getDiagRecW a =>
    obtain ⟨_, _, heq, -⟩ := getDiagRecInternal_valid wchar type h a
    simp [Op.perform, heq]
  | getDiagField a =>
    obtain ⟨_, _, heq, -⟩ := getDiagFieldInternal_valid char type h a
    simp [Op.perform, sqlGetDiagField, heq]
  | getDiagFieldW a =>
    obtain ⟨_, _, heq, -⟩ := getDiagFieldInternal_valid wchar type h a
    simp [Op.perform, sqlGetDiagFieldW, heq]

/-- An operation that reads leaves the texts of the records alone. -/
theorem Op.perform_reads (h : d.Valid) {op : Op} (hop : op.reads = true)
    (hd' : op.perform type d = some d') : d'.Valid ∧ d'.texts = d.texts := by
  cases op with
  | setDiagnosticRecord component msg sqlstate serverName => cases hop
  | clean => cases hop
  | getDiagRec a =>
    obtain ⟨_, _, heq, hvalid, htexts⟩ := getDiagRecInternal_valid char type h a
    simp only [Op.perform, heq, Option.map_some, Option.some.injEq] at hd'
    exact hd' ▸ ⟨hvalid, htexts⟩
  | getDiagRecW a =>
    obtain ⟨_, _, heq, hvalid, htexts⟩ := getDiagRecInternal_valid wchar type h a
    simp only [Op.perform, heq, Option.map_some, Option.some.injEq] at hd'
    exact hd' ▸ ⟨hvalid, htexts⟩
  | getDiagField a =>
    obtain ⟨_, _, heq, hvalid, htexts⟩ := getDiagFieldInternal_valid char type h a
    simp only [Op.perform, sqlGetDiagField, heq, Option.map_some, Option.some.injEq] at hd'
    exact hd' ▸ ⟨hvalid, htexts⟩
  | getDiagFieldW a =>
    obtain ⟨_, _, heq, hvalid, htexts⟩ := getDiagFieldInternal_valid wchar type h a
    simp only [Op.perform, sqlGetDiagFieldW, heq, Option.map_some, Option.some.injEq] at hd'
    exact hd' ▸ ⟨hvalid, htexts⟩

/-- One step keeps the records as they should be. -/
theorem Step.valid {op : Op} (hstep : Step type d op d') (h : d.Valid) : d'.Valid := by
  have hd' := hstep.performs
  by_cases hop : op.reads = true
  · exact (Op.perform_reads h hop hd').1
  cases op with
  | setDiagnosticRecord component msg sqlstate serverName =>
    obtain rfl := Option.some.inj hd'
    exact h.setDiagnosticRecord (hstep.room rfl) component msg sqlstate serverName
  | clean =>
    obtain rfl := Option.some.inj hd'
    exact OdbcDiagnostic.valid_new
  | _ => exact absurd rfl hop

/-- Operations that read keep the texts of the records. -/
theorem reaches_reads {ops : List Op} (hops : ∀ op ∈ ops, op.reads = true) (h : d.Valid)
    (hrun : Run.Reaches (Step type) d ops d') : d'.Valid ∧ d'.texts = d.texts :=
  Run.Reaches.invariant (P := fun _ op => op.reads = true) (fun s => s.Valid ∧ s.texts = d.texts)
    (fun _ _ _ hs hop hstep =>
      have hkept := Op.perform_reads hs.1 hop hstep.performs
      ⟨hkept.1, hkept.2.trans hs.2⟩)
    ⟨h, rfl⟩ (Run.along_of_forall (fun _ => hops) d) hrun

/-- Two passes with the same buffers reply the same, whatever was read between them. -/
def Repeats {α : Type} (C : CharType α) (type : HandleType) (d : OdbcDiagnostic) : Prop :=
  ∀ (p : PassArgs) (replies replies' : List (RecReply α)) (d₁ d₂ d₃ : OdbcDiagnostic)
    (between : List Op), Pass C type p 1 d replies d₁ → (∀ op ∈ between, op.reads = true) →
    Run.Reaches (Step type) d₁ between d₂ → Pass C type p 1 d₂ replies' d₃ → replies = replies'

/-- Reading again gives the same. -/
theorem OdbcDiagnostic.Valid.repeats {α : Type} (h : d.Valid) (C : CharType α) :
    Repeats C type d := by
  intro p replies replies' d₁ d₂ d₃ between hpass hreads hrun hpass'
  obtain ⟨h₁, ht₁⟩ := hpass.valid h
  obtain ⟨h₂, ht₂⟩ := reaches_reads hreads h₁ hrun
  exact hpass.replies_eq hpass' h h₂ (ht₂.trans ht₁).symm

/-- After any operations on the records of a handle `vec_record_idx` and the offsets are as
they should be, no operation accesses anything out of range, and passes repeat. -/
theorem diag_reads {ops : List Op} (hrun : Run.Reaches (Step type) .new ops d) :
    d.Valid ∧ (∀ op : Op, (op.perform type d).isSome) ∧ Repeats char type d ∧
      Repeats wchar type d := by
  have hvalid : d.Valid :=
    Run.Reaches.invariant (P := fun _ _ => True) OdbcDiagnostic.Valid
      (fun _ _ _ hs _ hstep => hstep.valid hs) OdbcDiagnostic.valid_new
      (Run.along_of_forall (fun _ _ _ => trivial) _) hrun
  exact ⟨hvalid, fun op => op.perform_isSome hvalid, hvalid.repeats char, hvalid.repeats wchar⟩

/-- A message of twenty bytes is posted, and read in part. -/
theorem diag_reads_split :
    ∃ d, Run.Reaches (Step .stmt) .new
        [.setDiagnosticRecord [] (bytes "message") (bytes "HY000") [],
          .getDiagRec ⟨some .stmt, 1, true, true, true, 8, true⟩] d ∧
      d.vecRecordIdx = [0, 0] ∧ d.Valid ∧ (∀ op : Op, (op.perform .stmt d).isSome) ∧
      Repeats char .stmt d ∧ Repeats wchar .stmt d := by
  have hrun : ∃ d, Run.Reaches (Step .stmt) .new
      [.setDiagnosticRecord [] (bytes "message") (bytes "HY000") [],
        .getDiagRec ⟨some .stmt, 1, true, true, true, 8, true⟩] d ∧ d.vecRecordIdx = [0, 0] := by
    refine ⟨_, ⟨_, ⟨fun _ => by decide, rfl⟩, _, ⟨nofun, rfl⟩, rfl⟩, ?_⟩
    decide
  obtain ⟨d, hrun, hvec⟩ := hrun
  exact ⟨d, hrun, hvec, diag_reads hrun⟩

end Sequences

end HaybarnOdbc.Diag
