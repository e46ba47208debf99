import HaybarnOdbc.ParamValues

/-!
# Arrays of texts and of BLOBs

A parameter of variable length is bound to an array of buffers, each of `BufferLength` bytes.
Four places of `SetValue` find the buffer of a parameter set, two by the C type and two by
the SQL type, and one more the BLOB : each steps by the larger one of `BufferLength` and the
column size, in elements of the type that the pointer is cast to (`stride`).
-/

namespace HaybarnOdbc

open MachineInt

variable {ρ V : Type}

/-! ## Bound records -/

/-- The type that `SetSqlDataType` stores for a code. -/
def verboseType (code : ℤ) : ℤ := if 101 ≤ code ∧ code ≤ 113 then 10 else code

theorem type_setSqlDataType (r : DescRecord) (code : ℤ) :
    (r.setSqlDataType code).type = verboseType code := by
  unfold DescRecord.setSqlDataType verboseType
  split_ifs <;> rfl

/-- The records of a parameter hold what `SQLBindParameter` was called with, as far as
`SetValue` reads it. -/
structure BindParameterArgs.Filled (args : BindParameterArgs) (apdRecord ipdRecord : DescRecord) :
    Prop where
  valueType : apdRecord.type = verboseType args.valueType
  parameterValuePtr : apdRecord.dataPtr = args.parameterValuePtr
  bufferLength : apdRecord.octetLength = args.bufferLength
  strLenOrIndPtr : apdRecord.indicatorPtr = args.strLenOrIndPtr
  parameterType : ipdRecord.type = verboseType args.parameterType
  columnSize : ipdRecord.length = args.columnSize
  precision : ipdRecord.precision = i16.wrap args.columnSize
  decimalDigits : ipdRecord.scale = args.decimalDigits

theorem setSqlDataType_kept (r : DescRecord) (code : ℤ) :
    (r.setSqlDataType code).length = r.length ∧ (r.setSqlDataType code).precision = r.precision ∧
      (r.setSqlDataType code).scale = r.scale := by
  unfold DescRecord.setSqlDataType
  split_ifs <;> exact ⟨rfl, rfl, rfl⟩

theorem exists_modify_growTo (d : ParamDesc) (idx : ℕ) (f : DescRecord → DescRecord) :
    ∃ r, ((ParameterDescriptor.growTo d idx).records.modify idx f)[idx]? = some (f r) := by
  have hlt : idx < (ParameterDescriptor.growTo d idx).records.length := by
    unfold ParameterDescriptor.growTo
    split_ifs with h
    · simp
    · omega
  exact ⟨_, by rw [List.getElem?_modify_eq, List.getElem?_eq_getElem hlt]; rfl⟩

/-- `SQLBindParameter` fills the records of its parameter. -/
theorem OdbcHandleStmt.filled_bindParameterStmt (h : OdbcHandleStmt ρ V) {args : BindParameterArgs}
    (hinput : args.inputOutputType = 1) (hnumber : 1 ≤ args.parameterNumber) :
    ∃ apdRecord ipdRecord, args.Filled apdRecord ipdRecord ∧
      (h.bindParameterStmt args).2.paramDesc.apd.records[args.parameterNumber - 1]? =
        some apdRecord ∧
      (h.bindParameterStmt args).2.paramDesc.ipd.records[args.parameterNumber - 1]? =
        some ipdRecord := by
  unfold bindParameterStmt
  rw [if_neg (by simpa using hinput), if_neg (by omega)]
  obtain ⟨r, hapd⟩ := exists_modify_growTo h.paramDesc.apd (args.parameterNumber - 1) fun r =>
    { r.setSqlDataType args.valueType with
      dataPtr := args.parameterValuePtr
      octetLength := args.bufferLength
      indicatorPtr := args.strLenOrIndPtr
      octetLengthPtr := args.strLenOrIndPtr }
  obtain ⟨s, hipd⟩ := exists_modify_growTo h.paramDesc.ipd (args.parameterNumber - 1) fun r =>
    { r with
      parameterType := args.inputOutputType
      length := args.columnSize
      precision := i16.wrap args.columnSize
      scale := args.decimalDigits }.setSqlDataType args.parameterType
  refine ⟨_, _, ?_, hapd, hipd⟩
  exact ⟨type_setSqlDataType _ _, rfl, rfl, rfl, type_setSqlDataType _ _,
    (setSqlDataType_kept _ _).1, (setSqlDataType_kept _ _).2.1, (setSqlDataType_kept _ _).2.2⟩

/-! ## Kinds of variable length -/

/-- What the bytes of a value of variable length are read as. -/
inductive TextKind
  | char
  | wide
  | binary
  deriving DecidableEq, Repr

/-- The kind that `SetValue` takes a parameter for, by its C type and its SQL type. -/
def textKind (cType sqlType : ℤ) : Option TextKind :=
  if isBinaryTarget sqlType = false ∧ cType = 1 then some .char
  else if isBinaryTarget sqlType = false ∧ cType = -8 then some .wide
  else if isCharTarget sqlType then some .char
  else if isWcharTarget sqlType then some .wide
  else if isBinaryTarget sqlType then some .binary
  else none

/-- The size of the elements that the data pointer is cast to point to. -/
def TextKind.unit : TextKind → ℕ
  | .char => 1
  | .wide => 2
  | .binary => 1

/-- The bytes from one parameter set to the next one, of a column size below `2 ^ 63`, which the
cast to `SQLLEN` keeps. -/
def TextKind.stride (kind : TextKind) (columnSize : ℕ) (bufferLength : ℤ) : ℕ :=
  kind.unit * (max (columnSize : ℤ) bufferLength).toNat

/-- The value of bytes of a known length. -/
def TextKind.decode : TextKind → List UInt8 → ParamValue
  | .char, bytes => .text bytes
  | .wide, bytes => .text (Widechar.utf16ToUtf8Lenient (codeUnits bytes)).1
  | .binary, bytes => .blob bytes

namespace Talk

variable (t : Talk ρ V)

/-- The value that starts at a byte of a buffer. -/
def valueAt (kind : TextKind) (ptr : Addr) (offset : ℕ) (ind : ℤ) : Option ParamValue :=
  match kind with
  | .char => (t.loadText ptr offset ind).map .text
  | .wide => (t.loadWide ptr offset ind).map fun units =>
      .text (Widechar.utf16ToUtf8Lenient units).1
  | .binary => (Buffer.load (t.mem.block ptr) offset (sizeOfLen ind)).map .blob

variable {t} {kind : TextKind} {ptr : Addr} {apdRecord ipdRecord : DescRecord}

/-- A value as long as one element is the decoded element. -/
theorem valueAt_unit (offset : ℕ) :
    t.valueAt kind ptr offset kind.unit =
      (Buffer.load (t.mem.block ptr) offset kind.unit).map kind.decode := by
  cases kind with
  | char => rfl
  | wide =>
    have hnts : ¬((TextKind.wide.unit : ℕ) : ℤ) = sqlNts := by decide
    rw [valueAt, loadWide, if_neg hnts, Option.map_map]
    rfl
  | binary => rfl

/-- `SetValue` by the kind of the value : a text stores its length in place of `SQL_NTS`. -/
theorem loadValue_eq (valIdx : ℕ) (ind : ℤ) :
    t.loadValue apdRecord ipdRecord valIdx ind =
      match textKind apdRecord.type ipdRecord.type with
      | some .char => (t.loadText apdRecord.dataPtr
          (valIdx * TextKind.char.stride ipdRecord.length apdRecord.octetLength) ind).map
          fun bytes => (.value (.text bytes), if ind = sqlNts then (bytes.length : ℤ) else ind)
      | some .wide => (t.loadWide apdRecord.dataPtr
          (valIdx * TextKind.wide.stride ipdRecord.length apdRecord.octetLength) ind).map
          fun units => (.value (.text (Widechar.utf16ToUtf8Lenient units).1),
            if ind = sqlNts then 2 * (units.length : ℤ) else ind)
      | some .binary => (Buffer.load (t.mem.block apdRecord.dataPtr)
          (valIdx * TextKind.binary.stride ipdRecord.length apdRecord.octetLength)
          (sizeOfLen ind)).map fun bytes => (.value (.blob bytes), ind)
      | none =>
        if ipdRecord.type = 2 ∧ validateNumeric ipdRecord.precision ipdRecord.scale = false then
          some (.failed .error, ind)
        else
          match fixedSize ipdRecord.type with
          | none => some (.failed .paramError, ind)
          | some n => (Buffer.load (t.mem.block apdRecord.dataPtr) (valIdx * n) n).map fun bytes =>
              (.value (.fixed ipdRecord.type apdRecord.type bytes), ind) := by
  unfold loadValue textKind TextKind.stride TextKind.unit
  dsimp only
  simp only [one_mul, Nat.mul_left_comm valIdx 2]
  -- the branches of the source, in its order : two by the C type, three by the SQL type
  by_cases h1 : isBinaryTarget ipdRecord.type = false ∧ apdRecord.type = 1
  · rw [if_pos h1, if_pos h1]
  rw [if_neg h1, if_neg h1]
  by_cases h2 : isBinaryTarget ipdRecord.type = false ∧ apdRecord.type = -8
  · rw [if_pos h2, if_pos h2]
  rw [if_neg h2, if_neg h2]
  by_cases h3 : isCharTarget ipdRecord.type = true
  · rw [if_pos h3, if_pos h3]
  rw [if_neg h3, if_neg h3]
  by_cases h4 : isWcharTarget ipdRecord.type = true
  · rw [if_pos h4, if_pos h4]
  rw [if_neg h4, if_neg h4]
  cases isBinaryTarget ipdRecord.type with
  | true => rfl
  | false => rfl

/-- The value of a parameter set starts as many strides into the array. -/
theorem loadValue_text (hkind : textKind apdRecord.type ipdRecord.type = some kind) (valIdx : ℕ)
    (ind : ℤ) :
    (t.loadValue apdRecord ipdRecord valIdx ind).map Prod.fst =
      (t.valueAt kind apdRecord.dataPtr
        (valIdx * kind.stride ipdRecord.length apdRecord.octetLength) ind).map .value := by
  rw [loadValue_eq, hkind]
  cases kind with
  | char => simp only [valueAt, Option.map_map, Function.comp_def]
  | wide => simp only [valueAt, Option.map_map, Function.comp_def]
  | binary => simp only [valueAt, Option.map_map, Function.comp_def]

/-- A value as long as one element is there where its bytes are, and nowhere else. -/
theorem valueAt_store {n i j : ℕ} {bytes : List UInt8} (hlen : bytes.length = kind.unit)
    (hfits : i + bytes.length ≤ n)
    (hblock : t.mem.block ptr = Buffer.store (List.replicate n none) i (bytes.map some)) :
    (t.valueAt kind ptr j kind.unit).isSome ↔ i = j := by
  rw [valueAt_unit, hblock, Option.isSome_map, ← hlen]
  constructor
  · intro hsome
    obtain ⟨ys, hys⟩ := Option.isSome_iff_exists.mp hsome
    refine (Buffer.eq_of_load_store_replicate_none hfits hys).resolve_right fun hnil => ?_
    rw [hnil] at hlen
    cases kind <;> cases hlen
  · rintro rfl
    rw [Buffer.load_store (by simpa using hfits)]
    rfl

end Talk

/-! ## The place of a parameter set -/

/-- A parameter of variable length, with a buffer and an indicator, as it is bound. -/
structure TextParam where
  args : BindParameterArgs
  kind : TextKind
  isText : textKind (verboseType args.valueType) (verboseType args.parameterType) = some kind
  input : args.inputOutputType = 1
  numbered : 1 ≤ args.parameterNumber
  buffer : args.parameterValuePtr ≠ 0
  indicator : args.strLenOrIndPtr ≠ 0

namespace TextParam

variable (p : TextParam)

/-- In every statement that the parameter is bound to, and for every content of its buffer,
the value of a parameter set starts at the byte `i * BufferLength`. Before the buffer there
is nothing. -/
def StartsAtBufferLength (ρ V : Type) (i : ℕ) : Prop :=
  ∀ (t : Talk ρ V) (apdRecord ipdRecord : DescRecord),
    t.Reads (p.args.parameterNumber - 1) i apdRecord ipdRecord →
    p.args.Filled apdRecord ipdRecord →
    (t.setValue (p.args.parameterNumber - 1) i).map Prod.fst =
      if 0 ≤ i * p.args.bufferLength then
        (t.valueAt p.kind apdRecord.dataPtr (i * p.args.bufferLength).toNat
          (t.mem.indicators (apdRecord.indicatorAddr i))).map .value
      else none

/-- The bytes from one parameter set to the next one. -/
def stride : ℕ := p.kind.stride p.args.columnSize p.args.bufferLength

/-- The value of a parameter set starts as many strides into the buffer. -/
theorem setValue_eq {t : Talk ρ V} {apdRecord ipdRecord : DescRecord} {i : ℕ}
    (hreads : t.Reads (p.args.parameterNumber - 1) i apdRecord ipdRecord)
    (hfilled : p.args.Filled apdRecord ipdRecord) :
    (t.setValue (p.args.parameterNumber - 1) i).map Prod.fst =
      (t.valueAt p.kind apdRecord.dataPtr (i * p.stride)
        (t.mem.indicators (apdRecord.indicatorAddr i))).map .value := by
  have hkind : textKind apdRecord.type ipdRecord.type = some p.kind := by
    rw [hfilled.valueType, hfilled.parameterType, p.isText]
  have hload := Talk.loadValue_text (t := t) hkind i
    (t.mem.indicators (apdRecord.indicatorAddr i))
  rw [hfilled.columnSize, hfilled.bufferLength] at hload
  rw [hreads.setValue_eq, Option.map_map, stride, ← hload]
  rfl

/-- A statement that the parameter is bound to, with an indicator and a buffer. -/
def statement (ρ V : Type) (ind : ℤ) (block : List (Option UInt8)) : Talk ρ V where
  h := ((OdbcHandleStmt.blank : OdbcHandleStmt ρ V).bindParameterStmt p.args).2
  mem :=
    { indicators := fun _ => ind
      app := fun _ => []
      pool := []
      buffers := fun _ => some block
      rowsProcessed := 0 }

theorem reads_statement {ind : ℤ} (block : List (Option UInt8)) (hind : 0 ≤ ind) (i : ℕ) :
    ∃ apdRecord ipdRecord,
      (p.statement ρ V ind block).Reads (p.args.parameterNumber - 1) i apdRecord ipdRecord ∧
      p.args.Filled apdRecord ipdRecord := by
  obtain ⟨apdRecord, ipdRecord, hfilled, hapd, hipd⟩ :=
    (OdbcHandleStmt.blank : OdbcHandleStmt ρ V).filled_bindParameterStmt p.input p.numbered
  refine ⟨apdRecord, ipdRecord, ⟨hapd, hipd, ?_, ?_, ?_⟩, hfilled⟩
  · rw [hfilled.parameterValuePtr]
    exact p.buffer
  · rw [hfilled.strLenOrIndPtr]
    exact p.indicator
  · show ind ∉ _
    simp only [List.mem_cons, List.not_mem_nil, or_false, sqlNullData, sqlDataAtExec,
      sqlLenDataAtExec]
    omega

/-- Of all offsets only that of the strides gives the value for every content. -/
theorem startsAtBufferLength_iff_stride (i : ℕ) :
    p.StartsAtBufferLength ρ V i ↔ (i * p.stride : ℤ) = i * p.args.bufferLength := by
  constructor
  · intro h
    let bytes : List UInt8 := List.replicate p.kind.unit 97
    let block := Buffer.store (List.replicate (i * p.stride + bytes.length) none) (i * p.stride)
      (bytes.map some)
    obtain ⟨apdRecord, ipdRecord, hreads, hfilled⟩ :=
      p.reads_statement (ρ := ρ) (V := V) block (Int.natCast_nonneg p.kind.unit) i
    have hlen : bytes.length = p.kind.unit := List.length_replicate
    have hstored : ∀ j, ((p.statement ρ V p.kind.unit block).valueAt p.kind apdRecord.dataPtr j
        p.kind.unit).isSome ↔ i * p.stride = j := fun j => Talk.valueAt_store hlen le_rfl rfl
    have hind : (p.statement ρ V p.kind.unit block).mem.indicators (apdRecord.indicatorAddr i) =
        p.kind.unit := rfl
    have heq := h _ _ _ hreads hfilled
    rw [p.setValue_eq hreads hfilled, hind] at heq
    have hsome := congrArg Option.isSome heq
    rw [Option.isSome_map, (hstored _).mpr rfl] at hsome
    by_cases h0 : 0 ≤ (i * p.args.bufferLength : ℤ)
    · rw [if_pos h0, Option.isSome_map] at hsome
      have hplace : ((i * p.stride : ℕ) : ℤ) = (i * p.args.bufferLength).toNat :=
        congrArg _ ((hstored _).mp hsome.symm)
      rw [Int.toNat_of_nonneg h0, Nat.cast_mul] at hplace
      exact hplace
    · rw [if_neg h0] at hsome
      cases hsome
  · intro h t apdRecord ipdRecord hreads hfilled
    have hcast : ((i * p.stride : ℕ) : ℤ) = i * p.args.bufferLength := by
      rw [← h, Nat.cast_mul]
    rw [p.setValue_eq hreads hfilled, ← hcast, if_pos (by omega), Int.toNat_natCast]

/-- The value of a parameter set starts at `i * BufferLength` for every content exactly if
the set is the first one, or the column is not larger than the buffer and the kind not a wide
one; of wide texts only if both lengths are zero. -/
theorem startsAtBufferLength_iff (i : ℕ) : p.StartsAtBufferLength ρ V i ↔
    i = 0 ∨ (p.kind ≠ .wide ∧ (p.args.columnSize : ℤ) ≤ p.args.bufferLength) ∨
      (p.kind = .wide ∧ p.args.columnSize = 0 ∧ p.args.bufferLength = 0) := by
  rw [startsAtBufferLength_iff_stride]
  by_cases hi : i = 0
  · rw [hi]
    simp
  · have hcancel : (i * p.stride : ℤ) = i * p.args.bufferLength ↔
        (p.stride : ℤ) = p.args.bufferLength := mul_right_inj' (by omega)
    have hmax : ((max (p.args.columnSize : ℤ) p.args.bufferLength).toNat : ℤ) =
        max (p.args.columnSize : ℤ) p.args.bufferLength := Int.toNat_of_nonneg (by omega)
    rw [hcancel, or_iff_right hi, stride, TextKind.stride, Nat.cast_mul, hmax]
    cases p.kind with
    | char =>
      simp only [TextKind.unit, ne_eq, reduceCtorEq, not_false_eq_true, true_and, false_and,
        or_false]
      omega
    | wide =>
      simp only [TextKind.unit, ne_eq, not_true_eq_false, true_and, false_and, false_or]
      omega
    | binary =>
      simp only [TextKind.unit, ne_eq, reduceCtorEq, not_false_eq_true, true_and, false_and,
        or_false]
      omega

end TextParam

/-- Texts in buffers of 10 bytes, for a column of 20. -/
def wideColumn : TextParam where
  args := ⟨1, 1, 1, 12, 20, 0, 4096, 10, 8192⟩
  kind := .char
  isText := rfl
  input := rfl
  numbered := le_rfl
  buffer := by decide
  indicator := by decide

/-- The second text is looked for behind the second buffer. -/
theorem text_of_next_set_missed : ¬wideColumn.StartsAtBufferLength Unit Unit 1 := by
  intro h
  have hstride := (wideColumn.startsAtBufferLength_iff_stride 1).mp h
  exact absurd hstride (by decide)

end HaybarnOdbc
