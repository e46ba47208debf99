import HaybarnOdbc.Requests

/-!
# The value that the pieces make

The application answers a request with the pieces of a value. With one parameter set the pieces
are put behind each other in a buffer of the column size (`fillParamCharDataBuffer`), with more
of them each piece is the value of one set (`fillCurParamCharSet`). `SetValue` reads the value
from there when the statement is executed.

The length code of a piece is taken for a length : `SQL_NTS` and `SQL_NULL_DATA` are large
numbers as `size_t`, which the column size clips. So a piece given by `SQL_NTS` is copied right
only if it fills the column, and a null never is. `supplied_iff` is the exact condition.
-/

namespace HaybarnOdbc

variable {ρ V : Type}

/-- The length of a piece, or the code for a terminated one. -/
def Piece.Coded (p : Piece) : Prop :=
  p.bytes.length < 2 ^ 63 ∧ (p.strLenOrInd = p.bytes.length ∨ p.strLenOrInd = sqlNts ∧ 0 ∉ p.bytes)

/-- The size that is copied is the one of the piece exactly if the code is a length, or the piece
fills the room. -/
theorem Piece.Coded.clipped {p : Piece} (h : p.Coded) {room : ℕ} (hroom : p.bytes.length ≤ room) :
    (min (sizeOfLen p.strLenOrInd) room ≤ p.bytes.length ↔
      p.strLenOrInd = p.bytes.length ∨ p.bytes.length = room) ∧
    (p.strLenOrInd = p.bytes.length ∨ p.bytes.length = room →
      min (sizeOfLen p.strLenOrInd) room = p.bytes.length ∧
        (room ≤ sizeOfLen p.strLenOrInd ↔ p.bytes.length = room)) := by
  obtain ⟨hlt, hlen | ⟨hnts, -⟩⟩ := h
  · rw [hlen, sizeOfLen_natCast]
    omega
  · have hsize : sizeOfLen p.strLenOrInd = 2 ^ 64 - 3 := by
      rw [hnts]
      rfl
    rw [hsize, hnts, sqlNts]
    omega

/-- The pieces that an application can cut a value into, or a null. -/
def Cuts (pieces : List Piece) : Option (List UInt8) → Prop
  | none => ∃ p, pieces = [p] ∧ p.strLenOrInd = sqlNullData ∧ p.bytes = []
  | some value => pieces ≠ [] ∧ (pieces.map Piece.bytes).flatten = value ∧ ∀ p ∈ pieces, p.Coded

/-- The engine gets the bytes of the parameter as a text or as a BLOB. -/
def IsTextual (cType sqlType : ℤ) : Prop :=
  cType = 1 ∨ isCharTarget sqlType = true ∨ isBinaryTarget sqlType = true

/-- The engine's value of a textual parameter. -/
def ParamValue.ofBytes (sqlType : ℤ) : Option (List UInt8) → ParamValue
  | none => .null
  | some bytes => if isBinaryTarget sqlType then .blob bytes else .text bytes

namespace Talk

/-- A call for a cell copies bytes of its own piece only, and stores them in a buffer that was
allocated for the parameter and is large enough; the other things it stores are the cell's. -/
def Contained (t : Talk ρ V) (c : Cell) (p : Piece) : Access → Prop
  | .piece n => n ≤ p.bytes.length
  | .data d ptr offset n =>
    d = c ∧ ptr ≠ 0 ∧ ∃ b, t.mem.buffers ptr = some b ∧ offset + n ≤ b.length
  | .indicator d => d = c
  | .dataPtr param => param = c.param
  | .status slot => slot < t.desc.apd.header.arraySize

/-- The pieces make the value of a cell : the engine gets just this value, and no call reads
or writes anything else. -/
def Makes (c : Cell) (sqlType : ℤ) (value : Option (List UInt8)) : List Piece → Talk ρ V → Prop
  | [], t => (t.setValue c.param c.set).map Prod.fst = some (.value (.ofBytes sqlType value))
  | p :: pieces, t => ∃ ret t' log, t.sqlPutData p = some (ret, t', log) ∧
      (∀ access ∈ log, t'.Contained c p access) ∧ Makes c sqlType value pieces t'

/-- `SQLParamData` asks for data, and the pieces that answer it make the value. -/
def Supplied (t : Talk ρ V) (c : Cell) (sqlType : ℤ) (pieces : List Piece)
    (value : Option (List UInt8)) : Prop :=
  ∃ ptr t', t.sqlParamData = some (.needData, ptr, t') ∧ t'.Makes c sqlType value pieces

/-- The pieces of a single parameter fit behind `n` bytes of a column of `size` bytes : a piece
given by `SQL_NTS` fills the column, the parameter is the first one and its column is not filled
if there is an array of statuses, and pieces behind a filled column are behind the last
parameter. -/
def Fits (apd ipd : DescHeader) (param size : ℕ) : ℕ → List Piece → Prop
  | _, [] => True
  | n, p :: pieces =>
    (p.strLenOrInd = p.bytes.length ∨ n + p.bytes.length = size) ∧
    (ipd.arrayStatusPtr ≠ 0 → param = 0 ∧ n + p.bytes.length ≠ size) ∧
    (n + p.bytes.length = size → pieces = [] ∨ apd.count ≤ param + 1) ∧
    Fits apd ipd param size (n + p.bytes.length) pieces

/-- What is read back at `j` when the bytes were stored at `i`. -/
def ReadsBack (b : List (Option UInt8)) (i j : ℕ) (value : List UInt8) : Prop :=
  Buffer.load (Buffer.store b i (value.map some)) j value.length = some value

/-- The pieces of an element of a parameter array fit : the first one is the whole value, and
pieces behind it are behind the last cell. The buffer is a new one only if no parameter has one
yet; in another one the element has a place, and `SetValue` reads it back from its own place. -/
def FitsElement (t : Talk ρ V) (c : Cell) (r q : DescRecord) (value : List UInt8) :
    List Piece → Prop
  | [] => False
  | p :: pieces =>
    p.bytes = value ∧ (p.strLenOrInd = p.bytes.length ∨ p.bytes.length = q.length) ∧
    (pieces = [] ∨
      t.desc.apd.header.arraySize ≤ c.set + 1 ∧ t.desc.apd.header.count ≤ c.param + 1) ∧
    if t.mem.pool = [] then c.set = 0 ∨ r.octetLength ≤ q.length ∨ value = []
    else r.dataPtr ≠ 0 ∧ ∃ b, t.mem.buffers r.dataPtr = some b ∧
      c.set * q.length + value.length ≤ b.length ∧
      ReadsBack b (c.set * q.length) (c.set * (max (q.length : ℤ) r.octetLength).toNat) value

/-- The condition under which the pieces supply the value of a cell : `SQLParamData` asks for
it, it is not null, and its pieces fit. -/
def Suppliable (t : Talk ρ V) (c : Cell) (r q : DescRecord) (pieces : List Piece) :
    Option (List UInt8) → Prop
  | none => False
  | some value => t.mem.indicators (r.indicatorAddr c.set) = sqlDataAtExec ∧
      if t.desc.apd.header.arraySize = 1 then
        Fits t.desc.apd.header t.desc.ipd.header c.param q.length 0 pieces
      else t.FitsElement c r q value pieces

/-- The cursor stands at a cell that is character or binary data for the application and text
or binary data for the engine. -/
structure Piecewise (t : Talk ρ V) (c : Cell) (r q : DescRecord) : Prop where
  ready : t.shape.ready = true
  here : t.here = c
  lt : (c.param : ℤ) < t.desc.apd.header.count
  apd : t.desc.apd.records[c.param]? = some r
  ipd : t.desc.ipd.records[c.param]? = some q
  type : isPiecewise r.type = true
  textual : IsTextual r.type q.type
  ind : r.indicatorPtr ≠ 0
  set_lt : c.set < t.desc.apd.header.arraySize

/-! ## The value that is read -/

theorem ofBytes_injective {sqlType : ℤ} {bytes bytes' : List UInt8}
    (h : ParamValue.ofBytes sqlType (some bytes) = .ofBytes sqlType (some bytes')) :
    bytes = bytes' := by
  simp only [ParamValue.ofBytes] at h
  split_ifs at h <;> simpa using h

/-- A BLOB target is no text target. -/
theorem not_text_of_isBinaryTarget {sqlType : ℤ} (h : isBinaryTarget sqlType = true) :
    isCharTarget sqlType = false ∧ isWcharTarget sqlType = false := by
  simp only [isBinaryTarget, decide_eq_true_eq] at h
  rcases h with rfl | rfl | rfl <;> decide

/-- `SetValue` of a cell whose indicator holds a length. -/
theorem setValue_of_length {t : Talk ρ V} {c : Cell} {r q : DescRecord} {n : ℕ}
    {b : List (Option UInt8)} (hapd : t.desc.apd.records[c.param]? = some r)
    (hipd : t.desc.ipd.records[c.param]? = some q) (htextual : IsTextual r.type q.type)
    (htype : isPiecewise r.type = true) (hptr : r.dataPtr ≠ 0) (hind : r.indicatorPtr ≠ 0)
    (hlen : t.mem.indicators (r.indicatorAddr c.set) = n)
    (hblock : t.mem.buffers r.dataPtr = some b) :
    (t.setValue c.param c.set).map Prod.fst =
      (Buffer.load b (c.set * (max (q.length : ℤ) r.octetLength).toNat) n).map fun bytes =>
        .value (.ofBytes q.type (some bytes)) := by
  have hneg : ∀ k : ℤ, k < 0 → (n : ℤ) ≠ k := by
    intro k hk
    omega
  have hstop : ¬((n : ℤ) = sqlDataAtExec ∨ (n : ℤ) = sqlLenDataAtExec q.length) := by
    simp only [sqlDataAtExec, sqlLenDataAtExec]
    omega
  have hblock' : t.mem.block r.dataPtr = b := by simp [Memory.block, hblock]
  have htext : t.loadText r.dataPtr (c.set * (max (q.length : ℤ) r.octetLength).toNat) n =
      Buffer.load b (c.set * (max (q.length : ℤ) r.octetLength).toNat) n := by
    have hn : (if (n : ℤ) > 0 then (n : ℤ).toNat else 0) = n := by
      split_ifs <;> omega
    simp only [loadText, hblock', hn]
    rw [if_neg (hneg _ (by decide))]
  simp only [setValue, hapd, hipd, hlen]
  rw [if_neg (by simp [hptr]), if_neg (by simp [hptr, hind]), if_neg (hneg _ (by decide)),
    if_neg hstop, Option.map_map, loadValue]
  simp only [htext, hblock', sizeOfLen_natCast]
  cases hbinary : isBinaryTarget q.type with
  | true =>
    obtain ⟨hchar, hwchar⟩ := not_text_of_isBinaryTarget hbinary
    simp [hchar, hwchar, ParamValue.ofBytes, hbinary, Function.comp_def]
  | false =>
    by_cases hc : r.type = 1
    · simp [hc, ParamValue.ofBytes, hbinary, Function.comp_def]
    · have hchar : isCharTarget q.type = true := by simpa [IsTextual, hc, hbinary] using htextual
      have hwide : r.type ≠ -8 := by
        rintro heq
        simp [heq, isPiecewise] at htype
      simp [hc, hwide, hchar, ParamValue.ofBytes, hbinary, Function.comp_def]

/-! ## One parameter set -/

section Fill

variable {t : Talk ρ V} {c : Cell} {r q : DescRecord} {w : List UInt8}

/-- The handle after the check of `ConvertHSTMTPrepared`. -/
def converted (t : Talk ρ V) : Talk ρ V := { t with h := t.h.convertHSTMT }

theorem convertHSTMTPrepared_of_ready (hready : t.shape.ready = true) :
    t.h.convertHSTMTPrepared = (.success, t.h.convertHSTMT) := by
  rcases t.convertHSTMTPrepared_ready with ⟨-, hconv⟩ | ⟨hnot, -⟩
  · exact hconv
  · simp [hready] at hnot

theorem sqlPutData_of_ready (hready : t.shape.ready = true) (p : Piece) :
    t.sqlPutData p = (t.converted.putData p).map fun x => (.success, x.2) := by
  rw [Talk.sqlPutData, convertHSTMTPrepared_of_ready hready]
  rfl

theorem Piecewise.sqlPutData (h : Piecewise t c r q) (p : Piece) :
    t.sqlPutData p =
      (if t.desc.apd.header.arraySize = 1 then t.converted.fillParamCharDataBuffer p r q
        else t.converted.fillCurParamCharSet p r q).map fun x => (.success, x.1, x.2) := by
  have hidx : t.desc.curParamIdx = c.param := congrArg Cell.param h.here
  have hlt := h.lt
  rw [sqlPutData_of_ready h.ready, putData]
  simp only [show t.converted.desc = t.desc from rfl, hidx]
  rw [if_neg (by omega)]
  simp only [h.apd, h.ipd, h.type, if_true, Option.map_map]
  rfl

/-- The first piece. -/
theorem fillParamCharDataBuffer_first (t : Talk ρ V) (p : Piece) (r q : DescRecord)
    (hptr : r.indicatorPtr ≠ 0) (hind : t.mem.indicators (r.indicatorAddr 0) = sqlDataAtExec) :
    ∃ t', t.fillParamCharDataBuffer p r q = some (t', [.dataPtr t.here.param,
        .piece (min (sizeOfLen p.strLenOrInd) q.length),
        .data ⟨t.here.param, 0⟩ p.newBuffer 0 (min (sizeOfLen p.strLenOrInd) q.length),
        .indicator ⟨t.here.param, 0⟩] ++ t.statusAt t'.here.param) ∧
      t'.shape = t.shape ∧ t'.desc.ipd = t.desc.ipd ∧
      t'.desc.apd = (t.setDataPtr t.here.param p.newBuffer).desc.apd ∧
      t'.here = (if q.length ≤ sizeOfLen p.strLenOrInd then ⟨t.here.param + 1, t.here.set⟩
        else t.here) ∧
      t'.mem = ((t.mem.allocate p.newBuffer q.length).copy p.newBuffer 0
        (p.cells (min (sizeOfLen p.strLenOrInd) q.length))).setIndicator (r.indicatorAddr 0)
        (min (sizeOfLen p.strLenOrInd) q.length : ℕ) := by
  have hroom : roomBehind q.length 0 = q.length := rfl
  rw [fillParamCharDataBuffer, if_neg hptr]
  simp only [hind, decide_true, if_true, hroom, Int.zero_add]
  by_cases hfull : q.length ≤ sizeOfLen p.strLenOrInd
  · simp only [hfull, if_true]
    exact ⟨_, rfl, by simp, rfl, rfl, rfl, rfl⟩
  · simp only [hfull, if_false]
    exact ⟨_, rfl, by simp, rfl, rfl, rfl, rfl⟩

/-- A piece behind `n` bytes. -/
theorem fillParamCharDataBuffer_next (t : Talk ρ V) (p : Piece) (r q : DescRecord)
    (hptr : r.indicatorPtr ≠ 0) {n : ℕ} (hind : t.mem.indicators (r.indicatorAddr 0) = n)
    (hle : n ≤ q.length) :
    ∃ t', t.fillParamCharDataBuffer p r q = some (t',
        [.piece (min (sizeOfLen p.strLenOrInd) (q.length - n)),
        .data ⟨t.here.param, 0⟩ r.dataPtr n (min (sizeOfLen p.strLenOrInd) (q.length - n)),
        .indicator ⟨t.here.param, 0⟩] ++ t.statusAt t'.here.param) ∧
      t'.shape = t.shape ∧ t'.desc.ipd = t.desc.ipd ∧ t'.desc.apd = t.desc.apd ∧
      t'.here = (if q.length - n ≤ sizeOfLen p.strLenOrInd then ⟨t.here.param + 1, t.here.set⟩
        else t.here) ∧
      t'.mem = (t.mem.copy r.dataPtr n
        (p.cells (min (sizeOfLen p.strLenOrInd) (q.length - n)))).setIndicator (r.indicatorAddr 0)
        (n + (min (sizeOfLen p.strLenOrInd) (q.length - n) : ℕ)) := by
  have hroom : roomBehind q.length n = q.length - n := if_pos hle
  have hfirst : (n : ℤ) ≠ sqlDataAtExec := by
    rw [sqlDataAtExec]
    omega
  rw [fillParamCharDataBuffer, if_neg hptr]
  simp only [hind, hfirst, decide_false, Bool.false_eq_true, if_false, sizeOfLen_natCast, hroom]
  by_cases hfull : q.length - n ≤ sizeOfLen p.strLenOrInd
  · simp only [hfull, if_true]
    exact ⟨_, rfl, by simp, rfl, rfl, rfl, rfl⟩
  · simp only [hfull, if_false]
    exact ⟨_, rfl, by simp, rfl, rfl, rfl, rfl⟩

theorem forall_mem_statusAt {t t' : Talk ρ V} {p : Piece} {slot : ℕ}
    (hheader : t'.desc.apd.header = t.desc.apd.header) :
    (∀ access ∈ t.statusAt slot, t'.Contained c p access) ↔
      (t.desc.ipd.header.arrayStatusPtr ≠ 0 → slot < t.desc.apd.header.arraySize) := by
  unfold statusAt
  split_ifs with hstatus <;> simp [Contained, hheader, hstatus]

/-- The buffer of a parameter has room for the bytes that the column size lets through. -/
theorem forall_mem_fill {t' : Talk ρ V} {p : Piece} {ptr : Addr} {offset n : ℕ}
    {b : List (Option UInt8)} (hptr : ptr ≠ 0) (hblock : t'.mem.buffers ptr = some b)
    (hroom : offset + n ≤ b.length) :
    (∀ access ∈ [Access.piece n, .data c ptr offset n, .indicator c],
      t'.Contained c p access) ↔ n ≤ p.bytes.length := by
  simp only [List.forall_mem_cons, Contained, true_and, List.not_mem_nil]
  constructor
  · exact fun h => h.1
  · exact fun h => ⟨h, ⟨hptr, b, hblock, hroom⟩, fun _ => False.elim⟩

/-- The value so far : nothing was put yet, or the bytes stand in the buffer. -/
structure Held (t : Talk ρ V) (c : Cell) (r q : DescRecord) (w : List UInt8) : Prop where
  apd : t.desc.apd.records[c.param]? = some r
  ipd : t.desc.ipd.records[c.param]? = some q
  state : w = [] ∧ t.mem.indicators (r.indicatorAddr 0) = sqlDataAtExec ∨
    t.mem.indicators (r.indicatorAddr 0) = w.length ∧ r.dataPtr ≠ 0 ∧
      ∃ b, t.mem.buffers r.dataPtr = some b ∧ b.length = q.length ∧ b.take w.length = w.map some

/-- The bytes of a piece are stored behind the value so far. -/
theorem held_of_store {b : List (Option UInt8)} {bytes : List UInt8}
    (hapd : t.desc.apd.records[c.param]? = some r) (hipd : t.desc.ipd.records[c.param]? = some q)
    (hind : t.mem.indicators (r.indicatorAddr 0) = (w ++ bytes).length) (hptr : r.dataPtr ≠ 0)
    (hblock : t.mem.buffers r.dataPtr = some (Buffer.store b w.length (bytes.map some)))
    (hlen : b.length = q.length) (htake : b.take w.length = w.map some)
    (hroom : w.length + bytes.length ≤ q.length) : Held t c r q (w ++ bytes) := by
  refine ⟨hapd, hipd, .inr ⟨hind, hptr, _, hblock, by simpa using hlen, ?_⟩⟩
  have hfits : w.length + (bytes.map some).length ≤ b.length := by simpa [hlen] using hroom
  have hstart := Buffer.take_store_prefix hfits
  rw [List.length_map] at hstart
  rw [List.length_append, hstart, htake, List.map_append]

theorem cells_length_bytes (p : Piece) : p.cells p.bytes.length = p.bytes.map some := by
  refine List.ext_getElem (by simp [Piece.cells]) fun i h _ => ?_
  have hi : i < p.bytes.length := by simpa [Piece.cells] using h
  simp [Piece.cells, hi]

/-- A piece behind the value so far. -/
theorem Held.put (h : Held t c r q w) (hp : Piecewise t c r q)
    (hsets : t.desc.apd.header.arraySize = 1) (hle : w.length ≤ q.length) (p : Piece)
    (hnew : p.newBuffer ≠ 0) :
    ∃ t' log ptr, t.sqlPutData p = some (.success, t', log) ∧
      t'.shape = t.shape ∧ t'.desc.apd.header = t.desc.apd.header ∧
      t'.desc.ipd = t.desc.ipd ∧
      t'.here = (if q.length - w.length ≤ sizeOfLen p.strLenOrInd then ⟨c.param + 1, c.set⟩
        else c) ∧
      ((∀ access ∈ log, t'.Contained c p access) ↔
        min (sizeOfLen p.strLenOrInd) (q.length - w.length) ≤ p.bytes.length ∧
          (t.desc.ipd.header.arrayStatusPtr ≠ 0 → t'.here.param < 1)) ∧
      (min (sizeOfLen p.strLenOrInd) (q.length - w.length) = p.bytes.length →
        Held t' c { r with dataPtr := ptr } q (w ++ p.bytes) ∧
          t'.mem.indicators (r.indicatorAddr 0) = (w ++ p.bytes).length) := by
  have hset : c.set = 0 := by
    have hlt := hp.set_lt
    omega
  have hcell : (⟨c.param, 0⟩ : Cell) = c := by rw [← hset]
  have hhere : t.converted.here = c := hp.here
  rw [hp.sqlPutData, if_pos hsets]
  rcases h.state with ⟨rfl, hind⟩ | ⟨hind, hptr, b, hblock, hlen, htake⟩
  · obtain ⟨t', hfill, hshape, hipd, hapd, hmoved, hmem⟩ :=
      t.converted.fillParamCharDataBuffer_first p r q hp.ind hind
    rw [hhere] at hfill hapd hmoved
    rw [hcell] at hfill
    have hheader : t'.desc.apd.header = t.desc.apd.header := by
      rw [hapd]
      rfl
    have hbuffer : t'.mem.buffers p.newBuffer = some (Buffer.store (List.replicate q.length none) 0
        (p.cells (min (sizeOfLen p.strLenOrInd) q.length))) := by
      rw [hmem]
      simp [Memory.copy, Memory.allocate]
    refine ⟨t', _, p.newBuffer, by rw [hfill]; rfl, hshape, hheader, hipd, hmoved, ?_, ?_⟩
    · rw [List.cons_append, List.forall_mem_cons, List.forall_mem_append,
        forall_mem_fill hnew hbuffer (by simp),
        forall_mem_statusAt (t := t.converted) hheader]
      simp only [Contained, true_and, List.length_nil, Nat.sub_zero]
      exact and_congr_right fun _ => imp_congr_right fun _ => by rw [← hsets]; rfl
    · intro hsize
      rw [List.length_nil, Nat.sub_zero] at hsize
      rw [hsize, cells_length_bytes] at hbuffer
      have hlen : t'.mem.indicators (r.indicatorAddr 0) = ([] ++ p.bytes).length := by
        rw [hmem, hsize]
        exact Function.update_self ..
      refine ⟨held_of_store (b := List.replicate q.length none) ?_ ?_ hlen hnew hbuffer
        (by simp) (by simp) ?_, hlen⟩
      · rw [hapd]
        have hrecord : t.converted.desc.apd.records[c.param]? = some r := h.apd
        simp [setDataPtr, desc] at hrecord ⊢
        simp [hrecord]
      · rw [hipd]
        exact h.ipd
      · rw [List.length_nil, Nat.zero_add, ← hsize]
        exact Nat.min_le_right ..
  · obtain ⟨t', hfill, hshape, hipd, hapd, hmoved, hmem⟩ :=
      t.converted.fillParamCharDataBuffer_next p r q hp.ind hind hle
    rw [hhere, hcell] at hfill
    rw [hhere] at hmoved
    have hheader : t'.desc.apd.header = t.desc.apd.header := by
      rw [hapd]
      rfl
    have hbuffer : t'.mem.buffers r.dataPtr = some (Buffer.store b w.length
        (p.cells (min (sizeOfLen p.strLenOrInd) (q.length - w.length)))) := by
      have hold : t.converted.mem.buffers r.dataPtr = some b := hblock
      rw [hmem]
      simp [Memory.copy, hold]
    refine ⟨t', _, r.dataPtr, by rw [hfill]; rfl, hshape, hheader, hipd, hmoved, ?_, ?_⟩
    · have hroom := Nat.min_le_right (sizeOfLen p.strLenOrInd) (q.length - w.length)
      rw [List.forall_mem_append, forall_mem_fill hptr hbuffer (by rw [Buffer.length_store]; omega),
        forall_mem_statusAt (t := t.converted) hheader]
      exact and_congr_right fun _ => imp_congr_right fun _ => by rw [← hsets]; rfl
    · intro hsize
      rw [hsize, cells_length_bytes] at hbuffer
      have hlen' : t'.mem.indicators (r.indicatorAddr 0) = (w ++ p.bytes).length := by
        rw [hmem, hsize, List.length_append, Int.natCast_add]
        exact Function.update_self ..
      refine ⟨held_of_store ?_ ?_ hlen' hptr hbuffer hlen htake ?_, hlen'⟩
      · rw [hapd]
        exact h.apd
      · rw [hipd]
        exact h.ipd
      · have hroom := Nat.min_le_right (sizeOfLen p.strLenOrInd) (q.length - w.length)
        omega

end Fill

/-! ## Calls behind the value -/

section Behind

variable {t : Talk ρ V} {c : Cell} {sqlType : ℤ} {value : Option (List UInt8)}

theorem makes_cons {p : Piece} {pieces : List Piece} {ret : SqlReturn} {t' : Talk ρ V}
    {log : List Access} (hput : t.sqlPutData p = some (ret, t', log)) :
    t.Makes c sqlType value (p :: pieces) ↔
      (∀ access ∈ log, t'.Contained c p access) ∧ t'.Makes c sqlType value pieces := by
  rw [Makes, hput]
  constructor
  · rintro ⟨_, _, _, ⟨⟩, hlog, hrest⟩
    exact ⟨hlog, hrest⟩
  · exact fun ⟨hlog, hrest⟩ => ⟨_, _, _, rfl, hlog, hrest⟩

/-- Behind the last parameter `PutData` fails, and `SQLPutData` does not tell. -/
theorem makes_behind (hready : t.shape.ready = true)
    (hbehind : t.desc.apd.header.count ≤ t.desc.curParamIdx) (pieces : List Piece) :
    t.Makes c sqlType value pieces ↔
      (t.setValue c.param c.set).map Prod.fst = some (.value (.ofBytes sqlType value)) := by
  induction pieces generalizing t with
  | nil => rfl
  | cons p pieces ih =>
    have hput : t.sqlPutData p = some (.success, t.converted, []) := by
      rw [sqlPutData_of_ready hready, putData,
        if_pos (show t.converted.desc.apd.header.count ≤ t.converted.desc.curParamIdx from hbehind)]
      rfl
    rw [makes_cons hput, ih (t := t.converted) hready hbehind]
    simp only [List.not_mem_nil, false_implies, implies_true, true_and]
    rfl

/-- What a put for a cell of another parameter stores. -/
theorem exists_not_contained {p : Piece} {ret : SqlReturn} {t' : Talk ρ V} {log : List Access}
    (hput : t.putData p = some (ret, t', log)) (hother : t.desc.curParamIdx ≠ c.param)
    (hlt : ¬t.desc.apd.header.count ≤ t.desc.curParamIdx) :
    ∃ access ∈ log, ¬t'.Contained c p access := by
  have hcell : ∀ set, (⟨t.desc.curParamIdx, set⟩ : Cell) ≠ c :=
    fun set heq => hother (congrArg Cell.param heq)
  rw [putData, if_neg hlt] at hput
  cases hr : t.desc.apd.records[t.desc.curParamIdx]? with
  | none => simp [hr] at hput
  | some r =>
    cases htype : isPiecewise r.type with
    | false =>
      simp only [hr, htype, Bool.false_eq_true, if_false, Option.map_eq_some_iff] at hput
      obtain ⟨⟨t₁, log₁⟩, hput, ⟨⟩⟩ := hput
      rw [putPointer] at hput
      split_ifs at hput with hnull hind
      · cases hput
        exact ⟨_, List.mem_singleton_self _, hcell 0⟩
      · cases hput
        exact ⟨_, List.mem_singleton_self _, hother⟩
    | true =>
      cases hq : t.desc.ipd.records[t.desc.curParamIdx]? with
      | none => simp [hr, htype, hq] at hput
      | some q =>
        simp only [hr, htype, hq, if_true, Option.map_eq_some_iff] at hput
        obtain ⟨⟨t₁, log₁⟩, hput, ⟨⟩⟩ := hput
        split_ifs at hput with hsets
        · rw [fillParamCharDataBuffer] at hput
          split_ifs at hput with hind
          simp only [Option.some.injEq, Prod.mk.injEq] at hput
          exact ⟨.indicator ⟨t.desc.curParamIdx, 0⟩, by simp [← hput.2], hcell 0⟩
        · rw [fillCurParamCharSet] at hput
          split_ifs at hput with hind
          simp only [Option.some.injEq, Prod.mk.injEq] at hput
          exact ⟨.indicator t.here, by simp [← hput.2], hcell _⟩

/-- A piece that goes to another parameter is stored there. -/
theorem not_makes_elsewhere (hready : t.shape.ready = true) (hother : t.desc.curParamIdx ≠ c.param)
    (hlt : ¬t.desc.apd.header.count ≤ t.desc.curParamIdx) (p : Piece) (pieces : List Piece) :
    ¬t.Makes c sqlType value (p :: pieces) := by
  rintro ⟨ret, t', log, hput, hlog, -⟩
  rw [sqlPutData_of_ready hready, Option.map_eq_some_iff] at hput
  obtain ⟨⟨ret₁, t₁, log₁⟩, hput, ⟨⟩⟩ := hput
  obtain ⟨access, hmem, hnot⟩ := exists_not_contained (c := c) hput hother hlt
  exact hnot (hlog access hmem)

end Behind

section Single

variable {t : Talk ρ V} {c : Cell} {r q : DescRecord} {w : List UInt8}

theorem Piecewise.of_eq {t' : Talk ρ V} {r' : DescRecord} {ptr : Addr} (h : Piecewise t c r q)
    (hshape : t'.shape = t.shape) (hhere : t'.here = c)
    (hheader : t'.desc.apd.header = t.desc.apd.header)
    (hapd : t'.desc.apd.records[c.param]? = some r') (hr : r' = { r with dataPtr := ptr })
    (hipd : t'.desc.ipd.records[c.param]? = some q) : Piecewise t' c r' q where
  ready := by rw [hshape, h.ready]
  here := hhere
  lt := by rw [hheader]; exact h.lt
  apd := hapd
  ipd := hipd
  type := by rw [hr]; exact h.type
  textual := by rw [hr]; exact h.textual
  ind := by rw [hr]; exact h.ind
  set_lt := by rw [hheader]; exact h.set_lt

/-- The value that is held is the one that is read. -/
theorem Held.setValue (h : Held t c r q w) (hset : c.set = 0) (htextual : IsTextual r.type q.type)
    (htype : isPiecewise r.type = true) (hind : r.indicatorPtr ≠ 0)
    (hlen : t.mem.indicators (r.indicatorAddr 0) = w.length) :
    (t.setValue c.param c.set).map Prod.fst = some (.value (.ofBytes q.type (some w))) := by
  rcases h.state with ⟨-, hexec⟩ | ⟨-, hptr, b, hblock, -, htake⟩
  · rw [hexec, sqlDataAtExec] at hlen
    omega
  · have hload : Buffer.load b 0 w.length = some w :=
      Buffer.load_eq_some_iff.2 ⟨rfl, by rw [List.drop_zero, htake]⟩
    rw [setValue_of_length h.apd h.ipd htextual htype hptr hind (by rw [hset, hlen]) hblock, hset,
      Nat.zero_mul, hload]
    rfl

/-- Behind a filled column, empty pieces fit if they are behind the last parameter. -/
theorem fits_full {apd ipd : DescHeader} {param size : ℕ} (hcount : apd.count ≤ param + 1)
    (hstatus : ipd.arrayStatusPtr = 0) :
    ∀ pieces : List Piece, (∀ p ∈ pieces, p.bytes = []) → Fits apd ipd param size size pieces
  | [], _ => trivial
  | p :: pieces, h => by
    have hp : p.bytes = [] := h p (List.mem_cons_self ..)
    refine ⟨.inr (by simp [hp]), fun hne => absurd hstatus hne, fun _ => .inr hcount, ?_⟩
    rw [hp]
    exact fits_full hcount hstatus pieces fun p hp => h p (List.mem_cons_of_mem _ hp)

/-- The pieces behind the value so far. -/
theorem Held.makes_iff (pieces : List Piece) (hp : Piecewise t c r q)
    (hsets : t.desc.apd.header.arraySize = 1) (h : Held t c r q w)
    (hnew : ∀ p ∈ pieces, p.newBuffer ≠ 0) (hcoded : ∀ p ∈ pieces, p.Coded)
    (hroom : w.length + (pieces.map Piece.bytes).flatten.length ≤ q.length)
    (hlast : pieces = [] → t.mem.indicators (r.indicatorAddr 0) = w.length) :
    t.Makes c q.type (some (w ++ (pieces.map Piece.bytes).flatten)) pieces ↔
      Fits t.desc.apd.header t.desc.ipd.header c.param q.length w.length pieces := by
  have hset : c.set = 0 := by
    have hlt := hp.set_lt
    omega
  induction pieces generalizing t r w with
  | nil =>
    have hread := h.setValue hset hp.textual hp.type hp.ind (hlast rfl)
    simp [Makes, Fits, hread]
  | cons p pieces ih =>
    rw [List.forall_mem_cons] at hnew hcoded
    rw [List.map_cons, List.flatten_cons, List.length_append] at hroom
    obtain ⟨t', log, ptr, hput, hshape, hheader, hipd, hhere, hlog, hheld⟩ :=
      h.put hp hsets (by omega) p hnew.1
    have hfits : p.bytes.length ≤ q.length - w.length := by omega
    obtain ⟨hclip, hsize⟩ := hcoded.1.clipped hfits
    rw [makes_cons hput, hlog, hclip, Fits]
    have hfull : p.bytes.length = q.length - w.length ↔ w.length + p.bytes.length = q.length := by
      omega
    rw [hfull] at hsize ⊢
    rw [and_assoc]
    refine and_congr_right fun hfit => ?_
    obtain ⟨hmin, hmoves⟩ := hsize hfit
    obtain ⟨hheld, hlen⟩ := hheld hmin
    simp only [hmoves] at hhere
    have hready : t'.shape.ready = true := by rw [hshape, hp.ready]
    by_cases hfilled : w.length + p.bytes.length = q.length
    · -- the cursor goes on, and what is left is empty
      rw [if_pos hfilled] at hhere
      have hnil : (pieces.map Piece.bytes).flatten = [] := List.length_eq_zero_iff.1 (by omega)
      have hidx : t'.desc.curParamIdx = c.param + 1 := congrArg Cell.param hhere
      have hread := hheld.setValue hset hp.textual hp.type hp.ind hlen
      have hstatus : (t.desc.ipd.header.arrayStatusPtr ≠ 0 → t'.here.param < 1) ↔
          (t.desc.ipd.header.arrayStatusPtr ≠ 0 →
            c.param = 0 ∧ w.length + p.bytes.length ≠ q.length) := by
        rw [hhere]
        exact imp_congr_right fun _ => by simp [hfilled]
      rw [hstatus]
      refine and_congr_right fun hzero => ?_
      have hzero : t.desc.ipd.header.arrayStatusPtr = 0 :=
        by_contra fun hne => (hzero hne).2 hfilled
      rw [List.map_cons, List.flatten_cons, hnil, List.append_nil]
      by_cases hcount : t.desc.apd.header.count ≤ c.param + 1
      · rw [makes_behind hready (by rw [hheader, hidx]; exact_mod_cast hcount)]
        refine iff_of_true hread ⟨fun _ => .inr hcount, ?_⟩
        rw [hfilled]
        exact fits_full hcount hzero _ fun p hmem =>
          List.flatten_eq_nil_iff.1 hnil _ (List.mem_map_of_mem hmem)
      · cases pieces with
        | nil => exact iff_of_true hread ⟨fun _ => .inl rfl, trivial⟩
        | cons p' pieces =>
          refine iff_of_false (not_makes_elsewhere hready (by omega) ?_ p' pieces)
            fun hfits => by simpa [hcount] using hfits.1 hfilled
          rw [hheader, hidx]
          exact_mod_cast hcount
    · rw [if_neg hfilled] at hhere
      have hp' := hp.of_eq hshape hhere hheader hheld.apd rfl hheld.ipd
      have hrest := ih hp' (by rw [hheader, hsets]) hheld hnew.2 hcoded.2
        (by rw [List.length_append]; omega) fun _ => hlen
      rw [hheader, hipd, List.length_append] at hrest
      rw [List.map_cons, List.flatten_cons, ← List.append_assoc, hhere]
      simp only [hfilled, hrest, Nat.lt_one_iff, ne_eq, not_false_eq_true, and_true, false_implies,
        true_and]

end Single

/-! ## Parameter arrays -/

section Array

variable {t : Talk ρ V} {c d : Cell} {r q : DescRecord}

/-- The place of the elements of a parameter. -/
def elements (t : Talk ρ V) (r q : DescRecord) (p : Piece) : Addr × Option (List (Option UInt8)) :=
  if t.mem.pool = [] then
    (p.newBuffer, some (List.replicate (q.length * t.desc.apd.header.arraySize) none))
  else (r.dataPtr, t.mem.buffers r.dataPtr)

/-- The piece of a cell. -/
theorem Piecewise.put_element (h : Piecewise t c r q) (hsets : t.desc.apd.header.arraySize ≠ 1)
    (hind : t.mem.indicators (r.indicatorAddr c.set) = sqlDataAtExec) (p : Piece) :
    ∃ t' log, t.sqlPutData p = some (.success, t', log) ∧
      t'.shape = t.shape ∧ t'.desc.apd.header = t.desc.apd.header ∧
      t'.desc.ipd = t.desc.ipd ∧
      t'.here = (if t.desc.apd.header.arraySize ≤ c.set + 1 then ⟨c.param + 1, 0⟩
        else ⟨c.param, c.set + 1⟩) ∧
      t'.desc.apd.records[c.param]? = some { r with dataPtr := (t.elements r q p).1 } ∧
      t'.mem.indicators (r.indicatorAddr c.set) = (min (sizeOfLen p.strLenOrInd) q.length : ℕ) ∧
      t'.mem.buffers (t.elements r q p).1 = (t.elements r q p).2.map (fun b =>
        Buffer.store b (c.set * q.length) (p.cells (min (sizeOfLen p.strLenOrInd) q.length))) ∧
      ((∀ access ∈ log, t'.Contained c p access) ↔
        ∀ access ∈ [Access.piece (min (sizeOfLen p.strLenOrInd) q.length),
          .data c (t.elements r q p).1 (c.set * q.length)
            (min (sizeOfLen p.strLenOrInd) q.length), .indicator c], t'.Contained c p access) := by
  have hhere : t.converted.here = c := h.here
  rw [h.sqlPutData, if_neg hsets, fillCurParamCharSet, if_neg h.ind, hhere]
  have hind' : t.converted.mem.indicators (r.indicatorAddr c.set) = sqlDataAtExec := hind
  have hrecord : t.desc.apd.records[c.param]? = some r := h.apd
  have hstatus : ∀ t' : Talk ρ V, t'.desc.apd.header = t.desc.apd.header →
      ∀ access ∈ t.converted.statusAt c.set, t'.Contained c p access :=
    fun t' hheader => (forall_mem_statusAt (t := t.converted) hheader).2 fun _ => h.set_lt
  by_cases hpool : t.mem.pool = []
  · have hpool' : t.converted.mem.pool = [] := hpool
    simp only [hind', hpool', true_and, decide_true, if_true, Option.map_some, elements, hpool]
    refine ⟨_, _, rfl, by simp; rfl, rfl, rfl, rfl, ?_, Function.update_self .., ?_, ?_⟩
    · show (t.desc.apd.records.modify c.param _)[c.param]? = _
      rw [List.getElem?_modify, hrecord]
      simp
    · simp [Memory.copy, Memory.allocate, moveTo, setDataPtr, setMem, Memory.setIndicator]
      rfl
    · rw [List.forall_mem_append, List.forall_mem_append, List.forall_mem_singleton]
      simp only [Contained, true_and, and_iff_left_iff_imp]
      exact fun _ => hstatus _ rfl
  · have hpool' : ¬t.converted.mem.pool = [] := hpool
    simp only [hind', hpool', and_false, decide_false, Bool.false_eq_true, if_false,
      Option.map_some, elements, hpool, List.nil_append]
    refine ⟨_, _, rfl, by simp; rfl, rfl, rfl, rfl, hrecord, Function.update_self .., ?_, ?_⟩
    · exact Function.update_self ..
    · rw [List.forall_mem_append, and_iff_left_iff_imp]
      exact fun _ => hstatus _ rfl

/-- The element is read back from a new buffer exactly if its place is the one of `SetValue`. -/
theorem readsBack_new {size step set sets : ℕ} {value : List UInt8} {octetLength : ℤ}
    (hstep : (step : ℤ) = max (size : ℤ) octetLength) (hset : set < sets)
    (hle : value.length ≤ size) :
    ReadsBack (List.replicate (size * sets) none) (set * size) (set * step) value ↔
      set = 0 ∨ octetLength ≤ size ∨ value = [] := by
  have hroom : set * size + value.length ≤ size * sets := by
    have hmul := Nat.mul_le_mul_left size (Nat.succ_le_of_lt hset)
    rw [Nat.mul_comm set size]
    rw [Nat.mul_succ] at hmul
    omega
  rw [ReadsBack, Buffer.load_store_replicate_none hroom, ← or_assoc]
  refine or_congr_left ⟨fun heq => ?_, ?_⟩
  · rcases Nat.eq_zero_or_pos set with hzero | hpos
    · exact .inl hzero
    · have := Nat.eq_of_mul_eq_mul_left hpos heq
      omega
  · rintro (rfl | hle)
    · simp
    · rw [show size = step by omega]

/-- The place of the element, and that it is read back from there. -/
theorem elements_iff (hset : c.set < t.desc.apd.header.arraySize) {p : Piece}
    (hnew : p.newBuffer ≠ 0)
    {value : List UInt8} (hle : value.length ≤ q.length) :
    ((t.elements r q p).1 ≠ 0 ∧ ∃ b, (t.elements r q p).2 = some b ∧
      c.set * q.length + value.length ≤ b.length ∧
      ReadsBack b (c.set * q.length) (c.set * (max (q.length : ℤ) r.octetLength).toNat) value) ↔
    if t.mem.pool = [] then c.set = 0 ∨ r.octetLength ≤ q.length ∨ value = []
    else r.dataPtr ≠ 0 ∧ ∃ b, t.mem.buffers r.dataPtr = some b ∧
      c.set * q.length + value.length ≤ b.length ∧
      ReadsBack b (c.set * q.length) (c.set * (max (q.length : ℤ) r.octetLength).toNat) value := by
  unfold elements
  split_ifs with hpool
  · have hroom : c.set * q.length + value.length ≤
        (List.replicate (q.length * t.desc.apd.header.arraySize) (none : Option UInt8)).length := by
      have hmul := Nat.mul_le_mul_left q.length (Nat.succ_le_of_lt hset)
      rw [Nat.mul_succ] at hmul
      rw [List.length_replicate, Nat.mul_comm c.set]
      omega
    have hstep : (((max (q.length : ℤ) r.octetLength).toNat : ℕ) : ℤ) =
        max (q.length : ℤ) r.octetLength := by omega
    rw [← readsBack_new hstep hset hle]
    constructor
    · rintro ⟨-, b, ⟨⟩, -, hreads⟩
      exact hreads
    · exact fun hreads => ⟨hnew, _, rfl, hroom, hreads⟩
  · rfl

/-- A piece for another cell of the array. -/
theorem Piecewise.not_makes_other (hp : Piecewise t d r q) (hsets : t.desc.apd.header.arraySize ≠ 1)
    (hne : d ≠ c) {sqlType : ℤ} {value : Option (List UInt8)} (p : Piece) (pieces : List Piece) :
    ¬t.Makes c sqlType value (p :: pieces) := by
  rintro ⟨ret, t', log, hput, hlog, -⟩
  have hhere : t.converted.here = d := hp.here
  rw [hp.sqlPutData, if_neg hsets, fillCurParamCharSet, if_neg hp.ind, hhere,
    Option.map_some] at hput
  simp only [Option.some.injEq, Prod.mk.injEq] at hput
  exact hne (hlog (.indicator d) (by simp [← hput.2.2]))

/-- The pieces behind the one of an element. -/
theorem Piecewise.makes_rest (hp : Piecewise t c r q) (hsets : t.desc.apd.header.arraySize ≠ 1)
    {t' : Talk ρ V} {ptr : Addr} {sqlType : ℤ} {value : Option (List UInt8)}
    (hshape : t'.shape = t.shape) (hheader : t'.desc.apd.header = t.desc.apd.header)
    (hipd : t'.desc.ipd = t.desc.ipd)
    (hhere : t'.here = if t.desc.apd.header.arraySize ≤ c.set + 1 then ⟨c.param + 1, 0⟩
      else ⟨c.param, c.set + 1⟩)
    (hapd : t'.desc.apd.records[c.param]? = some { r with dataPtr := ptr }) (pieces : List Piece) :
    t'.Makes c sqlType value pieces ↔ (pieces = [] ∨
        t.desc.apd.header.arraySize ≤ c.set + 1 ∧ t.desc.apd.header.count ≤ c.param + 1) ∧
      (t'.setValue c.param c.set).map Prod.fst = some (.value (.ofBytes sqlType value)) := by
  have hready : t'.shape.ready = true := by rw [hshape, hp.ready]
  cases pieces with
  | nil => simp [Makes]
  | cons p pieces =>
    by_cases hset : t.desc.apd.header.arraySize ≤ c.set + 1
    · rw [if_pos hset] at hhere
      have hidx : t'.desc.curParamIdx = c.param + 1 := congrArg Cell.param hhere
      by_cases hcount : t.desc.apd.header.count ≤ c.param + 1
      · rw [makes_behind hready (by rw [hheader, hidx]; exact_mod_cast hcount)]
        simp [hset, hcount]
      · refine iff_of_false (not_makes_elsewhere hready (by omega) ?_ p pieces) (by simp [hcount])
        rw [hheader, hidx]
        exact_mod_cast hcount
    · rw [if_neg hset] at hhere
      have hnext : Piecewise t' ⟨c.param, c.set + 1⟩ { r with dataPtr := ptr } q :=
        { ready := hready, here := hhere, apd := hapd, ipd := by rw [hipd]; exact hp.ipd
          lt := by rw [hheader]; exact hp.lt
          type := hp.type, textual := hp.textual, ind := hp.ind
          set_lt := by
            rw [hheader]
            exact Nat.lt_of_not_le hset }
      refine iff_of_false (hnext.not_makes_other (by rw [hheader]; exact hsets) ?_ p pieces)
        (by simp [hset])
      exact fun heq => absurd (congrArg Cell.set heq) (Nat.succ_ne_self _)

/-- The pieces of an element. -/
theorem Piecewise.makes_element_iff (hp : Piecewise t c r q)
    (hsets : t.desc.apd.header.arraySize ≠ 1)
    (hind : t.mem.indicators (r.indicatorAddr c.set) = sqlDataAtExec) {p : Piece}
    {pieces : List Piece} (hnew : p.newBuffer ≠ 0) (hcoded : p.Coded) {value : List UInt8}
    (hle : value.length ≤ q.length) (hstart : p.bytes <+: value) :
    t.Makes c q.type (some value) (p :: pieces) ↔ FitsElement t c r q value (p :: pieces) := by
  obtain ⟨t', log, hput, hshape, hheader, hipd, hhere, hapd, hlen, hblock, hlog⟩ :=
    hp.put_element hsets hind p
  obtain ⟨hclip, hsize⟩ := hcoded.clipped (hstart.length_le.trans hle)
  rw [makes_cons hput, hlog, hp.makes_rest hsets hshape hheader hipd hhere hapd, FitsElement,
    ← elements_iff hp.set_lt hnew hle]
  simp only [List.forall_mem_cons, Contained, true_and, List.not_mem_nil, false_implies,
    implies_true, and_true, hclip]
  by_cases hfit : p.strLenOrInd = p.bytes.length ∨ p.bytes.length = q.length
  swap
  · simp [hfit]
  obtain ⟨hmin, -⟩ := hsize hfit
  rw [hmin, cells_length_bytes] at hblock
  rw [hmin] at hlen
  simp only [hfit, hmin, true_and]
  have hread : ∀ b, (t.elements r q p).1 ≠ 0 → (t.elements r q p).2 = some b →
      ((t'.setValue c.param c.set).map Prod.fst = some (.value (.ofBytes q.type (some value))) ↔
        p.bytes = value ∧ ReadsBack b (c.set * q.length)
          (c.set * (max (q.length : ℤ) r.octetLength).toNat) value) := by
    intro b hptr hb
    rw [hb, Option.map_some] at hblock
    have hvalue := setValue_of_length hapd (by rw [hipd]; exact hp.ipd) hp.textual hp.type hptr
      hp.ind hlen hblock
    rw [hvalue, ReadsBack, Option.map_eq_some_iff]
    constructor
    · rintro ⟨bytes, hload, heq⟩
      obtain rfl := ofBytes_injective (ParamRead.value.inj heq)
      have hbytes := hstart.eq_of_length (Buffer.load_eq_some_iff.1 hload).1.symm
      rw [hbytes] at hload
      exact ⟨hbytes, hload⟩
    · rintro ⟨rfl, hload⟩
      exact ⟨_, hload, rfl⟩
  constructor
  · rintro ⟨⟨hptr, b, hb, hroom⟩, hrest, hvalue⟩
    rw [hblock, Option.map_eq_some_iff] at hb
    obtain ⟨old, hold, rfl⟩ := hb
    obtain ⟨rfl, hreads⟩ := (hread old hptr hold).1 hvalue
    exact ⟨rfl, hrest, hptr, old, hold, by simpa using hroom, hreads⟩
  · rintro ⟨rfl, hrest, hptr, b, hb, hroom, hreads⟩
    refine ⟨⟨hptr, _, by rw [hblock, hb]; rfl, by simpa using hroom⟩, hrest, ?_⟩
    exact (hread b hptr hb).2 ⟨rfl, hreads⟩

end Array

/-! ## The request and its answer -/

section Supplied

variable {t : Talk ρ V} {c : Cell} {r q : DescRecord}

/-- A null is put as the bytes of a whole column, and is no null afterwards. -/
theorem Piecewise.not_makes_null (hp : Piecewise t c r q)
    (hind : t.mem.indicators (r.indicatorAddr c.set) = sqlDataAtExec) {p : Piece}
    (hnew : p.newBuffer ≠ 0) (hnull : p.strLenOrInd = sqlNullData) (hbytes : p.bytes = []) :
    ¬t.Makes c q.type none [p] := by
  have hsize : sizeOfLen p.strLenOrInd = 2 ^ 64 - 1 := by
    rw [hnull]
    rfl
  have hne : ∀ value : Option (ParamRead ParamValue), value =
      some (.value (.ofBytes q.type (some []))) → value ≠ some (.value (.ofBytes q.type none)) := by
    rintro _ rfl heq
    simp only [ParamValue.ofBytes, Option.some.injEq, ParamRead.value.injEq] at heq
    split_ifs at heq
  by_cases hsets : t.desc.apd.header.arraySize = 1
  · have hset : c.set = 0 := by
      have hlt := hp.set_lt
      omega
    have hheld : Held t c r q [] := ⟨hp.apd, hp.ipd, .inl ⟨rfl, by rw [← hind, hset]⟩⟩
    obtain ⟨t', log, ptr, hput, -, -, -, -, hlog, hafter⟩ :=
      hheld.put hp hsets (Nat.zero_le _) p hnew
    rw [makes_cons hput, hlog, hbytes, hsize]
    rintro ⟨⟨hle, -⟩, hread⟩
    obtain ⟨hheld', hlen⟩ := hafter (by rw [hbytes, hsize]; exact Nat.le_zero.1 hle)
    rw [hbytes] at hheld' hlen
    exact hne _ (hheld'.setValue hset hp.textual hp.type hp.ind hlen) hread
  · obtain ⟨t', log, hput, -, -, hipd, -, hapd, hlen, hblock, hlog⟩ :=
      hp.put_element hsets hind p
    rw [makes_cons hput, hlog]
    rintro ⟨hcontained, hread⟩
    simp only [List.forall_mem_cons, Contained, true_and, hbytes] at hcontained
    obtain ⟨hle, ⟨hptr, b, hb, -⟩, -⟩ := hcontained
    rw [List.length_nil, Nat.le_zero] at hle
    rw [hle] at hlen
    refine hne _ ?_ hread
    rw [setValue_of_length hapd (by rw [hipd]; exact hp.ipd) hp.textual hp.type hptr hp.ind hlen
      hb, Buffer.load_zero]
    rfl

/-- `SQLParamData` asks for a cell by `SQL_DATA_AT_EXEC` only. -/
theorem Piecewise.sqlParamData (hp : Piecewise t c r q) :
    ∃ t', t.sqlParamData = some
        (if t.mem.indicators (r.indicatorAddr c.set) = sqlDataAtExec then .needData else .success,
          some r.dataPtr, t') ∧
      t'.shape = t.shape ∧ t'.desc = t.desc ∧ t'.mem.indicators = t.mem.indicators ∧
      t'.mem.pool = t.mem.pool ∧ t'.mem.buffers = t.mem.buffers := by
  have hidx : t.converted.desc.curParamIdx = c.param := congrArg Cell.param hp.here
  have hset : t.converted.desc.curParamsetIdx = c.set := congrArg Cell.set hp.here
  have hrecord : t.converted.desc.apd.records[c.param]? = some r := hp.apd
  have hlt : ¬t.converted.desc.apd.header.count ≤ c.param := by
    have := hp.lt
    exact Int.not_le.2 this
  have hnext : t.sqlParamData = t.converted.getNextParam.map fun x =>
      (if x.1 = .noData then .success else x.1, x.2.1, x.2.2) := by
    rw [Talk.sqlParamData, convertHSTMTPrepared_of_ready hp.ready]
    rfl
  rw [hnext, getNextParam, hidx, if_neg hlt, hrecord]
  simp only [if_neg hp.ind, hset, Option.map_some]
  refine ⟨_, congrArg some (Prod.ext ?_ rfl), rfl, rfl, rfl, rfl, rfl⟩
  by_cases hexec : t.mem.indicators (r.indicatorAddr c.set) = sqlDataAtExec
  · have hexec' : t.converted.mem.indicators (r.indicatorAddr c.set) = sqlDataAtExec := hexec
    simp [hexec, hexec']
  · have hexec' : t.converted.mem.indicators (r.indicatorAddr c.set) ≠ sqlDataAtExec := hexec
    simp [hexec, hexec']

/-- The pieces supply the value exactly if it is suppliable. -/
theorem supplied_iff (hp : Piecewise t c r q) {pieces : List Piece}
    (hnew : ∀ p ∈ pieces, p.newBuffer ≠ 0) {value : Option (List UInt8)}
    (hcuts : Cuts pieces value) (hle : ∀ bytes, value = some bytes → bytes.length ≤ q.length) :
    t.Supplied c q.type pieces value ↔ t.Suppliable c r q pieces value := by
  obtain ⟨t', hasks, hshape, hdesc, hindicators, hpool, hbuffers⟩ := hp.sqlParamData
  by_cases hind : t.mem.indicators (r.indicatorAddr c.set) = sqlDataAtExec
  swap
  · -- the cell is not asked for
    rw [if_neg hind] at hasks
    refine iff_of_false (fun ⟨ptr, t'', hneed, _⟩ => ?_) fun h => ?_
    · rw [hasks] at hneed
      cases hneed
    · cases value with
      | none => exact h
      | some value => exact hind h.1
  rw [if_pos hind] at hasks
  have hmakes : t.Supplied c q.type pieces value ↔ t'.Makes c q.type value pieces := by
    rw [Supplied, hasks]
    constructor
    · rintro ⟨_, _, ⟨⟩, h⟩
      exact h
    · exact fun h => ⟨_, _, rfl, h⟩
  have hp' : Piecewise t' c r q :=
    hp.of_eq hshape (by rw [here, hdesc]; exact hp.here) (by rw [hdesc]) (by rw [hdesc, hp.apd])
      rfl (by rw [hdesc, hp.ipd])
  have hind' : t'.mem.indicators (r.indicatorAddr c.set) = sqlDataAtExec := by
    rw [hindicators, hind]
  rw [hmakes]
  cases value with
  | none =>
    obtain ⟨p, rfl, hnull, hbytes⟩ := hcuts
    have hmakes := hp'.not_makes_null hind' (hnew p (List.mem_singleton_self p)) hnull hbytes
    exact iff_of_false hmakes id
  | some value =>
    obtain ⟨hne, hflatten, hcoded⟩ := hcuts
    have hle := hle value rfl
    rw [Suppliable, and_iff_right hind]
    split_ifs with hsets
    · have hset : c.set = 0 := by
        have hlt := hp.set_lt
        omega
      have hheld : Held t' c r q [] := ⟨hp'.apd, hp'.ipd, .inl ⟨rfl, by rw [← hind', hset]⟩⟩
      have hall := hheld.makes_iff pieces hp' (by rw [hdesc, hsets]) hnew hcoded
        (by rw [hflatten]; simpa using hle) fun hnil => absurd hnil hne
      rwa [hflatten, List.nil_append, hdesc] at hall
    · obtain ⟨p, pieces, rfl⟩ := List.exists_cons_of_ne_nil hne
      have hstart : p.bytes <+: value := by
        rw [← hflatten]
        exact List.prefix_append ..
      rw [hp'.makes_element_iff (by rw [hdesc]; exact hsets) hind'
        (hnew p (List.mem_cons_self ..)) (hcoded p (List.mem_cons_self ..)) hle hstart]
      simp only [FitsElement, hdesc, hpool, hbuffers]

/-- A value that two pieces fill the column with. -/
theorem supplied_two_pieces : (ofParams [(-2, 6, -2)]).Supplied ⟨0, 0⟩ 12
    [pieceOf [102, 111, 111], pieceOf [98, 97, 114]] (some [102, 111, 111, 98, 97, 114]) := by
  have hp : (ofParams [(-2, 6, -2)]).Piecewise ⟨0, 0⟩
      { type := -2, dataPtr := 1, indicatorPtr := 1000 } { type := 12, length := 6 } :=
    ⟨rfl, rfl, by decide, rfl, rfl, rfl, .inr (.inl rfl), by decide, by decide⟩
  have hcuts : Cuts [pieceOf [102, 111, 111], pieceOf [98, 97, 114]]
      (some [102, 111, 111, 98, 97, 114]) :=
    ⟨by simp, rfl, List.forall_mem_cons.2 ⟨⟨by decide, .inl rfl⟩,
      List.forall_mem_singleton.2 ⟨by decide, .inl rfl⟩⟩⟩
  refine (supplied_iff hp ?_ hcuts (by rintro _ ⟨⟩; decide)).2 ⟨rfl, ?_⟩
  · exact List.forall_mem_cons.2 ⟨by decide, List.forall_mem_singleton.2 (by decide)⟩
  · exact ⟨.inl rfl, nofun, by decide, .inl rfl, nofun, fun _ => .inl rfl, trivial⟩

/-- A null, and a text given by `SQL_NTS` that is shorter than its column : both are read beyond
their end. -/
theorem not_supplied :
    ¬(ofParams [(-2, 6, -2)]).Supplied ⟨0, 0⟩ 12 [⟨9000, [], sqlNullData, 5000⟩] none ∧
    ¬(ofParams [(1, 6, -2)]).Supplied ⟨0, 0⟩ 12 [⟨9000, [102, 111, 111], sqlNts, 5000⟩]
      (some [102, 111, 111]) := by
  constructor
  · rintro ⟨_, _, ⟨⟩, _, _, _, ⟨⟩, hlog, -⟩
    exact absurd (show 6 ≤ 0 from hlog (.piece 6) (by decide)) (by decide)
  · rintro ⟨_, _, ⟨⟩, _, _, _, ⟨⟩, hlog, -⟩
    exact absurd (show 6 ≤ 3 from hlog (.piece 6) (by decide)) (by decide)

end Supplied

end Talk

end HaybarnOdbc
