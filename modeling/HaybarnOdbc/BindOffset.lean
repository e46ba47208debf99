import Mathlib.Algebra.Order.Ring.Int
import Mathlib.Logic.Function.Basic
import Mathlib.Tactic.Ring
import HaybarnOdbc.Types

/-!
# The bind offset of parameters

`SQL_ATTR_PARAM_BIND_OFFSET_PTR` points to a number of bytes that is added to the pointers
of the parameters. Five accessors of `ParameterDescriptor` add it, each to the pointer at
hand : to a `uint8_t *` for the data, to an `SQLLEN *` for the indicators and the lengths, and
to the address of the field itself when the data pointer is set. The records therefore
stand in memory here, a pointer in each of their fields. All of it comes out right only for
an offset of zero (`appliesOffset_iff`).
-/

namespace HaybarnOdbc

/-- The fields of a record that hold the pointers the application bound. -/
inductive PtrField
  | dataPtr
  | indicatorPtr
  | octetLengthPtr
  deriving DecidableEq, Repr

/-- Where the fields of a `DescRecord` are : distinct words of it. -/
structure RecordLayout where
  size : ℤ
  offset : PtrField → ℤ
  offset_nonneg : ∀ f, 0 ≤ offset f
  offset_lt : ∀ f, offset f + 8 ≤ size
  offset_injective : Function.Injective offset

/-- The records of the application descriptor in memory, and the bind offset if its pointer is
not null. -/
structure ApdMemory where
  layout : RecordLayout
  records : Addr
  word : Addr → Addr
  bindOffset : Option ℤ

/-- `p + n` for a pointer to elements of `size` bytes. -/
def elementAt (size : ℤ) (p : Addr) (n : ℤ) : Addr := p + size * n

namespace RecordLayout

variable (l : RecordLayout)

/-- The place of a field of a record, from the first record on. -/
def place (r : ℕ) (f : PtrField) : ℤ := r * l.size + l.offset f

/-- No two fields share their place. -/
theorem place_injective {r r' : ℕ} {f f' : PtrField} (h : l.place r f = l.place r' f') :
    r = r' ∧ f = f' := by
  have hf := l.offset_nonneg f
  have hf' := l.offset_nonneg f'
  have hlt := l.offset_lt f
  have hlt' := l.offset_lt f'
  have hr : (r : ℤ) = r' := by
    have hdiv : ∀ (n : ℕ) (g : PtrField), l.place n g / l.size = n := fun n g => by
      have hg := l.offset_nonneg g
      have hg' := l.offset_lt g
      rw [place, add_comm, Int.add_mul_ediv_right _ _ (by omega),
        Int.ediv_eq_zero_of_lt hg (by omega), zero_add]
    rw [← hdiv r f, h, hdiv]
  have hoffset : l.offset f = l.offset f' := by
    have := h
    rw [place, place, hr] at this
    exact add_left_cancel this
  exact ⟨Int.ofNat.inj hr, l.offset_injective hoffset⟩

end RecordLayout

namespace ApdMemory

variable (m : ApdMemory)

/-- The address of a field of a record. -/
def fieldAddr (r : ℕ) (f : PtrField) : Addr := m.records + m.layout.place r f

/-- The pointer in a field of a record. -/
def field (r : ℕ) (f : PtrField) : Addr := m.word (m.fieldAddr r f)

/-- A pointer is stored in a word. -/
def store (a p : Addr) : ApdMemory := { m with word := Function.update m.word a p }

/-- `GetSQLDescDataPtr`. -/
def getSQLDescDataPtr (r : ℕ) : Addr :=
  match m.bindOffset with
  | some d => elementAt 1 (m.field r .dataPtr) d
  | none => m.field r .dataPtr

/-- `SetSQLDescDataPtr`. The offset is added to the address of the field, an `SQLPOINTER *`. -/
def setSQLDescDataPtr (r : ℕ) (p : Addr) : ApdMemory :=
  match m.bindOffset with
  | some d => m.store (elementAt 8 (m.fieldAddr r .dataPtr) d) p
  | none => m.store (m.fieldAddr r .dataPtr) p

/-- `GetSQLDescIndicatorPtr`. -/
def getSQLDescIndicatorPtr (r setIdx : ℕ) : Addr :=
  match m.bindOffset with
  | some d => elementAt 8 (elementAt 8 (m.field r .indicatorPtr) setIdx) d
  | none => elementAt 8 (m.field r .indicatorPtr) setIdx

/-- `SetSQLDescIndicatorPtr` : where the indicator is stored. -/
def setSQLDescIndicatorPtr (r : ℕ) : Addr :=
  match m.bindOffset with
  | some d => elementAt 8 (m.field r .indicatorPtr) d
  | none => m.field r .indicatorPtr

/-- `GetSQLDescOctetLengthPtr`. -/
def getSQLDescOctetLengthPtr (r setIdx : ℕ) : Addr :=
  match m.bindOffset with
  | some d => elementAt 8 (elementAt 8 (m.field r .octetLengthPtr) setIdx) d
  | none => elementAt 8 (m.field r .octetLengthPtr) setIdx

section

variable {m} {a p : Addr} {r r' : ℕ} {f f' : PtrField}

@[simp] theorem bindOffset_store : (m.store a p).bindOffset = m.bindOffset := rfl

/-- No two fields share an address. -/
theorem fieldAddr_injective (h : m.fieldAddr r f = m.fieldAddr r' f') : r = r' ∧ f = f' :=
  m.layout.place_injective (add_left_cancel h)

/-- A store into a field is seen in that field and in no other one. -/
theorem field_store : (m.store (m.fieldAddr r f) p).field r' f' =
    if r' = r ∧ f' = f then p else m.field r' f' := by
  by_cases h : r' = r ∧ f' = f
  · obtain ⟨rfl, rfl⟩ := h
    rw [if_pos ⟨rfl, rfl⟩]
    exact Function.update_self _ _ _
  · rw [if_neg h]
    exact Function.update_of_ne (fun heq => h (m.fieldAddr_injective heq)) _ _

end

/-! ## With an offset -/

/-- The offset is added in bytes : to the data pointer, to the indicators and the lengths of
every parameter set, and a data pointer that is set is the one that is used, with nothing
else changed. -/
structure AppliesOffset (d : ℤ) : Prop where
  data : ∀ r, m.getSQLDescDataPtr r = m.field r .dataPtr + d
  indicator : ∀ r setIdx : ℕ, m.getSQLDescIndicatorPtr r setIdx =
    elementAt 8 (m.field r .indicatorPtr + d) setIdx
  octetLength : ∀ r setIdx : ℕ, m.getSQLDescOctetLengthPtr r setIdx =
    elementAt 8 (m.field r .octetLengthPtr + d) setIdx
  indicator_set : ∀ r, m.setSQLDescIndicatorPtr r = m.field r .indicatorPtr + d
  set_get : ∀ r q, (m.setSQLDescDataPtr r q).getSQLDescDataPtr r = q
  set_frame : ∀ r q a, a ≠ m.fieldAddr r .dataPtr → (m.setSQLDescDataPtr r q).word a = m.word a

variable {m} {d : ℤ}

/-- The data pointer is used with the offset in bytes. -/
theorem getSQLDescDataPtr_of_offset (h : m.bindOffset = some d) (r : ℕ) :
    m.getSQLDescDataPtr r = m.field r .dataPtr + d := by
  rw [getSQLDescDataPtr, h]
  show m.field r .dataPtr + 1 * d = _
  rw [one_mul]

/-- The indicator of a parameter set is as many elements off as the offset has bytes. -/
theorem getSQLDescIndicatorPtr_of_offset (h : m.bindOffset = some d) (r setIdx : ℕ) :
    m.getSQLDescIndicatorPtr r setIdx = m.field r .indicatorPtr + 8 * (setIdx + d) := by
  rw [getSQLDescIndicatorPtr, h]
  dsimp only [elementAt]
  ring

/-- So is the length of a parameter set. -/
theorem getSQLDescOctetLengthPtr_of_offset (h : m.bindOffset = some d) (r setIdx : ℕ) :
    m.getSQLDescOctetLengthPtr r setIdx = m.field r .octetLengthPtr + 8 * (setIdx + d) := by
  rw [getSQLDescOctetLengthPtr, h]
  dsimp only [elementAt]
  ring

/-- The indicator that is stored is as many elements off as well. -/
theorem setSQLDescIndicatorPtr_of_offset (h : m.bindOffset = some d) (r : ℕ) :
    m.setSQLDescIndicatorPtr r = m.field r .indicatorPtr + 8 * d := by
  rw [setSQLDescIndicatorPtr, h]
  rfl

/-- The data pointer that is set lands as many words behind its field as the offset has
bytes. -/
theorem setSQLDescDataPtr_of_offset (h : m.bindOffset = some d) (r : ℕ) (q : Addr) :
    m.setSQLDescDataPtr r q = m.store (m.fieldAddr r .dataPtr + 8 * d) q := by
  rw [setSQLDescDataPtr, h]
  rfl

/-- An offset of zero is applied. -/
theorem appliesOffset_zero (h : m.bindOffset = some 0) : m.AppliesOffset 0 where
  data := getSQLDescDataPtr_of_offset h
  indicator r setIdx := by
    rw [getSQLDescIndicatorPtr_of_offset h, elementAt]
    ring
  octetLength r setIdx := by
    rw [getSQLDescOctetLengthPtr_of_offset h, elementAt]
    ring
  indicator_set := setSQLDescIndicatorPtr_of_offset h
  set_get r q := by
    have hset := setSQLDescDataPtr_of_offset h r q
    rw [mul_zero, add_zero] at hset
    have h' : (m.setSQLDescDataPtr r q).bindOffset = some 0 := by rw [hset, bindOffset_store, h]
    rw [getSQLDescDataPtr_of_offset h', add_zero, hset, field_store, if_pos ⟨rfl, rfl⟩]
  set_frame r q a ha := by
    rw [setSQLDescDataPtr_of_offset h, mul_zero, add_zero]
    exact Function.update_of_ne ha _ _

/-- An offset is applied exactly if it is zero. -/
theorem appliesOffset_iff (m : ApdMemory) (d : ℤ) :
    { m with bindOffset := some d }.AppliesOffset d ↔ d = 0 := by
  constructor
  · intro happlies
    have hind := happlies.indicator 0 0
    rw [getSQLDescIndicatorPtr_of_offset rfl, elementAt, add_assoc] at hind
    have hlin : 8 * (((0 : ℕ) : ℤ) + d) = d + 8 * ((0 : ℕ) : ℤ) := add_left_cancel hind
    omega
  · rintro rfl
    exact appliesOffset_zero rfl

/-- Records of three pointers, all of them null, with an offset of a pointer's size. -/
def offByPointer : ApdMemory where
  layout :=
    { size := 24
      offset := fun f => match f with
        | .dataPtr => 0
        | .indicatorPtr => 8
        | .octetLengthPtr => 16
      offset_nonneg := fun f => by cases f <;> decide
      offset_lt := fun f => by cases f <;> decide
      offset_injective := fun f f' h => by cases f <;> cases f' <;> first | rfl | cases h }
  records := 4096
  word := fun _ => 8192
  bindOffset := some 8

/-- The first indicator is looked for 64 bytes behind the bound pointer, and a data pointer
that is set is not seen. -/
theorem offset_misapplied : ¬offByPointer.AppliesOffset 8 ∧
    offByPointer.getSQLDescIndicatorPtr 0 0 = 8192 + 64 ∧
    (offByPointer.setSQLDescDataPtr 0 5000).getSQLDescDataPtr 0 = 8192 + 8 :=
  ⟨fun h => absurd (h.indicator 0 0) (by decide), by decide, by decide⟩

end ApdMemory

end HaybarnOdbc
