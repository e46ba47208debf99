import Mathlib.Tactic.Common
import Mathlib.Data.Nat.Notation

/-!
# The Unicode encoding forms

UTF-8 and UTF-16 of a list of scalar values. Lean's `Char` is a scalar value and
`String.utf8EncodeChar` its UTF-8, so that only UTF-16 is defined here. A unit that is not a
surrogate is a scalar value by itself and a lead surrogate with a trail surrogate after it is
one, which is all that a well-formed sequence is made of (`WellFormed16.induction`).
-/

namespace Unicode

/-- A lead (high) surrogate. -/
def Lead (u : UInt16) : Prop := 0xd800 ≤ u.toNat ∧ u.toNat ≤ 0xdbff

/-- A trail (low) surrogate. -/
def Trail (u : UInt16) : Prop := 0xdc00 ≤ u.toNat ∧ u.toNat ≤ 0xdfff

instance (u : UInt16) : Decidable (Lead u) := inferInstanceAs (Decidable (_ ∧ _))

instance (u : UInt16) : Decidable (Trail u) := inferInstanceAs (Decidable (_ ∧ _))

/-- The UTF-16 units of a scalar value: itself, or a surrogate pair above the basic plane. -/
def utf16EncodeChar (c : Char) : List UInt16 :=
  if c.toNat < 0x10000 then [UInt16.ofNat c.toNat]
  else [UInt16.ofNat (0xd800 + (c.toNat - 0x10000) / 0x400),
    UInt16.ofNat (0xdc00 + (c.toNat - 0x10000) % 0x400)]

/-- The units are the UTF-16 of some text. -/
def WellFormed16 (w : List UInt16) : Prop := ∃ cs : List Char, w = cs.flatMap utf16EncodeChar

/-- The bytes are the UTF-8 of some text. -/
def Valid8 (u : List UInt8) : Prop := ∃ cs : List Char, u = cs.flatMap String.utf8EncodeChar

theorem toNat_char_lt (c : Char) : c.toNat < 0xd800 ∨ 0xdfff < c.toNat ∧ c.toNat < 0x110000 :=
  c.valid

theorem Lead.not_trail {u : UInt16} (h : Lead u) : ¬Trail u := fun ht => by
  unfold Lead Trail at *
  omega

theorem Trail.not_lead {u : UInt16} (h : Trail u) : ¬Lead u := fun hl => hl.not_trail h

/-! ## One scalar value -/

theorem utf16EncodeChar_bmp {c : Char} (h : c.toNat < 0x10000) :
    ∃ u : UInt16, utf16EncodeChar c = [u] ∧ u.toNat = c.toNat ∧ ¬Lead u ∧ ¬Trail u := by
  have hu : (UInt16.ofNat c.toNat).toNat = c.toNat := by simp; omega
  have hc := toNat_char_lt c
  refine ⟨UInt16.ofNat c.toNat, by simp [utf16EncodeChar, h], hu, ?_, ?_⟩
  · unfold Lead
    omega
  · unfold Trail
    omega

theorem utf16EncodeChar_pair {c : Char} (h : ¬c.toNat < 0x10000) :
    ∃ l t : UInt16, utf16EncodeChar c = [l, t] ∧ Lead l ∧ Trail t ∧
      c.toNat = 0x10000 + (l.toNat - 0xd800) * 0x400 + (t.toNat - 0xdc00) := by
  have hc := toNat_char_lt c
  have hl : (UInt16.ofNat (0xd800 + (c.toNat - 0x10000) / 0x400)).toNat
      = 0xd800 + (c.toNat - 0x10000) / 0x400 := by simp; omega
  have ht : (UInt16.ofNat (0xdc00 + (c.toNat - 0x10000) % 0x400)).toNat
      = 0xdc00 + (c.toNat - 0x10000) % 0x400 := by simp; omega
  refine ⟨_, _, if_neg h, ?_, ?_, ?_⟩
  · unfold Lead
    omega
  · unfold Trail
    omega
  · omega

/-- A unit outside the surrogates is a char. -/
theorem exists_char_of_unit {u : UInt16} (hl : ¬Lead u) (ht : ¬Trail u) :
    ∃ c : Char, utf16EncodeChar c = [u] ∧ c.toNat = u.toNat := by
  have hlt := u.toNat_lt
  have hv : u.toNat.isValidChar := by
    unfold Lead at hl
    unfold Trail at ht
    unfold Nat.isValidChar
    omega
  obtain ⟨c, hc⟩ : ∃ c : Char, c.toNat = u.toNat := ⟨Char.ofNatAux u.toNat hv, rfl⟩
  exact ⟨c, by simp [utf16EncodeChar, hc]; omega, hc⟩

/-- A lead and a trail surrogate are a char. -/
theorem exists_char_of_pair {l t : UInt16} (hl : Lead l) (ht : Trail t) :
    ∃ c : Char, utf16EncodeChar c = [l, t] ∧
      c.toNat = 0x10000 + (l.toNat - 0xd800) * 0x400 + (t.toNat - 0xdc00) := by
  unfold Lead at hl
  unfold Trail at ht
  have hv : (0x10000 + (l.toNat - 0xd800) * 0x400 + (t.toNat - 0xdc00)).isValidChar := by
    unfold Nat.isValidChar
    omega
  obtain ⟨c, hc⟩ : ∃ c : Char,
      c.toNat = 0x10000 + (l.toNat - 0xd800) * 0x400 + (t.toNat - 0xdc00) :=
    ⟨Char.ofNatAux _ hv, rfl⟩
  refine ⟨c, ?_, hc⟩
  have hnot : ¬c.toNat < 0x10000 := by omega
  have hlead : 0xd800 + (c.toNat - 0x10000) / 0x400 = l.toNat := by omega
  have htrail : 0xdc00 + (c.toNat - 0x10000) % 0x400 = t.toNat := by omega
  simp only [utf16EncodeChar, if_neg hnot, hlead, htrail, UInt16.ofNat_toNat]

/-! ## The octets of a scalar value -/

theorem utf8EncodeChar_one {c : Char} (h : c.toNat < 0x80) :
    ∃ a : UInt8, String.utf8EncodeChar c = [a] ∧ a.toNat = c.toNat := by
  unfold String.utf8EncodeChar Char.toNat at *
  refine ⟨_, if_pos (by omega), ?_⟩
  rw [UInt8.toNat_ofNat']
  omega

theorem utf8EncodeChar_two {c : Char} (h : 0x80 ≤ c.toNat) (h' : c.toNat < 0x800) :
    ∃ a b : UInt8, String.utf8EncodeChar c = [a, b] ∧ a.toNat = 0xc0 + c.toNat / 64 ∧
      b.toNat = 0x80 + c.toNat % 64 := by
  unfold String.utf8EncodeChar Char.toNat at *
  refine ⟨_, _, (if_neg (by omega)).trans (if_pos (by omega)), ?_, ?_⟩
  all_goals
    rw [UInt8.toNat_ofNat']
    omega

theorem utf8EncodeChar_three {c : Char} (h : 0x800 ≤ c.toNat) (h' : c.toNat < 0x10000) :
    ∃ a b d : UInt8, String.utf8EncodeChar c = [a, b, d] ∧ a.toNat = 0xe0 + c.toNat / 4096 ∧
      b.toNat = 0x80 + c.toNat / 64 % 64 ∧ d.toNat = 0x80 + c.toNat % 64 := by
  unfold String.utf8EncodeChar Char.toNat at *
  refine ⟨_, _, _, (if_neg (by omega)).trans ((if_neg (by omega)).trans (if_pos (by omega))),
    ?_, ?_, ?_⟩
  all_goals
    rw [UInt8.toNat_ofNat']
    omega

theorem utf8EncodeChar_four {c : Char} (h : 0x10000 ≤ c.toNat) :
    ∃ a b d e : UInt8, String.utf8EncodeChar c = [a, b, d, e] ∧
      a.toNat = 0xf0 + c.toNat / 262144 ∧ b.toNat = 0x80 + c.toNat / 4096 % 64 ∧
      d.toNat = 0x80 + c.toNat / 64 % 64 ∧ e.toNat = 0x80 + c.toNat % 64 := by
  have hc := toNat_char_lt c
  unfold String.utf8EncodeChar Char.toNat at *
  refine ⟨_, _, _, _, (if_neg (by omega)).trans ((if_neg (by omega)).trans (if_neg (by omega))),
    ?_, ?_, ?_, ?_⟩
  all_goals
    rw [UInt8.toNat_ofNat']
    omega

/-! ## Well-formed UTF-16 -/

theorem WellFormed16.nil : WellFormed16 [] := ⟨[], rfl⟩

theorem WellFormed16.unit {u : UInt16} {w : List UInt16} (hl : ¬Lead u) (ht : ¬Trail u)
    (h : WellFormed16 w) : WellFormed16 (u :: w) := by
  obtain ⟨cs, rfl⟩ := h
  obtain ⟨c, hc, -⟩ := exists_char_of_unit hl ht
  exact ⟨c :: cs, by simp [hc]⟩

theorem WellFormed16.pair {l t : UInt16} {w : List UInt16} (hl : Lead l) (ht : Trail t)
    (h : WellFormed16 w) : WellFormed16 (l :: t :: w) := by
  obtain ⟨cs, rfl⟩ := h
  obtain ⟨c, hc, -⟩ := exists_char_of_pair hl ht
  exact ⟨c :: cs, by simp [hc]⟩

/-- Induction along the scalar values of a well-formed sequence. -/
theorem WellFormed16.induction {motive : ∀ w, WellFormed16 w → Prop} (nil : motive [] .nil)
    (unit : ∀ u w (hl : ¬Lead u) (ht : ¬Trail u) (hw : WellFormed16 w), motive w hw →
      motive (u :: w) (.unit hl ht hw))
    (pair : ∀ l t w (hl : Lead l) (ht : Trail t) (hw : WellFormed16 w), motive w hw →
      motive (l :: t :: w) (.pair hl ht hw)) :
    ∀ {w : List UInt16} (h : WellFormed16 w), motive w h := by
  rintro _ ⟨cs, rfl⟩
  induction cs with
  | nil => exact nil
  | cons c cs ih =>
    have hcs : WellFormed16 (cs.flatMap utf16EncodeChar) := ⟨cs, rfl⟩
    by_cases hc : c.toNat < 0x10000
    · obtain ⟨u, hu, -, hl, ht⟩ := utf16EncodeChar_bmp hc
      simp only [List.flatMap_cons, hu, List.singleton_append]
      exact unit u _ hl ht hcs ih
    · obtain ⟨l, t, hlt, hl, ht, -⟩ := utf16EncodeChar_pair hc
      simp only [List.flatMap_cons, hlt, List.cons_append, List.nil_append]
      exact pair l t _ hl ht hcs ih

/-- How a well-formed sequence that is not empty starts. -/
theorem WellFormed16.cons_cases {u : UInt16} {w : List UInt16} (h : WellFormed16 (u :: w)) :
    (¬Lead u ∧ ¬Trail u ∧ WellFormed16 w) ∨
      ∃ t w', w = t :: w' ∧ Lead u ∧ Trail t ∧ WellFormed16 w' := by
  suffices hall : ∀ {v}, WellFormed16 v → ∀ u w, v = u :: w →
      (¬Lead u ∧ ¬Trail u ∧ WellFormed16 w) ∨
        ∃ t w', w = t :: w' ∧ Lead u ∧ Trail t ∧ WellFormed16 w' from hall h u w rfl
  intro v hv
  induction hv using WellFormed16.induction with
  | nil => nofun
  | unit u w hl ht hw _ =>
    rintro _ _ ⟨⟩
    exact .inl ⟨hl, ht, hw⟩
  | pair l t w hl ht hw _ =>
    rintro _ _ ⟨⟩
    exact .inr ⟨t, w, rfl, hl, ht, hw⟩

theorem wellFormed16_unit_iff {u : UInt16} {w : List UInt16} (hl : ¬Lead u) (ht : ¬Trail u) :
    WellFormed16 (u :: w) ↔ WellFormed16 w := by
  refine ⟨fun h => ?_, .unit hl ht⟩
  obtain ⟨-, -, hw⟩ | ⟨_, _, -, hl', -⟩ := h.cons_cases
  · exact hw
  · exact absurd hl' hl

theorem wellFormed16_pair_iff {l t : UInt16} {w : List UInt16} (hl : Lead l) (ht : Trail t) :
    WellFormed16 (l :: t :: w) ↔ WellFormed16 w := by
  refine ⟨fun h => ?_, .pair hl ht⟩
  obtain ⟨hl', -⟩ | ⟨_, _, heq, -, -, hw⟩ := h.cons_cases
  · exact absurd hl hl'
  · cases heq
    exact hw

theorem not_wellFormed16_trail {t : UInt16} {w : List UInt16} (ht : Trail t) :
    ¬WellFormed16 (t :: w) := fun h => by
  obtain ⟨-, ht', -⟩ | ⟨_, _, -, hl, -⟩ := h.cons_cases
  · exact ht' ht
  · exact ht.not_lead hl

theorem not_wellFormed16_lead {l : UInt16} {w : List UInt16} (hl : Lead l)
    (hw : ∀ t w', w = t :: w' → ¬Trail t) : ¬WellFormed16 (l :: w) := fun h => by
  obtain ⟨hl', -⟩ | ⟨t, w', heq, -, ht, -⟩ := h.cons_cases
  · exact hl' hl
  · exact hw t w' heq ht

/-- What is behind well-formed units is well-formed by itself. -/
theorem wellFormed16_append_iff {p w : List UInt16} (hp : WellFormed16 p) :
    WellFormed16 (p ++ w) ↔ WellFormed16 w := by
  induction hp using WellFormed16.induction with
  | nil => rfl
  | unit u p hl ht _ ih => rw [List.cons_append, wellFormed16_unit_iff hl ht, ih]
  | pair l t p hl ht _ ih =>
    rw [List.cons_append, List.cons_append, wellFormed16_pair_iff hl ht, ih]

end Unicode
