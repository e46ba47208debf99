import Mathlib.Data.Nat.Notation
import Mathlib.Data.Option.Basic
import Mathlib.Logic.Basic
import Mathlib.Tactic.SplitIfs

/-!
# Hexadecimal escapes

Bytes as text : a regular byte is written as itself, any other one as `\xHH`. What is read back
are such escapes, with digits of either case, and the bytes that may stand for themselves
(`plain`).

What was written is read back (`unescape_escape`). Reading never makes a text longer, and a text
is read as itself just when it is plain and has no backslash (`unescape_eq_self_iff`).
-/

namespace HexEscape

/-- The byte that begins an escape. -/
def backslash : UInt8 := 92

/-- The digit of a number below 16. -/
def hexDigit (n : ℕ) : UInt8 := UInt8.ofNat (if n < 10 then 48 + n else 55 + n)

/-- The number that a digit stands for. -/
def hexValue (c : UInt8) : Option ℕ :=
  if 48 ≤ c.toNat ∧ c.toNat ≤ 57 then some (c.toNat - 48)
  else if 65 ≤ c.toNat ∧ c.toNat ≤ 70 then some (c.toNat - 55)
  else if 97 ≤ c.toNat ∧ c.toNat ≤ 102 then some (c.toNat - 87)
  else none

theorem hexValue_hexDigit : ∀ n < 16, hexValue (hexDigit n) = some n := by decide

section

variable (regular plain : UInt8 → Bool)

/-- A byte as it is written. -/
def escapeByte (c : UInt8) : List UInt8 :=
  if regular c then [c]
  else [backslash, 120, hexDigit (c.toNat / 16), hexDigit (c.toNat % 16)]

/-- Bytes as they are written. -/
def escape (s : List UInt8) : List UInt8 := s.flatMap (escapeByte regular)

/-- The bytes that a text stands for. -/
def unescape : List UInt8 → Option (List UInt8)
  | [] => some []
  | c :: rest =>
    if c = backslash then
      match rest with
      | x :: a :: b :: rest =>
        match hexValue a, hexValue b with
        | some hi, some lo =>
          if x = 120 then (unescape rest).map (UInt8.ofNat (16 * hi + lo) :: ·) else none
        | _, _ => none
      | _ => none
    else if plain c then (unescape rest).map (c :: ·)
    else none

variable {regular plain}

theorem unescape_cons_of_ne {c : UInt8} (hc : c ≠ backslash) (rest : List UInt8) :
    unescape plain (c :: rest)
      = if plain c then (unescape plain rest).map (c :: ·) else none := by
  rw [unescape.eq_def]
  exact if_neg hc

/-- A backslash that is read begins an escape. -/
theorem unescape_backslash {rest r : List UInt8} (h : unescape plain (backslash :: rest) = some r) :
    ∃ a b rest' r' hi lo, rest = 120 :: a :: b :: rest' ∧ hexValue a = some hi ∧
      hexValue b = some lo ∧ unescape plain rest' = some r' ∧
        r = UInt8.ofNat (16 * hi + lo) :: r' := by
  unfold unescape at h
  rw [if_pos rfl] at h
  split at h
  · rename_i x a b rest'
    split at h
    · rename_i hi lo hhi hlo
      split_ifs at h with hx
      obtain ⟨r', hr', hr⟩ := Option.map_eq_some_iff.1 h
      exact ⟨a, b, rest', r', hi, lo, by rw [hx], hhi, hlo, hr', hr.symm⟩
    · cases h
  · cases h

theorem unescape_escapeByte_append
    (h : ∀ c, regular c = true → c ≠ backslash ∧ plain c = true) (c : UInt8) (rest : List UInt8) :
    unescape plain (escapeByte regular c ++ rest) = (unescape plain rest).map (c :: ·) := by
  have hhi : hexValue (hexDigit (c.toNat / 16)) = some (c.toNat / 16) :=
    hexValue_hexDigit _ (by have := c.toNat_lt; omega)
  have hlo : hexValue (hexDigit (c.toNat % 16)) = some (c.toNat % 16) :=
    hexValue_hexDigit _ (by omega)
  have hc : UInt8.ofNat (16 * (c.toNat / 16) + c.toNat % 16) = c := by
    rw [Nat.div_add_mod, UInt8.ofNat_toNat]
  unfold escapeByte
  split_ifs with hr
  · obtain ⟨hne, hplain⟩ := h c hr
    rw [List.singleton_append, unescape_cons_of_ne hne, if_pos hplain]
  · simp [unescape, hhi, hlo, hc]

/-- What was written is read back, if what is written as itself is read as itself. -/
theorem unescape_escape (h : ∀ c, regular c = true → c ≠ backslash ∧ plain c = true)
    (s : List UInt8) : unescape plain (escape regular s) = some s := by
  induction s with
  | nil => rfl
  | cons c s ih =>
    rw [escape, List.flatMap_cons, unescape_escapeByte_append h, ← escape, ih]
    rfl

/-- An escape takes four bytes. -/
theorem length_escape (s : List UInt8) :
    (escape regular s).length = s.length + 3 * s.countP fun c => !regular c := by
  induction s with
  | nil => rfl
  | cons c s ih =>
    rw [escape, List.flatMap_cons, List.length_append, ← escape, ih, List.length_cons,
      List.countP_cons]
    cases hc : regular c <;> simp [escapeByte, hc] <;> omega

/-- A byte that is written, or one of its escape. -/
theorem mem_escape {s : List UInt8} {b : UInt8} (h : b ∈ escape regular s) :
    regular b = true ∨ b = backslash ∨ b = 120 ∨ ∃ n < 16, b = hexDigit n := by
  obtain ⟨c, -, hb⟩ := List.mem_flatMap.1 h
  unfold escapeByte at hb
  split_ifs at hb with hr
  · rw [List.mem_singleton] at hb
    exact .inl (hb ▸ hr)
  · simp only [List.mem_cons, List.not_mem_nil, or_false] at hb
    rcases hb with rfl | rfl | rfl | rfl
    · exact .inr (.inl rfl)
    · exact .inr (.inr (.inl rfl))
    · exact .inr (.inr (.inr ⟨_, by have := c.toNat_lt; omega, rfl⟩))
    · exact .inr (.inr (.inr ⟨_, by omega, rfl⟩))

/-- A text stands for as many bytes as it has, or for fewer if it has a backslash. -/
theorem length_unescape : ∀ {s r : List UInt8}, unescape plain s = some r →
    r.length ≤ s.length ∧ (r.length = s.length → ∀ c ∈ s, c ≠ backslash ∧ plain c = true)
  | [], r, h => by
    cases h
    exact ⟨Nat.le_refl _, by simp⟩
  | c :: rest, r, h => by
    by_cases hc : c = backslash
    · subst hc
      obtain ⟨a, b, rest', r', hi, lo, rfl, -, -, hr', rfl⟩ := unescape_backslash h
      have hle := (length_unescape hr').1
      simp only [List.length_cons]
      exact ⟨by omega, fun heq => by omega⟩
    · rw [unescape_cons_of_ne hc] at h
      split_ifs at h with hplain
      obtain ⟨r', hr', rfl⟩ := Option.map_eq_some_iff.1 h
      obtain ⟨hle, heq⟩ := length_unescape hr'
      refine ⟨Nat.succ_le_succ hle, fun hlen => ?_⟩
      exact List.forall_mem_cons.2 ⟨⟨hc, hplain⟩, heq (Nat.succ.inj hlen)⟩

/-- A text stands for itself just when it is plain and has no backslash. -/
theorem unescape_eq_self_iff {s : List UInt8} :
    unescape plain s = some s ↔ ∀ c ∈ s, c ≠ backslash ∧ plain c = true := by
  constructor
  · exact fun h => (length_unescape h).2 rfl
  · intro h
    induction s with
    | nil => rfl
    | cons c s ih =>
      obtain ⟨⟨hne, hplain⟩, hrest⟩ := List.forall_mem_cons.1 h
      rw [unescape_cons_of_ne hne, if_pos hplain, ih hrest]
      rfl

end

end HexEscape
