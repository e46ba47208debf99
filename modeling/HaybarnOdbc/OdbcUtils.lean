import Mathlib.Data.List.DropRight
import Mathlib.Data.Nat.Notation
import Mathlib.Tactic.Common

/-!
# Text

The text functions of `OdbcUtils` that the connection uses : `TrimString`, the lower case of
`StringUtil::Lower`, and `ConvertSQLCHARToString`. A `std::string` is the list of its chars
while it is scanned and a `String` once it is a key or a value.
-/

namespace HaybarnOdbc

/-- `IsSpace` of `OdbcUtils`, and `isspace` in the C locale. -/
def isSpace (c : Char) : Bool :=
  c == ' ' || c == '\t' || c == '\n' || c == '\r' || c == '\x0c' || c == '\x0b'

/-- `OdbcUtils::TrimString`. -/
def trimString (str : List Char) : List Char := (str.dropWhile isSpace).rdropWhile isSpace

/-- `StringUtil::Lower`. -/
def lower (str : List Char) : List Char := str.map Char.toLower

/-- `Char.toLower` moves the capital letters of ASCII only. -/
theorem toNat_toLower (c : Char) :
    c.toLower.toNat = if 65 ≤ c.toNat ∧ c.toNat ≤ 90 then c.toNat + 32 else c.toNat := by
  have hlow : 'A'.val ≤ c.val ↔ 65 ≤ c.toNat := by rw [UInt32.le_iff_toNat_le]; rfl
  have hhigh : c.val ≤ 'Z'.val ↔ c.toNat ≤ 90 := by rw [UInt32.le_iff_toNat_le]; rfl
  unfold Char.toLower
  split_ifs with h h' h'
  · rw [← Char.toNat_val]
    have hle : c.toNat ≤ 90 := h'.2
    simp only [UInt32.toNat_add]
    change (c.toNat + 32) % _ = _
    omega
  · exact absurd ⟨hlow.1 h.1, hhigh.1 h.2⟩ h'
  · exact absurd ⟨hlow.2 h'.1, hhigh.2 h'.2⟩ h
  · rfl

/-- A char below the letters comes from itself only. -/
theorem toLower_eq_iff {c d : Char} (hd : d.toNat < 65) : c.toLower = d ↔ c = d := by
  rw [← Char.toNat_inj, ← Char.toNat_inj, toNat_toLower]
  split_ifs <;> omega

theorem isSpace_toLower (c : Char) : isSpace c.toLower = isSpace c := by
  have h : ∀ d : Char, d.toNat < 65 → (c.toLower == d) = (c == d) := by
    intro d hd
    rw [Bool.eq_iff_iff, beq_iff_eq, beq_iff_eq, toLower_eq_iff hd]
  simp only [isSpace]
  rw [h ' ' (by decide), h '\t' (by decide), h '\n' (by decide), h '\r' (by decide),
    h '\x0c' (by decide), h '\x0b' (by decide)]

theorem lower_lower (str : List Char) : lower (lower str) = lower str := by
  have htwice : ∀ c : Char, c.toLower.toLower = c.toLower := by
    intro c
    have h := toNat_toLower c
    apply Char.toNat_inj.1
    rw [toNat_toLower c.toLower]
    split_ifs at * <;> omega
  simp [lower, htwice]

theorem mem_lower_iff {c : Char} (hc : c.toNat < 65) {str : List Char} :
    c ∈ lower str ↔ c ∈ str := by
  simp [lower, toLower_eq_iff hc]

/-- The two passes over a key can be swapped. -/
theorem trimString_lower (str : List Char) : trimString (lower str) = lower (trimString str) := by
  have hdrop : ∀ s, (lower s).dropWhile isSpace = lower (s.dropWhile isSpace) := by
    intro s
    have hp : isSpace ∘ Char.toLower = isSpace := funext isSpace_toLower
    simp only [lower, List.dropWhile_map, hp]
  have hreverse : ∀ s, (lower s).reverse = lower s.reverse := fun s => by simp [lower]
  rw [trimString, trimString, List.rdropWhile, List.rdropWhile, hdrop, hreverse, hdrop, hreverse]

theorem mem_of_mem_trimString {c : Char} {str : List Char} (h : c ∈ trimString str) : c ∈ str :=
  (List.dropWhile_sublist _).subset ((List.rdropWhile_prefix _ _).subset h)

theorem trimString_trimString (str : List Char) : trimString (trimString str) = trimString str := by
  -- what the second pass would drop at the front is the first char of the first pass
  have hfront : (trimString str).dropWhile isSpace = trimString str := by
    rw [List.dropWhile_eq_self_iff]
    intro hl
    obtain ⟨t, ht⟩ := List.rdropWhile_prefix isSpace (str.dropWhile isSpace)
    have hlen : 0 < (str.dropWhile isSpace).length := by
      rw [← ht, List.length_append]
      exact Nat.lt_add_right _ hl
    have hself := List.dropWhile_eq_self_iff.1 (List.dropWhile_idempotent isSpace str) hlen
    have hhead : (str.dropWhile isSpace)[0] = (trimString str)[0] := by
      rw [List.getElem_of_eq ht.symm hlen, List.getElem_append_left]
      rfl
    rwa [← hhead]
  rw [trimString, hfront]
  exact List.rdropWhile_idempotent _ _

/-- `SQL_NTS`. -/
def sqlNts : ℤ := -3

/-- `OdbcUtils::ConvertSQLCHARToString` of a text that is not null and has a NUL after its
last char : a length that is not positive means no text at all, but for `SQL_NTS`. -/
def convertSQLCHARToString (str : List Char) (strLen : ℤ) : List Char :=
  if strLen = sqlNts then str.takeWhile (· != '\x00')
  else
    let len := if strLen > 0 then strLen.toNat else 0
    str.take len

end HaybarnOdbc
