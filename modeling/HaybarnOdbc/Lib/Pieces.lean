import Mathlib.Algebra.Order.Ring.Int
import Mathlib.Tactic.Common
import Mathlib.Data.Nat.Notation

/-!
# Lists read in pieces

A list is read front to back, a piece at a time, each piece as long as the room there is
for it. What the first pieces hold together is a prefix of the list, as long as the room
that was given for them (`flatten_take_pieces`).
-/

namespace Pieces

variable {α : Type*}

/-- The pieces of a list for the rooms. -/
def pieces : List α → List ℕ → List (List α)
  | _, [] => []
  | l, r :: rs => l.take r :: pieces (l.drop r) rs

@[simp] theorem length_pieces (l : List α) (rs : List ℕ) : (pieces l rs).length = rs.length := by
  induction rs generalizing l with
  | nil => rfl
  | cons r rs ih => simp [pieces, ih]

/-- The first `i` pieces are the list up to the room given for them. -/
theorem flatten_take_pieces (l : List α) (rs : List ℕ) (i : ℕ) :
    ((pieces l rs).take i).flatten = l.take (rs.take i).sum := by
  induction rs generalizing l i with
  | nil => simp [pieces]
  | cons r rs ih =>
    cases i with
    | zero => simp
    | succ i =>
      simp only [pieces, List.take_succ_cons, List.flatten_cons, List.sum_cons, ih]
      rw [List.take_add]

theorem getElem?_pieces {l : List α} {rs : List ℕ} {i r : ℕ} (h : rs[i]? = some r) :
    (pieces l rs)[i]? = some ((l.drop (rs.take i).sum).take r) := by
  induction rs generalizing l i with
  | nil => simp at h
  | cons r' rs ih =>
    cases i with
    | zero =>
      obtain rfl : r' = r := by simpa using h
      simp [pieces]
    | succ i =>
      simp only [pieces, List.getElem?_cons_succ, List.take_succ_cons, List.sum_cons]
      rw [ih (by simpa using h), List.drop_drop]

end Pieces
