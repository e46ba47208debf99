import Mathlib.Data.List.Infix
import Mathlib.Data.List.TakeWhile
import Mathlib.Tactic.TypeStar

/-!
# Patterns with wildcards

A pattern is a list of letters, some of which stand for something else : `any` for every text,
`one` for every letter, and `escape` for nothing, it makes the next letter stand for itself.
`pieces` reads a pattern and `Matches` says what it matches.

The letters of a text are often encoded with units of their own. In a `Code` no word begins
another one and every word begins with a unit that stands nowhere else in a word, so that a text
of words can be entered anywhere : what is left of a word that was entered is passed over
(`dropWhile_text`).
-/

namespace Wildcard

variable {α β : Type*}

/-! ## Patterns -/

/-- What a letter of a pattern stands for. -/
inductive Piece (α : Type*)
  | any
  | one
  | lit (a : α)
  deriving DecidableEq

/-- The letters of a pattern that do not stand for themselves. -/
structure Syntax (α : Type*) where
  any : α
  one : α
  escape : Option α

/-- A pattern matches a text. -/
def Matches : List (Piece α) → List α → Prop
  | [], s => s = []
  | .any :: p, s => ∃ t, t <:+ s ∧ Matches p t
  | .one :: p, s => s ≠ [] ∧ Matches p s.tail
  | .lit a :: p, s => s.head? = some a ∧ Matches p s.tail

instance Matches.decidable [DecidableEq α] :
    (p : List (Piece α)) → (s : List α) → Decidable (Matches p s)
  | [], s => inferInstanceAs (Decidable (s = []))
  | .any :: p, s =>
    have := Matches.decidable p
    decidable_of_iff (∃ t ∈ s.tails, Matches p t) (by simp [Matches])
  | .one :: p, s =>
    have := Matches.decidable p s.tail
    inferInstanceAs (Decidable (s ≠ [] ∧ Matches p s.tail))
  | .lit a :: p, s =>
    have := Matches.decidable p s.tail
    inferInstanceAs (Decidable (s.head? = some a ∧ Matches p s.tail))

/-- A text of letters that stand for themselves matches itself only. -/
theorem matches_lit_iff {a s : List α} : Matches (a.map .lit) s ↔ s = a := by
  induction a generalizing s with
  | nil => exact Iff.rfl
  | cons c a ih =>
    cases s with
    | nil => simp [Matches]
    | cons d s => simp [Matches, ih]

/-- A wildcard takes any prefix. -/
theorem matches_any_iff {p : List (Piece α)} {s : List α} :
    Matches (.any :: p) s ↔ ∃ t, t <:+ s ∧ Matches p t := Iff.rfl

/-- It takes nothing, or one more element. -/
theorem matches_any_cons {p : List (Piece α)} {a : α} {s : List α} :
    Matches (.any :: p) (a :: s) ↔ Matches p (a :: s) ∨ Matches (.any :: p) s := by
  simp only [matches_any_iff, List.suffix_cons_iff]
  constructor
  · rintro ⟨t, rfl | ht, hm⟩
    · exact .inl hm
    · exact .inr ⟨t, ht, hm⟩
  · rintro (hm | ⟨t, ht, hm⟩)
    · exact ⟨a :: s, .inl rfl, hm⟩
    · exact ⟨t, .inr ht, hm⟩

theorem matches_any_nil {p : List (Piece α)} : Matches (.any :: p) [] ↔ Matches p [] := by
  simp [matches_any_iff]

/-- A second one of it adds nothing. -/
theorem matches_any_any {p : List (Piece α)} {s : List α} :
    Matches (.any :: .any :: p) s ↔ Matches (.any :: p) s := by
  simp only [matches_any_iff]
  constructor
  · rintro ⟨t, ht, u, hu, hm⟩
    exact ⟨u, hu.trans ht, hm⟩
  · rintro ⟨t, ht, hm⟩
    exact ⟨t, ht, t, List.suffix_refl t, hm⟩

/-- A pattern that ends in it goes on to the end. -/
theorem matches_any_last {s : List α} : Matches [.any] s :=
  ⟨[], List.nil_suffix, rfl⟩

section Syntax

variable [DecidableEq α] (y : Syntax α)

/-- What a letter that is not escaped stands for. -/
def Syntax.piece (c : α) : Piece α :=
  if c = y.one then .one else if c = y.any then .any else .lit c

/-- A piece in front of the others. -/
def before (x : Piece α) : List (Piece α) × Bool → List (Piece α) × Bool
  | (p, dangling) => (x :: p, dangling)

/-- The pieces of a pattern, behind an escape or not, and whether it ends in one with nothing
behind it. Such a pattern has to be followed by a letter and whatever comes. -/
def piecesFrom : Bool → List α → List (Piece α) × Bool
  | true, [] => ([.one, .any], true)
  | true, c :: p => before (.lit c) (piecesFrom false p)
  | false, [] => ([], false)
  | false, c :: p =>
    if some c = y.escape then piecesFrom true p else before (y.piece c) (piecesFrom false p)

/-- The pieces of a pattern, and whether it ends in an escape with nothing behind it. -/
def pieces : List α → List (Piece α) × Bool := piecesFrom y false

/-- The pattern of a text : its special letters are escaped. -/
def escaped (e : α) (name : List α) : List α :=
  name.flatMap fun c => if c = e ∨ c = y.one ∨ c = y.any then [e, c] else [c]

variable {y}

theorem pieces_nil : pieces y [] = ([], false) := rfl

theorem pieces_cons {c : α} (hc : ¬some c = y.escape) (p : List α) :
    pieces y (c :: p) = (y.piece c :: (pieces y p).1, (pieces y p).2) := by
  rw [pieces, piecesFrom, if_neg hc]
  rfl

theorem pieces_escape_cons {e : α} (he : y.escape = some e) (a : α) (p : List α) :
    pieces y (e :: a :: p) = (.lit a :: (pieces y p).1, (pieces y p).2) := by
  rw [pieces, piecesFrom, if_pos he.symm]
  rfl

theorem pieces_escape_nil {e : α} (he : y.escape = some e) :
    pieces y [e] = ([.one, .any], true) := by
  rw [pieces, piecesFrom, if_pos he.symm]
  rfl

/-- An escaped text stands for itself. -/
theorem pieces_escaped {e : α} (he : y.escape = some e) (name : List α) :
    pieces y (escaped y e name) = (name.map .lit, false) := by
  induction name with
  | nil => rfl
  | cons c name ih =>
    have hcons : escaped y e (c :: name) =
        (if c = e ∨ c = y.one ∨ c = y.any then [e, c] else [c]) ++ escaped y e name := rfl
    rw [hcons]
    by_cases hc : c = e ∨ c = y.one ∨ c = y.any
    · rw [if_pos hc, List.cons_append, List.singleton_append, pieces_escape_cons he, ih]
      rfl
    · rw [if_neg hc, List.singleton_append]
      simp only [not_or] at hc
      rw [pieces_cons (by simp [he, hc.1]), ih, Syntax.piece, if_neg hc.2.1, if_neg hc.2.2]
      rfl

/-- A syntax whose special letters are different. -/
structure Syntax.Distinct (y : Syntax α) : Prop where
  one : y.one ≠ y.any
  escape : y.escape ≠ some y.any

/-- A piece for any other letter matches a letter. -/
theorem Syntax.not_matches_piece_nil (y : Syntax α) {c : α} (hc : c ≠ y.any) (p : List (Piece α)) :
    ¬Matches (y.piece c :: p) [] := by
  unfold Syntax.piece
  rw [if_neg hc]
  split <;> simp [Matches]

/-- A pattern that does not begin with the letter for `any` matches something. -/
theorem not_matches_pieces_nil {c : α} (hc : c ≠ y.any) (p : List α) :
    ¬Matches (pieces y (c :: p)).1 [] := by
  by_cases hce : some c = y.escape
  · cases p with
    | nil => simp [pieces_escape_nil hce.symm, Matches]
    | cons a p => simp [pieces_escape_cons hce.symm, Matches]
  · rw [pieces_cons hce]
    exact y.not_matches_piece_nil hc _

variable (hy : y.Distinct)

include hy

theorem Syntax.Distinct.piece_any : y.piece y.any = .any := by
  rw [Syntax.piece, if_neg hy.one.symm, if_pos rfl]

theorem Syntax.Distinct.pieces_any (p : List α) :
    pieces y (y.any :: p) = (.any :: (pieces y p).1, (pieces y p).2) := by
  rw [pieces_cons (fun h => hy.escape h.symm), hy.piece_any]

/-- Where no letter is left, every letter of the pattern is the one for `any`. -/
theorem Syntax.Distinct.matches_nil_iff (p : List α) :
    Matches (pieces y p).1 [] ↔ p.all (· = y.any) = true := by
  induction p with
  | nil => simp [pieces_nil, Matches]
  | cons c p ih =>
    by_cases hc : c = y.any
    · rw [hc, hy.pieces_any, matches_any_nil, ih]
      simp
    · simp [not_matches_pieces_nil hc p, hc]

/-- The letters for `any` at the front of a pattern are one. -/
theorem Syntax.Distinct.matches_dropWhile (p : List α) {s : List α} :
    Matches (.any :: (pieces y p).1) s ↔
      Matches (.any :: (pieces y (p.dropWhile (· = y.any))).1) s := by
  induction p with
  | nil => exact Iff.rfl
  | cons c p ih =>
    by_cases hc : c = y.any
    · rw [List.dropWhile_cons_of_pos (by simpa using hc), ← ih, hc, hy.pieces_any]
      exact matches_any_any
    · rw [List.dropWhile_cons_of_neg (by simpa using hc)]

theorem Syntax.Distinct.pieces_dropWhile (p : List α) :
    (pieces y (p.dropWhile (· = y.any))).2 = (pieces y p).2 := by
  induction p with
  | nil => rfl
  | cons c p ih =>
    by_cases hc : c = y.any
    · rw [List.dropWhile_cons_of_pos (by simpa using hc), ih, hc, hy.pieces_any]
    · rw [List.dropWhile_cons_of_neg (by simpa using hc)]

theorem Syntax.Distinct.pieces_of_all {p : List α} (hp : p.all (· = y.any) = true) :
    (pieces y p).2 = false := by
  rw [← hy.pieces_dropWhile p, List.dropWhile_eq_nil_iff.2 (List.all_eq_true.1 hp)]
  rfl

end Syntax

/-! ## Codes -/

/-- A code none of whose words begins another one, and whose words begin with a unit that stands
nowhere else. -/
structure Code (α β : Type*) where
  encode : α → List β
  starts : β → Bool
  word : ∀ a, ∃ b bs, encode a = b :: bs ∧ starts b = true ∧ ∀ x ∈ bs, starts x = false
  free : ∀ a a', encode a <+: encode a' → a = a'

namespace Code

variable (C : Code α β)

/-- The units of a text. -/
def text (s : List α) : List β := s.flatMap C.encode

@[simp] theorem text_nil : C.text [] = [] := rfl

@[simp] theorem text_cons (a : α) (s : List α) : C.text (a :: s) = C.encode a ++ C.text s := rfl

theorem text_eq_nil_iff {s : List α} : C.text s = [] ↔ s = [] := by
  cases s with
  | nil => simp
  | cons a s =>
    obtain ⟨b, bs, henc, -⟩ := C.word a
    simp [henc]

/-- The text behind the units of a word that was entered. -/
theorem dropWhile_text (bs : List β) (hbs : ∀ x ∈ bs, C.starts x = false) (s : List α) :
    (bs ++ C.text s).dropWhile (fun b => !C.starts b) = C.text s := by
  rw [List.dropWhile_append_of_pos (by simpa using hbs)]
  cases s with
  | nil => rfl
  | cons a s =>
    obtain ⟨b, cs, henc, hb, -⟩ := C.word a
    rw [text_cons, henc, List.cons_append, List.dropWhile_cons_of_neg (by simp [hb])]

/-- A letter whose word is one unit is the only one whose word begins with it. -/
theorem head_eq_iff {a : α} {u : β} (ha : C.encode a = [u]) {c : α} {b : β} {bs : List β}
    (hc : C.encode c = b :: bs) : b = u ↔ c = a := by
  constructor
  · rintro rfl
    exact (C.free a c (by simp [ha, hc])).symm
  · rintro rfl
    exact (List.cons.inj (hc.symm.trans ha)).1

theorem tail_eq_nil {a : α} {u : β} (ha : C.encode a = [u]) {c : α} {us : List β}
    (hc : C.encode c = u :: us) : us = [] := by
  obtain rfl := (C.head_eq_iff ha hc).1 rfl
  exact (List.cons.inj (hc.symm.trans ha)).2

/-- The special letters are words of one unit. -/
structure Encodes (y : Syntax α) (z : Syntax β) : Prop where
  any : C.encode y.any = [z.any]
  one : C.encode y.one = [z.one]
  escape : y.escape.map C.encode = z.escape.map fun u => [u]

variable {C} {y : Syntax α} {z : Syntax β}

theorem Encodes.encode_escape (h : C.Encodes y z) {u : β} (hu : z.escape = some u) :
    ∃ e, y.escape = some e ∧ C.encode e = [u] := by
  have hmap := h.escape
  rw [hu, Option.map_some, Option.map_eq_some_iff] at hmap
  exact hmap

theorem Encodes.escape_iff (h : C.Encodes y z) {c : α} {b : β} {bs : List β}
    (hc : C.encode c = b :: bs) : some b = z.escape ↔ some c = y.escape := by
  have hmap := h.escape
  cases hz : z.escape with
  | none =>
    rw [hz, Option.map_none, Option.map_eq_none_iff] at hmap
    simp [hmap]
  | some u =>
    obtain ⟨e, he, henc⟩ := h.encode_escape hz
    rw [he, Option.some.injEq, Option.some.injEq]
    exact C.head_eq_iff henc hc

/-- The first unit of a word is special just when the letter is. -/
theorem Encodes.head_iff (h : C.Encodes y z) {c : α} {b : β} {bs : List β}
    (hc : C.encode c = b :: bs) : (b = z.one ↔ c = y.one) ∧ (b = z.any ↔ c = y.any) :=
  ⟨C.head_eq_iff h.one hc, C.head_eq_iff h.any hc⟩

theorem starts_of_encode {a : α} {u : β} (ha : C.encode a = [u]) : C.starts u = true := by
  obtain ⟨b, bs, henc, hb, -⟩ := C.word a
  obtain ⟨rfl, -⟩ := List.cons.inj (henc.symm.trans ha)
  exact hb

/-- No other unit of a word is special. -/
theorem Encodes.not_special (h : C.Encodes y z) {b : β} (hb : C.starts b = false) :
    ¬some b = z.escape ∧ b ≠ z.one ∧ b ≠ z.any := by
  refine ⟨fun he => ?_, fun ho => ?_, fun ha => ?_⟩
  · obtain ⟨e, -, henc⟩ := h.encode_escape he.symm
    simp [starts_of_encode henc] at hb
  · simp [ho, starts_of_encode h.one] at hb
  · simp [ha, starts_of_encode h.any] at hb

/-- The letters for `any` at the front of a text. -/
theorem Encodes.dropWhile_any [DecidableEq α] [DecidableEq β] (h : C.Encodes y z) (p : List α) :
    (C.text p).dropWhile (· = z.any) = C.text (p.dropWhile (· = y.any)) := by
  induction p with
  | nil => rfl
  | cons c p ih =>
    by_cases hc : c = y.any
    · rw [List.dropWhile_cons_of_pos (by simpa using hc), ← ih, hc, text_cons, h.any,
        List.singleton_append, List.dropWhile_cons_of_pos (by simp)]
    · obtain ⟨b, bs, henc, -⟩ := C.word c
      have hb : b ≠ z.any := fun hb => hc ((h.head_iff henc).2.1 hb)
      rw [List.dropWhile_cons_of_neg (by simpa using hc), text_cons, henc, List.cons_append,
        List.dropWhile_cons_of_neg (by simpa using hb)]

theorem Encodes.all_any [DecidableEq α] [DecidableEq β] (h : C.Encodes y z) (p : List α) :
    (C.text p).all (· = z.any) = p.all (· = y.any) := by
  induction p with
  | nil => rfl
  | cons c p ih =>
    by_cases hc : c = y.any
    · simp [hc, h.any, ← ih]
    · obtain ⟨b, bs, henc, -⟩ := C.word c
      have hb : b ≠ z.any := fun hb => hc ((h.head_iff henc).2.1 hb)
      simp [henc, hb, hc]

end Code

end Wildcard
