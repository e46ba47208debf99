import Mathlib.Tactic.Common
import Mathlib.Data.Nat.Notation

/-!
# Replacing every match

A pattern says how long its match at the start of a text is. Every match is replaced, from left
to right, and the search goes on behind it. The parts of a text can be replaced one by one where
no match reaches over their border (`replace_append`), and a text without matches stays as it is
(`replace_of_free`).
-/

namespace Replace

variable {α : Type*}

/-- A pattern, by the matches it finds : none of them is empty or longer than the text. -/
structure Pattern (α : Type*) where
  /-- The length of the match that the text starts with. -/
  matchAt : List α → Option ℕ
  pos : ∀ {text n}, matchAt text = some n → 0 < n
  le_length : ∀ {text n}, matchAt text = some n → n ≤ text.length

namespace Pattern

variable (P : Pattern α) (new : List α)

/-- The first `skip` elements still belong to a match. -/
def replaceFrom : ℕ → List α → List α
  | _, [] => []
  | skip + 1, _ :: text => replaceFrom skip text
  | 0, a :: text =>
    match P.matchAt (a :: text) with
    | some n => new ++ replaceFrom (n - 1) text
    | none => a :: replaceFrom 0 text

/-- Every match is replaced, from left to right. -/
def replace (text : List α) : List α := P.replaceFrom new 0 text

/-- There is no match anywhere in the text. -/
def Free (text : List α) : Prop := ∀ s, s <:+ text → P.matchAt s = none

variable {P new}

/-- What is skipped belongs to the match before it. -/
theorem replaceFrom_eq (skip : ℕ) (text : List α) :
    P.replaceFrom new skip text = P.replace new (text.drop skip) := by
  induction text generalizing skip with
  | nil =>
    rw [List.drop_nil]
    cases skip with
    | zero => rfl
    | succ skip => rfl
  | cons a text ih =>
    cases skip with
    | zero => rfl
    | succ skip => exact ih skip

@[simp]
theorem replace_nil : P.replace new [] = [] := rfl

theorem matchAt_nil : P.matchAt [] = none := by
  cases h : P.matchAt [] with
  | none => rfl
  | some n =>
    have hpos := P.pos h
    have hle := P.le_length h
    rw [List.length_nil] at hle
    omega

/-- An element that starts no match stays. -/
theorem replace_cons {a : α} {text : List α} (h : P.matchAt (a :: text) = none) :
    P.replace new (a :: text) = a :: P.replace new text := by
  rw [replace, replaceFrom, h]
  rfl

/-- A match becomes the new text. -/
theorem replace_match {text : List α} {n : ℕ} (h : P.matchAt text = some n) :
    P.replace new text = new ++ P.replace new (text.drop n) := by
  cases text with
  | nil =>
    rw [matchAt_nil] at h
    cases h
  | cons a text =>
    have hpos := P.pos h
    have hn : n = n - 1 + 1 := by omega
    rw [replace, replaceFrom, h]
    dsimp only
    rw [replaceFrom_eq]
    conv_rhs => rw [hn, List.drop_succ_cons]

/-- A text is empty, starts with an element of no match, or starts with a match. -/
theorem induction {motive : List α → Prop} (nil : motive [])
    (step : ∀ a text, P.matchAt (a :: text) = none → motive text → motive (a :: text))
    (found : ∀ text n, P.matchAt text = some n → motive (text.drop n) → motive text)
    (text : List α) : motive text := by
  induction hlength : text.length using Nat.strongRecOn generalizing text with
  | ind k ih =>
    cases text with
    | nil => exact nil
    | cons a text =>
      cases h : P.matchAt (a :: text) with
      | none => exact step a text h (ih text.length (by simp [← hlength]) text rfl)
      | some n =>
        have hpos := P.pos h
        refine found _ n h (ih _ ?_ _ rfl)
        rw [List.length_drop, ← hlength, List.length_cons]
        omega

/-! ## Texts without matches -/

theorem Free.nil : P.Free [] := fun s hs => by
  rw [List.suffix_nil.1 hs]
  exact matchAt_nil

/-- A text is free of matches if none starts at its head or behind it. -/
theorem free_cons {a : α} {text : List α} :
    P.Free (a :: text) ↔ P.matchAt (a :: text) = none ∧ P.Free text := by
  refine ⟨fun h => ⟨h _ List.suffix_rfl, fun s hs => h s (hs.trans (List.suffix_cons a text))⟩,
    fun h s hs => ?_⟩
  rcases List.suffix_cons_iff.1 hs with rfl | hs
  · exact h.1
  · exact h.2 s hs

/-- A text that is free of matches stays as it is. -/
theorem replace_of_free {text : List α} (h : P.Free text) : P.replace new text = text := by
  induction text with
  | nil => rfl
  | cons a text ih =>
    obtain ⟨hnone, hfree⟩ := free_cons.1 h
    rw [replace_cons hnone, ih hfree]

/-- What is before the first match stays. -/
theorem exists_first {text : List α} (h : ¬P.Free text) : ∃ a b n, text = a ++ b ∧
    P.matchAt b = some n ∧ P.replace new text = a ++ (new ++ P.replace new (b.drop n)) := by
  induction text with
  | nil => exact absurd Free.nil h
  | cons c text ih =>
    cases hmatch : P.matchAt (c :: text) with
    | some n => exact ⟨[], c :: text, n, rfl, hmatch, replace_match hmatch⟩
    | none =>
      have hrest : ¬P.Free text := fun hfree => h (free_cons.2 ⟨hmatch, hfree⟩)
      obtain ⟨a, b, n, htext, hb, hreplace⟩ := ih hrest
      refine ⟨c :: a, b, n, ?_, hb, ?_⟩
      · rw [htext, List.cons_append]
      · rw [replace_cons hmatch, hreplace, List.cons_append]

/-! ## What can be in the result -/

/-- What is in the result was in the new text or in the old one. -/
theorem mem_replace {text : List α} {x : α} (h : x ∈ P.replace new text) : x ∈ new ∨ x ∈ text := by
  induction text using P.induction with
  | nil => cases h
  | step a text hnone ih =>
    rw [replace_cons hnone] at h
    rcases List.mem_cons.1 h with rfl | h
    · exact .inr List.mem_cons_self
    · exact (ih h).imp_right (List.mem_cons_of_mem a)
  | found text n hmatch ih =>
    rw [replace_match hmatch] at h
    rcases List.mem_append.1 h with h | h
    · exact .inl h
    · exact (ih h).imp_right List.mem_of_mem_drop

/-- Replacing by something that is shorter by `gap`. -/
theorem length_replace_le {gap : ℕ}
    (hgap : ∀ {text n}, P.matchAt text = some n → new.length + gap ≤ n) (text : List α) :
    (P.replace new text).length ≤ text.length := by
  induction text using P.induction with
  | nil => exact Nat.le_refl _
  | step a text hnone ih =>
    rw [replace_cons hnone]
    exact Nat.succ_le_succ ih
  | found text n hmatch ih =>
    have hle := P.le_length hmatch
    have hnew := hgap hmatch
    rw [List.length_drop] at ih
    rw [replace_match hmatch, List.length_append]
    omega

/-- A text with a match gets shorter by the gap. -/
theorem length_replace_of_not_free {gap : ℕ}
    (hgap : ∀ {text n}, P.matchAt text = some n → new.length + gap ≤ n) {text : List α}
    (h : ¬P.Free text) : (P.replace new text).length + gap ≤ text.length := by
  obtain ⟨a, b, n, rfl, hb, hreplace⟩ := @exists_first _ P new _ h
  have hrest := @length_replace_le _ P new gap hgap (b.drop n)
  have hle := P.le_length hb
  have hnew := hgap hb
  rw [List.length_drop] at hrest
  rw [hreplace]
  simp only [List.length_append]
  omega

/-! ## Borders -/

/-- No match that starts in the one text reaches into the other. -/
theorem replace_append {a b : List α}
    (h : ∀ s, s <:+ a → s ≠ [] → P.matchAt (s ++ b) = P.matchAt s) :
    P.replace new (a ++ b) = P.replace new a ++ P.replace new b := by
  induction a using P.induction with
  | nil => rfl
  | step c a hnone ih =>
    have hhead : P.matchAt (c :: (a ++ b)) = P.matchAt (c :: a) :=
      h (c :: a) List.suffix_rfl (List.cons_ne_nil c a)
    rw [List.cons_append, replace_cons (hhead.trans hnone), replace_cons hnone,
      ih fun s hs => h s (hs.trans (List.suffix_cons c a)), List.cons_append]
  | found a n hmatch ih =>
    have hne : a ≠ [] := by
      rintro rfl
      rw [matchAt_nil] at hmatch
      cases hmatch
    have hhead := h a List.suffix_rfl hne
    rw [replace_match (hhead.trans hmatch), replace_match hmatch,
      List.drop_append_of_le_length (P.le_length hmatch),
      ih fun s hs => h s (hs.trans (List.drop_suffix n a)), List.append_assoc]

end Pattern

end Replace
