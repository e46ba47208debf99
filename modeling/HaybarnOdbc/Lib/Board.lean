import Mathlib.Data.List.Basic
import Mathlib.Data.Nat.Notation

/-!
# Boards

Entries are posted on boards, and a board can be wiped. `left` is what a board shows after a
list of such events and `posted` is what was posted on it by them. A list of events is tidy for
a board when nothing is posted on it before the last time it is wiped; then what the board shows
is what was posted exactly when it was empty before or is wiped (`left_eq_posted_iff`).
-/

namespace Board

variable {κ ρ : Type*}

/-- An entry is posted on a board, or a board is wiped. -/
inductive Event (κ ρ : Type*)
  | post (k : κ) (r : ρ)
  | clean (k : κ)

variable [DecidableEq κ]

/-- What the event leaves of the entries of the board `k`. -/
def Event.onto (k : κ) (rs : List ρ) : Event κ ρ → List ρ
  | .post j r => if j = k then rs ++ [r] else rs
  | .clean j => if j = k then [] else rs

/-- What the board shows after the events. -/
def left (k : κ) (rs : List ρ) (es : List (Event κ ρ)) : List ρ := es.foldl (Event.onto k) rs

/-- What the events post on the board. -/
def posted (k : κ) : List (Event κ ρ) → List ρ
  | [] => []
  | .post j r :: es => if j = k then r :: posted k es else posted k es
  | .clean _ :: es => posted k es

/-- Nothing is posted on the board before the last time it is wiped. -/
def Tidy (k : κ) (es : List (Event κ ρ)) : Prop :=
  ∀ front back, es = front ++ .clean k :: back → posted k front = []

/-- A board that is not wiped keeps what it showed. -/
theorem left_of_not_wiped {k : κ} {es : List (Event κ ρ)} (h : .clean k ∉ es) (rs : List ρ) :
    left k rs es = rs ++ posted k es := by
  induction es generalizing rs with
  | nil => simp [left, posted]
  | cons e es ih =>
    have hrest : .clean k ∉ es := fun hmem => h (List.mem_cons_of_mem e hmem)
    have hleft : left k rs (e :: es) = left k (e.onto k rs) es := rfl
    rw [hleft, ih hrest]
    cases e with
    | clean j =>
      have hj : j ≠ k := fun hj => h (hj ▸ List.mem_cons_self)
      simp [Event.onto, posted, hj]
    | post j r =>
      by_cases hj : j = k
      · simp [Event.onto, posted, hj]
      · simp [Event.onto, posted, hj]

theorem Tidy.tail {k : κ} {e : Event κ ρ} {es : List (Event κ ρ)} (h : Tidy k (e :: es)) :
    Tidy k es := by
  rintro front back rfl
  have hposted := h (e :: front) back rfl
  cases e with
  | clean j => exact hposted
  | post j r =>
    by_cases hj : j = k
    · simp [posted, hj] at hposted
    · simpa [posted, hj] using hposted

/-- Behind an entry the board is not wiped. -/
theorem Tidy.not_wiped {k : κ} {r : ρ} {es : List (Event κ ρ)} (h : Tidy k (.post k r :: es)) :
    .clean k ∉ es := by
  intro hmem
  obtain ⟨front, back, rfl⟩ := List.append_of_mem hmem
  simpa [posted] using h (.post k r :: front) back rfl

/-- With tidy events the board shows what was posted on it exactly when it was empty or is
wiped. -/
theorem left_eq_posted_iff {k : κ} {es : List (Event κ ρ)} (h : Tidy k es) (rs : List ρ) :
    left k rs es = posted k es ↔ rs = [] ∨ .clean k ∈ es := by
  induction es generalizing rs with
  | nil => simp [left, posted]
  | cons e es ih =>
    have hleft : left k rs (e :: es) = left k (e.onto k rs) es := rfl
    rw [hleft]
    cases e with
    | clean j =>
      by_cases hj : j = k
      · subst hj
        simpa [Event.onto, posted] using (ih h.tail []).2 (.inl rfl)
      · simp [Event.onto, posted, hj, ih h.tail, Ne.symm hj]
    | post j r =>
      by_cases hj : j = k
      · subst hj
        rw [left_of_not_wiped h.not_wiped]
        simp [Event.onto, posted, h.not_wiped]
      · simp [Event.onto, posted, hj, ih h.tail]

/-! ## Tidy lists of events -/

/-- Nothing but entries, on any boards. -/
theorem tidy_of_not_wiped {k : κ} {es : List (Event κ ρ)} (h : .clean k ∉ es) : Tidy k es := by
  rintro front back rfl
  simp at h

/-- The board is wiped before the rest. -/
theorem Tidy.wiped {k : κ} {es : List (Event κ ρ)} (h : Tidy k es) :
    Tidy k (.clean k :: es) := by
  rintro (_ | ⟨e, front⟩) back heq
  · rfl
  · obtain ⟨rfl, rfl⟩ := List.cons.inj heq
    exact h front back rfl

/-- Entries behind tidy events. -/
theorem Tidy.append {k : κ} {es es' : List (Event κ ρ)} (h : Tidy k es) (h' : .clean k ∉ es') :
    Tidy k (es ++ es') := by
  intro front back heq
  rcases List.append_eq_append_iff.1 heq with ⟨mid, rfl, hback⟩ | ⟨mid, rfl, hmid⟩
  · exact absurd (hback ▸ by simp) h'
  · cases mid with
    | nil =>
      rw [List.nil_append] at hmid
      exact absurd (hmid ▸ List.mem_cons_self) h'
    | cons e mid =>
      obtain ⟨rfl, -⟩ := List.cons.inj hmid
      exact h front mid rfl

end Board
