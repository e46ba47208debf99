import Mathlib.Tactic.Common
import Mathlib.Data.Nat.Notation

/-!
# Do/while loops

A `do body while (again r)` loop over a state `σ`, whose body returns a code `r` and a
new state or fails. `run` counts the turns it is allowed, so that every loop is a total
function; a loop ends with a result when some number of turns is enough (`Ends`), and
that result does not depend on the number (`Ends.unique`).

The rules are the ones a loop is verified with : an invariant with a measure that falls on
every further turn gives an end and what holds there (`exists_ends`), an invariant alone
what holds of the result if there is one (`run_invariant`), and a set of states that the
body keeps and never leaves shows that the loop has no end (`not_ends_of_stuck`).
-/

namespace DoWhile

variable {σ ρ ε : Type*} (body : σ → Except ε (ρ × σ)) (again : ρ → Bool)

/-- At most `n` turns of the loop from a state; `none` if it has not stopped by then. -/
def run : ℕ → σ → Option (Except ε (ρ × σ))
  | 0, _ => none
  | n + 1, s =>
    match body s with
    | .error e => some (.error e)
    | .ok (r, s') => if again r then run n s' else some (.ok (r, s'))

/-- The loop stops from `s` with the result `x`. -/
def Ends (s : σ) (x : Except ε (ρ × σ)) : Prop :=
  ∃ n, run body again n s = some x

variable {body again}

/-- More turns do not change a result. -/
theorem run_mono {x : Except ε (ρ × σ)} :
    ∀ {n m : ℕ} {s : σ}, run body again n s = some x → n ≤ m → run body again m s = some x
  | 0, _, _, h, _ => by simp [run] at h
  | n + 1, 0, _, _, hle => by omega
  | n + 1, m + 1, s, h, hle => by
    rw [run] at h ⊢
    cases hb : body s with
    | error e => simpa only [hb] using h
    | ok p =>
      simp only [hb] at h ⊢
      cases hr : again p.1 with
      | true =>
        simp only [hr, if_true] at h ⊢
        exact run_mono h (by omega)
      | false => simpa [hr] using h

theorem Ends.unique {s : σ} {x y : Except ε (ρ × σ)} (hx : Ends body again s x)
    (hy : Ends body again s y) : x = y := by
  obtain ⟨n, hn⟩ := hx
  obtain ⟨m, hm⟩ := hy
  have h := run_mono hn (Nat.le_max_left n m)
  rw [run_mono hm (Nat.le_max_right n m)] at h
  exact (Option.some.inj h).symm

/-- A failing body ends the loop with the failure. -/
theorem ends_of_error {s : σ} {e : ε} (h : body s = .error e) :
    Ends body again s (.error e) :=
  ⟨1, by simp [run, h]⟩

/-- A turn whose code does not ask for another one ends the loop. -/
theorem ends_of_stop {s s' : σ} {r : ρ} (h : body s = .ok (r, s')) (hr : again r = false) :
    Ends body again s (.ok (r, s')) :=
  ⟨1, by simp [run, h, hr]⟩

/-- After a turn whose code asks for another one the loop goes on from the new state. -/
theorem ends_step_iff {s s' : σ} {r : ρ} (h : body s = .ok (r, s')) (hr : again r = true)
    {x : Except ε (ρ × σ)} : Ends body again s x ↔ Ends body again s' x := by
  constructor
  · rintro ⟨n, hn⟩
    cases n with
    | zero => simp [run] at hn
    | succ n => exact ⟨n, by simpa [run, h, hr] using hn⟩
  · rintro ⟨n, hn⟩
    exact ⟨n + 1, by simpa [run, h, hr] using hn⟩

/-- An invariant with a measure that falls on every further turn : the loop ends, with a
result that has the property `Q`. -/
theorem exists_ends (body : σ → Except ε (ρ × σ)) (again : ρ → Bool) (I : σ → Prop) (μ : σ → ℕ)
    (Q : Except ε (ρ × σ) → Prop)
    (herror : ∀ s e, I s → body s = .error e → Q (.error e))
    (hagain : ∀ s r s', I s → body s = .ok (r, s') → again r = true → I s' ∧ μ s' < μ s)
    (hstop : ∀ s r s', I s → body s = .ok (r, s') → again r = false → Q (.ok (r, s'))) :
    ∀ s, I s → ∃ x, Ends body again s x ∧ Q x := by
  suffices h : ∀ n s, I s → μ s < n → ∃ x, Ends body again s x ∧ Q x from
    fun s hs => h (μ s + 1) s hs (Nat.lt_succ_self _)
  intro n
  induction n with
  | zero => intro s _ hn; omega
  | succ n ih =>
    intro s hs hn
    cases hb : body s with
    | error e => exact ⟨_, ends_of_error hb, herror s e hs hb⟩
    | ok p =>
      obtain ⟨r, s'⟩ := p
      cases hr : again r with
      | false => exact ⟨_, ends_of_stop hb hr, hstop s r s' hs hb hr⟩
      | true =>
        obtain ⟨hs', hμ⟩ := hagain s r s' hs hb hr
        obtain ⟨x, hx, hQ⟩ := ih s' hs' (by omega)
        exact ⟨x, (ends_step_iff hb hr).2 hx, hQ⟩

/-- An invariant without a measure : what holds of the result if the loop has one. -/
theorem run_invariant (body : σ → Except ε (ρ × σ)) (again : ρ → Bool) (I : σ → Prop)
    (Q : Except ε (ρ × σ) → Prop)
    (herror : ∀ s e, I s → body s = .error e → Q (.error e))
    (hagain : ∀ s r s', I s → body s = .ok (r, s') → again r = true → I s')
    (hstop : ∀ s r s', I s → body s = .ok (r, s') → again r = false → Q (.ok (r, s'))) :
    ∀ {n : ℕ} {s : σ} {x : Except ε (ρ × σ)}, I s → run body again n s = some x → Q x := by
  intro n
  induction n with
  | zero => intro s x _ h; simp [run] at h
  | succ n ih =>
    intro s x hs h
    cases hb : body s with
    | error e =>
      obtain rfl : Except.error e = x := by simpa [run, hb] using h
      exact herror s e hs hb
    | ok p =>
      obtain ⟨r, s'⟩ := p
      cases hr : again r with
      | true => exact ih (hagain s r s' hs hb hr) (by simpa [run, hb, hr] using h)
      | false =>
        obtain rfl : Except.ok (r, s') = x := by simpa [run, hb, hr] using h
        exact hstop s r s' hs hb hr

/-- A set of states from which the body always asks for another turn and stays in the
set has no state the loop ends from. -/
theorem not_ends_of_stuck (I : σ → Prop)
    (hstep : ∀ s, I s → ∃ r s', body s = .ok (r, s') ∧ again r = true ∧ I s') {s : σ}
    (hs : I s) (x : Except ε (ρ × σ)) : ¬Ends body again s x := by
  rintro ⟨n, hn⟩
  induction n generalizing s with
  | zero => simp [run] at hn
  | succ n ih =>
    obtain ⟨r, s', hb, hr, hs'⟩ := hstep s hs
    exact ih hs' (by simpa [run, hb, hr] using hn)

end DoWhile
