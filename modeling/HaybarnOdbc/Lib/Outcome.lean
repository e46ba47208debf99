import Mathlib.Tactic.Common
import Mathlib.Data.Nat.Notation

/-!
# Computations that can fail

Inversion of the binds of `Except`, the judgement that a computation does not fail in a
bad way (`Safe`) with its rules, the judgement that two computations fail alike or have
related results (`Agree`), and the invariant rules of a loop over a list whose body can
fail.
-/

namespace Outcome

universe u

variable {ε : Type*} {α β σ : Type u}

/-- A composed computation succeeds if both of its parts do. -/
theorem bind_eq_ok {x : Except ε α} {f : α → Except ε β} {b : β} :
    x >>= f = .ok b ↔ ∃ a, x = .ok a ∧ f a = .ok b := by
  cases x with
  | error e => simp [bind, Except.bind]
  | ok a => simp [bind, Except.bind]

/-- It fails in its first part, or in its second after the first. -/
theorem bind_eq_error {x : Except ε α} {f : α → Except ε β} {e : ε} :
    x >>= f = .error e ↔ x = .error e ∨ ∃ a, x = .ok a ∧ f a = .error e := by
  cases x with
  | error e' => simp [bind, Except.bind]
  | ok a => simp [bind, Except.bind]

/-- A result that is mapped comes from a result. -/
theorem map_eq_ok {x : Except ε α} {f : α → β} {b : β} :
    x.map f = .ok b ↔ ∃ a, x = .ok a ∧ f a = b := by
  cases x with
  | error e => simp [Except.map]
  | ok a => simp [Except.map]

/-- The computation does not fail with a bad error, and its result has the property `Q`. -/
def Safe (bad : ε → Prop) (Q : α → Prop) : Except ε α → Prop
  | .error e => ¬bad e
  | .ok a => Q a

namespace Safe

variable {bad : ε → Prop} {P : α → Prop} {Q : β → Prop} {x : Except ε α}

theorem bind {f : α → Except ε β} (hx : Safe bad P x) (hf : ∀ a, P a → Safe bad Q (f a)) :
    Safe bad Q (x >>= f) := by
  cases x with
  | error e => exact hx
  | ok a => exact hf a hx

theorem map {f : α → β} (hx : Safe bad P x) (hf : ∀ a, P a → Q (f a)) : Safe bad Q (x.map f) := by
  cases x with
  | error e => exact hx
  | ok a => exact hf a hx

/-- A safe computation ends with no bad error. -/
theorem ne_error (hx : Safe bad P x) {e : ε} (he : bad e) : x ≠ .error e := by
  rintro rfl
  exact hx he

/-- A postcondition can be strengthened by what is known of every result. -/
theorem imp {P' : α → Prop} (hx : Safe bad P x) (h : ∀ a, x = .ok a → P a → P' a) :
    Safe bad P' x := by
  cases x with
  | error e => exact hx
  | ok a => exact h a rfl hx

/-- A loop whose turns keep the invariant keeps it. -/
theorem foldlM {f : σ → α → Except ε σ} {I : σ → Prop} {l : List α}
    (hf : ∀ s a, I s → Safe bad I (f s a)) {s : σ} (hs : I s) : Safe bad I (l.foldlM f s) := by
  induction l generalizing s with
  | nil => exact hs
  | cons a l ih =>
    rw [List.foldlM_cons]
    exact (hf s a hs).bind fun s' hs' => ih hs'

end Safe

/-- Two computations fail with the same error, or their results are related. -/
inductive Agree {α' : Type*} (R : α → α' → Prop) : Except ε α → Except ε α' → Prop
  | error (e : ε) : Agree R (.error e) (.error e)
  | ok {a : α} {a' : α'} (h : R a a') : Agree R (.ok a) (.ok a')

namespace Agree

variable {α' β' σ' : Type u} {R : α → α' → Prop} {S : β → β' → Prop} {x : Except ε α}
    {x' : Except ε α'}

/-- Equal computations agree. -/
theorem of_eq {x x' : Except ε α} (h : x = x') : Agree (fun a a' => a = a') x x' := by
  subst h
  cases x with
  | error e => exact .error e
  | ok a => exact .ok rfl

/-- What two results have in common can be weakened. -/
theorem imp {R' : α → α' → Prop} (hx : Agree R x x')
    (h : ∀ a a', x = .ok a → x' = .ok a' → R a a' → R' a a') : Agree R' x x' := by
  cases hx with
  | error e => exact .error e
  | ok hR => exact .ok (h _ _ rfl rfl hR)

theorem bind {f : α → Except ε β} {f' : α' → Except ε β'} (hx : Agree R x x')
    (hf : ∀ a a', x = .ok a → R a a' → Agree S (f a) (f' a')) : Agree S (x >>= f) (x' >>= f') := by
  cases hx with
  | error e => exact .error e
  | ok h => exact hf _ _ rfl h

theorem map {f : α → β} {f' : α' → β'} (hx : Agree R x x') (hf : ∀ a a', R a a' → S (f a) (f' a')) :
    Agree S (x.map f) (x'.map f') := by
  cases hx with
  | error e => exact .error e
  | ok h => exact .ok (hf _ _ h)

theorem ite {p : Prop} [Decidable p] {y : Except ε α} {y' : Except ε α'} (hx : p → Agree R x x')
    (hy : ¬p → Agree R y y') : Agree R (if p then x else y) (if p then x' else y') := by
  by_cases h : p
  · rw [if_pos h, if_pos h]
    exact hx h
  · rw [if_neg h, if_neg h]
    exact hy h

/-- Two loops over the same list, whose turns agree. The relation is about the number of turns
that are done. -/
theorem foldlM {f : σ → α → Except ε σ} {f' : σ' → α → Except ε σ'} (R : ℕ → σ → σ' → Prop)
    (l : List α) :
    ∀ (k : ℕ) {s : σ} {s' : σ'}
      (_ : ∀ i a s s', l[i]? = some a → R (k + i) s s' → Agree (R (k + i + 1)) (f s a) (f' s' a)),
      R k s s' → Agree (R (k + l.length)) (l.foldlM f s) (l.foldlM f' s') := by
  induction l with
  | nil =>
    intro k s s' _ hs
    exact .ok hs
  | cons a l ih =>
    intro k s s' hf hs
    rw [List.foldlM_cons, List.foldlM_cons]
    refine bind (hf 0 a s s' rfl hs) fun t t' _ ht => ?_
    rw [List.length_cons, ← Nat.add_assoc, Nat.add_right_comm]
    refine ih (k + 1) (fun i b u u' hb hu => ?_) ht
    rw [Nat.add_right_comm k 1 i, Nat.add_assoc k i 1] at hu ⊢
    exact hf (i + 1) b u u' hb hu

end Agree

/-- A loop over a list whose body keeps an invariant and, with it, does not fail. The
invariant is about the part of the list that is done and the state. -/
theorem foldlM_ok {f : σ → α → Except ε σ} (I : List α → σ → Prop) (l : List α)
    (hstep : ∀ pre a post s, l = pre ++ a :: post → I pre s →
      ∃ s', f s a = .ok s' ∧ I (pre ++ [a]) s') {s : σ} (hs : I [] s) :
    ∃ s', l.foldlM f s = .ok s' ∧ I l s' := by
  suffices h : ∀ post pre s, l = pre ++ post → I pre s →
      ∃ s', post.foldlM f s = .ok s' ∧ I l s' from h l [] s rfl hs
  intro post
  induction post with
  | nil =>
    rintro pre s rfl hpre
    exact ⟨s, rfl, by simpa using hpre⟩
  | cons a post ih =>
    intro pre s hl hpre
    obtain ⟨s₁, hs₁, hI⟩ := hstep pre a post s hl hpre
    obtain ⟨s', hs', hI'⟩ := ih (pre ++ [a]) s₁ (by simp [hl]) hI
    exact ⟨s', by rw [List.foldlM_cons, hs₁]; exact hs', hI'⟩

/-- A relation that every turn of the body keeps holds of where a loop over a list ends. -/
theorem foldlM_invariant {f : σ → α → Except ε σ} (I : σ → Prop) {l : List α}
    (hstep : ∀ s a s', a ∈ l → I s → f s a = .ok s' → I s') :
    ∀ {s s' : σ}, I s → l.foldlM f s = .ok s' → I s' := by
  induction l with
  | nil =>
    intro s s' hs h
    cases h
    exact hs
  | cons a l ih =>
    intro s s' hs h
    rw [List.foldlM_cons, bind_eq_ok] at h
    obtain ⟨s₁, h₁, h₂⟩ := h
    exact ih (fun s b s' hb => hstep s b s' (List.mem_cons_of_mem a hb))
      (hstep s a s₁ List.mem_cons_self hs h₁) h₂

/-- The state in which a loop over a list comes to an element. -/
def ComesTo (f : σ → α → Except ε σ) (s : σ) (l : List α) (a : α) (s' : σ) : Prop :=
  ∃ pre post, l = pre ++ a :: post ∧ pre.foldlM f s = .ok s'

/-- A loop that fails does so in one of its turns. -/
theorem foldlM_eq_error {f : σ → α → Except ε σ} {e : ε} (l : List α) :
    ∀ {s : σ}, l.foldlM f s = .error e → ∃ a s', ComesTo f s l a s' ∧ f s' a = .error e := by
  induction l with
  | nil =>
    intro s hx
    cases hx
  | cons a l ih =>
    intro s hx
    rw [List.foldlM_cons] at hx
    rcases bind_eq_error.1 hx with ha | ⟨s₁, ha, hx⟩
    · exact ⟨a, s, ⟨[], l, rfl, rfl⟩, ha⟩
    · obtain ⟨b, s', ⟨pre, post, rfl, hpre⟩, hb⟩ := ih hx
      refine ⟨b, s', ⟨a :: pre, post, rfl, ?_⟩, hb⟩
      rw [List.foldlM_cons, ha]
      exact hpre

/-- A loop that does not fail comes to each of its elements, and the turn does not fail. -/
theorem turn_of_foldlM {f : σ → α → Except ε σ} {s t : σ} {pre post : List α} {a : α}
    (hx : (pre ++ a :: post).foldlM f s = .ok t) :
    ∃ s' s'', pre.foldlM f s = .ok s' ∧ f s' a = .ok s'' := by
  rw [List.foldlM_append] at hx
  obtain ⟨s', hpre, hx⟩ := bind_eq_ok.1 hx
  rw [List.foldlM_cons] at hx
  obtain ⟨s'', ha, -⟩ := bind_eq_ok.1 hx
  exact ⟨s', s'', hpre, ha⟩

/-- What every turn keeps holds wherever the loop comes to. The invariant is about the part of
the list that is done and the state. -/
theorem foldlM_prefix {f : σ → α → Except ε σ} (I : List α → σ → Prop) (l : List α)
    (hstep : ∀ pre a post s s', l = pre ++ a :: post → I pre s → f s a = .ok s' → I (pre ++ [a]) s')
    {s : σ} (hs : I [] s) {pre post : List α} (hl : l = pre ++ post) {s' : σ}
    (hx : pre.foldlM f s = .ok s') : I pre s' := by
  suffices h : ∀ mid done t, l = done ++ mid ++ post → I done t → mid.foldlM f t = .ok s' →
      I (done ++ mid) s' from h pre [] s hl hs hx
  intro mid
  induction mid with
  | nil =>
    rintro done t - hdone ht
    cases ht
    rwa [List.append_nil]
  | cons a mid ih =>
    intro done t hl hdone ht
    rw [List.foldlM_cons, bind_eq_ok] at ht
    obtain ⟨t₁, h₁, h₂⟩ := ht
    have hnext := hstep done a (mid ++ post) t t₁ (by simpa using hl) hdone h₁
    have hrest := ih (done ++ [a]) t₁ (by simpa using hl) hnext h₂
    rwa [List.append_assoc] at hrest

/-- A loop over a list whose turns append to a log : the log of the loop is the logs of its
turns, one after the other. -/
theorem foldlM_log {ω : Type*} {f : σ → α → Except ε σ} (log : σ → List ω) (l : List α) :
    ∀ (I : ℕ → σ → Prop) (P : ℕ → α → List ω → Prop)
      (_ : ∀ k a s s', l[k]? = some a → I k s → f s a = .ok s' →
        I (k + 1) s' ∧ ∃ ws, log s' = log s ++ ws ∧ P k a ws)
      {s s' : σ}, I 0 s → l.foldlM f s = .ok s' →
      ∃ segs : List (List ω), segs.length = l.length ∧ log s' = log s ++ segs.flatten ∧
        ∀ k a ws, l[k]? = some a → segs[k]? = some ws → P k a ws := by
  induction l with
  | nil =>
    rintro I P - s s' - h
    cases h
    exact ⟨[], rfl, by simp, by simp⟩
  | cons a l ih =>
    intro I P hstep s s' hs h
    rw [List.foldlM_cons, bind_eq_ok] at h
    obtain ⟨s₁, h₁, h₂⟩ := h
    obtain ⟨hI, ws, hws, hP⟩ := hstep 0 a s s₁ rfl hs h₁
    -- the other turns, counted from one
    obtain ⟨segs, hlen, hlog, hsegs⟩ := ih (fun k => I (k + 1)) (fun k => P (k + 1))
      (fun k b t t' hb => hstep (k + 1) b t t' (by simpa using hb)) hI h₂
    refine ⟨ws :: segs, by simp [hlen], by simp [hlog, hws], ?_⟩
    intro k b vs hb hvs
    cases k with
    | zero =>
      obtain rfl : a = b := by simpa using hb
      obtain rfl : ws = vs := by simpa using hvs
      exact hP
    | succ k => exact hsegs k b vs (by simpa using hb) (by simpa using hvs)

end Outcome
