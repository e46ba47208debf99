import Mathlib.Data.List.Infix
import HaybarnOdbc.Lib.Outcome

/-!
# Runs of a machine

A machine steps on inputs; `step s i s'` says that it can go from `s` to `s'` on `i`. A
property of a state and its next input holds along a list of inputs (`Along`) when it
holds of every state such a run meets. The rules turn facts about one step into facts
about runs : a property can be replaced by an equivalent one (`along_congr`), and an
invariant that the steps keep holds all along (`Along.strengthen`).

For machines with outputs that are functions, two of them related by a simulation give the
same outputs (`outputs_eq_of_simulation`), and fail alike if their steps can fail
(`outputs_agree`), and one that keeps an abstract state has the
outputs that state determines (`outputs_of_abstraction`).

A property that an invariant gives until the first input that is out of order, and that is lost
behind it, holds all along just when no input is out of order (`forall_prefix_iff`).
-/

namespace Run

variable {σ τ ι ο ε : Type*}

section Relational

variable (step : σ → ι → σ → Prop)

/-- `s'` is reached from `s` on the inputs. -/
def Reaches : σ → List ι → σ → Prop
  | s, [], s' => s = s'
  | s, i :: is, s' => ∃ t, step s i t ∧ Reaches t is s'

/-- Every state met on the inputs has the property `P` with its next input. -/
def Along (P : σ → ι → Prop) : σ → List ι → Prop
  | _, [] => True
  | s, i :: is => P s i ∧ ∀ t, step s i t → Along P t is

variable {step}

theorem along_congr {P Q : σ → ι → Prop} (h : ∀ s i, P s i ↔ Q s i) :
    ∀ (s : σ) (is : List ι), Along step P s is ↔ Along step Q s is
  | _, [] => Iff.rfl
  | s, i :: is => by
    simp only [Along, h s i]
    exact and_congr_right fun _ => forall₂_congr fun t _ => along_congr h t is

/-- An invariant that every step with the property `P` keeps holds along, and adds to
what the property gives. -/
theorem Along.strengthen {P Q : σ → ι → Prop} (I : σ → Prop)
    (hstep : ∀ s i t, I s → P s i → step s i t → I t)
    (hQ : ∀ s i, I s → P s i → Q s i) :
    ∀ {s : σ} {is : List ι}, I s → Along step P s is → Along step Q s is
  | _, [], _, _ => trivial
  | s, i :: _, hs, h =>
    ⟨hQ s i hs h.1, fun t ht =>
      Along.strengthen I hstep hQ (hstep s i t hs h.1 ht) (h.2 t ht)⟩

/-- An invariant that every step with the property `P` keeps holds of the states that a
run with the property reaches. -/
theorem Reaches.invariant {P : σ → ι → Prop} (I : σ → Prop)
    (hstep : ∀ s i t, I s → P s i → step s i t → I t) :
    ∀ {s s' : σ} {is : List ι}, I s → Along step P s is → Reaches step s is s' → I s'
  | _, _, [], hs, _, h => h ▸ hs
  | s, _, i :: _, hs, ha, h => by
    obtain ⟨t, ht, hr⟩ := h
    exact Reaches.invariant I hstep (hstep s i t hs ha.1 ht) (ha.2 t ht) hr

/-- The property of a step that holds of every state. -/
theorem along_of_forall {P : σ → ι → Prop} :
    ∀ {is : List ι} (_ : ∀ s, ∀ i ∈ is, P s i) (s : σ), Along step P s is
  | [], _, _ => trivial
  | i :: _, h, s =>
    ⟨h s i (by simp), fun t _ =>
    along_of_forall (fun s j hj => h s j (List.mem_cons_of_mem i hj)) t⟩

end Relational

section Functional

/-- The outputs of a machine on a list of inputs, and the state it ends in. -/
def outputs (step : σ → ι → Except ε (ο × σ)) : σ → List ι → Except ε (List ο × σ)
  | s, [] => .ok ([], s)
  | s, i :: is =>
    match step s i with
    | .error e => .error e
    | .ok (o, s') =>
      match outputs step s' is with
      | .error e => .error e
      | .ok (os, t) => .ok (o :: os, t)

variable {step : σ → ι → Except ε (ο × σ)} {step' : τ → ι → Except ε (ο × τ)}

/-- Two machines whose steps are matched from related states, as long as the first one's
states have the property `P`, give the same outputs. -/
theorem outputs_eq_of_simulation (R : σ → τ → Prop) (P : σ → ι → Prop)
    (hstep : ∀ s t i, R s t → P s i →
      ∃ o s' t', step s i = .ok (o, s') ∧ step' t i = .ok (o, t') ∧ R s' t') :
    ∀ {s : σ} {t : τ} {is : List ι}, R s t →
      Along (fun s i s' => ∃ o, step s i = .ok (o, s')) P s is →
      ∃ os s' t', outputs step s is = .ok (os, s') ∧ outputs step' t is = .ok (os, t') ∧ R s' t'
  | s, t, [], hR, _ => ⟨[], s, t, rfl, rfl, hR⟩
  | s, t, i :: is, hR, ha => by
    obtain ⟨o, s', t', hs, ht, hR'⟩ := hstep s t i hR ha.1
    obtain ⟨os, s'', t'', hos, hos', hR''⟩ :=
      outputs_eq_of_simulation R P hstep hR' (ha.2 s' ⟨o, hs⟩)
    exact ⟨o :: os, s'', t'', by simp [outputs, hs, hos], by simp [outputs, ht, hos'], hR''⟩

/-- Two machines whose steps agree from related states, as long as their states have the
properties `P` and `P'`, agree on their outputs. -/
theorem outputs_agree (R : σ → τ → Prop) (P : σ → ι → Prop) (P' : τ → ι → Prop)
    (hstep : ∀ s t i, R s t → P s i → P' t i →
      Outcome.Agree (fun p q => p.1 = q.1 ∧ R p.2 q.2) (step s i) (step' t i)) :
    ∀ {s : σ} {t : τ} {is : List ι}, R s t →
      Along (fun s i s' => ∃ o, step s i = .ok (o, s')) P s is →
      Along (fun t i t' => ∃ o, step' t i = .ok (o, t')) P' t is →
      Outcome.Agree (fun p q => p.1 = q.1 ∧ R p.2 q.2) (outputs step s is) (outputs step' t is)
  | s, t, [], hR, _, _ => .ok ⟨rfl, hR⟩
  | s, t, i :: is, hR, ha, ha' => by
    rw [outputs, outputs]
    have hi := hstep s t i hR ha.1 ha'.1
    generalize hs : step s i = x at hi
    generalize ht : step' t i = y at hi
    cases hi with
    | error e => exact .error e
    | @ok p q h =>
      have hrest := outputs_agree R P P' hstep h.2 (ha.2 p.2 ⟨p.1, hs⟩) (ha'.2 q.2 ⟨q.1, ht⟩)
      dsimp only
      generalize outputs step p.2 is = x at hrest
      generalize outputs step' q.2 is = y at hrest
      cases hrest with
      | error e => exact .error e
      | ok hrest => exact .ok ⟨by rw [h.1, hrest.1], hrest.2⟩

/-- One input of a machine that is a function. -/
theorem along_cons {P : σ → ι → Prop} {s t : σ} {i : ι} {is : List ι} {o : ο} (hP : P s i)
    (hi : step s i = .ok (o, t))
    (hrest : Along (fun s i s' => ∃ o, step s i = .ok (o, s')) P t is) :
    Along (fun s i s' => ∃ o, step s i = .ok (o, s')) P s (i :: is) := by
  refine ⟨hP, ?_⟩
  rintro t' ⟨o', hi'⟩
  obtain ⟨-, rfl⟩ := Prod.mk.inj (Except.ok.inj (hi.symm.trans hi'))
  exact hrest

/-- What every step keeps holds of the state a run ends in. -/
theorem outputs_invariant (I : σ → Prop)
    (hstep : ∀ s i o s', I s → step s i = .ok (o, s') → I s') :
    ∀ {s s' : σ} {is : List ι} {os : List ο}, I s → outputs step s is = .ok (os, s') → I s'
  | _, _, [], _, hs, h => by
    cases h
    exact hs
  | s, _, i :: is, _, hs, h => by
    rw [outputs] at h
    cases hi : step s i with
    | error e => simp [hi] at h
    | ok p =>
      obtain ⟨o, t⟩ := p
      cases hrest : outputs step t is with
      | error e => simp [hi, hrest] at h
      | ok q =>
        simp only [hi, hrest, Except.ok.injEq, Prod.mk.injEq] at h
        obtain ⟨-, rfl⟩ := h
        exact outputs_invariant I hstep (hstep s i o t hs hi) hrest

/-- With an invariant that every step with the property `P` keeps, the outputs of a run with
the property are the ones of such steps. -/
theorem forall_mem_outputs (I : σ → Prop) (P : σ → ι → Prop) (Q : ο → Prop)
    (hstep : ∀ s i o s', I s → P s i → step s i = .ok (o, s') → Q o ∧ I s') :
    ∀ {s s' : σ} {is : List ι} {os : List ο}, I s →
      Along (fun s i s' => ∃ o, step s i = .ok (o, s')) P s is →
      outputs step s is = .ok (os, s') → ∀ o ∈ os, Q o
  | _, _, [], _, _, _, h => by
    cases h
    simp
  | s, _, i :: is, _, hs, ha, h => by
    rw [outputs] at h
    cases hi : step s i with
    | error e => simp [hi] at h
    | ok p =>
      obtain ⟨o, t⟩ := p
      obtain ⟨hQ, ht⟩ := hstep s i o t hs ha.1 hi
      cases hrest : outputs step t is with
      | error e => simp [hi, hrest] at h
      | ok q =>
        simp only [hi, hrest, Except.ok.injEq, Prod.mk.injEq] at h
        obtain ⟨rfl, -⟩ := h
        exact List.forall_mem_cons.2
          ⟨hQ, forall_mem_outputs I P Q hstep ht (ha.2 t ⟨o, hi⟩) hrest⟩

/-- A machine whose states stand for abstract ones, as long as they have the property `P` :
the `k`-th output is the one the abstract state after the first `k` inputs asks for. -/
theorem outputs_of_abstraction {α : Type*} (step : σ → ι → Except ε (ο × σ)) (I : σ → α → Prop)
    (next : α → ι → α) (Q : α → ι → ο → Prop) (P : σ → ι → Prop)
    (hstep : ∀ s a i, I s a → P s i → ∃ o s', step s i = .ok (o, s') ∧ Q a i o ∧ I s' (next a i)) :
    ∀ {s : σ} {a : α} {is : List ι}, I s a →
      Along (fun s i s' => ∃ o, step s i = .ok (o, s')) P s is →
      ∃ os s', outputs step s is = .ok (os, s') ∧ os.length = is.length ∧ I s' (is.foldl next a) ∧
        ∀ k i o, is[k]? = some i → os[k]? = some o → Q ((is.take k).foldl next a) i o
  | s, a, [], hI, _ => ⟨[], s, rfl, rfl, hI, by simp⟩
  | s, a, i :: is, hI, hP => by
    obtain ⟨o, s', hs, hQ, hI'⟩ := hstep s a i hI hP.1
    obtain ⟨os, t, hos, hlen, hIt, hk⟩ :=
      outputs_of_abstraction step I next Q P hstep hI' (hP.2 s' ⟨o, hs⟩)
    refine ⟨o :: os, t, by simp [outputs, hs, hos], by simp [hlen], hIt, ?_⟩
    intro k j p hj hp
    cases k with
    | zero =>
      obtain rfl : i = j := by simpa using hj
      obtain rfl : o = p := by simpa using hp
      exact hQ
    | succ k => exact hk k j p (by simpa using hj) (by simpa using hp)

end Functional

/-- What is good is good all along a list of inputs just when none of them is out of order, if an
invariant stands until the first one that is. -/
theorem forall_prefix_iff {next : σ → ι → σ} (inv good : σ → Prop) (stray : σ → ι → Prop)
    (hgood : ∀ t, inv t → good t) (hstep : ∀ t c, inv t → ¬stray t c → inv (next t c))
    (hstray : ∀ t c, inv t → stray t c → ¬good (next t c)) :
    ∀ {t : σ} (cs : List ι), inv t →
      ((∀ pre, pre <+: cs → good (pre.foldl next t)) ↔
        ∀ pre c, pre ++ [c] <+: cs → ¬stray (pre.foldl next t) c)
  | t, [], ht => by
    refine iff_of_true (fun pre hpre => ?_) fun pre c hpre => ?_
    · rw [List.prefix_nil.1 hpre]
      exact hgood t ht
    · simpa using List.prefix_nil.1 hpre
  | t, c :: cs, ht => by
    by_cases hc : stray t c
    · refine iff_of_false (fun h => hstray t c ht hc (h [c] (List.prefix_append [c] cs)))
        fun h => h [] c (List.prefix_append [c] cs) hc
    · have ih := forall_prefix_iff inv good stray hgood hstep hstray cs (hstep t c ht hc)
      constructor
      · intro h pre d hpre
        cases pre with
        | nil =>
          obtain ⟨rfl, -⟩ := List.cons_prefix_cons.1 hpre
          exact hc
        | cons b pre =>
          obtain ⟨rfl, hrest⟩ := List.cons_prefix_cons.1 hpre
          exact ih.1 (fun pre hpre => h (_ :: pre) ((List.prefix_cons_inj _).2 hpre)) pre d hrest
      · intro h pre hpre
        cases pre with
        | nil => exact hgood t ht
        | cons b pre =>
          obtain ⟨rfl, hrest⟩ := List.cons_prefix_cons.1 hpre
          exact ih.2 (fun pre d hpre => h (_ :: pre) d ((List.prefix_cons_inj _).2 hpre)) pre hrest

end Run
