import Mathlib.Data.List.Induction
import Mathlib.Data.List.Infix
import Mathlib.Tactic.TypeStar

/-!
# What was set last

The calls of a machine set keys to values : `after` is the state after a call, `sets` what the
call sets in a state. `last` is what each key was set to last along a list of calls.

A machine is lawful along a list (`Lawful`) if in every state that is met each key still has what
it was set to last, a property of the state holds, and each call is granted what it may ask for.
`lawful_iff` turns that into a condition on each call, in the state that it meets.
-/

namespace LastSet

variable {σ ι κ ν : Type*}

/-- A machine with its calls and what they set. -/
structure Machine (σ ι κ ν : Type*) where
  after : σ → ι → σ
  sets : σ → ι → κ → Option ν

namespace Machine

variable (m : Machine σ ι κ ν)

/-- The state after a list of calls. -/
def run (s : σ) (cs : List ι) : σ := cs.foldl m.after s

/-- What each key was set to last. -/
def last : σ → List ι → κ → Option ν
  | _, [], _ => none
  | s, c :: cs, k => (last (m.after s c) cs k).or (m.sets s c k)

@[simp]
theorem run_concat (s : σ) (cs : List ι) (c : ι) :
    m.run s (cs ++ [c]) = m.after (m.run s cs) c := by
  simp [run]

theorem last_concat : ∀ (s : σ) (cs : List ι) (c : ι) (k : κ),
    m.last s (cs ++ [c]) k = (m.sets (m.run s cs) c k).or (m.last s cs k)
  | s, [], c, k => by simp [last, run]
  | s, d :: cs, c, k => by
    rw [List.cons_append, last, last, last_concat (m.after s d) cs c k, Option.or_assoc]
    rfl

/-- Each key has what it was set to last, and the state has the property. -/
def Kept (reads : σ → κ → ν → Prop) (inv : σ → Prop) (s : σ) (last : κ → Option ν) : Prop :=
  (∀ k v, last k = some v → reads s k v) ∧ inv s

/-- What was set is kept in every state, and every call is granted. -/
structure Lawful (reads : σ → κ → ν → Prop) (inv : σ → Prop) (granted : σ → ι → Prop) (s : σ)
    (cs : List ι) : Prop where
  kept : ∀ pre, pre <+: cs → Kept reads inv (m.run s pre) (m.last s pre)
  granted : ∀ pre c, pre ++ [c] <+: cs → granted (m.run s pre) c

variable {m}

/-- A list of calls is lawful just when each call meets the condition that it is lawful on. -/
theorem lawful_iff {reads : σ → κ → ν → Prop} {inv : σ → Prop} {granted : σ → ι → Prop}
    (base : σ → Prop) (cond : σ → (κ → Option ν) → ι → Prop)
    (hbase : ∀ s c, base s → base (m.after s c))
    (hstep : ∀ s l c, base s → Kept reads inv s l →
      (Kept reads inv (m.after s c) (fun k => (m.sets s c k).or (l k)) ∧ granted s c ↔ cond s l c))
    {s : σ} (hs : base s) (hinv : inv s) (cs : List ι) :
    m.Lawful reads inv granted s cs ↔
      ∀ pre c, pre ++ [c] <+: cs → cond (m.run s pre) (m.last s pre) c := by
  have hrun : ∀ pre, base (m.run s pre) := by
    intro pre
    induction pre using List.reverseRecOn with
    | nil => exact hs
    | append_singleton pre c ih =>
      rw [run_concat]
      exact hbase _ _ ih
  have hlast : ∀ pre c, m.last s (pre ++ [c])
      = fun k => (m.sets (m.run s pre) c k).or (m.last s pre k) := fun pre c =>
    funext fun k => last_concat m s pre c k
  constructor
  · intro h pre c hpre
    refine (hstep _ _ _ (hrun pre) (h.kept pre ((List.prefix_append ..).trans hpre))).1
      ⟨?_, h.granted pre c hpre⟩
    rw [← hlast, ← run_concat]
    exact h.kept _ hpre
  · intro h
    have hkept : ∀ pre, pre <+: cs → Kept reads inv (m.run s pre) (m.last s pre) := by
      intro pre
      induction pre using List.reverseRecOn with
      | nil => exact fun _ => ⟨by simp [last], hinv⟩
      | append_singleton pre c ih =>
        intro hpre
        rw [hlast, run_concat]
        exact ((hstep _ _ _ (hrun pre) (ih ((List.prefix_append ..).trans hpre))).2
          (h pre c hpre)).1
    exact ⟨hkept, fun pre c hpre => ((hstep _ _ _ (hrun pre)
      (hkept pre ((List.prefix_append ..).trans hpre))).2 (h pre c hpre)).2⟩

end Machine

/-- A property of the calls of a list with those before them, call by call. -/
theorem forall_prefix_cons {P : List ι → ι → Prop} {c : ι} {cs : List ι} :
    (∀ pre d, pre ++ [d] <+: c :: cs → P pre d) ↔
      P [] c ∧ ∀ pre d, pre ++ [d] <+: cs → P (c :: pre) d := by
  constructor
  · exact fun h => ⟨h [] c (List.prefix_append [c] cs),
      fun pre d hpre => h (c :: pre) d ((List.prefix_cons_inj c).2 hpre)⟩
  · rintro ⟨hhead, htail⟩ pre d hpre
    cases pre with
    | nil =>
      obtain ⟨rfl, -⟩ := List.cons_prefix_cons.1 hpre
      exact hhead
    | cons b pre =>
      obtain ⟨rfl, hrest⟩ := List.cons_prefix_cons.1 hpre
      exact htail pre d hrest

end LastSet
