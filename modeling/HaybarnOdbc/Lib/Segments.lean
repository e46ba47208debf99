import Mathlib.Data.Nat.Basic
import Mathlib.Tactic.Common

/-!
# Lists cut into segments

`segments n l` cuts a list into segments of `n` elements, the last one shorter if there are
not enough left. Cutting several lists one after the other gives full segments but for the
last one exactly if the length of every list but the last is a multiple of `n`
(`full_flatMap_segments_iff`), and full segments are the segments of their elements
(`eq_segments_of_full`).
-/

namespace Segments

variable {α : Type*}

/-- The segments of `n + 1` elements of a list of at most `fuel` elements. -/
def cut (n : ℕ) : ℕ → List α → List (List α)
  | 0, _ => []
  | _ + 1, [] => []
  | fuel + 1, a :: l => (a :: l.take n) :: cut n fuel (l.drop n)

/-- The segments of `n` elements of a list, for a positive `n`. -/
def segments (n : ℕ) (l : List α) : List (List α) := cut (n - 1) l.length l

@[simp] theorem segments_nil (n : ℕ) : segments n ([] : List α) = [] := rfl

theorem cut_congr (n : ℕ) :
    ∀ (fuel fuel' : ℕ) (l : List α), l.length ≤ fuel → l.length ≤ fuel' →
      cut n fuel l = cut n fuel' l
  | 0, 0, _, _, _ => rfl
  | 0, _ + 1, [], _, _ => rfl
  | _ + 1, 0, [], _, _ => rfl
  | _ + 1, _ + 1, [], _, _ => rfl
  | fuel + 1, fuel' + 1, a :: l, h, h' => by
    simp only [List.length_cons] at h h'
    have hdrop : (l.drop n).length ≤ l.length := by simp
    simp only [cut]
    rw [cut_congr n fuel fuel' (l.drop n) (by omega) (by omega)]

/-- The first segment, and the segments of the rest. -/
theorem segments_of_ne {n : ℕ} (hn : 1 ≤ n) {l : List α} (hl : l ≠ []) :
    segments n l = l.take n :: segments n (l.drop n) := by
  obtain ⟨m, rfl⟩ : ∃ m, n = m + 1 := ⟨n - 1, by omega⟩
  obtain ⟨a, l, rfl⟩ := List.exists_cons_of_ne_nil hl
  have hdrop : (l.drop m).length ≤ l.length := by simp
  simp only [segments, Nat.add_sub_cancel, cut, List.length_cons, List.take_succ_cons,
    List.drop_succ_cons]
  rw [cut_congr m l.length (l.drop m).length (l.drop m) hdrop (Nat.le_refl _)]

/-- Induction along the segments of a list. -/
theorem induction_drop {n : ℕ} (hn : 1 ≤ n) {motive : List α → Prop} (nil : motive [])
    (step : ∀ l, l ≠ [] → motive (l.drop n) → motive l) (l : List α) : motive l := by
  induction hlen : l.length using Nat.strong_induction_on generalizing l with
  | _ k ih =>
    by_cases hl : l = []
    · exact hl ▸ nil
    · have hpos := List.length_pos_iff.2 hl
      exact step l hl (ih (l.drop n).length (by rw [List.length_drop]; omega) _ rfl)

theorem segments_eq_nil_iff {n : ℕ} (hn : 1 ≤ n) {l : List α} : segments n l = [] ↔ l = [] := by
  constructor
  · intro h
    by_contra hl
    rw [segments_of_ne hn hl] at h
    cases h
  · rintro rfl
    rfl

/-- The segments make up the list. -/
theorem flatten_segments {n : ℕ} (hn : 1 ≤ n) (l : List α) : (segments n l).flatten = l := by
  induction l using induction_drop hn with
  | nil => rfl
  | step l hl ih => rw [segments_of_ne hn hl, List.flatten_cons, ih, List.take_append_drop]

/-- A segment has between one and `n` elements. -/
theorem length_of_mem_segments {n : ℕ} (hn : 1 ≤ n) {l s : List α} (hs : s ∈ segments n l) :
    1 ≤ s.length ∧ s.length ≤ n := by
  induction l using induction_drop hn with
  | nil => cases hs
  | step l hl ih =>
    rw [segments_of_ne hn hl] at hs
    rcases List.mem_cons.1 hs with rfl | hs
    · have hpos := List.length_pos_iff.2 hl
      rw [List.length_take]
      omega
    · exact ih hs

/-- Every segment but the last one has `n` elements. -/
def Full (n : ℕ) (segs : List (List α)) : Prop := ∀ s ∈ segs.dropLast, s.length = n

/-- All segments but the last are full. -/
theorem full_segments {n : ℕ} (hn : 1 ≤ n) (l : List α) : Full n (segments n l) := by
  induction l using induction_drop hn with
  | nil => intro s hs; cases hs
  | step l hl ih =>
    intro s hs
    rw [segments_of_ne hn hl] at hs
    by_cases hdrop : l.drop n = []
    · rw [hdrop] at hs
      cases hs
    · rw [List.dropLast_cons_of_ne_nil (mt (segments_eq_nil_iff hn).1 hdrop)] at hs
      rcases List.mem_cons.1 hs with rfl | hs
      · have hlen := List.length_pos_iff.2 hdrop
        rw [List.length_drop] at hlen
        rw [List.length_take]
        omega
      · exact ih s hs

/-- All segments are full exactly if the length is a multiple of `n`. -/
theorem forall_length_iff_dvd {n : ℕ} (hn : 1 ≤ n) (l : List α) :
    (∀ s ∈ segments n l, s.length = n) ↔ n ∣ l.length := by
  induction l using induction_drop hn with
  | nil => simp
  | step l hl ih =>
    have hpos := List.length_pos_iff.2 hl
    rw [segments_of_ne hn hl, List.forall_mem_cons, ih, List.length_take, List.length_drop]
    constructor
    · rintro ⟨hfull, hdvd⟩
      rcases Nat.dvd_sub_self_right.1 hdvd with hdvd | hlt
      · exact hdvd
      · exact ⟨1, by omega⟩
    · intro hdvd
      have hle := Nat.le_of_dvd hpos hdvd
      exact ⟨by omega, Nat.dvd_sub_self_right.2 (.inl hdvd)⟩

/-- Lists cut one after the other give full segments exactly if every list but the last
one has a multiple of `n` elements. -/
theorem full_flatMap_segments_iff {n : ℕ} (hn : 1 ≤ n) {ls : List (List α)}
    (hne : ∀ l ∈ ls, l ≠ []) :
    Full n (ls.flatMap (segments n)) ↔ ∀ l ∈ ls.dropLast, n ∣ l.length := by
  induction ls with
  | nil => simp [Full]
  | cons l ls ih =>
    by_cases hls : ls = []
    · subst hls
      simpa using full_segments hn l
    · have hrest : ls.flatMap (segments n) ≠ [] := by
        obtain ⟨l', ls', rfl⟩ := List.exists_cons_of_ne_nil hls
        have hl' : l' ≠ [] := hne l' (by simp)
        simp [mt (segments_eq_nil_iff hn).1 hl']
      have ih := ih fun l hl => hne l (List.mem_cons_of_mem _ hl)
      unfold Full at ih ⊢
      rw [List.flatMap_cons, List.dropLast_append_of_ne_nil hrest, List.forall_mem_append, ih,
        forall_length_iff_dvd hn, List.dropLast_cons_of_ne_nil hls, List.forall_mem_cons]

/-- Full segments are the segments of their elements. -/
theorem eq_segments_of_full {n : ℕ} {segs : List (List α)} (hfull : Full n segs)
    (hlen : ∀ s ∈ segs, 1 ≤ s.length ∧ s.length ≤ n) : segs = segments n segs.flatten := by
  induction segs with
  | nil => rfl
  | cons s segs ih =>
    obtain ⟨hpos, hle⟩ := hlen s (by simp)
    have hne : s ≠ [] := List.length_pos_iff.1 hpos
    have hlen' : ∀ s ∈ segs, 1 ≤ s.length ∧ s.length ≤ n :=
      fun t ht => hlen t (List.mem_cons_of_mem s ht)
    rw [List.flatten_cons, segments_of_ne (by omega) (by simp [hne])]
    by_cases hsegs : segs = []
    · subst hsegs
      simp [List.take_of_length_le hle, List.drop_eq_nil_of_le hle]
    · unfold Full at hfull ih
      rw [List.dropLast_cons_of_ne_nil hsegs, List.forall_mem_cons] at hfull
      rw [List.take_left' hfull.1, List.drop_left' hfull.1, ← ih hfull.2 hlen']

end Segments
