import Mathlib.Tactic.Common
import Mathlib.Data.Nat.Notation

/-!
# Buffers that are written in parts

A buffer is the list of its cells, `none` for a cell that nobody has written a known value to.
`store` puts a run of cells at a place, and does nothing if they do not fit there; `load`
reads a run of values, if all of them are known. What was stored is what is read
(`load_store`), and a run stored behind a prefix makes the prefix longer (`take_store_prefix`).
-/

namespace Buffer

variable {α : Type*}

/-- The buffer with the cells `xs` from `i` on. -/
def store (b : List (Option α)) (i : ℕ) (xs : List (Option α)) : List (Option α) :=
  if i + xs.length ≤ b.length then b.take i ++ xs ++ b.drop (i + xs.length) else b

/-- The values of a list of cells, if they are all known. -/
def known : List (Option α) → Option (List α)
  | [] => some []
  | none :: _ => none
  | some x :: cells => (known cells).map (x :: ·)

/-- The `n` values from `i` on. -/
def load (b : List (Option α)) (i n : ℕ) : Option (List α) :=
  if ((b.drop i).take n).length = n then known ((b.drop i).take n) else none

@[simp] theorem length_store (b : List (Option α)) (i : ℕ) (xs : List (Option α)) :
    (store b i xs).length = b.length := by
  unfold store
  split_ifs with h
  · simp only [List.length_append, List.length_take, List.length_drop]
    omega
  · rfl

@[simp] theorem known_map_some (xs : List α) : known (xs.map some) = some xs := by
  induction xs with
  | nil => rfl
  | cons x xs ih => simp [known, ih]

/-- All cells are known, and these are their values. -/
theorem known_eq_some_iff {cells : List (Option α)} {xs : List α} :
    known cells = some xs ↔ cells = xs.map some := by
  constructor
  · intro h
    induction cells generalizing xs with
    | nil =>
      cases h
      rfl
    | cons cell cells ih =>
      cases cell with
      | none => cases h
      | some x =>
        obtain ⟨ys, hys, rfl⟩ := Option.map_eq_some_iff.1 h
        rw [List.map_cons, ih hys]
  · rintro rfl
    exact known_map_some xs

/-- A run is read if it is in the buffer and all its cells are known. -/
theorem load_eq_some_iff {b : List (Option α)} {i n : ℕ} {xs : List α} :
    load b i n = some xs ↔ xs.length = n ∧ (b.drop i).take n = xs.map some := by
  unfold load
  split_ifs with h
  · rw [known_eq_some_iff]
    refine ⟨fun heq => ⟨?_, heq⟩, And.right⟩
    rw [← h, heq, List.length_map]
  · refine ⟨nofun, fun ⟨hlen, heq⟩ => absurd ?_ h⟩
    rw [heq, List.length_map, hlen]

@[simp] theorem load_zero (b : List (Option α)) (i : ℕ) : load b i 0 = some [] :=
  load_eq_some_iff.2 (by simp)

/-- What was stored is what is read. -/
theorem take_drop_store {b xs : List (Option α)} {i : ℕ} (h : i + xs.length ≤ b.length) :
    ((store b i xs).drop i).take xs.length = xs := by
  have hi : (b.take i).length = i := by
    rw [List.length_take]
    omega
  rw [store, if_pos h, List.append_assoc, List.drop_append_of_le_length (by omega),
    List.drop_eq_nil_of_le (by omega), List.nil_append,
      List.take_append_of_le_length (Nat.le_refl _),
    List.take_length]

/-- A run that was stored is the run that is read there. -/
theorem load_store {b : List (Option α)} {i : ℕ} {xs : List α} (h : i + xs.length ≤ b.length) :
    load (store b i (xs.map some)) i xs.length = some xs := by
  have hstored : ((store b i (xs.map some)).drop i).take (xs.map some).length = xs.map some :=
    take_drop_store (by simpa using h)
  rw [List.length_map] at hstored
  exact load_eq_some_iff.2 ⟨rfl, hstored⟩

theorem getElem?_store {b xs : List (Option α)} {i : ℕ} (h : i + xs.length ≤ b.length) (k : ℕ) :
    (store b i xs)[k]? = if i ≤ k ∧ k < i + xs.length then xs[k - i]? else b[k]? := by
  have hi : (b.take i).length = i := by
    rw [List.length_take]
    omega
  rw [store, if_pos h, List.append_assoc, List.getElem?_append, List.getElem?_append, hi]
  by_cases hlt : k < i
  · rw [if_pos hlt, if_neg (by omega), List.getElem?_take_of_lt hlt]
  · by_cases hin : k - i < xs.length
    · rw [if_neg hlt, if_pos hin, if_pos (by omega)]
    · rw [if_neg hlt, if_neg hin, if_neg (by omega), List.getElem?_drop]
      congr 1
      omega

/-- In a buffer with nothing else in it, something as long as a run is read only from where the
run was stored. -/
theorem eq_of_load_store_replicate_none {n i j : ℕ} {xs ys : List α} (h : i + xs.length ≤ n)
    (hload : load (store (List.replicate n none) i (xs.map some)) j xs.length = some ys) :
    i = j ∨ xs = [] := by
  have hfits : i + (xs.map some).length ≤ (List.replicate n (none : Option α)).length := by
    simpa using h
  by_contra hne
  obtain ⟨hij, hxs⟩ := not_or.1 hne
  have hpos : 0 < xs.length := List.length_pos_iff.2 hxs
  obtain ⟨hlen, hrun⟩ := load_eq_some_iff.1 hload
  have hcell : ∀ k < xs.length, (store (List.replicate n none) i (xs.map some))[j + k]? =
      (ys.map some)[k]? := by
    intro k hk
    simpa only [List.getElem?_take_of_lt hk, List.getElem?_drop] using congrArg (·[k]?) hrun
  have houtside : ∀ k < xs.length, ¬(i ≤ j + k ∧ j + k < i + xs.length) → False := by
    intro k hk hout
    have hcell := hcell k hk
    rw [getElem?_store hfits, if_neg (by simpa using hout), List.getElem?_replicate,
      List.getElem?_map, List.getElem?_eq_getElem (by omega)] at hcell
    split_ifs at hcell <;> simp at hcell
  rcases Nat.lt_or_gt_of_ne hij with hlt | hlt
  · exact houtside (xs.length - 1) (by omega) (by omega)
  · exact houtside 0 hpos (by omega)

/-- In a buffer with nothing else in it, a run is read only from where it was stored. -/
theorem load_store_replicate_none {n i j : ℕ} {xs : List α} (h : i + xs.length ≤ n) :
    load (store (List.replicate n none) i (xs.map some)) j xs.length = some xs ↔
      i = j ∨ xs = [] := by
  constructor
  · exact eq_of_load_store_replicate_none h
  · rintro (rfl | rfl)
    · exact load_store (by simpa using h)
    · exact load_zero _ _

/-- A run of cells stored behind a prefix makes the prefix longer. -/
theorem take_store_prefix {b xs : List (Option α)} {i : ℕ} (h : i + xs.length ≤ b.length) :
    (store b i xs).take (i + xs.length) = b.take i ++ xs := by
  have hlen : (b.take i ++ xs).length = i + xs.length := by
    rw [List.length_append, List.length_take]
    omega
  rw [store, if_pos h, ← hlen, List.take_append_of_le_length (Nat.le_refl _), List.take_length]

end Buffer
