import Mathlib.Data.List.Nodup
import HaybarnOdbc.Dialogue

/-!
# What the dialogue asks for

The cursor moves when a value is complete, never over a parameter that has none to come, and
`SQLParamData` ends the dialogue at such a parameter. So the dialogue asks for each parameter
with data at execution in turn exactly if they follow each other without a gap, the cursor
starts at the first of them, and the pieces of each but the last one fill it
(`asksEach_iff`).

How many pieces a value takes depends on the parameter (`Taking`) : the value of a
character or binary parameter grows up to the column size if there is one parameter set, and
anything else is complete after one piece.
-/

namespace HaybarnOdbc

namespace Dialogue

/-! ## The cells with data at execution -/

namespace Shape

variable (S : Shape)

/-- The address of the indicator of a cell. -/
def indAddr (c : Cell) : Option Addr :=
  match S.params[c.param]? with
  | none => none
  | some (_, ind) => if ind = 0 then none else some (ind + 8 * c.set)

/-- The cells, parameter by parameter. -/
def grid : List Cell :=
  (List.range S.params.length).flatMap fun i => (List.range S.sets).map (Cell.mk i)

/-- The cells whose data comes at execution. -/
def atExec (indicators : Addr → ℤ) : List Cell :=
  S.grid.filter fun c => (S.indAddr c).any fun a => AtExec (indicators a)

/-- The cell behind a complete one. -/
def after (c : Cell) : Cell :=
  match S.params[c.param]? with
  | none => c
  | some (type, _) => S.next type c

/-- The turn at the cell stores a length or a null at the address. -/
def Overwrites (c : Cell) (lens : List ℤ) (a : Addr) : Prop :=
  match S.params[c.param]? with
  | none => False
  | some (type, ind) =>
    if isPiecewise type then a = ind + 8 * c.set else sqlNullData ∈ lens ∧ a = ind

end Shape

/-- How many pieces a value takes : one, or up to a size. -/
inductive Taking
  | one
  | upTo (size : ℕ)

/-- How the cell takes its value, if the records are there. -/
def Shape.taking (S : Shape) (c : Cell) : Option Taking :=
  match S.params[c.param]? with
  | none => none
  | some (type, _) =>
    if isPiecewise type then
      (S.sizes[c.param]?).map fun size => if S.sets = 1 then .upTo size else .one
    else some .one

/-- The size of pieces together. -/
def total (lens : List ℤ) : ℕ := (lens.map sizeOfLen).sum

/-- The value is complete with the last of the pieces. -/
def Taking.Completes : Taking → List ℤ → Prop
  | .one, lens => lens.length = 1
  | .upTo size, lens =>
    ∃ init last, lens = init ++ [last] ∧ (init = [] ∨ total init < size) ∧ size ≤ total lens

/-- The value has been begun, and more of it can come. -/
def Taking.Continues : Taking → List ℤ → Prop
  | .one, _ => False
  | .upTo size, lens => lens ≠ [] ∧ total lens < size

/-- The dialogue can end at the cell. -/
def Shape.EndsAt (S : Shape) (c : Cell) : Prop := S.count ≤ c.param ∨ (S.indAddr c).isSome

/-- The pieces of each cell complete it and the next cell stands right behind, its indicator not
touched. The pieces of the last cell need not complete it, and if they do the dialogue can end
there. More pieces do no harm behind the last parameter. -/
def Shape.Follow (S : Shape) : List Cell → List (List ℤ) → Prop
  | [], _ => True
  | _ :: _, [] => False
  | [c], lens :: _ => ∃ k, S.taking c = some k ∧ (k.Continues lens ∨
      ∃ init rest, lens = init ++ rest ∧ k.Completes init ∧
        (S.count ≤ (S.after c).param ∨ rest = [] ∧ S.EndsAt (S.after c)))
  | c :: d :: cells, lens :: turns => (∃ k, S.taking c = some k ∧ k.Completes lens) ∧
      S.after c = d ∧
      (∀ e ∈ d :: cells, ∀ a, S.indAddr e = some a → ¬S.Overwrites c lens a) ∧
      S.Follow (d :: cells) turns

/-- The cell waits for its data : it is one of the parameters, and its indicator is
`SQL_DATA_AT_EXEC`. -/
def Shape.Waits (S : Shape) (indicators : Addr → ℤ) (c : Cell) : Prop :=
  (c.param : ℤ) < S.count ∧ ∀ a, S.indAddr c = some a → indicators a = sqlDataAtExec

/-- The condition on a dialogue. -/
def Shape.InOrder (S : Shape) (p : Pos) (turns : List (List ℤ)) : Prop :=
  S.ready = true ∧
    match S.atExec p.indicators with
    | [] => S.count ≤ p.cell.param ∨
        ∃ a, S.indAddr p.cell = some a ∧ p.indicators a ≠ sqlDataAtExec
    | c :: cells => p.cell = c ∧ (∀ d ∈ c :: cells, S.Waits p.indicators d) ∧
        S.Follow (c :: cells) turns

/-! ## One turn -/

variable {S : Shape}

theorem wants_eq {p : Pos} {c : Cell} (hready : S.ready = true) (hcell : p.cell = c)
    (hlt : (c.param : ℤ) < S.count) :
    S.wants p = (S.indAddr c).map fun a =>
      if p.indicators a = sqlDataAtExec then .needData else .success := by
  subst hcell
  rw [Shape.wants, if_neg (by simp [hready]), if_neg (by omega), Shape.indAddr]
  cases S.params[p.cell.param]? with
  | none => rfl
  | some r =>
    obtain ⟨type, ind⟩ := r
    by_cases hind : ind = 0 <;> simp [hind]

theorem puts_append (lens lens' : List ℤ) (p : Pos) :
    S.puts (lens ++ lens') p =
      (S.puts lens p).bind fun r => (S.puts lens' r.2).map fun s => (r.1 ++ s.1, s.2) := by
  induction lens generalizing p with
  | nil => simp [Shape.puts]
  | cons len lens ih =>
    rw [List.cons_append, Shape.puts, Shape.puts]
    cases hput : S.put len p with
    | none => rfl
    | some q =>
      simp only [ih]
      cases S.puts lens q with
      | none => rfl
      | some r => simp [Function.comp_def]

/-- Behind the last parameter pieces are dropped. -/
theorem puts_dropped {p : Pos} (hcount : S.count ≤ p.cell.param) (lens : List ℤ) :
    S.puts lens p = some (List.replicate lens.length none, p) := by
  induction lens with
  | nil => rfl
  | cons len lens ih =>
    rw [Shape.puts, Shape.put, if_pos (.inr hcount)]
    simp only [ih, Shape.receiver, if_pos hcount]
    rfl

/-- What a turn leaves in the indicators : it stores no `SQL_DATA_AT_EXEC`, and stores nowhere
but where it says. -/
structure Changed (S : Shape) (c : Cell) (lens : List ℤ) (old new : Addr → ℤ) : Prop where
  stored : ∀ a, S.Overwrites c lens a → new a ≠ sqlDataAtExec
  kept : ∀ a, ¬S.Overwrites c lens a → new a = old a

/-- The cursor stands at a cell that waits. -/
structure Standing (S : Shape) (p : Pos) (c : Cell) : Prop where
  ready : S.ready = true
  cell : p.cell = c
  lt : (c.param : ℤ) < S.count
  set_lt : c.set < S.sets
  waits : ∃ a, S.indAddr c = some a ∧ p.indicators a = sqlDataAtExec

section Turn

variable {p : Pos} {c : Cell} {lens : List ℤ}

/-- The records of a cell that stands. -/
theorem Standing.record (h : Standing S p c) :
    ∃ type ind, S.params[c.param]? = some (type, ind) ∧ ind ≠ 0 ∧
      p.indicators (ind + 8 * c.set) = sqlDataAtExec := by
  obtain ⟨a, ha, hwaits⟩ := h.waits
  unfold Shape.indAddr at ha
  cases hparam : S.params[c.param]? with
  | none => simp [hparam] at ha
  | some r =>
    simp only [hparam] at ha
    split_ifs at ha with hind
    cases ha
    exact ⟨r.1, r.2, rfl, hind, hwaits⟩

/-- A piece of a value that takes only one. -/
theorem put_one (h : Standing S p c) (hk : S.taking c = some .one) (len : ℤ) :
    ∃ new, S.put len p = some ⟨S.after c, new⟩ ∧ Changed S c [len] p.indicators new := by
  obtain ⟨type, ind, hparam, hind, -⟩ := h.record
  have hcell := h.cell
  subst hcell
  simp only [Shape.taking, hparam] at hk
  have hafter : S.after p.cell = S.next type p.cell := by simp [Shape.after, hparam]
  have hoverwrites : ∀ a, S.Overwrites p.cell [len] a ↔
      if isPiecewise type then a = ind + 8 * p.cell.set else sqlNullData = len ∧ a = ind := by
    intro a
    simp [Shape.Overwrites, hparam]
  rw [Shape.put, if_neg (by simpa [h.ready] using h.lt), hafter]
  simp only [hparam]
  cases htype : isPiecewise type with
  | true =>
    simp only [htype, if_true] at hk hoverwrites ⊢
    obtain ⟨size, hsize, hsets⟩ := Option.map_eq_some_iff.1 hk
    have hne : S.sets ≠ 1 := by
      intro heq
      simp [heq] at hsets
    simp only [hsize, hind, hne, if_false]
    refine ⟨_, rfl, fun a ha => ?_, fun a ha => ?_⟩
    · rw [(hoverwrites a).1 ha, Function.update_self, sqlDataAtExec]
      omega
    · exact Function.update_of_ne (fun heq => ha ((hoverwrites a).2 heq)) _ _
  | false =>
    simp only [htype, Bool.false_eq_true, if_false] at hoverwrites ⊢
    by_cases hlen : len = sqlNullData
    · simp only [hlen, hind, if_true, if_false]
      refine ⟨_, rfl, fun a ha => ?_, fun a ha => ?_⟩
      · rw [((hoverwrites a).1 (hlen ▸ ha)).2, Function.update_self]
        decide
      · exact Function.update_of_ne (fun heq => ha (hlen ▸ (hoverwrites a).2 ⟨hlen.symm, heq⟩)) _ _
    · simp only [hlen, if_false]
      exact ⟨_, rfl, fun a ha => absurd ((hoverwrites a).1 ha).1.symm hlen, fun a _ => rfl⟩

/-- The indicator of a value that has come so far : nothing yet, or `n` bytes. -/
def Held (ind : ℤ) (n : ℕ) : Prop := ind = sqlDataAtExec ∧ n = 0 ∨ ind = n

/-- A value that grows. -/
structure Growing (S : Shape) (c : Cell) (size : ℕ) (a : Addr) : Prop where
  ready : S.ready = true
  lt : (c.param : ℤ) < S.count
  sets : S.sets = 1
  param : ∃ type, S.params[c.param]? = some (type, a) ∧ isPiecewise type = true
  size : S.sizes[c.param]? = some size
  ne : a ≠ 0
  set : c.set = 0

theorem Standing.growing {size : ℕ} (h : Standing S p c) (hk : S.taking c = some (.upTo size)) :
    ∃ a, Growing S c size a ∧ p.indicators a = sqlDataAtExec := by
  obtain ⟨type, ind, hparam, hind, hwaits⟩ := h.record
  simp only [Shape.taking, hparam] at hk
  cases htype : isPiecewise type with
  | false => simp [htype] at hk
  | true =>
    simp only [htype, if_true] at hk
    obtain ⟨size', hsize, hsets⟩ := Option.map_eq_some_iff.1 hk
    split_ifs at hsets with hone
    cases hsets
    have hset : c.set = 0 := by
      have hlt := h.set_lt
      omega
    have hwaits : p.indicators ind = sqlDataAtExec := by simpa [hset] using hwaits
    exact ⟨ind, ⟨h.ready, h.lt, hone, ⟨type, hparam, htype⟩, hsize, hind, hset⟩, hwaits⟩

/-- A piece of a value that grows. -/
theorem Growing.put {size n : ℕ} {a : Addr} (h : Growing S c size a) (hcell : p.cell = c)
    (hheld : Held (p.indicators a) n) (hle : n ≤ size) (len : ℤ) :
    S.put len p = some ⟨if size ≤ n + sizeOfLen len then S.after c else c,
      Function.update p.indicators a (min (n + sizeOfLen len) size : ℕ)⟩ := by
  obtain ⟨type, hparam, htype⟩ := h.param
  have hcell' := hcell
  subst hcell'
  have hold : (if p.indicators a = sqlDataAtExec then 0 else p.indicators a) = (n : ℤ) := by
    rcases hheld with ⟨hind, rfl⟩ | hind
    · simp [hind]
    · rw [hind, if_neg]
      simp only [sqlDataAtExec]
      omega
  have hafter : S.after p.cell = S.next type p.cell := by simp [Shape.after, hparam]
  have hroom : roomBehind size n = size - n := if_pos hle
  have hfull : (size - n ≤ sizeOfLen len) = (size ≤ n + sizeOfLen len) := by
    simp only [eq_iff_iff]
    omega
  have hnew : (n : ℤ) + (min (sizeOfLen len) (size - n) : ℕ) =
    (min (n + sizeOfLen len) size : ℕ) := by
    omega
  have hlt := h.lt
  rw [Shape.put, if_neg (by simpa [h.ready] using hlt), hafter]
  simp only [hparam, htype, h.size, h.ne, h.sets, if_true, if_false, hold, sizeOfLen_natCast, hroom,
    hfull, hnew]

theorem Growing.overwrites_iff {size : ℕ} {a : Addr} (h : Growing S c size a) (lens : List ℤ)
    (b : Addr) : S.Overwrites c lens b ↔ b = a := by
  obtain ⟨type, hparam, htype⟩ := h.param
  simp [Shape.Overwrites, hparam, htype, h.set]

/-- Pieces that do not fill the value, behind `n` bytes of it. -/
theorem Growing.puts {size n : ℕ} {a : Addr} (h : Growing S c size a) (hcell : p.cell = c)
    (hheld : Held (p.indicators a) n) (hlt : lens = [] ∨ n + total lens < size) :
    ∃ q, S.puts lens p = some (List.replicate lens.length (some c), q) ∧ q.cell = c ∧
      (q.indicators a = if lens = [] then p.indicators a else (n + total lens : ℕ)) ∧
      ∀ b, b ≠ a → q.indicators b = p.indicators b := by
  induction lens generalizing p n with
  | nil => exact ⟨p, rfl, hcell, rfl, fun b _ => rfl⟩
  | cons len lens ih =>
    have htotal : total (len :: lens) = sizeOfLen len + total lens := by simp [total]
    have hlt : n + total (len :: lens) < size := by simpa using hlt
    have hput := h.put hcell hheld (by omega) len
    rw [if_neg (by omega), Nat.min_eq_left (by omega)] at hput
    have hnew : Function.update p.indicators a ((n + sizeOfLen len : ℕ) : ℤ) a =
        (n + sizeOfLen len : ℕ) := Function.update_self ..
    obtain ⟨q, hputs, hq, hind, hkept⟩ :=
      ih (p := ⟨c, Function.update p.indicators a (n + sizeOfLen len : ℕ)⟩) rfl (.inr hnew)
        (.inr (by omega))
    simp only [hnew] at hind hkept
    have hreceiver : S.receiver p = some c := by
      have hlt := h.lt
      rw [Shape.receiver, hcell, if_neg (by omega)]
    refine ⟨q, ?_, hq, ?_, fun b hb => ?_⟩
    · rw [Shape.puts, hput]
      simp only [hputs, hreceiver]
      rfl
    · rw [hind, htotal, ← Nat.add_assoc, if_neg (List.cons_ne_nil _ _)]
      split_ifs with hnil
      · simp [hnil, total]
      · rfl
    · rw [hkept b hb]
      exact Function.update_of_ne hb _ _

/-- The turn leaves the value open. -/
theorem puts_continues {k : Taking} (h : Standing S p c) (hk : S.taking c = some k)
    (hlens : k.Continues lens) :
    ∃ new, S.puts lens p = some (List.replicate lens.length (some c), ⟨c, new⟩) ∧
      ∀ a, S.indAddr c = some a → new a ≠ sqlDataAtExec := by
  cases k with
  | one => exact hlens.elim
  | upTo size =>
    obtain ⟨hne, hlt⟩ := hlens
    obtain ⟨a, hgrow, hwaits⟩ := h.growing hk
    obtain ⟨q, hputs, hcell, hind, -⟩ :=
      hgrow.puts h.cell (.inl ⟨hwaits, rfl⟩) (.inr (by rwa [Nat.zero_add]))
    refine ⟨q.indicators, by rw [hputs, ← hcell], fun b hb => ?_⟩
    obtain ⟨type, hparam, -⟩ := hgrow.param
    obtain rfl : a = b := by simpa [Shape.indAddr, hparam, hgrow.ne, hgrow.set] using hb
    rw [hind, if_neg hne, sqlDataAtExec]
    omega

/-- The turn completes the value. -/
theorem puts_completes {k : Taking} (h : Standing S p c) (hk : S.taking c = some k)
    (hlens : k.Completes lens) :
    ∃ new, S.puts lens p = some (List.replicate lens.length (some c), ⟨S.after c, new⟩) ∧
      Changed S c lens p.indicators new := by
  have hreceiver : ∀ q : Pos, q.cell = c → S.receiver q = some c := by
    intro q hq
    have hlt := h.lt
    rw [Shape.receiver, hq, if_neg (by omega)]
  cases k with
  | one =>
    obtain ⟨len, rfl⟩ := List.length_eq_one_iff.1 hlens
    obtain ⟨new, hput, hnew⟩ := put_one h hk len
    refine ⟨new, ?_, hnew⟩
    rw [Shape.puts, hput, hreceiver p h.cell]
    rfl
  | upTo size =>
    obtain ⟨init, last, rfl, hinit, hsize⟩ := hlens
    obtain ⟨a, hgrow, hwaits⟩ := h.growing hk
    obtain ⟨q, hputs, hcell, hind, hkept⟩ :=
      hgrow.puts h.cell (.inl ⟨hwaits, rfl⟩) (hinit.imp_right fun hlt => by rwa [Nat.zero_add])
    have hheld : Held (q.indicators a) (total init) ∧ total init ≤ size := by
      rcases hinit with rfl | hlt
      · exact ⟨.inl ⟨hind.trans hwaits, rfl⟩, Nat.zero_le _⟩
      · split_ifs at hind with hnil
        · subst hnil
          exact ⟨.inl ⟨hind.trans hwaits, rfl⟩, Nat.zero_le _⟩
        · exact ⟨.inr (by rw [hind, Nat.zero_add]), Nat.le_of_lt hlt⟩
    have hput := hgrow.put hcell hheld.1 hheld.2 last
    have htotal : total (init ++ [last]) = total init + sizeOfLen last := by simp [total]
    rw [if_pos (by omega)] at hput
    refine ⟨Function.update q.indicators a (min (total init + sizeOfLen last) size : ℕ), ?_,
      fun b hb => ?_, fun b hb => ?_⟩
    · rw [puts_append, hputs, Option.bind_some, Shape.puts, hput, hreceiver q hcell]
      simp [Shape.puts, List.replicate_succ']
    · rw [(hgrow.overwrites_iff _ b).1 hb, Function.update_self, sqlDataAtExec]
      omega
    · have hne : b ≠ a := fun heq => hb ((hgrow.overwrites_iff _ b).2 heq)
      rw [Function.update_of_ne hne, hkept b hne]

/-- A turn leaves the value open or holds the pieces that complete it. -/
theorem Taking.cases (k : Taking) (lens : List ℤ) :
    lens = [] ∨ k.Continues lens ∨ ∃ init rest, lens = init ++ rest ∧ k.Completes init := by
  cases k with
  | one =>
    cases lens with
    | nil => exact .inl rfl
    | cons len rest => exact .inr (.inr ⟨[len], rest, rfl, rfl⟩)
  | upTo size =>
    induction lens using List.reverseRecOn with
    | nil => exact .inl rfl
    | append_singleton init last ih =>
      right
      rcases ih with rfl | ⟨hne, hlt⟩ | ⟨init', rest, rfl, hcomplete⟩
      · by_cases hlt : total ([] ++ [last]) < size
        · exact .inl ⟨by simp, hlt⟩
        · exact .inr ⟨[last], [], by simp, [], last, rfl, .inl rfl, Nat.le_of_not_lt hlt⟩
      · by_cases hlt' : total (init ++ [last]) < size
        · exact .inl ⟨by simp, hlt'⟩
        · exact .inr ⟨init ++ [last], [], by simp, init, last, rfl, .inr hlt, Nat.le_of_not_lt hlt'⟩
      · exact .inr ⟨init', rest ++ [last], by simp, hcomplete⟩

theorem puts_of_taking_none (h : Standing S p c) (hk : S.taking c = none) (hne : lens ≠ []) :
    S.puts lens p = none := by
  obtain ⟨type, ind, hparam, -, -⟩ := h.record
  have hcell := h.cell
  subst hcell
  obtain ⟨len, lens, rfl⟩ := List.exists_cons_of_ne_nil hne
  simp only [Shape.taking, hparam] at hk
  cases htype : isPiecewise type with
  | false => simp [htype] at hk
  | true =>
    have hsize : S.sizes[p.cell.param]? = none := by simpa [htype] using hk
    rw [Shape.puts, Shape.put, if_neg (by simpa [h.ready] using h.lt)]
    simp [hparam, htype, hsize]

end Turn

/-! ## The whole dialogue -/

/-- The dialogue asks for these cells one after another, every piece goes to the cell that was
asked for or to none, and it ends with a success. -/
def Asks (S : Shape) (p : Pos) (cells : List Cell) (turns : List (List ℤ)) : Prop :=
  ∃ log, S.talk turns p = some (log, some .success) ∧ log.map Prod.fst = cells ∧
    ∀ e ∈ log, ∀ receiver ∈ e.2, receiver = none ∨ receiver = some e.1

section Talk

variable {p : Pos} {c : Cell} {cells : List Cell} {lens : List ℤ} {turns : List (List ℤ)}

/-- The order of the cells. -/
def Before (c d : Cell) : Prop := c.param < d.param ∨ c.param = d.param ∧ c.set < d.set

theorem before_after (h : (S.indAddr c).isSome) : Before c (S.after c) := by
  cases hparam : S.params[c.param]? with
  | none => simp [Shape.indAddr, hparam] at h
  | some r =>
    simp only [Shape.after, hparam, Shape.next, Before]
    split_ifs <;> simp

theorem set_after_lt (h : c.set < S.sets) : (S.after c).set < S.sets := by
  unfold Shape.after
  split
  · exact h
  · simp only [Shape.next]
    split_ifs <;> simp <;> omega

theorem not_before_self (c : Cell) : ¬Before c c := by
  simp [Before]

theorem talk_of_success (h : S.wants p = some .success) :
    S.talk turns p = some ([], some .success) := by
  cases turns <;> rw [Shape.talk, h] <;> rfl

theorem talk_of_needData (h : S.wants p = some .needData) :
    S.talk (lens :: turns) p = (S.puts lens p).bind fun r =>
      (S.talk turns r.2).map fun t => ((p.cell, r.1) :: t.1, t.2) := by
  rw [Shape.talk, h]
  simp only [if_true]
  cases S.puts lens p <;> rfl

theorem wants_eq_success_iff (hready : S.ready = true) : S.wants p = some .success ↔
    S.count ≤ p.cell.param ∨ ∃ a, S.indAddr p.cell = some a ∧ p.indicators a ≠ sqlDataAtExec := by
  by_cases hcount : S.count ≤ p.cell.param
  · rw [Shape.wants, if_neg (by simp [hready]), if_pos hcount]
    simp [hcount]
  · rw [wants_eq hready rfl (by omega), Option.map_eq_some_iff]
    simp only [hcount, false_or]
    refine exists_congr fun a => and_congr_right fun _ => ?_
    split_ifs with hwaits <;> simp [hwaits]

/-- The dialogue ends at a cell that does not wait. -/
theorem wants_of_endsAt (hready : S.ready = true) (hends : S.EndsAt p.cell)
    (hquiet : ∀ a, S.indAddr p.cell = some a → p.indicators a ≠ sqlDataAtExec) :
    S.wants p = some .success := by
  refine (wants_eq_success_iff hready).2 (hends.imp_right fun hsome => ?_)
  obtain ⟨a, ha⟩ := Option.isSome_iff_exists.1 hsome
  exact ⟨a, ha, hquiet a ha⟩

theorem endsAt_of_wants (hready : S.ready = true) (h : S.wants p = some .success) :
    S.EndsAt p.cell := by
  refine ((wants_eq_success_iff hready).1 h).imp_right ?_
  rintro ⟨a, ha, -⟩
  simp [ha]

theorem wants_eq_needData (hready : S.ready = true) (h : S.wants p = some .needData) :
    (p.cell.param : ℤ) < S.count ∧ ∃ a, S.indAddr p.cell = some a ∧
    p.indicators a = sqlDataAtExec := by
  by_cases hcount : S.count ≤ p.cell.param
  · rw [Shape.wants, if_neg (by simp [hready]), if_pos hcount] at h
    cases h
  · rw [wants_eq hready rfl (by omega)] at h
    obtain ⟨a, ha, hret⟩ := Option.map_eq_some_iff.1 h
    split_ifs at hret with hwaits
    exact ⟨by omega, a, ha, hwaits⟩

/-- A dialogue that asks for nothing. -/
theorem Asks.nil (h : Asks S p [] turns) : S.wants p = some .success := by
  obtain ⟨log, htalk, hcells, -⟩ := h
  obtain rfl := List.map_eq_nil_iff.1 hcells
  rw [Shape.talk.eq_def] at htalk
  cases hwants : S.wants p with
  | none => simp [hwants] at htalk
  | some ret =>
    simp only [hwants] at htalk
    split_ifs at htalk with hret
    · cases turns with
      | nil => simp at htalk
      | cons lens turns =>
        simp only at htalk
        cases hputs : S.puts lens p with
        | none => simp [hputs] at htalk
        | some r => simp [hputs] at htalk
    · simpa using htalk

/-- A dialogue that asks for a cell first. -/
theorem Asks.cons (h : Asks S p (c :: cells) turns) (hready : S.ready = true) :
    ∃ lens turns' receivers q, turns = lens :: turns' ∧ p.cell = c ∧ (c.param : ℤ) < S.count ∧
      (∃ a, S.indAddr c = some a ∧ p.indicators a = sqlDataAtExec) ∧
      S.puts lens p = some (receivers, q) ∧
      (∀ receiver ∈ receivers, receiver = none ∨ receiver = some c) ∧ Asks S q cells turns' := by
  obtain ⟨log, htalk, hcells, hclean⟩ := h
  obtain ⟨e, log, rfl, rfl, rfl⟩ := List.map_eq_cons_iff.1 hcells
  have hwants : S.wants p = some .needData := by
    rw [Shape.talk.eq_def] at htalk
    cases hwants : S.wants p with
    | none => simp [hwants] at htalk
    | some ret =>
      simp only [hwants] at htalk
      split_ifs at htalk with hret
      · rw [hret]
      · simp at htalk
  obtain ⟨hlt, hwaits⟩ := wants_eq_needData hready hwants
  cases turns with
  | nil =>
    rw [Shape.talk, hwants] at htalk
    simp at htalk
  | cons lens turns =>
    rw [talk_of_needData hwants] at htalk
    obtain ⟨r, hputs, hmap⟩ := Option.bind_eq_some_iff.1 htalk
    obtain ⟨s, hrest, heq⟩ := Option.map_eq_some_iff.1 hmap
    simp only [Prod.mk.injEq, List.cons.injEq] at heq
    obtain ⟨⟨rfl, rfl⟩, hlast⟩ := heq
    exact ⟨lens, turns, r.1, r.2, rfl, rfl, hlt, hwaits, hputs, hclean _ List.mem_cons_self, s.1,
      by rw [hrest, ← hlast], rfl, fun e he => hclean e (List.mem_cons_of_mem _ he)⟩

/-- A dialogue that asks for a cell first, put together. -/
theorem Asks.of_turn {receivers : List (Option Cell)} {q : Pos} (hready : S.ready = true)
    (hs : Standing S p c) (hputs : S.puts lens p = some (receivers, q))
    (hreceivers : ∀ receiver ∈ receivers, receiver = none ∨ receiver = some c)
    (hrest : Asks S q cells turns) : Asks S p (c :: cells) (lens :: turns) := by
  obtain ⟨log, htalk, rfl, hclean⟩ := hrest
  obtain ⟨a, ha, hwaits⟩ := hs.waits
  have hwants : S.wants p = some .needData := by
    rw [wants_eq hready hs.cell hs.lt, ha, Option.map_some, if_pos hwaits]
  refine ⟨(c, receivers) :: log, ?_, rfl, ?_⟩
  · rw [talk_of_needData hwants, hputs, Option.bind_some, htalk, hs.cell]
    rfl
  · exact List.forall_mem_cons.2 ⟨hreceivers, hclean⟩

theorem asks_nil_of_wants (h : S.wants p = some .success) : Asks S p [] turns :=
  ⟨[], talk_of_success h, rfl, by simp⟩

/-- The cells that are still to be asked for, seen from the cursor : they are parameters, each
of them once, and no other cell from the cursor on waits. -/
structure Left (S : Shape) (p : Pos) (cells : List Cell) : Prop where
  set_lt : ∀ c ∈ cells, c.set < S.sets
  ind : ∀ c ∈ cells, (S.indAddr c).isSome
  nodup : cells.Nodup
  quiet : ∀ c, c.set < S.sets → p.cell = c ∨ Before p.cell c → c ∉ cells →
    ∀ a, S.indAddr c = some a → p.indicators a ≠ sqlDataAtExec

/-- A turn that completes the value of the first of them. -/
theorem Left.after {new : Addr → ℤ} (h : Left S p (c :: cells)) (hcell : p.cell = c)
    (hnew : Changed S c lens p.indicators new) : Left S ⟨S.after c, new⟩ cells where
  set_lt d hd := h.set_lt d (List.mem_cons_of_mem _ hd)
  ind d hd := h.ind d (List.mem_cons_of_mem _ hd)
  nodup := (List.nodup_cons.1 h.nodup).2
  quiet d hset hfrom hmem a ha := by
    have hbefore := before_after (h.ind c List.mem_cons_self)
    have hd : Before c d := by
      simp only at hfrom
      rcases hfrom with rfl | hd
      · exact hbefore
      · unfold Before at *
        omega
    have hne : d ≠ c := fun heq => not_before_self c (heq ▸ hd)
    have hold := h.quiet d hset (.inr (hcell ▸ hd)) (by simp [hne, hmem]) a ha
    by_cases hover : S.Overwrites c lens a
    · exact hnew.stored a hover
    · exact fun heq => hold ((hnew.kept a hover).symm.trans heq)

/-- Cells that wait after a turn have waited before it and were not touched by it. -/
theorem waits_iff_of_changed {new : Addr → ℤ} (hnew : Changed S c lens p.indicators new)
    (d : Cell) :
    S.Waits new d ↔ S.Waits p.indicators d ∧ ∀ a, S.indAddr d = some a →
    ¬S.Overwrites c lens a := by
  constructor
  · rintro ⟨hlt, hwaits⟩
    have hnot : ∀ a, S.indAddr d = some a → ¬S.Overwrites c lens a :=
      fun a ha hover => hnew.stored a hover (hwaits a ha)
    exact ⟨⟨hlt, fun a ha => (hnew.kept a (hnot a ha)).symm.trans (hwaits a ha)⟩, hnot⟩
  · rintro ⟨⟨hlt, hwaits⟩, hnot⟩
    exact ⟨hlt, fun a ha => (hnew.kept a (hnot a ha)).trans (hwaits a ha)⟩

/-- The dialogue asks for the cells in turn if they follow each other. -/
theorem asks_of_follow (hready : S.ready = true) (hleft : Left S p (c :: cells))
    (hcell : p.cell = c) (hwaits : ∀ d ∈ c :: cells, S.Waits p.indicators d)
    (hfollow : S.Follow (c :: cells) turns) (hturns : turns.length = (c :: cells).length) :
    Asks S p (c :: cells) turns := by
  induction cells generalizing p c turns with
  | nil =>
    obtain ⟨lens, rfl⟩ := List.length_eq_one_iff.1 hturns
    obtain ⟨a, ha⟩ := Option.isSome_iff_exists.1 (hleft.ind c List.mem_cons_self)
    obtain ⟨hlt, hc⟩ := hwaits c List.mem_cons_self
    have hs : Standing S p c :=
      ⟨hready, hcell, hlt, hleft.set_lt c List.mem_cons_self, a, ha, hc a ha⟩
    obtain ⟨k, hk, hcont | ⟨init, rest, rfl, hcomplete, hend⟩⟩ := hfollow
    · obtain ⟨new, hputs, hquiet⟩ := puts_continues hs hk hcont
      refine .of_turn hready hs hputs (fun _ h => .inr (List.eq_of_mem_replicate h)) ?_
      exact asks_nil_of_wants (wants_of_endsAt hready (.inr (by simp [ha])) hquiet)
    · obtain ⟨new, hputs, hnew⟩ := puts_completes hs hk hcomplete
      have hquiet := (hleft.after hcell hnew).quiet (S.after c)
        (set_after_lt (hleft.set_lt c List.mem_cons_self)) (.inl rfl) List.not_mem_nil
      rcases hend with hcount | ⟨rfl, hends⟩
      · have hall : S.puts (init ++ rest) p = some (List.replicate init.length (some c) ++
            List.replicate rest.length none, ⟨S.after c, new⟩) := by
          rw [puts_append, hputs, Option.bind_some, puts_dropped hcount]
          rfl
        refine .of_turn hready hs hall ?_ ?_
        · intro receiver h
          rcases List.mem_append.1 h with h | h
          · exact .inr (List.eq_of_mem_replicate h)
          · exact .inl (List.eq_of_mem_replicate h)
        · exact asks_nil_of_wants (wants_of_endsAt hready (.inl hcount) hquiet)
      · rw [List.append_nil]
        refine .of_turn hready hs hputs (fun _ h => .inr (List.eq_of_mem_replicate h)) ?_
        exact asks_nil_of_wants (wants_of_endsAt hready hends hquiet)
  | cons d cells ih =>
    obtain ⟨lens, turns, rfl⟩ := List.exists_cons_of_length_eq_add_one hturns
    obtain ⟨a, ha⟩ := Option.isSome_iff_exists.1 (hleft.ind c List.mem_cons_self)
    obtain ⟨hlt, hc⟩ := hwaits c List.mem_cons_self
    have hs : Standing S p c :=
      ⟨hready, hcell, hlt, hleft.set_lt c List.mem_cons_self, a, ha, hc a ha⟩
    obtain ⟨⟨k, hk, hcomplete⟩, hafter, hnot, hfollow⟩ := hfollow
    obtain ⟨new, hputs, hnew⟩ := puts_completes hs hk hcomplete
    refine .of_turn hready hs hputs (fun _ h => .inr (List.eq_of_mem_replicate h)) ?_
    refine ih (hleft.after hcell hnew) hafter (fun e he => ?_) hfollow (by simpa using hturns)
    exact (waits_iff_of_changed hnew e).2 ⟨hwaits e (List.mem_cons_of_mem _ he), hnot e he⟩

/-- The first turn of a dialogue that asks for the cells in turn : it ends the dialogue, or it
completes the value. -/
theorem Asks.turn (h : Asks S p (c :: cells) turns) (hready : S.ready = true)
    (hleft : Left S p (c :: cells)) :
    ∃ lens turns', turns = lens :: turns' ∧ p.cell = c ∧ S.Waits p.indicators c ∧
      (cells = [] ∧ S.Follow [c] turns ∨
        (∃ k, S.taking c = some k ∧ k.Completes lens) ∧
          ∃ new, Changed S c lens p.indicators new ∧ Asks S ⟨S.after c, new⟩ cells turns') := by
  obtain ⟨lens, turns', receivers, q, rfl, hcell, hlt, ⟨a, ha, hwaits⟩, hputs, hclean, hrest⟩ :=
    h.cons hready
  have hs : Standing S p c := ⟨hready, hcell, hlt, hleft.set_lt c List.mem_cons_self, a, ha, hwaits⟩
  have hc : S.Waits p.indicators c := by
    refine ⟨hlt, fun b hb => ?_⟩
    obtain rfl := Option.some.inj (ha.symm.trans hb)
    exact hwaits
  -- a dialogue that stays at the cell, which waits no more, is at its end
  have hend : ∀ q : Pos, Asks S q cells turns' → S.wants q = some .success → cells = [] := by
    intro q hq hwants
    cases cells with
    | nil => rfl
    | cons d cells =>
      obtain ⟨-, -, -, -, -, rfl, hlt, ⟨b, hb, hwaits⟩, -⟩ := hq.cons hready
      rw [wants_eq hready rfl hlt, hb, Option.map_some, if_pos hwaits] at hwants
      cases hwants
  -- without a piece the same cell is asked for again
  have hne : lens ≠ [] := by
    rintro rfl
    cases hputs
    cases cells with
    | nil =>
      have hwants := hrest.nil
      rw [wants_eq hready hcell hlt, ha, Option.map_some, if_pos hwaits] at hwants
      cases hwants
    | cons d cells =>
      obtain ⟨-, -, -, -, -, hcell', -⟩ := hrest.cons hready
      have hmem := (List.nodup_cons.1 hleft.nodup).1
      exact hmem (by simp [hcell.symm.trans hcell'])
  refine ⟨lens, turns', rfl, hcell, hc, ?_⟩
  cases hk : S.taking c with
  | none =>
    rw [puts_of_taking_none hs hk hne] at hputs
    cases hputs
  | some k =>
    rcases k.cases lens with hnil | hcont | ⟨init, rest, rfl, hcomplete⟩
    · exact absurd hnil hne
    · obtain ⟨new, hputs', hquiet⟩ := puts_continues hs hk hcont
      obtain ⟨-, rfl⟩ := Prod.mk.inj (Option.some.inj (hputs.symm.trans hputs'))
      obtain rfl := hend _ hrest (wants_of_endsAt hready (.inr (by simp [ha])) hquiet)
      exact .inl ⟨rfl, k, hk, .inl hcont⟩
    · obtain ⟨new, hputs', hnew⟩ := puts_completes hs hk hcomplete
      rw [puts_append, hputs', Option.bind_some] at hputs
      obtain ⟨s, hs', heq⟩ := Option.map_eq_some_iff.1 hputs
      obtain ⟨rfl, rfl⟩ := Prod.mk.inj heq
      cases rest with
      | nil =>
        cases hs'
        rw [List.append_nil]
        exact .inr ⟨⟨k, rfl, hcomplete⟩, new, hnew, hrest⟩
      | cons len rest =>
        -- the next piece goes to another cell, or to none behind the last parameter
        have hcount : S.count ≤ (S.after c).param := by
          by_contra hin
          rw [Shape.puts] at hs'
          cases hput : S.put len ⟨S.after c, new⟩ with
          | none => simp [hput] at hs'
          | some r =>
            simp only [hput, Option.map_eq_some_iff] at hs'
            obtain ⟨r', -, rfl⟩ := hs'
            have hreceiver := hclean (S.receiver ⟨S.after c, new⟩) (by simp)
            rw [Shape.receiver, if_neg hin] at hreceiver
            have hafter : S.after c = c := by simpa using hreceiver
            exact not_before_self c
              (by simpa [hafter] using before_after (S := S) (c := c) (by simp [ha]))
        rw [puts_dropped hcount] at hs'
        cases hs'
        have hwants : S.wants ⟨S.after c, new⟩ = some .success := by
          rw [Shape.wants, if_neg (by simp [hready]), if_pos hcount]
        obtain rfl := hend _ hrest hwants
        exact .inl ⟨rfl, k, hk, .inr ⟨init, len :: rest, rfl, hcomplete, .inl hcount⟩⟩

/-- And only then. -/
theorem follow_of_asks (hready : S.ready = true) (hleft : Left S p (c :: cells))
    (hasks : Asks S p (c :: cells) turns) :
    p.cell = c ∧ (∀ d ∈ c :: cells, S.Waits p.indicators d) ∧ S.Follow (c :: cells) turns := by
  induction cells generalizing p c turns with
  | nil =>
    obtain ⟨lens, turns', rfl, hcell, hc, hturn⟩ := hasks.turn hready hleft
    refine ⟨hcell, by simpa using hc, ?_⟩
    rcases hturn with ⟨-, hfollow⟩ | ⟨⟨k, hk, hcomplete⟩, new, hnew, hrest⟩
    · exact hfollow
    · exact ⟨k, hk, .inr ⟨lens, [], by simp, hcomplete,
        .inr ⟨rfl, endsAt_of_wants hready hrest.nil⟩⟩⟩
  | cons d cells ih =>
    obtain ⟨lens, turns', rfl, hcell, hc, hturn⟩ := hasks.turn hready hleft
    rcases hturn with ⟨hnil, -⟩ | ⟨hcomplete, new, hnew, hrest⟩
    · cases hnil
    · obtain ⟨hd, hwaits, hfollow⟩ := ih (hleft.after hcell hnew) hrest
      have hold := fun e he => (waits_iff_of_changed hnew e).1 (hwaits e he)
      exact ⟨hcell, List.forall_mem_cons.2 ⟨hc, fun e he => (hold e he).1⟩, hcomplete, hd,
        fun e he => (hold e he).2, hfollow⟩

theorem mem_grid {c : Cell} : c ∈ S.grid ↔ c.param < S.params.length ∧ c.set < S.sets := by
  simp only [Shape.grid, List.mem_flatMap, List.mem_map, List.mem_range]
  constructor
  · rintro ⟨i, hi, k, hk, rfl⟩
    exact ⟨hi, hk⟩
  · rintro ⟨hi, hk⟩
    exact ⟨c.param, hi, c.set, hk, rfl⟩

theorem nodup_grid (S : Shape) : S.grid.Nodup := by
  refine List.nodup_flatMap.2 ⟨fun i _ => ?_, ?_⟩
  · exact List.nodup_range.map fun k k' h => (Cell.mk.inj h).2
  · refine List.nodup_range.imp fun {i j} hne => ?_
    intro c hi hj
    obtain ⟨k, -, rfl⟩ := List.mem_map.1 hi
    obtain ⟨k', -, heq⟩ := List.mem_map.1 hj
    exact hne (Cell.mk.inj heq).1.symm

theorem left_atExec (S : Shape) (p : Pos) : Left S p (S.atExec p.indicators) where
  set_lt c hc := (mem_grid.1 (List.mem_filter.1 hc).1).2
  ind c hc := by
    obtain ⟨-, hany⟩ := List.mem_filter.1 hc
    cases ha : S.indAddr c with
    | none => simp [ha] at hany
    | some a => rfl
  nodup := (nodup_grid S).filter _
  quiet c hset _ hmem a ha hwaits := by
    refine hmem (List.mem_filter.2 ⟨mem_grid.2 ⟨?_, hset⟩, ?_⟩)
    · by_contra hlt
      rw [Shape.indAddr, List.getElem?_eq_none (by omega)] at ha
      cases ha
    · simp [ha, hwaits, AtExec]

/-- The dialogue asks for the cells with data at execution in turn exactly if they are in
order. -/
theorem asks_atExec_iff (S : Shape) (p : Pos) (turns : List (List ℤ))
    (hturns : turns.length = (S.atExec p.indicators).length) :
    Asks S p (S.atExec p.indicators) turns ↔ S.InOrder p turns := by
  have hleft := left_atExec S p
  unfold Shape.InOrder
  cases hready : S.ready with
  | false =>
    have hwants : S.wants p = some .error := by rw [Shape.wants, if_pos hready]
    refine ⟨?_, by simp⟩
    rintro ⟨log, htalk, -⟩
    cases turns <;> · rw [Shape.talk, hwants] at htalk; simp at htalk
  | true =>
    simp only [true_and]
    generalize S.atExec p.indicators = cells at hleft hturns
    cases cells with
    | nil =>
      rw [← wants_eq_success_iff hready]
      exact ⟨Asks.nil, asks_nil_of_wants⟩
    | cons c cells =>
      constructor
      · exact follow_of_asks hready hleft
      · rintro ⟨hcell, hwaits, hfollow⟩
        exact asks_of_follow hready hleft hcell hwaits hfollow hturns

end Talk

end Dialogue

open Dialogue

namespace Talk

variable {ρ V : Type}

/-- The dialogue asks for each cell with data at execution once and in order, every piece goes
to the cell that was asked for (or to none, behind the last parameter), and the dialogue ends
with a success. -/
def AsksEach (t : Talk ρ V) (turns : List (List Piece)) : Prop :=
  ∃ log, t.dialogue turns = some (log, some .success) ∧
    log.map Prod.fst = t.shape.atExec t.mem.indicators ∧
    ∀ e ∈ log, ∀ receiver ∈ e.2, receiver = none ∨ receiver = some e.1

/-- For an application that answers as many requests as there are cells with data at
execution. -/
theorem asksEach_iff (t : Talk ρ V) (turns : List (List Piece))
    (hturns : turns.length = (t.shape.atExec t.mem.indicators).length) :
    t.AsksEach turns ↔ t.shape.InOrder t.pos (turns.map (·.map Piece.strLenOrInd)) := by
  rw [← asks_atExec_iff _ _ _ (by rw [List.length_map]; exact hturns), AsksEach, Asks, dialogue_pos]
  rfl

/-- The memory of an application whose indicators stand at 1000. -/
def memoryOf (indicators : List ℤ) : Memory :=
  ⟨fun a => indicators[((a - 1000) / 8).toNat]?.getD 0, fun _ => [], [], fun _ => none, 0⟩

/-- A prepared statement whose parameters have these C types, column sizes and indicators. -/
def ofParams (params : List (ℤ × ℕ × ℤ)) : Talk ℕ ℕ :=
  let h : OdbcHandleStmt ℕ ℕ := OdbcHandleStmt.alloc OdbcHandleStmt.blank
  let apd : ParamDesc := ⟨{ count := params.length }, params.zipIdx.map fun p =>
    { type := p.1.1, dataPtr := p.2 + 1, indicatorPtr := 1000 + 8 * p.2 }⟩
  let ipd : ParamDesc := ⟨{ count := params.length }, params.map fun p =>
    { type := 12, length := p.2.1 }⟩
  ⟨{ h with
      stmt := some ⟨none, params.length, 1, true, false⟩
      paramDesc := { apd := apd, ipd := ipd } },
    memoryOf (params.map fun p => p.2.2)⟩

/-- A piece with these bytes, and its length. -/
def pieceOf (bytes : List UInt8) : Piece := ⟨9000, bytes, bytes.length, 5000⟩

/-- Two values that their pieces fill, the second one in two pieces. -/
theorem asksEach_filled :
    (ofParams [(-2, 3, -2), (-2, 6, -2)]).AsksEach
      [[pieceOf [98, 97, 114]], [pieceOf [102, 111, 111], pieceOf [98, 97, 114]]] := by
  refine (asksEach_iff _ _ rfl).2 ⟨rfl, ?_⟩
  have hcells : (ofParams [(-2, 3, -2), (-2, 6, -2)]).shape.atExec
      (ofParams [(-2, 3, -2), (-2, 6, -2)]).pos.indicators = [⟨0, 0⟩, ⟨1, 0⟩] := rfl
  rw [hcells]
  refine ⟨rfl, ?_, ⟨.upTo 3, rfl, [], 3, rfl, .inl rfl, by decide⟩, rfl, ?_, .upTo 6, rfl,
    .inr ⟨[3, 3], [], rfl, ⟨[3], 3, rfl, .inr (by decide), by decide⟩, .inl (by decide)⟩⟩
  · refine List.forall_mem_cons.2 ⟨⟨by decide, ?_⟩, List.forall_mem_singleton.2 ⟨by decide, ?_⟩⟩ <;>
      rintro a ⟨⟩ <;> rfl
  · refine List.forall_mem_singleton.2 ?_
    rintro a ⟨⟩ hover
    exact absurd (show (1008 : ℤ) = 1000 from hover) (by decide)

/-- A value that does not fill its column : the second one is never asked for. A parameter that
has its value already, before one with data at execution : nothing is asked for. -/
theorem not_asksEach :
    ¬(ofParams [(-2, 6, -2), (-2, 6, -2)]).AsksEach
      [[pieceOf [98, 97, 114]], [pieceOf [102, 111, 111]]] ∧
    ¬(ofParams [(4, 10, 4), (-2, 6, -2)]).AsksEach [[pieceOf [98, 97, 114]]] := by
  constructor
  · rintro ⟨log, hdialogue, hcells, -⟩
    have hlog : (ofParams [(-2, 6, -2), (-2, 6, -2)]).dialogue
        [[pieceOf [98, 97, 114]], [pieceOf [102, 111, 111]]] =
          some ([(⟨0, 0⟩, [some ⟨0, 0⟩])], some .success) := rfl
    cases hlog.symm.trans hdialogue
    exact absurd hcells (by decide)
  · rintro ⟨log, hdialogue, hcells, -⟩
    have hlog : (ofParams [(4, 10, 4), (-2, 6, -2)]).dialogue [[pieceOf [98, 97, 114]]] =
        some ([], some .success) := rfl
    cases hlog.symm.trans hdialogue
    exact absurd hcells (by decide)

end Talk

end HaybarnOdbc
