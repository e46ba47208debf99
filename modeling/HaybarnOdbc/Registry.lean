import Mathlib.Data.List.Nodup
import HaybarnOdbc.Descriptors
import HaybarnOdbc.Lib.Run

/-!
# The statements that a connection knows of

`vec_stmt_ref` of a connection lets the release of a descriptor reach every statement that
uses it. The allocations, the releases and the choice of current descriptors keep it exact
(`Registered`), and so no statement is left with a descriptor that is gone (`registered`).
-/

namespace HaybarnOdbc.Desc

/-- The allocations and releases of handles, and the choice of the current descriptors of a
statement. An allocation says which addresses it got. -/
inductive Action
  | allocStmt (dbc a apd ipd ard ird : Handle)
  | allocDesc (dbc a : Handle)
  | freeHandleStmt (a : Handle)
  | freeHandleDesc (a : Handle)
  | freeStmtDrop (a : Handle)
  | setAppParamDesc (a d : Handle)
  | setAppRowDesc (a d : Handle)
  | setConn (dbc : Handle) (isOpen : Bool)
  deriving DecidableEq, Repr

namespace World

variable (w : World)

/-- A descriptor that the application allocated : a live one that no statement owns. -/
def Explicit (d : Handle) : Prop :=
  (w.descs d).isSome ∧ ∀ a s, w.stmts a = some s → d ∉ s.owned

/-- A descriptor that the application allocated on the connection. -/
def ExplicitOf (dbc d : Handle) : Prop :=
  w.Explicit d ∧ ∀ x, w.descs d = some x → x.dbc = dbc

/-- Before anything is allocated. -/
def start (env : Handle → Handle) : World where
  conn _ := false
  env := env
  vecStmtRef _ := []
  stmts _ := none
  descs _ := none
  clock := 0

/-- One action. -/
def perform : Action → Option World
  | .allocStmt dbc a apd ipd ard ird => some (w.allocStmt dbc a apd ipd ard ird)
  | .allocDesc dbc a => some (w.allocDesc dbc a)
  | .freeHandleStmt a => w.freeHandleStmt a
  | .freeHandleDesc a => w.freeHandleDesc a
  | .freeStmtDrop a => (w.sqlFreeStmtDrop a).map Prod.snd
  | .setAppParamDesc a d => (w.onStmt a fun s => w.setAPD a s d).map Prod.snd
  | .setAppRowDesc a d => (w.onStmt a fun s => w.setARD a s d).map Prod.snd
  | .setConn dbc isOpen => some { w with conn := Function.update w.conn dbc isOpen }

/-- What the application and the allocator see to : handles are live, the descriptor that is
released or named was allocated by the application, on the same connection as the statement,
and a new handle gets addresses that nothing else has. -/
def Allowed : Action → Prop
  | .allocStmt _ a apd ipd ard ird =>
    w.stmts a = none ∧ ∀ d ∈ [apd, ipd, ard, ird], w.descs d = none
  | .allocDesc _ a => w.descs a = none
  | .freeHandleStmt a => (w.stmts a).isSome
  | .freeHandleDesc a => w.Explicit a
  | .freeStmtDrop a => (w.stmts a).isSome
  | .setAppParamDesc a d | .setAppRowDesc a d =>
    w.Explicit d ∧ ∃ s x, w.stmts a = some s ∧ w.descs d = some x ∧ x.dbc = s.dbc
  | .setConn _ _ => True

end World

/-- An action that is allowed. -/
structure Does (w : World) (i : Action) (w' : World) : Prop where
  allowed : w.Allowed i
  performs : w.perform i = some w'

/-- `vec_stmt_ref` has the live statements of the connection, once each and in the order of
their allocation; and the current descriptors of a statement are its own, or live ones that the
application allocated on the same connection. -/
structure Registered (w : World) : Prop where
  exact : ∀ dbc a, a ∈ w.vecStmtRef dbc ↔ ∃ s, w.stmts a = some s ∧ s.dbc = dbc
  nodup : ∀ dbc, (w.vecStmtRef dbc).Nodup
  order : ∀ dbc, (w.vecStmtRef dbc).Pairwise fun a b =>
    ∀ s t, w.stmts a = some s → w.stmts b = some t → s.born < t.born
  born : ∀ a s, w.stmts a = some s → s.born < w.clock
  owned : ∀ a s, w.stmts a = some s → ∀ d ∈ s.owned, (w.descs d).isSome
  apart : ∀ a b s t, w.stmts a = some s → w.stmts b = some t → a ≠ b → s.owned.Disjoint t.owned
  curApd : ∀ a s, w.stmts a = some s → s.curApd = s.apd ∨ w.ExplicitOf s.dbc s.curApd
  curArd : ∀ a s, w.stmts a = some s → s.curArd = s.ard ∨ w.ExplicitOf s.dbc s.curArd

namespace World

variable {w : World}

theorem resetCurrent_resetCurrent (old : Handle) (s : OdbcHandleStmt) :
    resetCurrent old (resetCurrent old s) = resetCurrent old s := by
  simp only [resetCurrent, OdbcHandleStmt.mk.injEq, true_and, and_true]
  constructor <;> split_ifs <;> simp_all

/-- The statements of the list are reset, whether they are in it once or more often. -/
theorem resetStmtDescriptors_eq (old : Handle) : ∀ {l : List Handle} {w : World},
    (∀ a ∈ l, (w.stmts a).isSome) → resetStmtDescriptors old l w = some { w with
      stmts := fun a => if a ∈ l then (w.stmts a).map (resetCurrent old) else w.stmts a } := by
  intro l
  induction l with
  | nil => intro w _; simp [resetStmtDescriptors]
  | cons a l ih =>
    intro w hl
    obtain ⟨s, hs⟩ := Option.isSome_iff_exists.1 (hl a (List.mem_cons_self ..))
    have hlive : ∀ b ∈ l, ((w.setStmt a (resetCurrent old s)).stmts b).isSome := by
      intro b hb
      simp only [setStmt, Function.update_apply]
      split_ifs
      · rfl
      · exact hl b (List.mem_cons_of_mem _ hb)
    simp only [resetStmtDescriptors, hs, Option.bind_eq_bind, Option.bind_some, ih hlive]
    congr 2
    funext b
    simp only [setStmt, Function.update_apply, List.mem_cons]
    by_cases hb : b = a
    · subst hb
      simp [hs, resetCurrent_resetCurrent]
    · simp [hb]

/-- A descriptor of the application stays one, if it stays at all and new statements do not own
it. -/
theorem ExplicitOf.mono {w' : World} {dbc d : Handle}
    (h : w.ExplicitOf dbc d) (hdesc : (w'.descs d).map OdbcHandleDesc.dbc =
      (w.descs d).map OdbcHandleDesc.dbc)
    (hstmts : ∀ a s, w'.stmts a = some s → d ∈ s.owned → ∃ a s, w.stmts a = some s ∧ d ∈ s.owned) :
    w'.ExplicitOf dbc d := by
  obtain ⟨⟨hlive, hfree⟩, hdbc⟩ := h
  refine ⟨⟨?_, fun a s hs hmem => ?_⟩, fun x hx => ?_⟩
  · rw [← Option.isSome_map (f := OdbcHandleDesc.dbc), hdesc, Option.isSome_map]
    exact hlive
  · obtain ⟨a, s, hs, hmem⟩ := hstmts a s hs hmem
    exact hfree a s hs hmem
  · rw [hx] at hdesc
    obtain ⟨x', hx', heq⟩ := Option.map_eq_some_iff.1 hdesc.symm
    rw [← heq]
    exact hdbc x' hx'

end World

/-! ## What the actions keep -/

namespace Registered

variable {w : World}

theorem start (env : Handle → Handle) : Registered (World.start env) := by
  constructor <;> simp [World.start]

/-- A statement is in no list before it is allocated. -/
theorem not_mem (h : Registered w) {a : Handle} (ha : w.stmts a = none) (dbc : Handle) :
    a ∉ w.vecStmtRef dbc := by
  rw [h.exact]
  rintro ⟨s, hs, -⟩
  rw [ha] at hs
  cases hs

theorem allocStmt (h : Registered w) {dbc a apd ipd ard ird : Handle} (ha : w.stmts a = none)
    (hfresh : ∀ d ∈ [apd, ipd, ard, ird], w.descs d = none) :
    Registered (w.allocStmt dbc a apd ipd ard ird) := by
  have hstmts : ∀ b s, (w.allocStmt dbc a apd ipd ard ird).stmts b = some s →
      (b = a ∧ s = ⟨dbc, apd, ipd, ard, ird, apd, ard, none, 0, 0, 0, w.clock⟩) ∨
        (b ≠ a ∧ w.stmts b = some s) := by
    intro b s hs
    simp only [World.allocStmt, Function.update_apply] at hs
    split_ifs at hs with hb
    · exact .inl ⟨hb, (Option.some.inj hs).symm⟩
    · exact .inr ⟨hb, hs⟩
  have hdescs : ∀ d, (w.descs d).isSome →
      (w.allocStmt dbc a apd ipd ard ird).descs d = w.descs d := by
    intro d hd
    have hd' : d ∉ [apd, ipd, ard, ird] := fun hmem => by
      rw [hfresh d hmem] at hd
      cases hd
    simp only [List.mem_cons, List.not_mem_nil, or_false, not_or] at hd'
    simp [World.allocStmt, hd']
  have hcur : ∀ dbc' d, w.ExplicitOf dbc' d →
      (w.allocStmt dbc a apd ipd ard ird).ExplicitOf dbc' d := by
    intro dbc' d hd
    refine hd.mono (by rw [hdescs d hd.1.1]) fun b s hs hmem => ?_
    rcases hstmts b s hs with ⟨-, rfl⟩ | ⟨-, hs⟩
    · have hlive := hd.1.1
      rw [hfresh d hmem] at hlive
      cases hlive
    · exact ⟨b, s, hs, hmem⟩
  have hvec : ∀ dbc', (w.allocStmt dbc a apd ipd ard ird).vecStmtRef dbc'
      = if dbc' = dbc then w.vecStmtRef dbc' ++ [a] else w.vecStmtRef dbc' := by
    intro dbc'
    simp only [World.allocStmt, Function.update_apply]
    split_ifs with heq
    · rw [heq]
    · rfl
  have hnew : (w.allocStmt dbc a apd ipd ard ird).stmts a
      = some ⟨dbc, apd, ipd, ard, ird, apd, ard, none, 0, 0, 0, w.clock⟩ := by
    simp [World.allocStmt]
  have hold : ∀ b, b ≠ a → (w.allocStmt dbc a apd ipd ard ird).stmts b = w.stmts b := by
    intro b hb
    simp [World.allocStmt, hb]
  refine ⟨fun dbc' b => ?_, fun dbc' => ?_, fun dbc' => ?_, fun b s hs => ?_, fun b s hs d hd => ?_,
    fun b c s t hs ht hne => ?_, fun b s hs => ?_, fun b s hs => ?_⟩
  · rw [hvec]
    by_cases hb : b = a
    · subst hb
      rw [hnew]
      split_ifs with heq
      · simp [heq]
      · simp only [h.not_mem ha dbc', Option.some.injEq, exists_eq_left', false_iff]
        exact fun heq' => heq heq'.symm
    · rw [hold b hb, ← h.exact]
      split_ifs
      · simp [hb]
      · rfl
  · rw [hvec]
    split_ifs
    · refine List.nodup_append.2 ⟨h.nodup dbc', List.nodup_singleton a, fun b hb c hc heq => ?_⟩
      rw [heq, List.mem_singleton.1 hc] at hb
      exact h.not_mem ha dbc' hb
    · exact h.nodup dbc'
  · have hkeep : (w.vecStmtRef dbc').Pairwise fun b c => ∀ s t,
        (w.allocStmt dbc a apd ipd ard ird).stmts b = some s →
        (w.allocStmt dbc a apd ipd ard ird).stmts c = some t → s.born < t.born := by
      refine (h.order dbc').imp_of_mem fun hb hc hlt s t hs ht => hlt s t ?_ ?_
      · rwa [hold _ fun heq => h.not_mem ha dbc' (heq ▸ hb)] at hs
      · rwa [hold _ fun heq => h.not_mem ha dbc' (heq ▸ hc)] at ht
    rw [hvec]
    split_ifs
    · refine List.pairwise_append.2 ⟨hkeep, List.pairwise_singleton _ a,
        fun b hb c hc s t hs ht => ?_⟩
      -- the clock is ahead of the statements that there are
      rw [List.mem_singleton.1 hc, hnew] at ht
      cases ht
      rw [hold b fun heq => h.not_mem ha dbc' (heq ▸ hb)] at hs
      exact h.born b s hs
    · exact hkeep
  · rcases hstmts b s hs with ⟨-, rfl⟩ | ⟨-, hs⟩
    · exact Nat.lt_succ_self _
    · exact Nat.lt_succ_of_lt (h.born b s hs)
  · rcases hstmts b s hs with ⟨-, rfl⟩ | ⟨-, hs⟩
    · simp only [World.allocStmt, OdbcHandleStmt.owned, List.mem_cons, List.not_mem_nil, or_false]
        at hd ⊢
      split_ifs <;> first | rfl | tauto
    · rw [hdescs d (h.owned b s hs d hd)]
      exact h.owned b s hs d hd
  · have hapart : ∀ b s, w.stmts b = some s → s.owned.Disjoint [apd, ipd, ard, ird] := by
      intro b s hs d hd hd'
      have hlive := h.owned b s hs d hd
      rw [hfresh d hd'] at hlive
      cases hlive
    rcases hstmts b s hs with ⟨hb, rfl⟩ | ⟨-, hs⟩ <;> rcases hstmts c t ht with ⟨hc, rfl⟩ | ⟨-, ht⟩
    · exact absurd (hb.trans hc.symm) hne
    · exact fun d hd hd' => hapart c t ht hd' hd
    · exact hapart b s hs
    · exact h.apart b c s t hs ht hne
  · rcases hstmts b s hs with ⟨-, rfl⟩ | ⟨-, hs⟩
    · exact .inl rfl
    · exact (h.curApd b s hs).imp_right (hcur _ _)
  · rcases hstmts b s hs with ⟨-, rfl⟩ | ⟨-, hs⟩
    · exact .inl rfl
    · exact (h.curArd b s hs).imp_right (hcur _ _)

theorem allocDesc (h : Registered w) {dbc d : Handle} (hd : w.descs d = none) :
    Registered (w.allocDesc dbc d) := by
  have hdescs : ∀ d', (w.descs d').isSome → (w.allocDesc dbc d).descs d' = w.descs d' := by
    intro d' hlive
    have hne : d' ≠ d := by
      rintro rfl
      rw [hd] at hlive
      cases hlive
    simp [World.allocDesc, hne]
  have hcur : ∀ dbc' d', w.ExplicitOf dbc' d' → (w.allocDesc dbc d).ExplicitOf dbc' d' :=
    fun dbc' d' h' => h'.mono (by rw [hdescs d' h'.1.1]) fun a s hs hmem => ⟨a, s, hs, hmem⟩
  exact {
    exact := h.exact
    nodup := h.nodup
    order := h.order
    born := h.born
    owned := fun a s hs d' hd' => by
      rw [hdescs d' (h.owned a s hs d' hd')]
      exact h.owned a s hs d' hd'
    apart := h.apart
    curApd := fun a s hs => (h.curApd a s hs).imp_right (hcur _ _)
    curArd := fun a s hs => (h.curArd a s hs).imp_right (hcur _ _) }

/-- A change of current descriptors, and of descriptors that no statement owns. -/
theorem ofCurrent (h : Registered w) {w' : World} (p r : Handle → OdbcHandleStmt → Handle)
    (hvec : w'.vecStmtRef = w.vecStmtRef) (hclock : w'.clock = w.clock)
    (hstmts : ∀ a, w'.stmts a =
      (w.stmts a).map fun s => { s with curApd := p a s, curArd := r a s })
    (howned : ∀ a s, w.stmts a = some s → ∀ d ∈ s.owned, (w'.descs d).isSome)
    (hp : ∀ a s, w.stmts a = some s → p a s = s.apd ∨ w'.ExplicitOf s.dbc (p a s))
    (hr : ∀ a s, w.stmts a = some s → r a s = s.ard ∨ w'.ExplicitOf s.dbc (r a s)) :
    Registered w' := by
  have hback : ∀ a s', w'.stmts a = some s' →
      ∃ s, w.stmts a = some s ∧ { s with curApd := p a s, curArd := r a s } = s' := by
    intro a s' hs'
    rw [hstmts] at hs'
    exact Option.map_eq_some_iff.1 hs'
  refine ⟨fun dbc a => ?_, fun dbc => ?_, fun dbc => ?_, fun a s' hs' => ?_,
    fun a s' hs' d hd => ?_, fun a b s' t' hs' ht' hne => ?_, fun a s' hs' => ?_,
    fun a s' hs' => ?_⟩
  · rw [hvec, h.exact, hstmts]
    constructor
    · rintro ⟨s, hs, hdbc⟩
      exact ⟨{ s with curApd := p a s, curArd := r a s }, by rw [hs, Option.map_some], hdbc⟩
    · rintro ⟨s', hs', hdbc⟩
      obtain ⟨s, hs, rfl⟩ := Option.map_eq_some_iff.1 hs'
      exact ⟨s, hs, hdbc⟩
  · rw [hvec]
    exact h.nodup dbc
  · rw [hvec]
    refine (h.order dbc).imp fun hlt s' t' hs' ht' => ?_
    obtain ⟨s, hs, rfl⟩ := hback _ s' hs'
    obtain ⟨t, ht, rfl⟩ := hback _ t' ht'
    exact hlt s t hs ht
  · obtain ⟨s, hs, rfl⟩ := hback a s' hs'
    rw [hclock]
    exact h.born a s hs
  · obtain ⟨s, hs, rfl⟩ := hback a s' hs'
    exact howned a s hs d hd
  · obtain ⟨s, hs, rfl⟩ := hback a s' hs'
    obtain ⟨t, ht, rfl⟩ := hback b t' ht'
    exact h.apart a b s t hs ht hne
  · obtain ⟨s, hs, rfl⟩ := hback a s' hs'
    exact hp a s hs
  · obtain ⟨s, hs, rfl⟩ := hback a s' hs'
    exact hr a s hs

/-- A statement goes with its descriptors, which no other statement has. -/
theorem freeHandleStmt (h : Registered w) {a : Handle} {s : OdbcHandleStmt}
    (ha : w.stmts a = some s) : Registered ((w.eraseStmtRef s.dbc a).deleteStmt a s) := by
  set w' := (w.eraseStmtRef s.dbc a).deleteStmt a s with hw'
  have hstmts : ∀ b t, w'.stmts b = some t → b ≠ a ∧ w.stmts b = some t := by
    intro b t ht
    simp only [hw', World.deleteStmt, World.eraseStmtRef, Function.update_apply] at ht
    split_ifs at ht with hb
    exact ⟨hb, ht⟩
  have hkept : ∀ b, b ≠ a → w'.stmts b = w.stmts b := by
    intro b hb
    simp [hw', World.deleteStmt, World.eraseStmtRef, hb]
  have hvec : ∀ dbc, w'.vecStmtRef dbc = (w.vecStmtRef dbc).erase a := by
    intro dbc
    simp only [hw', World.deleteStmt, World.eraseStmtRef, Function.update_apply]
    split_ifs with hdbc
    · rw [hdbc]
    · rw [List.erase_of_not_mem]
      rw [h.exact]
      rintro ⟨t, ht, rfl⟩
      rw [ha] at ht
      cases ht
      exact hdbc rfl
  have hdescs : ∀ d, d ∉ s.owned → w'.descs d = w.descs d := by
    intro d hd
    simp [hw', World.deleteStmt, World.eraseStmtRef, hd]
  have hcur : ∀ dbc d, w.ExplicitOf dbc d → w'.ExplicitOf dbc d := by
    intro dbc d hd
    refine hd.mono (by rw [hdescs d (hd.1.2 a s ha)]) fun b t ht hmem => ?_
    exact ⟨b, t, (hstmts b t ht).2, hmem⟩
  refine ⟨fun dbc b => ?_, fun dbc => ?_, fun dbc => ?_, fun b t ht => ?_, fun b t ht d hd => ?_,
    fun b c t u ht hu hne => ?_, fun b t ht => ?_, fun b t ht => ?_⟩
  · rw [hvec, (h.nodup dbc).mem_erase_iff, h.exact]
    constructor
    · rintro ⟨hb, t, ht, hdbc⟩
      exact ⟨t, by rw [hkept b hb, ht], hdbc⟩
    · rintro ⟨t, ht, hdbc⟩
      exact ⟨(hstmts b t ht).1, t, (hstmts b t ht).2, hdbc⟩
  · rw [hvec]
    exact (h.nodup dbc).erase a
  · rw [hvec]
    refine ((h.order dbc).sublist List.erase_sublist).imp fun hlt t u ht hu => ?_
    exact hlt t u (hstmts _ t ht).2 (hstmts _ u hu).2
  · exact h.born b t (hstmts b t ht).2
  · obtain ⟨hb, ht⟩ := hstmts b t ht
    rw [hdescs d (h.apart b a t s ht ha hb hd)]
    exact h.owned b t ht d hd
  · exact h.apart b c t u (hstmts b t ht).2 (hstmts c u hu).2 hne
  · exact (h.curApd b t (hstmts b t ht).2).imp_right (hcur _ _)
  · exact (h.curArd b t (hstmts b t ht).2).imp_right (hcur _ _)

/-- The statements that a connection knows of are the ones that can use its descriptors. -/
theorem mem_of_current (h : Registered w) {a d : Handle} {s : OdbcHandleStmt} {x : OdbcHandleDesc}
    (hs : w.stmts a = some s) (hx : w.descs d = some x)
    (hcur : w.ExplicitOf s.dbc d) : a ∈ w.vecStmtRef x.dbc :=
  (h.exact _ a).2 ⟨s, hs, (hcur.2 x hx).symm⟩

/-- The statements that use the descriptor go back to their own. -/
theorem freeHandleDesc (h : Registered w) {d : Handle} (hd : w.Explicit d) :
    ∃ w', w.freeHandleDesc d = some w' ∧ Registered w' := by
  obtain ⟨x, hx⟩ := Option.isSome_iff_exists.1 hd.1
  have hlive : ∀ a ∈ w.vecStmtRef x.dbc, (w.stmts a).isSome := by
    intro a ha
    obtain ⟨s, hs, -⟩ := (h.exact _ a).1 ha
    simp [hs]
  refine ⟨_, by
    rw [World.freeHandleDesc, hx, Option.bind_eq_bind, Option.bind_some,
      World.resetStmtDescriptors_eq d hlive]
    rfl, ?_⟩
  have hkeep : ∀ {dbc c : Handle}, c ≠ d → w.ExplicitOf dbc c → World.ExplicitOf { w with
      stmts := fun a => if a ∈ w.vecStmtRef x.dbc then (w.stmts a).map (World.resetCurrent d)
        else w.stmts a
      descs := Function.update w.descs d none } dbc c := by
    intro dbc c hc hex
    refine hex.mono (by simp [hc]) fun a s hs hmem => ?_
    dsimp only at hs
    split_ifs at hs
    · obtain ⟨t, ht, rfl⟩ := Option.map_eq_some_iff.1 hs
      exact ⟨a, t, ht, hmem⟩
    · exact ⟨a, s, hs, hmem⟩
  refine h.ofCurrent
    (fun a s => if a ∈ w.vecStmtRef x.dbc ∧ s.curApd = d then s.apd else s.curApd)
    (fun a s => if a ∈ w.vecStmtRef x.dbc ∧ s.curArd = d then s.ard else s.curArd)
    rfl rfl (fun a => ?_) (fun a s hs c hc => ?_) (fun a s hs => ?_) (fun a s hs => ?_)
  · dsimp only
    by_cases ha : a ∈ w.vecStmtRef x.dbc
    · simp only [ha, if_true, true_and]
      rfl
    · simp [ha]
  · have hne : c ≠ d := fun heq => hd.2 a s hs (heq ▸ hc)
    simpa [hne] using h.owned a s hs c hc
  · by_cases hmem : a ∈ w.vecStmtRef x.dbc ∧ s.curApd = d
    · simp [hmem]
    · rw [if_neg hmem]
      refine (h.curApd a s hs).imp_right fun hex => hkeep ?_ hex
      exact fun heq => hmem ⟨h.mem_of_current hs hx (heq ▸ hex), heq⟩
  · by_cases hmem : a ∈ w.vecStmtRef x.dbc ∧ s.curArd = d
    · simp [hmem]
    · rw [if_neg hmem]
      refine (h.curArd a s hs).imp_right fun hex => hkeep ?_ hex
      exact fun heq => hmem ⟨h.mem_of_current hs hx (heq ▸ hex), heq⟩

/-- Another descriptor becomes a current one of the statement, and is marked as allocated by the
application. -/
theorem setCurrent (h : Registered w) {a d : Handle} {s : OdbcHandleStmt} {p r : Handle}
    (hs : w.stmts a = some s) (hp : p = s.curApd ∨ p = d) (hr : r = s.curArd ∨ r = d)
    (hd : w.ExplicitOf s.dbc d) :
    Registered ((w.setStmt a { s with curApd := p, curArd := r }).modifyDesc d fun d =>
      { d with header.allocType := .user }) := by
  set w' := (w.setStmt a { s with curApd := p, curArd := r }).modifyDesc d fun d =>
    { d with header.allocType := .user } with hw'
  have hstmts : ∀ b, w'.stmts b = (w.stmts b).map fun t =>
      { t with
        curApd := if b = a then p else t.curApd
        curArd := if b = a then r else t.curArd } := by
    intro b
    simp only [hw', World.modifyDesc, World.setStmt, Function.update_apply]
    by_cases hb : b = a
    · simp [hb, hs]
    · simp [hb]
  have hdesc : ∀ c, (w'.descs c).map OdbcHandleDesc.dbc = (w.descs c).map OdbcHandleDesc.dbc := by
    intro c
    simp only [hw', World.modifyDesc, World.setStmt, Function.update_apply]
    split_ifs with hc
    · rw [hc, Option.map_map]
      rfl
    · rfl
  have hcur : ∀ dbc c, w.ExplicitOf dbc c → w'.ExplicitOf dbc c := by
    intro dbc c hc
    refine hc.mono (hdesc c) fun b t ht hmem => ?_
    rw [hstmts] at ht
    obtain ⟨u, hu, rfl⟩ := Option.map_eq_some_iff.1 ht
    exact ⟨b, u, hu, hmem⟩
  refine h.ofCurrent (fun b t => if b = a then p else t.curApd)
    (fun b t => if b = a then r else t.curArd) rfl rfl hstmts (fun b t ht c hc => ?_)
    (fun b t ht => ?_) (fun b t ht => ?_)
  · rw [← Option.isSome_map (f := OdbcHandleDesc.dbc), hdesc, Option.isSome_map]
    exact h.owned b t ht c hc
  · by_cases hb : b = a
    · subst hb
      obtain rfl : s = t := Option.some.inj (hs.symm.trans ht)
      rw [if_pos rfl]
      rcases hp with rfl | rfl
      · exact (h.curApd b s hs).imp_right (hcur _ _)
      · exact .inr (hcur _ _ hd)
    · rw [if_neg hb]
      exact (h.curApd b t ht).imp_right (hcur _ _)
  · by_cases hb : b = a
    · subst hb
      obtain rfl : s = t := Option.some.inj (hs.symm.trans ht)
      rw [if_pos rfl]
      rcases hr with rfl | rfl
      · exact (h.curArd b s hs).imp_right (hcur _ _)
      · exact .inr (hcur _ _ hd)
    · rw [if_neg hb]
      exact (h.curArd b t ht).imp_right (hcur _ _)

/-- A call on a live statement, when what it does on an open connection keeps the registry. -/
theorem onStmt (h : Registered w) {a : Handle} {s : OdbcHandleStmt} (hs : w.stmts a = some s)
    {body : OdbcHandleStmt → Option (SqlReturn × World)}
    (hbody : ∃ ret w', body s = some (ret, w') ∧ Registered w') :
    ∃ w', (w.onStmt a body).map Prod.snd = some w' ∧ Registered w' := by
  simp only [World.onStmt, World.convertHSTMT, hs, Option.bind_eq_bind, Option.bind_some]
  cases w.conn s.dbc with
  | true =>
    obtain ⟨ret, w', hret, hw'⟩ := hbody
    exact ⟨w', by simp [hret], hw'⟩
  | false => exact ⟨w, by simp, h⟩

/-- An action that is allowed is performed, and keeps the registry. -/
theorem perform (h : Registered w) {i : Action} (hi : w.Allowed i) :
    ∃ w', w.perform i = some w' ∧ Registered w' := by
  have hof : ∀ {a d : Handle} {s : OdbcHandleStmt}, w.stmts a = some s →
      (w.Explicit d ∧ ∃ s x, w.stmts a = some s ∧ w.descs d = some x ∧ x.dbc = s.dbc) →
      w.ExplicitOf s.dbc d := by
    rintro a d s hs ⟨hd, t, x, ht, hx, hdbc⟩
    obtain rfl : s = t := Option.some.inj (hs.symm.trans ht)
    refine ⟨hd, fun y hy => ?_⟩
    obtain rfl : x = y := Option.some.inj (hx.symm.trans hy)
    exact hdbc
  cases i with
  | allocStmt dbc a apd ipd ard ird => exact ⟨_, rfl, h.allocStmt hi.1 hi.2⟩
  | allocDesc dbc a => exact ⟨_, rfl, h.allocDesc hi⟩
  | freeHandleStmt a =>
    obtain ⟨s, hs⟩ := Option.isSome_iff_exists.1 hi
    exact ⟨_, by rw [World.perform, World.freeHandleStmt, hs]; rfl, h.freeHandleStmt hs⟩
  | freeHandleDesc a => exact h.freeHandleDesc hi
  | freeStmtDrop a =>
    obtain ⟨s, hs⟩ := Option.isSome_iff_exists.1 hi
    exact h.onStmt hs ⟨.success, _, by rw [World.freeHandleStmt, hs]; rfl, h.freeHandleStmt hs⟩
  | setAppParamDesc a d =>
    obtain ⟨s, x, hs, hx, -⟩ := hi.2
    exact h.onStmt hs ⟨.success, _, by rw [World.setAPD, hx]; rfl,
      h.setCurrent hs (.inr rfl) (.inl rfl) (hof hs hi)⟩
  | setAppRowDesc a d =>
    obtain ⟨s, x, hs, hx, -⟩ := hi.2
    exact h.onStmt hs ⟨.success, _, by rw [World.setARD, hx]; rfl,
      h.setCurrent hs (.inl rfl) (.inr rfl) (hof hs hi)⟩
  | setConn dbc isOpen => exact ⟨_, rfl, ⟨h.1, h.2, h.3, h.4, h.5, h.6, h.7, h.8⟩⟩

end Registered

/-- Whatever is allocated, released and made current, a connection knows of its live statements
once each, in the order of their allocation, every statement has current descriptors that are
its own or live, and every action that is allowed can be performed. -/
theorem registered {env : Handle → Handle} {is : List Action} {w : World}
    (h : Run.Reaches Does (World.start env) is w) :
    Registered w ∧ ∀ i, w.Allowed i → (w.perform i).isSome := by
  have hw : Registered w := Run.Reaches.invariant (P := fun _ _ => True) Registered
    (fun w i w' hw _ hdoes => by
      obtain ⟨w'', hperform, hw''⟩ := hw.perform hdoes.allowed
      rw [hdoes.performs] at hperform
      cases hperform
      exact hw'')
    (Registered.start env) (Run.along_of_forall (fun _ _ _ => trivial) _) h
  refine ⟨hw, fun i hi => ?_⟩
  obtain ⟨w', hperform, -⟩ := hw.perform hi
  simp [hperform]

/-- A statement goes back to its own descriptor when the one it used is released. -/
theorem registered_released : ∃ w : World,
    (∃ is, Run.Reaches Does (World.start fun _ => 0) (is ++ [.freeHandleDesc 30]) w ∧
      .setAppParamDesc 10 30 ∈ is) ∧
    w.vecStmtRef 1 = [10] ∧ Registered w ∧ ∀ i, w.Allowed i → (w.perform i).isSome := by
  have hrun : ∃ w : World, Run.Reaches Does (World.start fun _ => 0)
      ([.setConn 1 true, .allocStmt 1 10 11 12 13 14, .allocDesc 1 30, .setAppParamDesc 10 30] ++
        [.freeHandleDesc 30]) w ∧ w.vecStmtRef 1 = [10] := by
    refine ⟨_, ⟨_, ⟨trivial, rfl⟩, _, ⟨⟨rfl, by simp [World.start]⟩, rfl⟩, _, ⟨?_, rfl⟩,
      _, ⟨⟨⟨?_, ?_⟩, _, _, rfl, rfl, rfl⟩, rfl⟩, _, ⟨⟨?_, ?_⟩, rfl⟩, rfl⟩, rfl⟩
    · rfl
    · rfl
    · intro a s hs
      simp only [World.allocDesc, World.allocStmt, World.start, Function.update_apply] at hs
      split_ifs at hs
      cases hs
      decide
    · rfl
    · intro a s hs
      simp only [World.modifyDesc, World.setStmt, World.allocDesc, World.allocStmt, World.start,
        Function.update_apply] at hs
      split_ifs at hs
      cases hs
      decide
  obtain ⟨w, hw, hvec⟩ := hrun
  exact ⟨w, ⟨_, hw, by simp⟩, hvec, registered hw⟩

end HaybarnOdbc.Desc
