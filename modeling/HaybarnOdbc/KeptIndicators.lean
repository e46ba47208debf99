import HaybarnOdbc.ParamBuffers

/-!
# Executions and the memory of the application

`SetValue` resolves `SQL_NTS` in place : the length of a text that ends with a NUL is stored
in its indicator. The loops of `GetParamValues` and `BatchExecuteStmt` are followed here with
the memory they read, element by element, so that what one element stores is there when the
next one is read.

An execution stores an indicator exactly if it reads a text whose indicator is `SQL_NTS`
(`keepsBuffers_iff`). The next execution then takes the length of the old text for the new one.
-/

namespace HaybarnOdbc

variable {ρ : Type}

namespace Talk

variable {V : Type}

/-! ## Execution over memory -/

/-- An element of a parameter array and what it was read as. -/
abbrev ReadElement := Cell × BoundParam

/-- One turn of the loop of `GetParamValues`, with whether the loop goes on. An exception, and
a failed parameter without a cached value, have no outcome. -/
def readRecord (t : Talk ρ EngineValue) (recIdx : ℕ) :
    Option (Bool × Talk ρ EngineValue × ReadElement) :=
  let set := t.desc.paramsetIdx
  match t.boundParam recIdx set with
  | none => none
  | some (.thrown _, _) => none
  | some (.value v, mem) =>
    some (true, { t with h.paramDesc := t.desc.putValue v recIdx, mem := mem },
      (⟨recIdx, set⟩, .value v))
  | some (.needData, mem) => some (false, t.setMem mem, (⟨recIdx, set⟩, .needData))
  | some (.failed ret, mem) =>
    if t.desc.ipd.header.arrayStatusPtr = 0 then
      some (false, t.setMem mem, (⟨recIdx, set⟩, .failed ret))
    else if t.desc.values.length ≤ recIdx then none
    else some (true, t.setMem mem, (⟨recIdx, set⟩, .failed ret))

/-- The loop of `GetParamValues`. -/
def readRecords : List ℕ → Talk ρ EngineValue →
    Option (Bool × Talk ρ EngineValue × List ReadElement)
  | [], t => some (true, t, [])
  | recIdx :: rest, t =>
    match t.readRecord recIdx with
    | none => none
    | some (false, t, e) => some (false, t, [e])
    | some (true, t, e) => (readRecords rest t).map fun (goesOn, t, es) => (goesOn, t, e :: es)

/-- The loop of `BatchExecuteStmt`, where `engine` says which parameter sets the engine
executes without an error, with at most `n` turns. -/
def executeSets (engine : ℕ → Bool) : ℕ → Talk ρ EngineValue →
    Option (Talk ρ EngineValue × List ReadElement)
  | 0, t => some (t, [])
  | n + 1, t =>
    match t.readRecords (List.range t.desc.ipd.records.length) with
    | none => none
    | some (false, t, es) => some (t, es)
    | some (true, t, es) =>
      let set := t.desc.paramsetIdx
      let t := { t with h.paramDesc.paramsetIdx := (set + 1) % 2 ^ 64 }
      if engine set then (executeSets engine n t).map fun (t, es') => (t, es ++ es')
        else some (t, es)

/-- The turns until the index of the parameter sets is the size of the arrays. -/
def setsLeft (t : Talk ρ V) : ℕ :=
  (t.desc.apd.header.arraySize + 2 ^ 64 - t.desc.paramsetIdx - 1) % 2 ^ 64 + 1

/-- `SQLExecute`, as far as it reads the arrays of parameters : with the elements it read. -/
def execute (engine : ℕ → Bool) (t : Talk ρ EngineValue) :
    Option (Talk ρ EngineValue × List ReadElement) :=
  if t.desc.ipd.records.isEmpty then some (t, []) else executeSets engine t.setsLeft t

/-! ## What an element stores -/

/-- The element is read as a text up to its terminator. -/
def EndsWithNul (t : Talk ρ V) (c : Cell) : Prop :=
  ∃ apdRecord ipdRecord, t.Reads c.param c.set apdRecord ipdRecord ∧
    (textKind apdRecord.type ipdRecord.type = some .char ∨
      textKind apdRecord.type ipdRecord.type = some .wide) ∧
    t.mem.indicators (apdRecord.indicatorAddr c.set) = sqlNts

variable {t : Talk ρ V} {apdRecord ipdRecord : DescRecord}

/-- `SetValue` resolves `SQL_NTS` of a text, and keeps any other indicator. -/
theorem loadValue_indicator {valIdx : ℕ} {ind ind' : ℤ} {v : ParamRead ParamValue}
    (h : t.loadValue apdRecord ipdRecord valIdx ind = some (v, ind')) :
    if ind = sqlNts ∧ (textKind apdRecord.type ipdRecord.type = some .char ∨
        textKind apdRecord.type ipdRecord.type = some .wide) then 0 ≤ ind' else ind' = ind := by
  rw [loadValue_eq] at h
  cases hkind : textKind apdRecord.type ipdRecord.type with
  | none =>
    rw [hkind] at h
    rw [if_neg (by simp)]
    dsimp only at h
    split at h
    · exact (Prod.mk.inj (Option.some.inj h)).2.symm
    · split at h
      · exact (Prod.mk.inj (Option.some.inj h)).2.symm
      · obtain ⟨bytes, -, heq⟩ := Option.map_eq_some_iff.mp h
        exact (Prod.mk.inj heq).2.symm
  | some kind =>
    rw [hkind] at h
    cases kind with
    | char =>
      obtain ⟨bytes, -, heq⟩ := Option.map_eq_some_iff.mp h
      rw [← (Prod.mk.inj heq).2]
      by_cases hnts : ind = sqlNts
      · rw [if_pos ⟨hnts, .inl rfl⟩, if_pos hnts]
        omega
      · rw [if_neg fun h => hnts h.1, if_neg hnts]
    | wide =>
      obtain ⟨units, -, heq⟩ := Option.map_eq_some_iff.mp h
      rw [← (Prod.mk.inj heq).2]
      by_cases hnts : ind = sqlNts
      · rw [if_pos ⟨hnts, .inr rfl⟩, if_pos hnts]
        omega
      · rw [if_neg fun h => hnts h.1, if_neg hnts]
    | binary =>
      obtain ⟨bytes, -, heq⟩ := Option.map_eq_some_iff.mp h
      rw [if_neg (by simp)]
      exact (Prod.mk.inj heq).2.symm

/-- The memory after an element was read : the indicator of a text up to its terminator is a
length, and everything else is as before. -/
theorem setValue_mem {recIdx valIdx : ℕ} {v : ParamRead ParamValue} {mem : Memory}
    (h : t.setValue recIdx valIdx = some (v, mem)) :
    (¬t.EndsWithNul ⟨recIdx, valIdx⟩ ∧ mem = t.mem) ∨
      (t.EndsWithNul ⟨recIdx, valIdx⟩ ∧
        ∃ a n, t.mem.indicators a = sqlNts ∧ 0 ≤ n ∧ mem = t.mem.setIndicator a n) := by
  by_cases hreads : ∃ apdRecord ipdRecord, t.Reads recIdx valIdx apdRecord ipdRecord
  · obtain ⟨apdRecord, ipdRecord, hreads⟩ := hreads
    rw [hreads.setValue_eq] at h
    obtain ⟨⟨v', ind⟩, hload, heq⟩ := Option.map_eq_some_iff.mp h
    obtain ⟨-, rfl⟩ := Prod.mk.inj heq
    have hind := loadValue_indicator hload
    by_cases hnul : t.mem.indicators (apdRecord.indicatorAddr valIdx) = sqlNts ∧
        (textKind apdRecord.type ipdRecord.type = some .char ∨
          textKind apdRecord.type ipdRecord.type = some .wide)
    · rw [if_pos hnul] at hind
      exact .inr ⟨⟨apdRecord, ipdRecord, hreads, hnul.2, hnul.1⟩, _, ind, hnul.1, hind, rfl⟩
    · rw [if_neg hnul] at hind
      refine .inl ⟨?_, by rw [hind, setIndicator_self]⟩
      rintro ⟨apdRecord', ipdRecord', hreads', hkind, hnts⟩
      obtain rfl := Option.some.inj (hreads.apd.symm.trans hreads'.apd)
      obtain rfl := Option.some.inj (hreads.ipd.symm.trans hreads'.ipd)
      exact hnul ⟨hnts, hkind⟩
  · refine .inl ⟨fun ⟨apdRecord, ipdRecord, hr, _⟩ => hreads ⟨apdRecord, ipdRecord, hr⟩, ?_⟩
    unfold setValue at h
    split at h
    · next apdRecord ipdRecord hapd hipd =>
      by_cases hnull : apdRecord.dataPtr = 0 ∧ apdRecord.indicatorPtr = 0
      · rw [if_pos hnull] at h
        exact (Prod.mk.inj (Option.some.inj h)).2.symm
      rw [if_neg hnull] at h
      by_cases hnone : apdRecord.dataPtr = 0 ∨ apdRecord.indicatorPtr = 0
      · rw [if_pos hnone] at h
        exact (Prod.mk.inj (Option.some.inj h)).2.symm
      rw [if_neg hnone] at h
      dsimp only at h
      by_cases hnd : t.mem.indicators (apdRecord.indicatorAddr valIdx) = sqlNullData
      · rw [if_pos hnd] at h
        exact (Prod.mk.inj (Option.some.inj h)).2.symm
      rw [if_neg hnd] at h
      by_cases hdae : t.mem.indicators (apdRecord.indicatorAddr valIdx) = sqlDataAtExec ∨
          t.mem.indicators (apdRecord.indicatorAddr valIdx) = sqlLenDataAtExec ipdRecord.length
      · rw [if_pos hdae] at h
        exact (Prod.mk.inj (Option.some.inj h)).2.symm
      · refine absurd ⟨apdRecord, ipdRecord, hapd, hipd, fun h => hnone (.inl h),
          fun h => hnone (.inr h), ?_⟩ hreads
        simp only [List.mem_cons, List.not_mem_nil, or_false, not_or]
        exact ⟨hnd, not_or.mp hdae⟩
    · cases h

/-! ## What a run stores -/

/-- What reading elements does to the descriptors and to the memory : an indicator that is
`SQL_NTS` may become a length, and one does if an element is read as a text up to its
terminator. -/
structure Stores (t t' : Talk ρ V) (cells : List Cell) : Prop where
  apd : t'.desc.apd = t.desc.apd
  ipd : t'.desc.ipd = t.desc.ipd
  kept : ∀ a, t.mem.indicators a ≠ sqlNts → t'.mem.indicators a = t.mem.indicators a
  quiet : (∀ c ∈ cells, ¬t.EndsWithNul c) → t'.mem = t.mem
  stored : ∀ c ∈ cells, t.EndsWithNul c →
    ∃ a, t.mem.indicators a = sqlNts ∧ t'.mem.indicators a ≠ sqlNts

/-- Whether an element is read up to a terminator is told by its records and its indicator. -/
theorem EndsWithNul.of_eq {t t' : Talk ρ V} {c : Cell} (hapd : t'.desc.apd = t.desc.apd)
    (hipd : t'.desc.ipd = t.desc.ipd) (h : t.EndsWithNul c)
    (hkept : ∀ a, t.mem.indicators a = sqlNts → t'.mem.indicators a = sqlNts) :
    t'.EndsWithNul c := by
  obtain ⟨apdRecord, ipdRecord, hreads, hkind, hnts⟩ := h
  have hnts' := hkept _ hnts
  refine ⟨apdRecord, ipdRecord, ⟨?_, ?_, hreads.dataPtr, hreads.indicatorPtr, ?_⟩, hkind, hnts'⟩
  · rw [hapd, hreads.apd]
  · rw [hipd, hreads.ipd]
  · rw [hnts', ← hnts]
    exact hreads.present

namespace Stores

variable {t t' t'' : Talk ρ V} {cells cells' : List Cell}

theorem refl (hapd : t'.desc.apd = t.desc.apd) (hipd : t'.desc.ipd = t.desc.ipd)
    (hmem : t'.mem = t.mem) : Stores t t' [] where
  apd := hapd
  ipd := hipd
  kept a _ := by rw [hmem]
  quiet _ := hmem
  stored := nofun

theorem trans (h : Stores t t' cells) (h' : Stores t' t'' cells') :
    Stores t t'' (cells ++ cells') where
  apd := h'.apd.trans h.apd
  ipd := h'.ipd.trans h.ipd
  kept a ha := by
    have hfirst := h.kept a ha
    rw [h'.kept a (by rwa [hfirst]), hfirst]
  quiet hquiet := by
    have hmem := h.quiet fun c hc => hquiet c (List.mem_append_left _ hc)
    have hmem' := h'.quiet fun c hc hnul =>
      hquiet c (List.mem_append_right _ hc) (hnul.of_eq h.apd.symm h.ipd.symm fun a ha => by
        rwa [← hmem])
    rw [hmem', hmem]
  stored c hc hnul := by
    obtain hc | hc := List.mem_append.mp hc
    · obtain ⟨a, hnts, hne⟩ := h.stored c hc hnul
      exact ⟨a, hnts, by rwa [h'.kept a hne]⟩
    · by_cases hstored : ∃ a, t.mem.indicators a = sqlNts ∧ t'.mem.indicators a ≠ sqlNts
      · obtain ⟨a, hnts, hne⟩ := hstored
        exact ⟨a, hnts, by rwa [h'.kept a hne]⟩
      · -- no element before this one stored anything
        have hsame : ∀ a, t.mem.indicators a = sqlNts → t'.mem.indicators a = sqlNts :=
          fun a ha => by_contra fun hne => hstored ⟨a, ha, hne⟩
        obtain ⟨a, hnts, hne⟩ := h'.stored c hc (hnul.of_eq h.apd h.ipd hsame)
        refine ⟨a, by_contra fun hne' => hne' ?_, hne⟩
        rw [← h.kept a hne', hnts]

end Stores

theorem setValue_stores {recIdx valIdx : ℕ} {v : ParamRead ParamValue} {mem : Memory}
    (h : t.setValue recIdx valIdx = some (v, mem)) {t' : Talk ρ V}
    (hapd : t'.desc.apd = t.desc.apd) (hipd : t'.desc.ipd = t.desc.ipd) (hmem : t'.mem = mem) :
    Stores t t' [⟨recIdx, valIdx⟩] := by
  rcases setValue_mem h with ⟨hnul, rfl⟩ | ⟨hnul, a, n, hnts, hn, rfl⟩
  · exact
      { apd := hapd
        ipd := hipd
        kept := fun a _ => by rw [hmem]
        quiet := fun _ => hmem
        stored := fun c hc hnul' => absurd (List.mem_singleton.mp hc ▸ hnul') hnul }
  · exact
      { apd := hapd
        ipd := hipd
        kept := fun b hb => by
          rw [hmem, Memory.indicators_setIndicator, Function.update_of_ne]
          rintro rfl
          exact hb hnts
        quiet := fun hquiet => absurd hnul (hquiet _ (List.mem_singleton_self _))
        stored := fun c hc hnul' => by
          refine ⟨a, hnts, ?_⟩
          rw [hmem, Memory.indicators_setIndicator, Function.update_self, sqlNts]
          omega }

theorem setValue_of_boundParam {recIdx valIdx : ℕ} {b : BoundParam} {mem : Memory}
    (h : t.boundParam recIdx valIdx = some (b, mem)) :
    ∃ v, t.setValue recIdx valIdx = some (v, mem) := by
  unfold boundParam at h
  split at h
  · next v mem' ipdRecord hset hipd =>
    split at h <;>
    · obtain ⟨-, rfl⟩ := Prod.mk.inj (Option.some.inj h)
      exact ⟨_, hset⟩
  · next hset hipd =>
    obtain ⟨-, rfl⟩ := Prod.mk.inj (Option.some.inj h)
    exact ⟨_, hset⟩
  · next hset hipd =>
    obtain ⟨-, rfl⟩ := Prod.mk.inj (Option.some.inj h)
    exact ⟨_, hset⟩
  · cases h

section

variable {t t' : Talk ρ EngineValue}

theorem putValue_records (p : ParameterDescriptor EngineValue) (v : EngineValue) (i : ℕ) :
    (p.putValue v i).apd = p.apd ∧ (p.putValue v i).ipd = p.ipd := by
  unfold ParameterDescriptor.putValue
  split_ifs <;> exact ⟨rfl, rfl⟩

theorem readRecord_stores {recIdx : ℕ} {goesOn : Bool} {e : ReadElement}
    (h : t.readRecord recIdx = some (goesOn, t', e)) : Stores t t' [e.1] := by
  unfold readRecord at h
  dsimp only at h
  split at h
  · cases h
  · cases h
  · next v mem hbound =>
    obtain ⟨-, rfl, rfl⟩ : _ ∧ _ ∧ _ := by simpa using h
    obtain ⟨w, hset⟩ := setValue_of_boundParam hbound
    have hrec := putValue_records t.desc v recIdx
    exact setValue_stores hset hrec.1 hrec.2 rfl
  · next mem hbound =>
    obtain ⟨-, rfl, rfl⟩ : _ ∧ _ ∧ _ := by simpa using h
    obtain ⟨w, hset⟩ := setValue_of_boundParam hbound
    exact setValue_stores hset rfl rfl rfl
  · next ret mem hbound =>
    obtain ⟨w, hset⟩ := setValue_of_boundParam hbound
    by_cases hstatus : t.desc.ipd.header.arrayStatusPtr = 0
    · rw [if_pos hstatus] at h
      obtain ⟨-, rfl, rfl⟩ : _ ∧ _ ∧ _ := by simpa using h
      exact setValue_stores hset rfl rfl rfl
    · rw [if_neg hstatus] at h
      split at h
      · cases h
      · obtain ⟨-, rfl, rfl⟩ : _ ∧ _ ∧ _ := by simpa using h
        exact setValue_stores hset rfl rfl rfl

theorem readRecords_stores {recs : List ℕ} {goesOn : Bool} {es : List ReadElement}
    (h : readRecords recs t = some (goesOn, t', es)) : Stores t t' (es.map Prod.fst) := by
  induction recs generalizing t goesOn es with
  | nil =>
    obtain ⟨-, rfl, rfl⟩ : _ ∧ _ ∧ _ := by simpa [readRecords] using h
    exact .refl rfl rfl rfl
  | cons recIdx rest ih =>
    rw [readRecords] at h
    split at h
    · cases h
    · next hread =>
      obtain ⟨-, rfl, rfl⟩ : _ ∧ _ ∧ _ := by simpa using h
      exact readRecord_stores hread
    · next hread =>
      obtain ⟨⟨g, t₂, es₂⟩, hrest, heq⟩ := Option.map_eq_some_iff.mp h
      obtain ⟨-, rfl, rfl⟩ : _ ∧ _ ∧ _ := by simpa using heq
      exact (readRecord_stores hread).trans (ih hrest)

theorem executeSets_stores {engine : ℕ → Bool} {n : ℕ} {es : List ReadElement}
    (h : executeSets engine n t = some (t', es)) : Stores t t' (es.map Prod.fst) := by
  induction n generalizing t es with
  | zero =>
    obtain ⟨rfl, rfl⟩ : _ ∧ _ := by simpa [executeSets] using h
    exact .refl rfl rfl rfl
  | succ n ih =>
    rw [executeSets] at h
    split at h
    · cases h
    · next hread =>
      obtain ⟨rfl, rfl⟩ : _ ∧ _ := by simpa using h
      exact readRecords_stores hread
    · next t₁ es₁ hread =>
      have hindex : Stores t₁ { t₁ with
          h.paramDesc.paramsetIdx := (t₁.desc.paramsetIdx + 1) % 2 ^ 64 } [] := .refl rfl rfl rfl
      have hset := (readRecords_stores hread).trans hindex
      rw [List.append_nil] at hset
      dsimp only at h
      split at h
      · obtain ⟨⟨t₂, es₂⟩, hrest, heq⟩ := Option.map_eq_some_iff.mp h
        obtain ⟨rfl, rfl⟩ : _ ∧ _ := by simpa using heq
        rw [List.map_append]
        exact hset.trans (ih hrest)
      · obtain ⟨rfl, rfl⟩ : _ ∧ _ := by simpa using h
        exact hset

theorem execute_stores {engine : ℕ → Bool} {es : List ReadElement}
    (h : t.execute engine = some (t', es)) : Stores t t' (es.map Prod.fst) := by
  unfold execute at h
  split at h
  · obtain ⟨rfl, rfl⟩ : _ ∧ _ := by simpa using h
    exact .refl rfl rfl rfl
  · exact executeSets_stores h

/-! ## The next execution -/

/-- The application changes the data buffers, and nothing else. -/
def withData (m : Memory) (data : Addr → Option (List (Option UInt8))) : Memory :=
  { m with buffers := data }

/-- What an execution leaves to the application and to the next execution : every indicator is
as before, and however the application changes the data, the next execution reads what it
reads with the indicators as they were given. -/
def KeepsBuffers (t t' : Talk ρ EngineValue) : Prop :=
  (∀ a, t'.mem.indicators a = t.mem.indicators a) ∧
    ∀ (h₂ : OdbcHandleStmt ρ EngineValue) (data : Addr → Option (List (Option UInt8)))
      (engine : ℕ → Bool),
      ((Talk.mk h₂ (withData t'.mem data)).execute engine).map Prod.snd =
        ((Talk.mk h₂ (withData t.mem data)).execute engine).map Prod.snd

/-- An execution keeps the buffers exactly if it reads no element as a text up to its
terminator. -/
theorem keepsBuffers_iff {engine : ℕ → Bool} {es : List ReadElement}
    (h : t.execute engine = some (t', es)) :
    KeepsBuffers t t' ↔ ∀ e ∈ es, ¬t.EndsWithNul e.1 := by
  have hstores := execute_stores h
  constructor
  · rintro ⟨hkept, -⟩ e he hnul
    obtain ⟨a, hnts, hne⟩ := hstores.stored e.1 (List.mem_map_of_mem he) hnul
    exact hne (by rw [hkept, hnts])
  · intro hquiet
    have hmem : t'.mem = t.mem := hstores.quiet fun c hc => by
      obtain ⟨e, he, rfl⟩ := List.mem_map.mp hc
      exact hquiet e he
    rw [KeepsBuffers, hmem]
    exact ⟨fun _ => rfl, fun _ _ _ => rfl⟩

end

/-- A text in a buffer, for a column of 10 characters, with its length or `SQL_NTS`. -/
def textStatement (ind : ℤ) (text : List UInt8) : Talk Unit EngineValue where
  h := ((OdbcHandleStmt.blank : OdbcHandleStmt Unit EngineValue).bindParameterStmt
    ⟨1, 1, 1, 12, 10, 0, 100, 10, 200⟩).2
  mem :=
    { indicators := fun _ => ind
      app := fun _ => []
      pool := []
      buffers := fun _ => some ((text ++ [0]).map some)
      rowsProcessed := 0 }

/-- A text that comes with its length is read without a store. -/
theorem keepsBuffers_length : ∃ t' es,
    (textStatement 3 [97, 98, 99]).execute (fun _ => true) = some (t', es) ∧
      es = [(⟨0, 0⟩, .value (.varchar [97, 98, 99]))] ∧
      KeepsBuffers (textStatement 3 [97, 98, 99]) t' := by
  have hread : ((textStatement 3 [97, 98, 99]).execute fun _ => true).map Prod.snd =
      some [(⟨0, 0⟩, .value (.varchar [97, 98, 99]))] := by decide
  obtain ⟨⟨t', es⟩, hrun, rfl⟩ := Option.map_eq_some_iff.mp hread
  refine ⟨t', _, hrun, rfl, (keepsBuffers_iff hrun).mpr fun e _ => ?_⟩
  rintro ⟨apdRecord, ipdRecord, -, -, hnts⟩
  exact absurd (show (3 : ℤ) = sqlNts from hnts) (by decide)

/-- The first execution reads `abc`, the next one reads `hel` of `hello`. -/
theorem next_text_cut :
    (¬∀ t' es, (textStatement sqlNts [97, 98, 99]).execute (fun _ => true) = some (t', es) →
      KeepsBuffers (textStatement sqlNts [97, 98, 99]) t') ∧
    ((textStatement sqlNts [97, 98, 99]).execute fun _ => true).bind (fun (t', _) =>
      ((Talk.mk (textStatement sqlNts []).h
        (withData t'.mem (textStatement sqlNts [104, 101, 108, 108, 111]).mem.buffers)).execute
          fun _ => true).map Prod.snd) =
      some [(⟨0, 0⟩, .value (.varchar [104, 101, 108]))] := by
  refine ⟨fun hkeeps => ?_, by decide⟩
  have hstored : ((textStatement sqlNts [97, 98, 99]).execute fun _ => true).map
      (fun (t', _) => t'.mem.indicators 200) = some 3 := by decide
  obtain ⟨⟨t', es⟩, hrun, hind⟩ := Option.map_eq_some_iff.mp hstored
  have hkept : t'.mem.indicators 200 = -3 := (hkeeps t' es hrun).1 200
  exact absurd (hkept.symm.trans hind) (by decide)

end Talk

end HaybarnOdbc
