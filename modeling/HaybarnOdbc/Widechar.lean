import HaybarnOdbc.Utf8Cpp

/-!
# Wide characters

`utf16_to_utf8_lenient` and `utf8_to_utf16_lenient` : every wide-character entry point of the
driver converts its arguments with the first and its results with the second. Each of them
looks for an invalid sequence, and converts the input as it is if there is none and with the
invalid parts replaced otherwise.

On well-formed input they undo each other (`widechar_roundtrip`). On other input the scan
for UTF-16 goes wrong in two ways. A lone trail surrogate is reported one unit too late, so
that one at the very end counts as nothing found; and the unit after a lone lead surrogate is
copied without a look at it, so that a second lead surrogate there stays alone. Nothing else
goes wrong (`utf16ToUtf8Lenient_ok_iff`).
-/

namespace HaybarnOdbc.Widechar

open Unicode Utf8Cpp

/-- `invalid_char_replacement`. -/
def invalidCharReplacement : ℕ := 0xfffd

/-- `utf16_find_invalid`, on what is left of the input from a position on. -/
def utf16FindInvalid (start : ℕ) : List UInt16 → ℕ
  | [] => start
  | u :: rest =>
    let cp := mask16 u
    -- take care of surrogate pairs first
    if isLeadSurrogate cp then
      match rest with
      | [] => start + 1 - 1
      | t :: rest =>
        if !isTrailSurrogate (mask16 t) then start + 2 - 1 else utf16FindInvalid (start + 2) rest
    -- lone trail surrogate
    else if isTrailSurrogate cp then start + 1
    else utf16FindInvalid (start + 1) rest

/-- `utf16_replace_invalid`. -/
def utf16ReplaceInvalid (replacement : ℕ) : List UInt16 → List UInt16
  | [] => []
  | char1 :: start =>
    let cp := mask16 char1
    -- take care of surrogate pairs first
    if isLeadSurrogate cp then
      match start with
      | [] => [UInt16.ofNat replacement]
      | char2 :: start =>
        if isTrailSurrogate (mask16 char2) then
          char1 :: char2 :: utf16ReplaceInvalid replacement start
        else UInt16.ofNat replacement :: char2 :: utf16ReplaceInvalid replacement start
    -- lone trail surrogate
    else if isTrailSurrogate cp then
      UInt16.ofNat replacement :: utf16ReplaceInvalid replacement start
    else char1 :: utf16ReplaceInvalid replacement start

/-- `utf16_to_utf8_lenient` : the bytes, and the position that is reported as the first
invalid one. -/
def utf16ToUtf8Lenient (inBuf : List UInt16) : List UInt8 × Option ℕ :=
  let firstInvalidFound := utf16FindInvalid 0 inBuf
  if firstInvalidFound = inBuf.length then (utf16to8 inBuf, none)
  else (utf16to8 (utf16ReplaceInvalid invalidCharReplacement inBuf), some firstInvalidFound)

/-- `utf8_to_utf16_lenient`. `none` is a read beyond the input. -/
def utf8ToUtf16Lenient (inBuf : List UInt8) : Option (List UInt16 × Option ℕ) :=
  let firstInvalidFound := findInvalid 0 inBuf
  if firstInvalidFound = inBuf.length then (utf8to16 inBuf).map (·, none)
  else (utf8to16 (replaceInvalid invalidCharReplacement inBuf)).map (·, some firstInvalidFound)

/-! ## The scan for an invalid sequence -/

section Find

variable {n : ℕ} {u l t : UInt16} {w : List UInt16}

theorem utf16FindInvalid_unit (hl : ¬Lead u) (ht : ¬Trail u) :
    utf16FindInvalid n (u :: w) = utf16FindInvalid (n + 1) w := by
  rw [utf16FindInvalid.eq_def]
  simp [hl, ht]

theorem utf16FindInvalid_pair (hl : Lead l) (ht : Trail t) :
    utf16FindInvalid n (l :: t :: w) = utf16FindInvalid (n + 2) w := by
  rw [utf16FindInvalid.eq_def]
  simp [hl, ht]

theorem utf16FindInvalid_trail (ht : Trail t) : utf16FindInvalid n (t :: w) = n + 1 := by
  rw [utf16FindInvalid.eq_def]
  simp [ht, ht.not_lead]

theorem utf16FindInvalid_lead_nil (hl : Lead l) : utf16FindInvalid n [l] = n := by
  rw [utf16FindInvalid.eq_def]
  simp [hl]

theorem utf16FindInvalid_lead (hl : Lead l) (hu : ¬Trail u) :
    utf16FindInvalid n (l :: u :: w) = n + 1 := by
  rw [utf16FindInvalid.eq_def]
  simp [hl, hu]

end Find

/-- A lone trail surrogate ends the text after a well-formed part. -/
def EndsInTrail (w : List UInt16) : Prop := ∃ p t, WellFormed16 p ∧ Trail t ∧ w = p ++ [t]

theorem endsInTrail_unit_iff {u : UInt16} {w : List UInt16} (hl : ¬Lead u) (ht : ¬Trail u) :
    EndsInTrail (u :: w) ↔ EndsInTrail w := by
  constructor
  · rintro ⟨p, t, hp, htr, heq⟩
    cases p with
    | nil =>
      cases heq
      exact absurd htr ht
    | cons u' p =>
      obtain ⟨rfl, rfl⟩ := List.cons.inj heq
      exact ⟨p, t, (wellFormed16_unit_iff hl ht).1 hp, htr, rfl⟩
  · rintro ⟨p, t, hp, htr, rfl⟩
    exact ⟨u :: p, t, hp.unit hl ht, htr, rfl⟩

theorem endsInTrail_pair_iff {l t : UInt16} {w : List UInt16} (hl : Lead l) (ht : Trail t) :
    EndsInTrail (l :: t :: w) ↔ EndsInTrail w := by
  constructor
  · rintro ⟨p, s, hp, hs, heq⟩
    match p, heq with
    | [_], heq =>
      obtain ⟨rfl, -⟩ := List.cons.inj heq
      exact not_wellFormed16_lead (w := []) hl nofun hp |>.elim
    | _ :: _ :: p, heq =>
      simp only [List.cons_append, List.cons.injEq] at heq
      obtain ⟨rfl, rfl, rfl⟩ := heq
      exact ⟨p, s, (wellFormed16_pair_iff hl ht).1 hp, hs, rfl⟩
  · rintro ⟨p, s, hp, hs, rfl⟩
    exact ⟨l :: t :: p, s, hp.pair hl ht, hs, rfl⟩

theorem not_endsInTrail_lead {l : UInt16} {w : List UInt16} (hl : Lead l)
    (hw : ∀ t w', w = t :: w' → ¬Trail t) : ¬EndsInTrail (l :: w) := by
  rintro ⟨p, t, hp, ht, heq⟩
  match p, heq with
  | [], heq =>
    cases heq
    exact ht.not_lead hl
  | [_], heq =>
    obtain ⟨rfl, -⟩ := List.cons.inj heq
    exact not_wellFormed16_lead (w := []) hl nofun hp
  | _ :: u :: p, heq =>
    obtain ⟨rfl, rfl⟩ := List.cons.inj heq
    exact not_wellFormed16_lead hl (fun t' w' h => by cases h; exact hw u _ rfl) hp

/-- The scan reports the end for a well-formed text, and for one that only a trail surrogate
at the very end spoils. -/
theorem utf16FindInvalid_eq_length_iff :
    ∀ (n : ℕ) (w : List UInt16),
      utf16FindInvalid n w = n + w.length ↔ WellFormed16 w ∨ EndsInTrail w
  | n, [] => ⟨fun _ => .inl .nil, fun _ => rfl⟩
  | n, [l] => by
    by_cases hl : Lead l
    · rw [utf16FindInvalid_lead_nil hl]
      have hwf := not_wellFormed16_lead (w := []) hl nofun
      have hend := not_endsInTrail_lead (w := []) hl nofun
      simp [hwf, hend]
    by_cases ht : Trail l
    · rw [utf16FindInvalid_trail ht]
      exact ⟨fun _ => .inr ⟨[], l, .nil, ht, rfl⟩, fun _ => rfl⟩
    · rw [utf16FindInvalid_unit hl ht]
      exact ⟨fun _ => .inl (.unit hl ht .nil), fun _ => rfl⟩
  | n, u :: v :: w => by
    by_cases hl : Lead u
    · by_cases hv : Trail v
      · rw [utf16FindInvalid_pair hl hv, wellFormed16_pair_iff hl hv, endsInTrail_pair_iff hl hv,
          ← utf16FindInvalid_eq_length_iff (n + 2) w, List.length_cons, List.length_cons]
        constructor <;> intro h <;> omega
      · have hnot : ∀ t w', v :: w = t :: w' → ¬Trail t := by
          rintro _ _ ⟨⟩
          exact hv
        have hwf := not_wellFormed16_lead hl hnot
        have hend := not_endsInTrail_lead hl hnot
        rw [utf16FindInvalid_lead hl hv]
        simp [hwf, hend]
    by_cases ht : Trail u
    · have hend : ¬EndsInTrail (u :: v :: w) := by
        rintro ⟨p, t, hp, -, heq⟩
        cases p with
        | nil => cases heq
        | cons u' p =>
          obtain ⟨rfl, -⟩ := List.cons.inj heq
          exact not_wellFormed16_trail ht hp
      rw [utf16FindInvalid_trail ht]
      simp [not_wellFormed16_trail ht, hend]
    · rw [utf16FindInvalid_unit hl ht, wellFormed16_unit_iff hl ht, endsInTrail_unit_iff hl ht,
        ← utf16FindInvalid_eq_length_iff (n + 1) (v :: w), List.length_cons]
      constructor <;> intro h <;> omega

/-! ## The replacement of what is invalid -/

/-- No lead surrogate has another one right after it. -/
def NoLeadPair (w : List UInt16) : Prop := w.IsChain fun u v => ¬(Lead u ∧ Lead v)

theorem noLeadPair_cons_iff {u : UInt16} {w : List UInt16} (h : ¬Lead u) :
    NoLeadPair (u :: w) ↔ NoLeadPair w := by
  unfold NoLeadPair
  cases w with
  | nil => simp
  | cons v w => simp [h]

theorem noLeadPair_lead_iff {l u : UInt16} {w : List UInt16} (hl : Lead l) :
    NoLeadPair (l :: u :: w) ↔ ¬Lead u ∧ NoLeadPair w := by
  by_cases hu : Lead u
  · simp [NoLeadPair, hl, hu]
  · rw [NoLeadPair, List.isChain_cons_cons]
    exact ⟨fun h => ⟨hu, (noLeadPair_cons_iff hu).1 h.2⟩,
      fun h => ⟨fun hlu => hu hlu.2, (noLeadPair_cons_iff hu).2 h.2⟩⟩

section Replace

variable {r : ℕ} {u l t : UInt16} {w : List UInt16}

theorem utf16ReplaceInvalid_unit (hl : ¬Lead u) (ht : ¬Trail u) :
    utf16ReplaceInvalid r (u :: w) = u :: utf16ReplaceInvalid r w := by
  rw [utf16ReplaceInvalid.eq_def]
  simp [hl, ht]

theorem utf16ReplaceInvalid_pair (hl : Lead l) (ht : Trail t) :
    utf16ReplaceInvalid r (l :: t :: w) = l :: t :: utf16ReplaceInvalid r w := by
  rw [utf16ReplaceInvalid.eq_def]
  simp [hl, ht]

theorem utf16ReplaceInvalid_trail (ht : Trail t) :
    utf16ReplaceInvalid r (t :: w) = UInt16.ofNat r :: utf16ReplaceInvalid r w := by
  rw [utf16ReplaceInvalid.eq_def]
  simp [ht, ht.not_lead]

theorem utf16ReplaceInvalid_lead_nil (hl : Lead l) :
    utf16ReplaceInvalid r [l] = [UInt16.ofNat r] := by
  rw [utf16ReplaceInvalid.eq_def]
  simp [hl]

theorem utf16ReplaceInvalid_lead (hl : Lead l) (hu : ¬Trail u) :
    utf16ReplaceInvalid r (l :: u :: w) = UInt16.ofNat r :: u :: utf16ReplaceInvalid r w := by
  rw [utf16ReplaceInvalid.eq_def]
  simp [hl, hu]

/-- What a turn of the loop does with the units it takes : one unit that is no lead surrogate,
or a lead surrogate and the unit after it. -/
theorem utf16ReplaceInvalid_induction {motive : List UInt16 → Prop} (nil : motive [])
    (unit : ∀ u w, ¬Lead u → ¬Trail u → motive w → motive (u :: w))
    (trail : ∀ t w, Trail t → motive w → motive (t :: w)) (last : ∀ l, Lead l → motive [l])
    (pair : ∀ l t w, Lead l → Trail t → motive w → motive (l :: t :: w))
    (lead : ∀ l u w, Lead l → ¬Trail u → motive w → motive (l :: u :: w)) :
    ∀ w, motive w
  | [] => nil
  | [u] => by
    by_cases hl : Lead u
    · exact last u hl
    by_cases ht : Trail u
    · exact trail u [] ht nil
    · exact unit u [] hl ht nil
  | u :: v :: w => by
    have hw := utf16ReplaceInvalid_induction nil unit trail last pair lead w
    have hvw := utf16ReplaceInvalid_induction nil unit trail last pair lead (v :: w)
    by_cases hl : Lead u
    · by_cases hv : Trail v
      · exact pair u v w hl hv hw
      · exact lead u v w hl hv hw
    by_cases ht : Trail u
    · exact trail u _ ht hvw
    · exact unit u _ hl ht hvw

theorem length_utf16ReplaceInvalid (r : ℕ) (w : List UInt16) :
    (utf16ReplaceInvalid r w).length = w.length := by
  induction w using utf16ReplaceInvalid_induction with
  | nil => rfl
  | unit u w hl ht ih => simp [utf16ReplaceInvalid_unit hl ht, ih]
  | trail t w ht ih => simp [utf16ReplaceInvalid_trail ht, ih]
  | last l hl => simp [utf16ReplaceInvalid_lead_nil hl]
  | pair l t w hl ht ih => simp [utf16ReplaceInvalid_pair hl ht, ih]
  | lead l u w hl hu ih => simp [utf16ReplaceInvalid_lead hl hu, ih]

/-- A turn never stores a trail surrogate first. -/
theorem not_trail_of_utf16ReplaceInvalid (hr : ¬Trail (UInt16.ofNat r)) {w' : List UInt16}
    (h : utf16ReplaceInvalid r w = t :: w') : ¬Trail t := by
  induction w using utf16ReplaceInvalid_induction with
  | nil => cases h
  | unit u w hl ht =>
    rw [utf16ReplaceInvalid_unit hl ht] at h
    cases h
    exact ht
  | trail t w ht =>
    rw [utf16ReplaceInvalid_trail ht] at h
    cases h
    exact hr
  | last l hl =>
    rw [utf16ReplaceInvalid_lead_nil hl] at h
    cases h
    exact hr
  | pair l t w hl ht =>
    rw [utf16ReplaceInvalid_pair hl ht] at h
    cases h
    exact hl.not_trail
  | lead l u w hl hu =>
    rw [utf16ReplaceInvalid_lead hl hu] at h
    cases h
    exact hr

/-- What is stored is well formed exactly if no lead surrogate follows another one. -/
theorem wellFormed16_utf16ReplaceInvalid_iff (hrl : ¬Lead (UInt16.ofNat r))
    (hrt : ¬Trail (UInt16.ofNat r)) :
    WellFormed16 (utf16ReplaceInvalid r w) ↔ NoLeadPair w := by
  induction w using utf16ReplaceInvalid_induction with
  | nil => exact ⟨fun _ => .nil, fun _ => .nil⟩
  | unit u w hl ht ih =>
    rw [utf16ReplaceInvalid_unit hl ht, wellFormed16_unit_iff hl ht, noLeadPair_cons_iff hl, ih]
  | trail t w ht ih =>
    rw [utf16ReplaceInvalid_trail ht, wellFormed16_unit_iff hrl hrt,
      noLeadPair_cons_iff ht.not_lead, ih]
  | last l hl =>
    rw [utf16ReplaceInvalid_lead_nil hl]
    exact ⟨fun _ => .singleton l, fun _ => .unit hrl hrt .nil⟩
  | pair l t w hl ht ih =>
    rw [utf16ReplaceInvalid_pair hl ht, wellFormed16_pair_iff hl ht, noLeadPair_lead_iff hl, ih]
    exact ⟨fun h => ⟨ht.not_lead, h⟩, fun h => h.2⟩
  | lead l u w hl hu ih =>
    rw [utf16ReplaceInvalid_lead hl hu, wellFormed16_unit_iff hrl hrt, noLeadPair_lead_iff hl]
    by_cases hlu : Lead u
    · -- the second lead surrogate is stored, and no trail surrogate after it
      have hnot := not_wellFormed16_lead (w := utf16ReplaceInvalid r w) hlu
        fun t w' h => not_trail_of_utf16ReplaceInvalid hrt h
      exact ⟨fun h => absurd h hnot, fun h => absurd hlu h.1⟩
    · rw [wellFormed16_unit_iff hlu hu, ih]
      exact ⟨fun h => ⟨hlu, h⟩, fun h => h.2⟩

/-- A well-formed part at the front is copied. -/
theorem utf16ReplaceInvalid_append {p : List UInt16} (hp : WellFormed16 p) (b : List UInt16) :
    utf16ReplaceInvalid r (p ++ b) = p ++ utf16ReplaceInvalid r b := by
  induction hp using WellFormed16.induction with
  | nil => rfl
  | unit u w hl ht _ ih => rw [List.cons_append, utf16ReplaceInvalid_unit hl ht, ih]; rfl
  | pair l t w hl ht _ ih =>
    rw [List.cons_append, List.cons_append, utf16ReplaceInvalid_pair hl ht, ih]
    rfl

end Replace

/-- Every well-formed part of the text is found unchanged at its place in the result. -/
def KeepsParts (w out : List UInt16) : Prop :=
  ∀ a p b, w = a ++ p ++ b → WellFormed16 p →
    ∃ a' b', a'.length = a.length ∧ b'.length = b.length ∧ out = a' ++ p ++ b'

theorem keepsParts_append {r : ℕ} {p b : List UInt16} (hp : WellFormed16 p) (hne : p ≠ []) :
    ∀ a, NoLeadPair (a ++ p ++ b) →
      ∃ a' b', a'.length = a.length ∧ b'.length = b.length ∧
        utf16ReplaceInvalid r (a ++ p ++ b) = a' ++ p ++ b'
  | [], _ => ⟨[], _, rfl, length_utf16ReplaceInvalid r b, utf16ReplaceInvalid_append hp b⟩
  | u :: a, h => by
    by_cases hl : Lead u
    · match a with
      | [] =>
        -- the part starts right after a lone lead surrogate, with a unit that is no surrogate
        obtain ⟨x, p, rfl⟩ := List.exists_cons_of_ne_nil hne
        have hx := ((noLeadPair_lead_iff hl).1 h).1
        obtain ⟨-, hxt, hp'⟩ | ⟨_, _, -, hxl, -⟩ := hp.cons_cases
        · refine ⟨[UInt16.ofNat r], utf16ReplaceInvalid r b, rfl,
            length_utf16ReplaceInvalid r b, ?_⟩
          simp only [List.cons_append, List.nil_append, utf16ReplaceInvalid_lead hl hxt,
            utf16ReplaceInvalid_append hp']
        · exact absurd hxl hx
      | v :: a =>
        obtain ⟨a', b', ha, hb, heq⟩ :=
          keepsParts_append (r := r) hp hne a ((noLeadPair_lead_iff hl).1 h).2
        by_cases hv : Trail v
        · refine ⟨u :: v :: a', b', by simp [ha], hb, ?_⟩
          simp only [List.cons_append, utf16ReplaceInvalid_pair hl hv, heq]
        · refine ⟨UInt16.ofNat r :: v :: a', b', by simp [ha], hb, ?_⟩
          simp only [List.cons_append, utf16ReplaceInvalid_lead hl hv, heq]
    · obtain ⟨a', b', ha, hb, heq⟩ :=
        keepsParts_append (r := r) hp hne a ((noLeadPair_cons_iff hl).1 h)
      by_cases ht : Trail u
      · refine ⟨UInt16.ofNat r :: a', b', by simp [ha], hb, ?_⟩
        simp only [List.cons_append, utf16ReplaceInvalid_trail ht, heq]
      · refine ⟨u :: a', b', by simp [ha], hb, ?_⟩
        simp only [List.cons_append, utf16ReplaceInvalid_unit hl ht, heq]

theorem keepsParts_utf16ReplaceInvalid {r : ℕ} {w : List UInt16} (h : NoLeadPair w) :
    KeepsParts w (utf16ReplaceInvalid r w) := by
  rintro a p b rfl hp
  by_cases hne : p = []
  · subst hne
    have hlen := length_utf16ReplaceInvalid r (a ++ [] ++ b)
    simp only [List.append_nil, List.length_append] at hlen
    refine ⟨(utf16ReplaceInvalid r (a ++ [] ++ b)).take a.length,
      (utf16ReplaceInvalid r (a ++ [] ++ b)).drop a.length, ?_, ?_, by simp⟩
    · simp [hlen]
    · simp [hlen]
  · exact keepsParts_append hp hne a h

/-! ## The conversion to UTF-8 -/

theorem not_lead_replacement : ¬Lead (UInt16.ofNat invalidCharReplacement) := by decide

theorem not_trail_replacement : ¬Trail (UInt16.ofNat invalidCharReplacement) := by decide

theorem valid8_utf16to8 {w : List UInt16} (h : WellFormed16 w) : Valid8 (utf16to8 w) := by
  obtain ⟨cs, rfl⟩ := h
  exact ⟨cs, utf16to8_encode cs⟩

/-- What the lenient conversion is to do with a text : return valid UTF-8, tell well-formed
texts from the others, and replace what is invalid and nothing else. -/
structure LenientOk (w : List UInt16) : Prop where
  utf8 : Valid8 (utf16ToUtf8Lenient w).1
  find : utf16FindInvalid 0 w = w.length ↔ WellFormed16 w
  replaced : WellFormed16 (utf16ReplaceInvalid invalidCharReplacement w)
  keeps : KeepsParts w (utf16ReplaceInvalid invalidCharReplacement w)
  identity : WellFormed16 w → utf16ReplaceInvalid invalidCharReplacement w = w

/-- The lenient conversion is right exactly on the texts in which no lead surrogate follows
another one and which do not end, after a well-formed part, in a lone trail surrogate. -/
theorem utf16ToUtf8Lenient_ok_iff (w : List UInt16) :
    LenientOk w ↔ NoLeadPair w ∧ ¬EndsInTrail w := by
  have hfind := utf16FindInvalid_eq_length_iff 0 w
  rw [Nat.zero_add] at hfind
  have hreplaced := wellFormed16_utf16ReplaceInvalid_iff (w := w) not_lead_replacement
    not_trail_replacement
  constructor
  · intro h
    refine ⟨hreplaced.1 h.replaced, fun hend => ?_⟩
    have hwf : WellFormed16 w := h.find.1 (hfind.2 (.inr hend))
    obtain ⟨p, t, hp, ht, rfl⟩ := hend
    have hlast : WellFormed16 [t] := (wellFormed16_append_iff hp).1 hwf
    exact not_wellFormed16_trail ht hlast
  · rintro ⟨hpair, hend⟩
    have hfind' : utf16FindInvalid 0 w = w.length ↔ WellFormed16 w :=
      hfind.trans (or_iff_left hend)
    refine ⟨?_, hfind', hreplaced.2 hpair, keepsParts_utf16ReplaceInvalid hpair, fun h => ?_⟩
    · simp only [utf16ToUtf8Lenient]
      split
      · exact valid8_utf16to8 (hfind'.1 ‹_›)
      · exact valid8_utf16to8 (hreplaced.2 hpair)
    · simpa [utf16ReplaceInvalid] using utf16ReplaceInvalid_append
        (r := invalidCharReplacement) h []

/-- A trail surrogate alone is passed on as it is, and so are two lead surrogates. -/
theorem not_lenientOk_trail : ¬LenientOk [0xdc00] ∧ ¬LenientOk [0xd800, 0xd800, 0xdc00] := by
  constructor
  · intro h
    have hwf : WellFormed16 [0xdc00] := h.find.1 rfl
    exact not_wellFormed16_trail (by decide) hwf
  · intro h
    have hwf : WellFormed16 [0xfffd, 0xd800, 0xfffd] := h.replaced
    have hrest : WellFormed16 [0xd800, 0xfffd] :=
      (wellFormed16_unit_iff (by decide) (by decide)).1 hwf
    refine not_wellFormed16_lead (by decide) ?_ hrest
    rintro _ _ ⟨⟩
    decide

/-! ## Round trips -/

theorem utf16ToUtf8Lenient_encode (cs : List Char) :
    utf16ToUtf8Lenient (cs.flatMap utf16EncodeChar)
      = (cs.flatMap String.utf8EncodeChar, none) := by
  have hfind := (utf16FindInvalid_eq_length_iff 0 _).2 (.inl ⟨cs, rfl⟩)
  rw [Nat.zero_add] at hfind
  rw [utf16ToUtf8Lenient, if_pos hfind, utf16to8_encode]

theorem utf8ToUtf16Lenient_encode (cs : List Char) :
    utf8ToUtf16Lenient (cs.flatMap String.utf8EncodeChar)
      = some (cs.flatMap utf16EncodeChar, none) := by
  have hfind := findInvalid_encode cs 0
  rw [Nat.zero_add] at hfind
  rw [utf8ToUtf16Lenient, if_pos hfind, utf8to16_encode]
  rfl

/-- The lenient conversion of bytes never reads beyond them, and gives no more units than there
are bytes. -/
theorem utf8ToUtf16Lenient_total (u : List UInt8) :
    ∃ w pos, utf8ToUtf16Lenient u = some (w, pos) ∧ w.length ≤ u.length := by
  unfold utf8ToUtf16Lenient
  by_cases hfind : findInvalid 0 u = u.length
  · obtain ⟨cs, rfl⟩ := valid8_of_findInvalid 0 u (by omega)
    refine ⟨cs.flatMap utf16EncodeChar, none, ?_, ?_⟩
    · simp only [hfind, if_true, utf8to16_encode]
      rfl
    · clear hfind
      induction cs with
      | nil => exact Nat.le_refl _
      | cons c cs ih =>
        have hc := length_utf16EncodeChar_le c
        simp only [List.flatMap_cons, List.length_append]
        omega
  · obtain ⟨cs, hcs, hlen⟩ := replaceInvalid_text (Char.ofNat invalidCharReplacement) rfl u
    have hcs' : replaceInvalid invalidCharReplacement u = cs.flatMap String.utf8EncodeChar := hcs
    exact ⟨_, some (findInvalid 0 u), by simp [hfind, hcs', utf8to16_encode], hlen⟩

/-- On well-formed UTF-16 and on valid UTF-8 the two conversions undo each other, and neither
reports an invalid position. -/
theorem widechar_roundtrip :
    (∀ w, WellFormed16 w → (utf16ToUtf8Lenient w).2 = none ∧
      utf8ToUtf16Lenient (utf16ToUtf8Lenient w).1 = some (w, none)) ∧
    ∀ u, Valid8 u → ∃ w, utf8ToUtf16Lenient u = some (w, none) ∧
      utf16ToUtf8Lenient w = (u, none) := by
  constructor
  · rintro w ⟨cs, rfl⟩
    rw [utf16ToUtf8Lenient_encode]
    exact ⟨rfl, utf8ToUtf16Lenient_encode cs⟩
  · rintro u ⟨cs, rfl⟩
    exact ⟨_, utf8ToUtf16Lenient_encode cs, utf16ToUtf8Lenient_encode cs⟩

/-- A letter and a surrogate pair, there and back. -/
theorem widechar_roundtrip_text :
    utf8ToUtf16Lenient (utf16ToUtf8Lenient [0x41, 0xd83d, 0xde00]).1
        = some ([0x41, 0xd83d, 0xde00], none) ∧
      ∃ w, utf8ToUtf16Lenient [0x41, 0xf0, 0x9f, 0x98, 0x80] = some (w, none) ∧
        utf16ToUtf8Lenient w = ([0x41, 0xf0, 0x9f, 0x98, 0x80], none) :=
  ⟨(widechar_roundtrip.1 [0x41, 0xd83d, 0xde00] ⟨['A', '😀'], by decide⟩).2,
    widechar_roundtrip.2 [0x41, 0xf0, 0x9f, 0x98, 0x80] ⟨['A', '😀'], by decide⟩⟩

end HaybarnOdbc.Widechar
