import HaybarnOdbc.Connect

/-!
# What a connection string is

The grammar that the loop of `ParseInputStr` goes by (`Entries`) : entries `key=value`
separated by semicolons and blanks, a value in braces with its closing braces doubled or
plain up to the next semicolon. The loop reads exactly these strings (`parseLoop_entries`,
`entries_of_parseLoop`), entry after entry.

From it, what a string that names a Cupola connection may hold besides
(`parseInputStr_cupola`) : the driver, and credentials that are empty.
-/

namespace HaybarnOdbc.Connect

/-- A closing brace inside a braced value is doubled. -/
def escape (value : List Char) : List Char :=
  value.flatMap fun ch => if ch = '}' then ['}', '}'] else [ch]

/-- An entry ends here : at the end of the string or before a semicolon. -/
def EntryEnd (rest : List Char) : Prop := ∀ ch r, rest = ch :: r → ch = ';'

/-- `ValueOf text value rest` : the text after an equals sign gives a value, and `rest`
comes after it. -/
inductive ValueOf : List Char → List Char → List Char → Prop
  | braced {blanks value blanks' rest : List Char} (hblanks : ∀ ch ∈ blanks, isSpace ch)
      (hblanks' : ∀ ch ∈ blanks', isSpace ch) (hrest : EntryEnd rest) :
      ValueOf (blanks ++ '{' :: (escape value ++ '}' :: (blanks' ++ rest))) value rest
  | plain {blanks text rest : List Char} (hblanks : ∀ ch ∈ blanks, isSpace ch)
      (htext : ';' ∉ text) (hhead : ∀ ch t, text = ch :: t → isSpace ch = false ∧ ch ≠ '{')
      (hrest : EntryEnd rest) : ValueOf (blanks ++ (text ++ rest)) (trimString text) rest

/-- `Entries text entries` : the text is a connection string, with these keys in lower case
and their values. -/
inductive Entries : List Char → List (String × String) → Prop
  | nil {seps : List Char} (hseps : ∀ ch ∈ seps, isSeparator ch) : Entries seps []
  | cons {seps key after value rest : List Char} {entries : List (String × String)}
      (hseps : ∀ ch ∈ seps, isSeparator ch) (hkey : '=' ∉ key)
      (hhead : ∀ ch k, key = ch :: k → isSeparator ch = false) (hvalue : ValueOf after value rest)
      (hrest : Entries rest entries) :
      Entries (seps ++ (key ++ '=' :: after))
        ((String.ofList (lower (trimString key)), String.ofList value) :: entries)

/-! ## Values -/

theorem escape_brace (value : List Char) : escape ('}' :: value) = '}' :: '}' :: escape value := rfl

theorem escape_cons {ch : Char} (h : ch ≠ '}') (value : List Char) :
    escape (ch :: value) = ch :: escape value := by
  simp [escape, h]

/-- A brace that is not doubled ends the value. -/
theorem bracedValue_close {rest : List Char} (h : ∀ r, rest ≠ '}' :: r) :
    bracedValue ('}' :: rest) = ([], true, rest) := by
  cases rest with
  | nil => rfl
  | cons ch r =>
    rw [bracedValue]
    rintro r' ⟨⟩
    exact h r rfl

theorem bracedValue_cons {ch : Char} (h : ch ≠ '}') (text : List Char) :
    bracedValue (ch :: text)
      = (ch :: (bracedValue text).1, (bracedValue text).2.1, (bracedValue text).2.2) := by
  rw [bracedValue]
  · exact fun _ hch _ => h hch
  · exact h

/-- What was written in braces is read back. -/
theorem bracedValue_escape (value : List Char) {rest : List Char} (h : ∀ r, rest ≠ '}' :: r) :
    bracedValue (escape value ++ '}' :: rest) = (value, true, rest) := by
  induction value with
  | nil => exact bracedValue_close h
  | cons ch value ih =>
    by_cases hch : ch = '}'
    · subst hch
      rw [escape_brace, List.cons_append, List.cons_append, bracedValue, ih]
    · rw [escape_cons hch, List.cons_append, bracedValue_cons hch, ih]

/-- What is read in braces was written so. -/
theorem eq_escape_of_bracedValue (text : List Char) :
    (bracedValue text).2.1 = true →
      text = escape (bracedValue text).1 ++ '}' :: (bracedValue text).2.2 := by
  induction text using bracedValue.induct with
  | case1 => nofun
  | case2 text v closed r heq ih =>
    intro h
    simp only [bracedValue, heq] at ih h ⊢
    rw [escape_brace, List.cons_append, List.cons_append, ← ih h]
  | case3 text hne =>
    intro _
    rw [bracedValue_close hne]
    rfl
  | case4 ch text hne hne' v closed r heq ih =>
    intro h
    have hch : ch ≠ '}' := hne'
    rw [bracedValue_cons hch] at h ⊢
    rw [escape_cons hch, List.cons_append, ← ih h]

theorem dropWhile_of_all {p : Char → Bool} {a b : List Char} (ha : ∀ ch ∈ a, p ch)
    (hb : ∀ ch r, b = ch :: r → p ch = false) : (a ++ b).dropWhile p = b := by
  rw [List.dropWhile_append_of_pos ha]
  cases b with
  | nil => rfl
  | cons ch r => rw [List.dropWhile_cons_of_neg (by simp [hb ch r rfl])]

theorem takeWhile_of_all {p : Char → Bool} {a b : List Char} (ha : ∀ ch ∈ a, p ch)
    (hb : ∀ ch r, b = ch :: r → p ch = false) : (a ++ b).takeWhile p = a := by
  rw [List.takeWhile_append_of_pos ha]
  cases b with
  | nil => simp
  | cons ch r => rw [List.takeWhile_cons_of_neg (by simp [hb ch r rfl]), List.append_nil]

/-- The first char that is dropped no more. -/
theorem not_of_dropWhile_eq_cons {p : Char → Bool} {text r : List Char} {ch : Char}
    (h : text.dropWhile p = ch :: r) : p ch = false := by
  have hhead := List.head?_dropWhile_not p text
  rw [h] at hhead
  simpa using hhead

/-- An entry does not end in a blank. -/
theorem EntryEnd.not_space {rest r : List Char} {ch : Char} (h : EntryEnd rest)
    (heq : rest = ch :: r) : isSpace ch = false := by
  rw [h ch r heq]
  rfl

/-- `parseValue` reads the values of the grammar. -/
theorem parseValue_of_valueOf {text value rest : List Char} (h : ValueOf text value rest) :
    parseValue text = some (value, rest) := by
  cases h with
  | @braced blanks _ blanks' _ hblanks hblanks' hrest =>
    have hbrace : ∀ r, blanks' ++ rest ≠ '}' :: r := by
      intro r heq
      cases blanks' with
      | nil => exact absurd (hrest _ _ heq) (by decide)
      | cons ch b =>
        obtain ⟨rfl, -⟩ := List.cons.inj heq
        have hspace := hblanks' _ List.mem_cons_self
        exact absurd hspace (by decide)
    have hopen : ∀ ch r, '{' :: (escape value ++ '}' :: (blanks' ++ rest)) = ch :: r →
        isSpace ch = false := by
      rintro _ _ ⟨⟩
      rfl
    have hend : rest.head?.any (· != ';') = false := by
      cases rest with
      | nil => rfl
      | cons ch r => simp [hrest ch r rfl]
    simp only [parseValue, dropWhile_of_all hblanks hopen, bracedValue_escape value hbrace,
      dropWhile_of_all hblanks' fun _ _ => hrest.not_space, hend]
    rfl
  | @plain blanks text _ hblanks htext hhead hrest =>
    have hstart : ∀ ch r, text ++ rest = ch :: r → isSpace ch = false ∧ ch ≠ '{' := by
      intro ch r heq
      cases text with
      | nil =>
        obtain rfl := hrest ch r heq
        exact ⟨rfl, by decide⟩
      | cons c t =>
        obtain ⟨rfl, -⟩ := List.cons.inj heq
        exact hhead c t rfl
    have hsemi : ∀ ch ∈ text, (ch != ';') = true := by
      intro ch hch
      simp only [bne_iff_ne]
      rintro rfl
      exact htext hch
    have hend : ∀ ch r, rest = ch :: r → (ch != ';') = false := by
      intro ch r heq
      simp [hrest ch r heq]
    have hne : ∀ t, text ++ rest ≠ '{' :: t := fun t heq => (hstart _ _ heq).2 rfl
    rw [parseValue, dropWhile_of_all hblanks fun ch r heq => (hstart ch r heq).1]
    split
    · exact absurd ‹_› (hne _)
    · rw [takeWhile_of_all hsemi hend, dropWhile_of_all hsemi hend]

/-- What the code reads as the value is the value. -/
theorem valueOf_of_parseValue {text value rest : List Char}
    (h : parseValue text = some (value, rest)) : ValueOf text value rest := by
  have hblanks : ∀ ch ∈ text.takeWhile isSpace, isSpace ch :=
    fun ch hch => List.mem_takeWhile_imp hch
  have hsplit := List.takeWhile_append_dropWhile (p := isSpace) (l := text)
  unfold parseValue at h
  split at h
  · next t heq =>
    rcases hb : bracedValue t with ⟨v, closed, r⟩
    have hbody := eq_escape_of_bracedValue t
    simp only [hb] at h hbody
    split at h
    · cases h
    · next hend =>
      obtain ⟨rfl, rfl⟩ : v = value ∧ r.dropWhile isSpace = rest := by simpa using h
      simp only [Bool.or_eq_true, not_or, Bool.not_eq_true', Bool.not_eq_false] at hend
      have hafter := List.takeWhile_append_dropWhile (p := isSpace) (l := r)
      have htext : text = text.takeWhile isSpace ++
          '{' :: (escape v ++ '}' :: (r.takeWhile isSpace ++ r.dropWhile isSpace)) := by
        rw [hafter, ← hbody hend.1, ← heq, hsplit]
      rw [htext]
      refine .braced hblanks (fun ch hch => List.mem_takeWhile_imp hch) fun ch r' hr => ?_
      simpa [hr] using hend.2
  · next hne =>
    obtain ⟨rfl, rfl⟩ : trimString ((text.dropWhile isSpace).takeWhile (· != ';')) = value ∧
        (text.dropWhile isSpace).dropWhile (· != ';') = rest := by simpa using h
    have hrest := List.takeWhile_append_dropWhile (p := (· != ';')) (l := text.dropWhile isSpace)
    have htext : text = text.takeWhile isSpace ++ ((text.dropWhile isSpace).takeWhile (· != ';') ++
        (text.dropWhile isSpace).dropWhile (· != ';')) := by
      rw [hrest, hsplit]
    suffices hval : ValueOf (text.takeWhile isSpace ++
        ((text.dropWhile isSpace).takeWhile (· != ';') ++
          (text.dropWhile isSpace).dropWhile (· != ';')))
        (trimString ((text.dropWhile isSpace).takeWhile (· != ';')))
        ((text.dropWhile isSpace).dropWhile (· != ';')) by rwa [← htext] at hval
    refine .plain hblanks (fun hmem => ?_) (fun ch t heq => ?_) fun ch r hr => ?_
    · simpa using List.mem_takeWhile_imp hmem
    · -- the plain text starts where the blanks end
      have hstart : ch :: (t ++ (text.dropWhile isSpace).dropWhile (· != ';'))
          = text.dropWhile isSpace := by
        rw [← List.cons_append, ← heq, hrest]
      refine ⟨not_of_dropWhile_eq_cons hstart.symm, ?_⟩
      rintro rfl
      exact hne _ hstart.symm
    · simpa using not_of_dropWhile_eq_cons hr

/-! ## The loop -/

/-- The entries of the string, one after the other. -/
def parseEntries (e : EngineNames) (p : ParseState) :
    List (String × String) → SqlReturn × ParseState
  | [] => (.success, p)
  | (key, value) :: entries =>
    let (ret, p) := parseEntry e p key value
    if !ret.succeeded then (ret, p) else parseEntries e p entries

/-- The entry at the front of the text. -/
theorem Entries.front {text : List Char} {entries : List (String × String)}
    (h : Entries text entries) :
    (entries = [] ∧ text.dropWhile isSeparator = []) ∨
      ∃ key after value rest tail,
        entries = (String.ofList (lower (trimString key)), String.ofList value) :: tail ∧
        text.dropWhile isSeparator = key ++ '=' :: after ∧
        (key ++ '=' :: after).takeWhile (· != '=') = key ∧
        (key ++ '=' :: after).dropWhile (· != '=') = '=' :: after ∧
        parseValue after = some (value, rest) ∧ Entries rest tail := by
  cases h with
  | nil hseps => exact .inl ⟨rfl, by simpa using dropWhile_of_all (b := []) hseps nofun⟩
  | @cons seps key after value rest tail hseps hkey hhead hvalue hrest =>
    have hstart : ∀ ch r, key ++ '=' :: after = ch :: r → isSeparator ch = false := by
      intro ch r heq
      cases key with
      | nil =>
        obtain ⟨rfl, -⟩ := List.cons.inj heq
        rfl
      | cons c k =>
        obtain ⟨rfl, -⟩ := List.cons.inj heq
        exact hhead c k rfl
    have hne : ∀ ch ∈ key, (ch != '=') = true := by
      intro ch hch
      simp only [bne_iff_ne]
      rintro rfl
      exact hkey hch
    have hequal : ∀ ch r, '=' :: after = ch :: r → (ch != '=') = false := by
      rintro _ _ ⟨⟩
      rfl
    exact .inr ⟨key, after, value, rest, tail, rfl, dropWhile_of_all hseps hstart,
      takeWhile_of_all hne hequal, dropWhile_of_all hne hequal, parseValue_of_valueOf hvalue, hrest⟩

/-- A string has its entries in one way only. -/
theorem Entries.unique {text : List Char} {entries entries' : List (String × String)}
    (h : Entries text entries) (h' : Entries text entries') : entries = entries' := by
  induction hlen : text.length using Nat.strong_induction_on generalizing text entries entries' with
  | _ n ih =>
    obtain ⟨rfl, hnil⟩ | ⟨key, after, value, rest, tail, rfl, hdrop, hkey, hafter, hval, hrest⟩ :=
      h.front
    · obtain ⟨rfl, -⟩ | ⟨key, after, _, _, _, -, hdrop, -⟩ := h'.front
      · rfl
      · simp [hnil] at hdrop
    · obtain ⟨-, hnil⟩ | ⟨key', after', value', rest', tail', rfl, hdrop', hkey', hafter', hval',
        hrest'⟩ := h'.front
      · simp [hnil] at hdrop
      · have heq : key ++ '=' :: after = key' ++ '=' :: after' := hdrop.symm.trans hdrop'
        obtain rfl : key = key' := by rw [← hkey, heq, hkey']
        obtain rfl : after = after' := by simpa using heq
        obtain ⟨rfl, rfl⟩ : value = value' ∧ rest = rest' := by simpa using hval.symm.trans hval'
        have hle := length_dropWhile_le isSeparator text
        have hvle := length_le_of_parseValue hval
        rw [hdrop, List.length_append, List.length_cons] at hle
        rw [ih rest.length (by omega) hrest hrest' rfl]

/-- The loop on a string of the grammar goes through its entries. -/
theorem parseLoop_entries (e : EngineNames) {text : List Char} {entries : List (String × String)}
    (h : Entries text entries) (p : ParseState) :
    parseLoop e p text = parseEntries e p entries := by
  induction hlen : text.length using Nat.strong_induction_on generalizing text entries p with
  | _ n ih =>
    obtain ⟨rfl, hnil⟩ | ⟨key, after, value, rest, tail, rfl, hdrop, hkey, hafter, hval, hrest⟩ :=
      h.front
    · rw [parseLoop]
      split
      · rfl
      · next heq => simp [hnil] at heq
    · have hle := length_dropWhile_le isSeparator text
      have hvle := length_le_of_parseValue hval
      rw [hdrop, List.length_append, List.length_cons] at hle
      rw [parseLoop]
      split
      · next heq => simp [hdrop] at heq
      · next ch t heq =>
        rw [hdrop] at heq
        split
        · next hnone => simp [← heq, hafter] at hnone
        · next a after' hcons =>
          rw [← heq, hafter] at hcons
          obtain ⟨-, rfl⟩ := List.cons.inj hcons
          split
          · next hnone => simp [hval] at hnone
          · next v r hsome =>
            obtain ⟨rfl, rfl⟩ : value = v ∧ rest = r := by simpa using hval.symm.trans hsome
            rw [← heq, hkey, parseEntries]
            simp only [ih rest.length (by omega) hrest _ rfl]

/-- A string that the loop gets through is one of the grammar. -/
theorem entries_of_parseLoop (e : EngineNames) (p : ParseState) (text : List Char) :
    (parseLoop e p text).1.succeeded = true → ∃ entries, Entries text entries := by
  fun_induction parseLoop e p text with
  | case1 p text hsep =>
    intro _
    have hsplit := List.takeWhile_append_dropWhile (p := isSeparator) (l := text)
    rw [hsep, List.append_nil] at hsplit
    exact ⟨[], hsplit ▸ .nil fun ch hch => List.mem_takeWhile_imp hch⟩
  | case2 p text ch t hsep heq ret c hdiag =>
    cases hdiag
    intro h
    cases h
  | case3 p text ch t hsep eq after heq hval ret c hdiag =>
    cases hdiag
    intro h
    cases h
  | case4 p text ch t hsep eq after heq value rest hval key ret p' hentry hret =>
    intro h
    simp [h] at hret
  | case5 p text ch t hsep eq after heq value rest hval key ret p' hentry hret ih =>
    intro h
    obtain ⟨entries, hentries⟩ := ih h
    have hsplit := List.takeWhile_append_dropWhile (p := isSeparator) (l := text)
    have hequal := List.takeWhile_append_dropWhile (p := (· != '=')) (l := ch :: t)
    obtain rfl : eq = '=' := by simpa using not_of_dropWhile_eq_cons heq
    rw [hsep, ← hequal, heq] at hsplit
    refine ⟨(String.ofList key, String.ofList value) :: entries, ?_⟩
    rw [← hsplit]
    refine .cons (fun ch hch => List.mem_takeWhile_imp hch) (fun hmem => ?_)
      (fun ch' k hk => ?_) (valueOf_of_parseValue hval) hentries
    · simpa using List.mem_takeWhile_imp hmem
    · -- the key starts where the separators end
      rw [hk, List.cons_append] at hequal
      obtain ⟨rfl, -⟩ := List.cons.inj hequal
      exact not_of_dropWhile_eq_cons hsep

/-! ## What an entry does -/

variable (e : EngineNames)

/-- A key as the loop hands it over : in lower case, without blanks around it, and ended by
the first equals sign. -/
def IsKey (key : String) : Prop :=
  trimString (lower key.toList) = key.toList ∧ '=' ∉ key.toList

/-- A text without an equals sign is a key. -/
theorem isKey_of_not_mem {key : List Char} (h : '=' ∉ key) :
    IsKey (String.ofList (lower (trimString key))) := by
  rw [IsKey, String.toList_ofList, lower_lower, trimString_lower, trimString_trimString]
  exact ⟨rfl, fun hmem => h (mem_of_mem_trimString ((mem_lower_iff (by decide)).1 hmem))⟩

/-- The keys of a string are keys. -/
theorem Entries.isKey {text : List Char} {entries : List (String × String)}
    (h : Entries text entries) : ∀ x ∈ entries, IsKey x.1 := by
  induction h with
  | nil => simp
  | cons hseps hkey hhead hvalue hrest ih =>
    rintro x (_ | ⟨_, hx⟩)
    · exact isKey_of_not_mem hkey
    · exact ih x hx

/-- What becomes of a pair : its key is ignored, unknown, refused, or an option that is given. -/
def keepPair (c : Connect) (key value : String) : SqlReturn × Connect :=
  if key ∈ ignoreKeys then (.success, c)
  else if key ∉ c.options then findMatchingKey e c key
  else if key = sqlFileOption ∨ key = sqlFileSha256Option then
    c.setDiagnosticRecord .error
      ("Options '" ++ sqlFileOption ++ "' and '" ++ sqlFileSha256Option ++
        "' can only be specified in DSN configuration in a file or registry.") .st01S09
  else (.success, c.give key value)

/-- `FindKeyValPair` takes the pair of the loop apart again, and the blanks off the value. -/
theorem findKeyValPair_of_isKey {key : String} (h : IsKey key) (c : Connect) (value : List Char) :
    findKeyValPair e c (key.toList ++ '=' :: value)
      = keepPair e c key (String.ofList (trimString value)) := by
  have hne : ∀ ch ∈ key.toList, (ch != '=') = true := by
    intro ch hch
    rw [bne_iff_ne]
    rintro rfl
    exact h.2 hch
  have hequal : ∀ ch r, '=' :: value = ch :: r → (ch != '=') = false := by
    rintro _ _ ⟨⟩
    rfl
  have hkey : String.ofList (trimString (lower key.toList)) = key := by
    rw [h.1, String.ofList_toList]
  rw [findKeyValPair, dropWhile_of_all hne hequal, takeWhile_of_all hne hequal]
  simp only [hkey, keepPair]
  by_cases hmem : key ∈ c.options
  · have hmatch : findMatchingKey e c key = (.success, c) := if_pos hmem
    simp [hmatch, hmem]
  · obtain ⟨c', hmatch⟩ : ∃ c', findMatchingKey e c key = (.successWithInfo, c') :=
      ⟨_, if_neg hmem⟩
    simp [hmatch, hmem]

theorem seen_subset_give (c : Connect) (key value : String) : c.seen ⊆ (c.give key value).seen :=
  fun _ h => List.mem_insert_of_mem h

/-- No option is forgotten. -/
theorem seen_subset_findKeyValPair (c : Connect) (row : List Char) :
    c.seen ⊆ (findKeyValPair e c row).2.seen := by
  unfold findKeyValPair
  split
  · exact fun _ h => h
  · intro key hkey
    simp only [findMatchingKey, setDiagnosticRecord]
    split_ifs <;> simp [give, hkey]

theorem seen_setSuccessWithInfo (c : Connect) (ret : SqlReturn) :
    (c.setSuccessWithInfo ret).2.seen = c.seen := by
  unfold setSuccessWithInfo
  split_ifs <;> rfl

/-- What a turn notes about the entry, and that it forgets no option. -/
theorem parseEntry_notes (p : ParseState) (key value : String) :
    (parseEntry e p key value).2.supplied = p.supplied.insert key ∧
    (parseEntry e p key value).2.duplicate = (p.duplicate || p.supplied.elem key) ∧
    (parseEntry e p key value).2.unexpected = (p.unexpected || !besideCupola key value) ∧
    p.connect.seen ⊆ (parseEntry e p key value).2.connect.seen ∧
    (key = "cupolaconnection" → key ∈ (parseEntry e p key value).2.connect.seen) := by
  unfold parseEntry
  split_ifs with hkey
  · exact ⟨rfl, rfl, rfl, seen_subset_give _ _ _, fun _ => List.mem_insert_self⟩
  · refine ⟨rfl, rfl, rfl, ?_, fun h => absurd h hkey⟩
    simp only [seen_setSuccessWithInfo]
    exact seen_subset_findKeyValPair e _ _

/-- What is noted of a string that was read to its end. -/
theorem parseEntries_notes (entries : List (String × String)) (p : ParseState)
    (h : (parseEntries e p entries).1.succeeded = true) :
    ((parseEntries e p entries).2.duplicate = false ↔ p.duplicate = false ∧
      (entries.map Prod.fst).Nodup ∧ ∀ key ∈ entries.map Prod.fst, key ∉ p.supplied) ∧
    ((parseEntries e p entries).2.unexpected = false ↔ p.unexpected = false ∧
      ∀ x ∈ entries, besideCupola x.1 x.2 = true) ∧
    p.connect.seen ⊆ (parseEntries e p entries).2.connect.seen ∧
    ("cupolaconnection" ∈ entries.map Prod.fst →
      "cupolaconnection" ∈ (parseEntries e p entries).2.connect.seen) := by
  induction entries generalizing p with
  | nil => simp [parseEntries]
  | cons x entries ih =>
    obtain ⟨key, value⟩ := x
    obtain ⟨hsup, hdup, hunexp, hseen, hcupola⟩ := parseEntry_notes e p key value
    have hgo : (parseEntry e p key value).1.succeeded = true := by
      by_contra hne
      rw [Bool.not_eq_true] at hne
      simp [parseEntries, hne] at h
    have hrest : parseEntries e p ((key, value) :: entries)
        = parseEntries e (parseEntry e p key value).2 entries := by
      simp [parseEntries, hgo]
    rw [hrest] at h ⊢
    obtain ⟨hd, hu, hs, hc⟩ := ih _ h
    refine ⟨?_, ?_, List.Subset.trans hseen hs, ?_⟩
    · rw [hd, hdup, hsup]
      simp only [List.map_cons, List.nodup_cons, List.mem_cons, List.mem_insert_iff,
        Bool.or_eq_false_iff, List.elem_eq_mem, decide_eq_false_iff_not, forall_eq_or_imp]
      grind
    · rw [hu, hunexp]
      simp [and_assoc]
    · intro hmem
      rcases List.mem_cons.1 hmem with rfl | hmem
      · exact hs (hcupola rfl)
      · exact hc hmem

/-! ## Strings that name a Cupola connection -/

/-- The keys that may stand beside `cupolaconnection`, spelled out. -/
theorem besideCupola_iff {key value : String} :
    besideCupola key value = true ↔ key = "cupolaconnection" ∨ key = "driver" ∨
      (key = "uid" ∨ key = "pwd" ∨ key = "trusted_connection") ∧ value = "" := by
  simp only [besideCupola, Bool.or_eq_true, Bool.and_eq_true, beq_iff_eq]
  tauto

/-- An ignored key leaves the connection as it is. -/
theorem findKeyValPair_ignored {key : String} (hkey : key ∈ ignoreKeys) (c : Connect)
    (value : List Char) : findKeyValPair e c (key.toList ++ '=' :: value) = (.success, c) := by
  have hne : ∀ ch ∈ key.toList, (ch != '=') = true := by
    simp only [ignoreKeys, List.mem_cons, List.not_mem_nil, or_false] at hkey
    rcases hkey with rfl | rfl | rfl | rfl <;> exact List.all_eq_true.1 rfl
  have hequal : ∀ ch r, '=' :: value = ch :: r → (ch != '=') = false := by
    rintro _ _ ⟨⟩
    rfl
  have htrim : String.ofList (trimString (lower key.toList)) = key := by
    simp only [ignoreKeys, List.mem_cons, List.not_mem_nil, or_false] at hkey
    rcases hkey with rfl | rfl | rfl | rfl <;> decide
  rw [findKeyValPair, dropWhile_of_all hne hequal, takeWhile_of_all hne hequal]
  simp [htrim, hkey]

/-- The turn of an entry that may stand beside `cupolaconnection`. -/
theorem parseEntry_beside {key value : String} (h : besideCupola key value = true)
    (p : ParseState) :
    (parseEntry e p key value).1 = .success ∧
      (parseEntry e p key value).2.connect
        = if key = "cupolaconnection" then p.connect.give key value else p.connect := by
  unfold parseEntry
  split_ifs with hkey
  · exact ⟨rfl, rfl⟩
  · have hignored : key ∈ ignoreKeys := by
      simp only [ignoreKeys, List.mem_cons, List.not_mem_nil, or_false]
      have hbeside := besideCupola_iff.1 h
      tauto
    simp only [findKeyValPair_ignored e hignored]
    exact ⟨trivial, rfl⟩

/-- The entries of a string in which every key may stand beside `cupolaconnection`. -/
theorem parseEntries_beside (entries : List (String × String))
    (h : ∀ x ∈ entries, besideCupola x.1 x.2 = true) (p : ParseState) :
    (parseEntries e p entries).1 = .success ∧
      (parseEntries e p entries).2.connect
        = (entries.filter (·.1 = "cupolaconnection")).foldl (fun c x => c.give x.1 x.2)
        p.connect := by
  induction entries generalizing p with
  | nil => exact ⟨rfl, rfl⟩
  | cons x entries ih =>
    obtain ⟨key, value⟩ := x
    obtain ⟨hret, hconnect⟩ := parseEntry_beside e (h (key, value) (by simp)) p
    obtain ⟨hret', hconnect'⟩ := ih (fun x hx => h x (by simp [hx])) (parseEntry e p key value).2
    have hrest : parseEntries e p ((key, value) :: entries)
        = parseEntries e (parseEntry e p key value).2 entries := by
      simp [parseEntries, hret, SqlReturn.succeeded]
    rw [hrest, hconnect', hconnect]
    refine ⟨hret', ?_⟩
    by_cases hkey : key = "cupolaconnection"
    · simp [hkey]
    · simp [hkey]

/-- The only entry of its key. -/
theorem filter_key_of_nodup {entries : List (String × String)} {key value : String}
    (hnodup : (entries.map Prod.fst).Nodup) (h : (key, value) ∈ entries) :
    entries.filter (·.1 = key) = [(key, value)] := by
  induction entries with
  | nil => cases h
  | cons x entries ih =>
    simp only [List.map_cons, List.nodup_cons] at hnodup
    rcases List.mem_cons.1 h with rfl | hmem
    · have hnone : entries.filter (fun y => y.1 = key) = [] := by
        rw [List.filter_eq_nil_iff]
        intro y hy hkey
        exact hnodup.1 (List.mem_map.2 ⟨y, hy, by simpa using hkey⟩)
      simp [hnone]
    · have hne : x.1 ≠ key := by
        rintro rfl
        exact hnodup.1 (List.mem_map.2 ⟨_, hmem, rfl⟩)
      simp [hne, ih hnodup.2 hmem]

/-- What is left of an accepted string with `cupolaconnection`. -/
theorem parseInputStr_beside {dsn : String} {diags : List DiagRecord} {inputStr : List Char}
    {entries : List (String × String)} {value : String} (hentries : Entries inputStr entries)
    (hnodup : (entries.map Prod.fst).Nodup) (hbeside : ∀ x ∈ entries, besideCupola x.1 x.2 = true)
    (hvalue : ("cupolaconnection", value) ∈ entries) :
    (parseInputStr e (.new e dsn diags) inputStr).1 = .success ∧
      (parseInputStr e (.new e dsn diags) inputStr).2.configMap = [("cupolaconnection", value)] ∧
      (parseInputStr e (.new e dsn diags) inputStr).2.dsn = "" := by
  obtain ⟨hret, hconnect⟩ :=
    parseEntries_beside e entries hbeside ⟨.new e dsn diags, [], false, false⟩
  obtain ⟨hdup, hunexp, -⟩ := parseEntries_notes e entries ⟨.new e dsn diags, [], false, false⟩
    (by rw [hret]; rfl)
  have hdup' := hdup.2 ⟨rfl, hnodup, by simp⟩
  have hunexp' := hunexp.2 ⟨rfl, hbeside⟩
  rw [filter_key_of_nodup hnodup hvalue] at hconnect
  simp only [parseInputStr, parseLoop_entries e hentries, hret, hdup', hunexp', hconnect]
  simp [SqlReturn.succeeded, give, new, ConfigMap.set, getOptionFromConfigMap]

/-- An accepted string with `cupolaconnection` is one of the grammar, with nothing else to it. -/
theorem entries_of_parseInputStr {c : Connect} {inputStr : List Char}
    (hkey : ∀ entries, Entries inputStr entries → "cupolaconnection" ∈ entries.map Prod.fst)
    (h : (parseInputStr e c inputStr).1.succeeded = true) :
    ∃ entries, Entries inputStr entries ∧ (entries.map Prod.fst).Nodup ∧
      ∀ x ∈ entries, besideCupola x.1 x.2 = true := by
  have hloop : (parseLoop e ⟨c, [], false, false⟩ inputStr).1.succeeded = true := by
    by_contra hne
    rw [Bool.not_eq_true] at hne
    simp [parseInputStr, hne] at h
  obtain ⟨entries, hentries⟩ := entries_of_parseLoop e _ _ hloop
  rw [parseLoop_entries e hentries] at hloop
  obtain ⟨hdup, hunexp, -, hcupola⟩ := parseEntries_notes e entries _ hloop
  have hseen := hcupola (hkey entries hentries)
  have hclean : ¬((parseEntries e ⟨c, [], false, false⟩ entries).2.duplicate = true ∨
      (parseEntries e ⟨c, [], false, false⟩ entries).2.unexpected = true) := by
    intro hbad
    simp [parseInputStr, parseLoop_entries e hentries, hloop, hseen, hbad, setDiagnosticRecord] at h
    exact absurd h (by decide)
  simp only [not_or, Bool.not_eq_true] at hclean
  exact ⟨entries, hentries, (hdup.1 hclean.1).2.1, (hunexp.1 hclean.2).2⟩

/-- A connection string that names a Cupola connection, anywhere in it, is accepted exactly
if it is one of the grammar, gives no key twice, and gives besides only the driver and empty
credentials. Nothing but the name of the Cupola connection is kept of it then. -/
theorem parseInputStr_cupola (dsn : String) (diags : List DiagRecord) (inputStr : List Char)
    (hkey : ∀ entries, Entries inputStr entries → "cupolaconnection" ∈ entries.map Prod.fst) :
    ((parseInputStr e (.new e dsn diags) inputStr).1.succeeded = true ↔
      ∃ entries, Entries inputStr entries ∧ (entries.map Prod.fst).Nodup ∧
        ∀ x ∈ entries, x.1 = "cupolaconnection" ∨ x.1 = "driver" ∨
          (x.1 = "uid" ∨ x.1 = "pwd" ∨ x.1 = "trusted_connection") ∧ x.2 = "") ∧
    ((parseInputStr e (.new e dsn diags) inputStr).1.succeeded = true →
      ∃ entries value, Entries inputStr entries ∧ ("cupolaconnection", value) ∈ entries ∧
        (parseInputStr e (.new e dsn diags) inputStr).2.configMap
          = [("cupolaconnection", value)] ∧
        (parseInputStr e (.new e dsn diags) inputStr).2.dsn = "") := by
  constructor
  · constructor
    · intro h
      obtain ⟨entries, hentries, hnodup, hbeside⟩ := entries_of_parseInputStr e hkey h
      exact ⟨entries, hentries, hnodup, fun x hx => besideCupola_iff.1 (hbeside x hx)⟩
    · rintro ⟨entries, hentries, hnodup, hbeside⟩
      obtain ⟨⟨_, value⟩, hvalue, rfl⟩ := List.mem_map.1 (hkey entries hentries)
      rw [(parseInputStr_beside e hentries hnodup (fun x hx => besideCupola_iff.2 (hbeside x hx))
        hvalue).1]
      rfl
  · intro h
    obtain ⟨entries, hentries, hnodup, hbeside⟩ := entries_of_parseInputStr e hkey h
    obtain ⟨⟨_, value⟩, hvalue, rfl⟩ := List.mem_map.1 (hkey entries hentries)
    exact ⟨entries, value, hentries, hvalue,
      (parseInputStr_beside e hentries hnodup hbeside hvalue).2⟩

/-- A string as the README gives it. -/
theorem parseInputStr_cupola_named :
    (parseInputStr ⟨[], nofun, fun _ => ""⟩ (.new ⟨[], nofun, fun _ => ""⟩ "old" [])
      "Driver=\x7bC\x7d;CupolaConnection=\x7bn;\x7d\x7d\x7d;".toList).1.succeeded = true := by
  have hentries : Entries "Driver=\x7bC\x7d;CupolaConnection=\x7bn;\x7d\x7d\x7d;".toList
      [("driver", "C"), ("cupolaconnection", "n;\x7d")] := by
    have hlast : Entries ";".toList [] := .nil (List.all_eq_true.1 rfl)
    have hname : ValueOf "\x7bn;\x7d\x7d\x7d;".toList "n;\x7d".toList ";".toList :=
      @ValueOf.braced [] "n;\x7d".toList [] ";".toList nofun nofun (by rintro _ _ ⟨⟩; rfl)
    have hcupola : Entries ";CupolaConnection=\x7bn;\x7d\x7d\x7d;".toList
      [("cupolaconnection", "n;\x7d")] :=
      @Entries.cons [';'] "CupolaConnection".toList _ _ _ _ (List.all_eq_true.1 rfl) (by decide)
        (by rintro _ _ ⟨⟩; rfl) hname hlast
    have hdriver : ValueOf "\x7bC\x7d;CupolaConnection=\x7bn;\x7d\x7d\x7d;".toList "C".toList
        ";CupolaConnection=\x7bn;\x7d\x7d\x7d;".toList :=
      @ValueOf.braced [] "C".toList [] _ nofun nofun (by rintro _ _ ⟨⟩; rfl)
    exact @Entries.cons [] "Driver".toList _ _ _ _ nofun (by decide)
      (by rintro _ _ ⟨⟩; rfl) hdriver hcupola
  refine ((parseInputStr_cupola ⟨[], nofun, fun _ => ""⟩ "old" [] _ fun entries h => ?_).1).2
    ⟨_, hentries, by decide, by decide⟩
  rw [h.unique hentries]
  decide

end HaybarnOdbc.Connect
