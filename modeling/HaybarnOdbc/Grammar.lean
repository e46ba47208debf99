import HaybarnOdbc.Options

/-!
# The connection string and its grammar

In the grammar of ODBC a semicolon outside braces ends an entry, and what stands between
braces is the value, blanks and all (`OdbcEntries`). The loop of `ParseInputStr` looks for the
next equals sign without minding the semicolons before it, and `FindKeyValPair` takes the
blanks off every value a second time. Where neither makes a difference the string is read as
the grammar says (`readsAsGrammar_iff`).

The loop is a function of the string : what is left of it gets shorter with every turn.
-/

namespace HaybarnOdbc

/-- What is no blank stays when the blanks are taken off. -/
theorem mem_trimString_iff {c : Char} (h : isSpace c = false) {str : List Char} :
    c ∈ trimString str ↔ c ∈ str := by
  have hdrop : ∀ s : List Char, c ∈ s → c ∈ s.dropWhile isSpace := by
    intro s hs
    rw [← List.takeWhile_append_dropWhile (p := isSpace) (l := s), List.mem_append] at hs
    refine hs.resolve_left fun htake => ?_
    rw [List.mem_takeWhile_imp htake] at h
    cases h
  refine ⟨mem_of_mem_trimString, fun hmem => ?_⟩
  rw [trimString, List.rdropWhile, List.mem_reverse]
  exact hdrop _ (List.mem_reverse.2 (hdrop _ hmem))

namespace Connect

/-- `OdbcEntries text entries` : the text is a connection string of ODBC, with these keys in
lower case and their values. -/
inductive OdbcEntries : List Char → List (String × String) → Prop
  | nil {seps : List Char} (hseps : ∀ ch ∈ seps, isSeparator ch) : OdbcEntries seps []
  | cons {seps key after value rest : List Char} {entries : List (String × String)}
      (hseps : ∀ ch ∈ seps, isSeparator ch) (hequal : '=' ∉ key) (hsemi : ';' ∉ key)
      (hhead : ∀ ch k, key = ch :: k → isSpace ch = false) (hvalue : ValueOf after value rest)
      (hrest : OdbcEntries rest entries) :
      OdbcEntries (seps ++ (key ++ '=' :: after))
        ((String.ofList (lower (trimString key)), String.ofList value) :: entries)

/-- What the loop reads besides are entries with a semicolon in their key. -/
theorem odbcEntries_iff {text : List Char} {entries : List (String × String)} :
    OdbcEntries text entries ↔ Entries text entries ∧ ∀ x ∈ entries, ';' ∉ x.1.toList := by
  constructor
  · intro h
    induction h with
    | nil hseps => exact ⟨.nil hseps, by simp⟩
    | @cons seps key after value rest entries hseps hequal hsemi hhead hvalue _ ih =>
      refine ⟨.cons hseps hequal (fun ch k hk => ?_) hvalue ih.1, ?_⟩
      · have hne : ch ≠ ';' := by
          rintro rfl
          exact hsemi (hk ▸ List.mem_cons_self)
        simp [isSeparator, hhead ch k hk, hne]
      · rintro x (_ | ⟨_, hx⟩)
        · rw [String.toList_ofList, mem_lower_iff (by decide)]
          exact fun hmem => hsemi (mem_of_mem_trimString hmem)
        · exact ih.2 x hx
  · rintro ⟨h, hall⟩
    induction h with
    | nil hseps => exact .nil hseps
    | @cons seps key after value rest entries hseps hkey hhead hvalue _ ih =>
      refine .cons hseps hkey (fun hmem => ?_) (fun ch k hk => ?_) hvalue
        (ih fun x hx => hall x (List.mem_cons_of_mem _ hx))
      · refine hall _ List.mem_cons_self ?_
        rw [String.toList_ofList, mem_lower_iff (by decide)]
        exact (mem_trimString_iff rfl).2 hmem
      · have hsep := hhead ch k hk
        simp only [isSeparator, Bool.or_eq_false_iff] at hsep
        exact hsep.2

/-! ## Which strings are accepted -/

variable {e : EngineNames} {dsn : String} {diags : List DiagRecord} {text : List Char}
  {entries : List (String × String)}

/-- The driver permits what the string names : no session init file, and little beside a Cupola
connection. -/
def Permitted (entries : List (String × String)) : Prop :=
  (∀ x ∈ entries, x.1 ≠ sqlFileOption ∧ x.1 ≠ sqlFileSha256Option) ∧
    ("cupolaconnection" ∈ entries.map Prod.fst →
      (entries.map Prod.fst).Nodup ∧ ∀ x ∈ entries, besideCupola x.1 x.2 = true)

/-- Only the options of the session init file stop the loop at an entry. -/
theorem parseEntry_succeeded {key value : String} (hkey : IsKey key)
    (hfile : key ≠ sqlFileOption ∧ key ≠ sqlFileSha256Option) (p : ParseState) :
    (parseEntry e p key value).1.succeeded = true := by
  unfold parseEntry
  split_ifs
  · rfl
  · simp only [findKeyValPair_of_isKey e hkey, keepPair, findMatchingKey, setDiagnosticRecord]
    split_ifs with h1 h2 h3
    · rfl
    · exact absurd h3 (by simp [hfile])
    · rfl
    · rfl

/-- Entries without a session file are accepted. -/
theorem parseEntries_succeeded (entries : List (String × String)) (hkeys : ∀ x ∈ entries, IsKey x.1)
    (hfile : ∀ x ∈ entries, x.1 ≠ sqlFileOption ∧ x.1 ≠ sqlFileSha256Option) (p : ParseState) :
    (parseEntries e p entries).1.succeeded = true := by
  induction entries generalizing p with
  | nil => rfl
  | cons x entries ih =>
    obtain ⟨key, value⟩ := x
    have hgo : (parseEntry e p key value).1.succeeded = true :=
      parseEntry_succeeded (hkeys _ List.mem_cons_self) (hfile _ List.mem_cons_self) p
    simp only [parseEntries, hgo, Bool.not_true, Bool.false_eq_true, if_false]
    exact ih (fun x hx => hkeys x (List.mem_cons_of_mem _ hx))
      (fun x hx => hfile x (List.mem_cons_of_mem _ hx)) _

/-- An option that can be stored is stored if it is given. -/
theorem lastStored_isSome_iff {key : String} (h : Storable e key) :
    (lastStored e entries key).isSome ↔ key ∈ entries.map Prod.fst := by
  simp [lastStored, h]

/-- A string that the loop can read is accepted if it names nothing that is not permitted. -/
theorem parseInputStr_succeeded_iff (h : Entries text entries) :
    (parseInputStr e (.new e dsn diags) text).1.succeeded = true ↔ Permitted entries := by
  have hcupola : Storable e "cupolaconnection" :=
    ⟨mem_foldl_insertKey _ _ |>.2 (.inl (by simp [localOptions])), by decide⟩
  by_cases hfile : ∀ x ∈ entries, x.1 ≠ sqlFileOption ∧ x.1 ≠ sqlFileSha256Option
  · have hloop := parseEntries_succeeded (e := e) entries h.isKey hfile
      ⟨.new e dsn diags, [], false, false⟩
    obtain ⟨hdup, hunexp, -, -⟩ := parseEntries_notes e entries _ hloop
    obtain ⟨-, -, hmap⟩ := parseEntries_stores entries h.isKey (sound_new e dsn diags) rfl hloop
    have hsound := sound_parseLoop e ⟨.new e dsn diags, [], false, false⟩ text
      (sound_new e dsn diags)
    rw [parseLoop_entries e h] at hsound
    simp only [parseInputStr, parseLoop_entries e h, hloop]
    generalize parseEntries e ⟨.new e dsn diags, [], false, false⟩ entries = r at *
    have hseen : "cupolaconnection" ∈ r.2.connect.seen ↔
        "cupolaconnection" ∈ entries.map Prod.fst := by
      rw [hsound.seen]
      refine Iff.trans ?_ (lastStored_isSome_iff hcupola)
      rw [Option.isSome_iff_exists]
      constructor
      · intro hmem
        obtain ⟨⟨k, v⟩, hx, hk⟩ := List.mem_map.1 hmem
        obtain rfl : k = "cupolaconnection" := hk
        rw [hmap] at hx
        cases hl : lastStored e entries "cupolaconnection" with
        | none => simp [hl, new] at hx
        | some v' => exact ⟨v', rfl⟩
      · rintro ⟨v, hv⟩
        refine List.mem_map.2 ⟨("cupolaconnection", v), ?_, rfl⟩
        rw [hmap, hv]
    have hclean : ¬(r.2.duplicate = true ∨ r.2.unexpected = true) ↔
        (entries.map Prod.fst).Nodup ∧ ∀ x ∈ entries, besideCupola x.1 x.2 = true := by
      rw [not_or, Bool.not_eq_true, Bool.not_eq_true, hdup, hunexp]
      simp
    rw [Permitted, and_iff_right hfile, ← hseen, ← hclean]
    by_cases hbad : "cupolaconnection" ∈ r.2.connect.seen ∧
        (r.2.duplicate = true ∨ r.2.unexpected = true)
    · simp only [Bool.not_true, Bool.false_eq_true, if_false, if_pos hbad]
      exact iff_of_false (by simp [setDiagnosticRecord, SqlReturn.succeeded])
        fun hall => hall hbad.1 hbad.2
    · simp only [Bool.not_true, Bool.false_eq_true, if_false, if_neg hbad]
      refine iff_of_true (by split_ifs <;> rfl) fun hs hb => hbad ⟨hs, hb⟩
  · refine iff_of_false (fun hret => hfile ?_) fun hp => hfile hp.1
    obtain ⟨entries', h', hnone, -⟩ := parseInputStr_stores hret
    rwa [h.unique h']

/-! ## Where the string is read as the grammar says -/

/-- The last value that the entries give the option. -/
def lastGiven (e : EngineNames) (entries : List (String × String)) (key : String) : Option String :=
  if Storable e key then (entries.reverse.find? fun x => x.1 == key).map Prod.snd else none

/-- The string is read as the grammar says : each option that it gives gets its value, unless
the driver does not permit what is named, and a string that is none is an error. -/
structure ReadsAsGrammar (e : EngineNames) (dsn : String) (diags : List DiagRecord)
    (text : List Char) : Prop where
  recovers : ∀ entries, OdbcEntries text entries → Permitted entries →
    (parseInputStr e (.new e dsn diags) text).1.succeeded = true ∧
      ∀ k v, (k, v) ∈ (parseInputStr e (.new e dsn diags) text).2.configMap ↔
        lastGiven e entries k = some v
  refuses : (∀ entries, ¬OdbcEntries text entries) →
    (parseInputStr e (.new e dsn diags) text).1.succeeded = false

/-- What is stored is made of what is given last. -/
theorem lastStored_eq_map (key : String) :
    lastStored e entries key = (lastGiven e entries key).map (storedValue key) := by
  unfold lastStored lastGiven
  split_ifs
  · rw [Option.map_map]
    cases hfind : entries.reverse.find? fun x => x.1 == key with
    | none => rfl
    | some x =>
      have hkey : x.1 = key := by simpa using List.find?_some hfind
      simp [hkey]
  · rfl

/-- A value is stored as it is given just if there are no blanks around it, or it is the Cupola
connection. -/
theorem storedValue_eq_iff {key value : String} :
    storedValue key value = value ↔
      key = "cupolaconnection" ∨ trimString value.toList = value.toList := by
  unfold storedValue
  split_ifs with h
  · simp [h]
  · rw [or_iff_right h]
    exact ⟨fun heq => by rw [← String.toList_ofList (l := trimString value.toList), heq],
      fun heq => by rw [heq, String.ofList_toList]⟩

/-- The string is read as the grammar says if and only if it would not be accepted anyway, or
no semicolon stands before an equals sign in what is read as one entry, and no option that is
given but `cupolaconnection` has blanks around its value. -/
theorem readsAsGrammar_iff :
    ReadsAsGrammar e dsn diags text ↔ ∀ entries, Entries text entries → Permitted entries →
      (∀ x ∈ entries, ';' ∉ x.1.toList) ∧
      ∀ k v, lastGiven e entries k = some v →
        k = "cupolaconnection" ∨ trimString v.toList = v.toList := by
  constructor
  · intro h entries hentries hpermitted
    have hret : (parseInputStr e (.new e dsn diags) text).1.succeeded = true :=
      (parseInputStr_succeeded_iff hentries).2 hpermitted
    have hodbc : OdbcEntries text entries := by
      by_contra hno
      refine absurd (h.refuses fun entries' h' => hno ?_) (by simp [hret])
      rwa [hentries.unique (odbcEntries_iff.1 h').1]
    refine ⟨(odbcEntries_iff.1 hodbc).2, fun k v hv => storedValue_eq_iff.1 ?_⟩
    obtain ⟨entries', h', -, hmap, -⟩ := parseInputStr_stores hret
    obtain rfl := hentries.unique h'
    have hgiven := (hmap k v).1 (((h.recovers entries hodbc hpermitted).2 k v).2 hv)
    rw [lastStored_eq_map, hv] at hgiven
    exact Option.some.inj hgiven
  · intro h
    refine ⟨fun entries hodbc hpermitted => ?_, fun hno => ?_⟩
    · have hentries := (odbcEntries_iff.1 hodbc).1
      have hret : (parseInputStr e (.new e dsn diags) text).1.succeeded = true :=
        (parseInputStr_succeeded_iff hentries).2 hpermitted
      obtain ⟨entries', h', -, hmap, -⟩ := parseInputStr_stores hret
      obtain rfl := hentries.unique h'
      refine ⟨hret, fun k v => ?_⟩
      rw [hmap, lastStored_eq_map]
      cases hg : lastGiven e entries k with
      | none => simp
      | some u =>
        have hu := storedValue_eq_iff.2 ((h entries hentries hpermitted).2 k u hg)
        simp [hu]
    · by_contra hret
      rw [Bool.not_eq_false] at hret
      obtain ⟨entries, hentries, -⟩ := parseInputStr_stores hret
      have hpermitted := (parseInputStr_succeeded_iff hentries).1 hret
      exact hno entries (odbcEntries_iff.2 ⟨hentries, (h entries hentries hpermitted).1⟩)

/-- Blanks inside braces are lost, and what is no entry becomes part of the key after it : the
string is accepted with a warning, and the database of its second entry is not taken. -/
theorem not_readsAsGrammar :
    ¬ReadsAsGrammar ⟨[], nofun, fun _ => ""⟩ "" [] "database=\x7b d \x7d".toList ∧
    ¬ReadsAsGrammar ⟨[], nofun, fun _ => ""⟩ "" [] "odd;database=d".toList := by
  constructor
  · have hodbc : OdbcEntries "database=\x7b d \x7d".toList [("database", " d ")] :=
      @OdbcEntries.cons [] "database".toList "\x7b d \x7d".toList _ _ _ nofun (by decide)
        (by decide) (by rintro _ _ ⟨⟩; rfl)
        (@ValueOf.braced [] " d ".toList [] [] nofun nofun nofun) (.nil nofun)
    intro h
    have hmem := ((h.recovers _ hodbc ⟨by decide, nofun⟩).2 "database" " d ").2 (by decide)
    simp only [parseInputStr, parseLoop_entries _ (odbcEntries_iff.1 hodbc).1] at hmem
    exact absurd hmem (by decide)
  · have hentries : Entries "odd;database=d".toList [("odd;database", "d")] :=
      @Entries.cons [] "odd;database".toList "d".toList _ _ _ nofun (by decide)
        (by rintro _ _ ⟨⟩; rfl)
        (@ValueOf.plain [] "d".toList [] nofun (by decide)
          (by rintro _ _ ⟨⟩; exact ⟨rfl, by decide⟩) nofun) (.nil nofun)
    intro h
    have hno : ∀ entries, ¬OdbcEntries "odd;database=d".toList entries := by
      intro entries hodbc
      obtain ⟨hread, hsemi⟩ := odbcEntries_iff.1 hodbc
      rw [hread.unique hentries] at hsemi
      exact absurd hsemi (by decide)
    have hret := h.refuses hno
    simp only [parseInputStr, parseLoop_entries _ hentries] at hret
    exact absurd hret (by decide)

end Connect

end HaybarnOdbc
