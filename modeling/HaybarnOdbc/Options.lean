import HaybarnOdbc.Cupola

/-!
# Which options win

The connection string is read first, and the data source is asked only for the options that
the string left open (`Wins`). What the engine is handed of them is `handed_options` : besides
what the driver sets itself, the options that win, without those that the driver keeps, and
`enable_external_access` after all others.

`GetOptionFromConfigMap` asserts that an option noted as given is in the map. `lookUp` fails
where the assertion would, and `SetConnection` with these lookups and with each erasure in
its place comes through (`openingFound_eq`).
-/

namespace HaybarnOdbc

namespace ConfigMap

variable {m : ConfigMap} {key name : String}

theorem sameKey_trans_false {k : String} (h : sameKey key name = false)
    (hk : sameKey k key = true) : sameKey k name = false := by
  simp only [sameKey, beq_iff_eq, beq_eq_false_iff_ne] at h hk ⊢
  rwa [hk]

/-- The value of another key is still found. -/
theorem find_erase (h : sameKey key name = false) : (m.erase name).find key = m.find key := by
  rw [find, erase, List.find?_filter, find]
  congr 2
  funext x
  by_cases hx : sameKey x.1 key = true
  · simp [hx, sameKey_trans_false h hx]
  · simp [hx]

theorem erase_append (m m' : ConfigMap) (name : String) :
    ConfigMap.erase (m ++ m') name = m.erase name ++ ConfigMap.erase m' name :=
  List.filter_append _ _

theorem erase_comm (m : ConfigMap) (key name : String) :
    (m.erase key).erase name = (m.erase name).erase key := by
  simp only [erase, List.filter_filter, Bool.and_comm]

end ConfigMap

namespace Connect

/-! ## Lookups -/

/-- `GetOptionFromConfigMap`, `none` where its assertion fails. -/
def lookUp (c : Connect) (name defaultVal : String) : Option String :=
  if name ∉ c.seen then some defaultVal else c.configMap.find name

/-- `config_map.erase`. The option is still noted as given. -/
def eraseOption (c : Connect) (name : String) : Connect :=
  { c with configMap := c.configMap.erase name }

/-- The separators of a path, as the engine takes them. -/
def withSlashes (path : String) : String :=
  String.ofList (path.toList.map fun ch => if ch = '\\' then '/' else ch)

/-- `NormalizeWindowsPathSeparators`, with its lookup. -/
def normalizeFound (w : World) (c : Connect) (name : String) : Option Connect := do
  if w.windows then
    let valueStr ← c.lookUp name ""
    if valueStr = "" then some c
    else
      some { c with configMap := c.configMap.erase name ++ [(name, withSlashes valueStr)] }
  else some c

/-- `SetConnection` up to the options it hands over, with its lookups and its erasures where
the source makes them. -/
def openingFound (w : World) (c : Connect) : Option (Opened × Connect) := do
  let cupola ← c.lookUp "cupolaconnection" ""
  let c := c.eraseOption "cupolaconnection"
  let unsigned : List (String × OptionValue) :=
    if cupola ≠ "" then [("allow_unsigned_extensions", .bool false)] else []
  let database ← c.lookUp "database" inMemoryPath
  let enableExternalAccess ← c.lookUp "enable_external_access" ""
  let c ← c.normalizeFound w "allowed_paths"
  let c ← c.normalizeFound w "allowed_directories"
  let sessionInitSqlFile ← c.lookUp sqlFileOption ""
  let sessionInitSqlFileSha256 ← c.lookUp sqlFileSha256Option ""
  let c := ((((c.eraseOption "database").eraseOption "dsn").eraseOption sqlFileOption).eraseOption
    sqlFileSha256Option).eraseOption "enable_external_access"
  let external : List (String × OptionValue) :=
    if enableExternalAccess ≠ "" then [("enable_external_access", .text enableExternalAccess)]
    else []
  some (⟨database, unsigned ++ [("duckdb_api", .text "odbc")] ++
    c.configMap.map (fun e => (e.1, .text e.2)) ++ external, sessionInitSqlFile,
    sessionInitSqlFileSha256⟩, c)

section Lookups

variable {w : World} {c : Connect} {name other : String}

theorem lookUp_eq (h : c.Sound) (hname : lower name.toList = name.toList) (defaultVal : String) :
    c.lookUp name defaultVal = some (c.getOptionFromConfigMap name defaultVal) := by
  unfold lookUp getOptionFromConfigMap
  by_cases hseen : name ∈ c.seen
  · obtain ⟨⟨k, v⟩, hv, heq⟩ := List.mem_map.1 ((h.seen name).1 hseen)
    obtain rfl : k = name := heq
    have hfind := (h.find_eq_some_iff hname v).2 hv
    simp [hseen, hfind]
  · simp [hseen]

/-- An option that was erased is in no other option's way. -/
theorem lookUp_eraseOption (hne : ConfigMap.sameKey name other = false) (defaultVal : String) :
    (c.eraseOption other).lookUp name defaultVal = c.lookUp name defaultVal := by
  simp only [lookUp, eraseOption, ConfigMap.find_erase hne]

theorem normalizeFound_eq (h : c.Sound) (hname : lower name.toList = name.toList) :
    c.normalizeFound w name = some (c.normalizeWindowsPathSeparators w name) := by
  rw [normalizeFound, normalizeWindowsPathSeparators, lookUp_eq h hname]
  split_ifs with hw
  · rw [Option.bind_eq_bind, Option.bind_some]
    exact (apply_ite some _ _ _).symm
  · rfl

theorem normalizeFound_eraseOption (hne : ConfigMap.sameKey name other = false) :
    (c.eraseOption other).normalizeFound w name
      = (c.normalizeFound w name).map fun c => c.eraseOption other := by
  have herase : ∀ v, ConfigMap.erase [(name, v)] other = [(name, v)] := by
    intro v
    simp [ConfigMap.erase, hne]
  rw [normalizeFound, normalizeFound, lookUp_eraseOption hne]
  split_ifs with hw
  · cases hfind : c.lookUp name "" with
    | none => rfl
    | some v =>
      by_cases hv : v = ""
      · simp [hv]
      · simp [hv, eraseOption, ConfigMap.erase_append, herase, ConfigMap.erase_comm]
  · rfl

/-- The separators of one path leave the other options as they are. -/
theorem lookUp_normalize (hne : ConfigMap.sameKey name other = false) (defaultVal : String) :
    (c.normalizeWindowsPathSeparators w other).lookUp name defaultVal =
    c.lookUp name defaultVal := by
  have hne' : ConfigMap.sameKey other name = false := by
    simpa only [ConfigMap.sameKey, beq_eq_false_iff_ne, ne_comm] using hne
  have happend : ∀ v, ConfigMap.find (c.configMap.erase other ++ [(other, v)]) name
      = (c.configMap.erase other).find name := by
    intro v
    simp [ConfigMap.find, List.find?_append, hne']
  simp only [normalizeWindowsPathSeparators]
  split_ifs
  · rfl
  · simp only [lookUp, happend, ConfigMap.find_erase hne]
  · rfl

/-- Every lookup of `SetConnection` finds its option. -/
theorem openingFound_eq (w : World) (h : c.Sound) : c.openingFound w = some (c.opening w) := by
  obtain ⟨h1, -⟩ := normalizeWindowsPathSeparators_keys w h "allowed_paths"
  obtain ⟨h2, -⟩ := normalizeWindowsPathSeparators_keys w h1 "allowed_directories"
  have hpaths : c.normalizeFound w "allowed_paths" = _ := normalizeFound_eq h (by decide)
  have hdirs : (c.normalizeWindowsPathSeparators w "allowed_paths").normalizeFound w
    "allowed_directories" = _ := normalizeFound_eq h1 (by decide)
  -- the session init file is looked up after the paths were changed
  have hfile : ∀ name defaultVal, ConfigMap.sameKey name "allowed_paths" = false →
      ConfigMap.sameKey name "allowed_directories" = false →
      ((c.normalizeWindowsPathSeparators w "allowed_paths").normalizeWindowsPathSeparators w
        "allowed_directories").lookUp name defaultVal = c.lookUp name defaultVal := by
    intro name defaultVal hp hd
    rw [lookUp_normalize hd, lookUp_normalize hp]
  have hlookUp : ∀ name defaultVal, lower name.toList = name.toList →
      c.lookUp name defaultVal = some (c.getOptionFromConfigMap name defaultVal) :=
    fun name defaultVal hname => lookUp_eq h hname defaultVal
  rw [openingFound, hlookUp _ _ (by decide)]
  simp only [Option.bind_eq_bind, Option.bind_some]
  rw [lookUp_eraseOption (by decide), hlookUp _ _ (by decide), Option.bind_some,
    lookUp_eraseOption (by decide), hlookUp _ _ (by decide), Option.bind_some,
    normalizeFound_eraseOption (by decide), hpaths, Option.map_some, Option.bind_some,
    normalizeFound_eraseOption (by decide), hdirs, Option.map_some, Option.bind_some,
    lookUp_eraseOption (by decide), hfile _ _ (by decide) (by decide), hlookUp _ _ (by decide),
    Option.bind_some, lookUp_eraseOption (by decide), hfile _ _ (by decide) (by decide),
    hlookUp _ _ (by decide), Option.bind_some]
  rfl

end Lookups

/-! ## What the string stores -/

/-- The keys of `seen_config_options`, in its order. -/
def optionKeys (e : EngineNames) : List String :=
  (e.optionNames ++ localOptions).foldl (fun ks k => insertKey k ks) []

/-- What is stored of the value of an entry : `FindKeyValPair` takes the blanks off it. -/
def storedValue (key value : String) : String :=
  if key = "cupolaconnection" then value else String.ofList (trimString value.toList)

/-- The key is one for which a value is stored. -/
def Storable (e : EngineNames) (key : String) : Prop := key ∈ optionKeys e ∧ key ∉ ignoreKeys

instance (e : EngineNames) (key : String) : Decidable (Storable e key) :=
  inferInstanceAs (Decidable (_ ∧ _))

/-- The last value that the entries store for the option. -/
def lastStored (e : EngineNames) (entries : List (String × String)) (key : String) :
    Option String :=
  if Storable e key then
    (entries.reverse.find? fun x => x.1 == key).map fun x => storedValue x.1 x.2
  else none

section Stored

variable {e : EngineNames} {c : Connect} {p : ParseState} {key value k v : String}

theorem lastStored_nil : lastStored e [] k = none := by
  simp [lastStored]

theorem lastStored_cons (entries : List (String × String)) :
    lastStored e ((key, value) :: entries) k
      = (lastStored e entries k).or
        (if k = key ∧ Storable e key then some (storedValue key value) else none) := by
  unfold lastStored
  rw [List.reverse_cons, List.find?_append]
  by_cases hk : k = key
  · subst hk
    by_cases hs : Storable e k
    · cases hfind : entries.reverse.find? fun x => x.1 == k <;> simp [hs]
    · simp [hs]
  · have hne : (key == k) = false := by simpa using Ne.symm hk
    simp [hk, hne]

/-- An option that is known takes its new value, the others keep theirs. -/
theorem mem_give_iff (h : c.Sound) (hkey : key ∈ c.options) (val : String) :
    (k, v) ∈ (c.give key val).configMap ↔ if k = key then v = val else (k, v) ∈ c.configMap := by
  by_cases hold : key ∈ c.seen
  · have hmem := (h.seen key).1 hold
    have hsame : ∀ x ∈ c.configMap, ConfigMap.sameKey x.1 key = true ↔ x.1 = key :=
      fun x hx => h.sameKey_iff (List.mem_map_of_mem hx) (h.lower key hkey)
    obtain ⟨x₀, hx, hkey₀⟩ := List.mem_map.1 hmem
    have hset : (c.give key val).configMap = c.configMap.map _ :=
      if_pos (List.any_eq_true.2 ⟨x₀, hx, (hsame x₀ hx).2 hkey₀⟩)
    rw [hset, List.mem_map]
    constructor
    · rintro ⟨x, hxmem, heq⟩
      by_cases hs : ConfigMap.sameKey x.1 key = true
      · rw [if_pos hs] at heq
        cases heq
        rw [if_pos ((hsame x hxmem).1 hs)]
      · rw [if_neg hs] at heq
        subst heq
        rwa [if_neg fun hk => hs ((hsame _ hxmem).2 hk)]
    · split_ifs with hk
      · rintro rfl
        refine ⟨x₀, hx, ?_⟩
        rw [if_pos ((hsame x₀ hx).2 hkey₀), hkey₀, hk]
      · intro hkv
        refine ⟨(k, v), hkv, if_neg fun hs => hk ((hsame _ hkv).1 hs)⟩
  · rw [h.configMap_give_new hkey hold, List.mem_append, List.mem_singleton, Prod.mk.injEq]
    split_ifs with hk
    · subst hk
      have hnot : (k, v) ∉ c.configMap := fun hm =>
        hold ((h.seen k).2 (List.mem_map_of_mem hm))
      simp [hnot]
    · simp [hk]

/-- What `GetOptionFromConfigMap` returns, by the entry of the option in the map. -/
theorem getOption_eq {name : String} (h : c.Sound) (hname : lower name.toList = name.toList)
    {val : Option String} (hval : ∀ v, (name, v) ∈ c.configMap ↔ val = some v)
    (defaultVal : String) : c.getOptionFromConfigMap name defaultVal = val.getD defaultVal := by
  unfold getOptionFromConfigMap
  cases val with
  | none =>
    have hseen : name ∉ c.seen := by
      rw [h.seen]
      intro hmem
      obtain ⟨⟨k, v⟩, hx, hk⟩ := List.mem_map.1 hmem
      obtain rfl : k = name := hk
      cases (hval v).1 hx
    simp [hseen]
  | some v =>
    have hmem := (hval v).2 rfl
    have hseen : name ∈ c.seen := (h.seen name).2 (List.mem_map_of_mem hmem)
    simp [hseen, (h.find_eq_some_iff hname v).2 hmem]

/-- What a turn that goes on stores. -/
theorem parseEntry_stores (hkey : IsKey key) (h : p.connect.Sound)
    (hoptions : p.connect.options = optionKeys e)
    (hret : (parseEntry e p key value).1.succeeded = true) :
    key ≠ sqlFileOption ∧ key ≠ sqlFileSha256Option ∧
      (parseEntry e p key value).2.connect.options = optionKeys e ∧
      ∀ k v, (k, v) ∈ (parseEntry e p key value).2.connect.configMap ↔
        if k = key ∧ Storable e key then v = storedValue key value
        else (k, v) ∈ p.connect.configMap := by
  have hdiags : ∀ (c : Connect) ret, (c.setSuccessWithInfo ret).2.options = c.options ∧
      (c.setSuccessWithInfo ret).2.configMap = c.configMap := by
    intro c ret
    unfold setSuccessWithInfo
    split_ifs <;> exact ⟨rfl, rfl⟩
  have hlocal : ∀ k ∈ localOptions, k ∈ optionKeys e := fun k hk => hoptions ▸ h.ofLocal k hk
  by_cases hcupola : key = "cupolaconnection"
  · subst hcupola
    have hstorable : Storable e "cupolaconnection" :=
      ⟨hlocal _ (by simp [localOptions]), by decide⟩
    have hentry : (parseEntry e p "cupolaconnection" value).2.connect
        = p.connect.give "cupolaconnection" value := by
      simp [parseEntry]
    rw [hentry]
    refine ⟨by decide, by decide, hoptions, fun k v => ?_⟩
    rw [mem_give_iff h (hoptions ▸ hstorable.1)]
    simp [hstorable, storedValue]
  · have hentry : (parseEntry e p key value).1
          = (keepPair e p.connect key (String.ofList (trimString value.toList))).1 ∧
        (parseEntry e p key value).2.connect.options
          = (keepPair e p.connect key (String.ofList (trimString value.toList))).2.options ∧
        (parseEntry e p key value).2.connect.configMap
          = (keepPair e p.connect key (String.ofList (trimString value.toList))).2.configMap := by
      simp only [parseEntry, if_neg hcupola, findKeyValPair_of_isKey e hkey]
      exact ⟨trivial, hdiags _ _⟩
    obtain ⟨hret', hoptions', hmap⟩ := hentry
    rw [hret'] at hret
    simp only [hoptions', hmap]
    have hstored : storedValue key value = String.ofList (trimString value.toList) :=
      if_neg hcupola
    rw [hstored]
    generalize String.ofList (trimString value.toList) = val at hret ⊢
    unfold keepPair at hret ⊢
    by_cases hignored : key ∈ ignoreKeys
    · have hfile : key ≠ sqlFileOption ∧ key ≠ sqlFileSha256Option := by
        constructor <;> rintro rfl <;> exact absurd hignored (by decide)
      simp [hignored, hfile, hoptions, Storable]
    by_cases hknown : key ∈ optionKeys e
    · by_cases hfile : key = sqlFileOption ∨ key = sqlFileSha256Option
      · simp [hignored, hoptions, hknown, hfile, setDiagnosticRecord, SqlReturn.succeeded] at hret
      · have hstorable : Storable e key := ⟨hknown, hignored⟩
        simp only [hignored, hoptions, hknown, hfile, not_true_eq_false, if_false]
        refine ⟨fun heq => hfile (.inl heq), fun heq => hfile (.inr heq), hoptions, fun k v => ?_⟩
        rw [mem_give_iff h (hoptions ▸ hknown)]
        simp [hstorable]
    · have hfile : key ≠ sqlFileOption ∧ key ≠ sqlFileSha256Option := by
        constructor <;> rintro rfl <;> exact absurd (hlocal _ (by decide)) hknown
      simp [hignored, hoptions, hknown, hfile, findMatchingKey, setDiagnosticRecord, Storable]

/-- What the entries store, one after the other. -/
theorem parseEntries_stores (entries : List (String × String)) (hkeys : ∀ x ∈ entries, IsKey x.1)
    (h : p.connect.Sound) (hoptions : p.connect.options = optionKeys e)
    (hret : (parseEntries e p entries).1.succeeded = true) :
    (∀ x ∈ entries, x.1 ≠ sqlFileOption ∧ x.1 ≠ sqlFileSha256Option) ∧
      (parseEntries e p entries).2.connect.options = optionKeys e ∧
      ∀ k v, (k, v) ∈ (parseEntries e p entries).2.connect.configMap ↔
        match lastStored e entries k with
        | some s => v = s
        | none => (k, v) ∈ p.connect.configMap := by
  induction entries generalizing p with
  | nil => exact ⟨by simp, hoptions, fun k v => by rw [lastStored_nil]; rfl⟩
  | cons x entries ih =>
    obtain ⟨key, value⟩ := x
    have hkey : IsKey key := hkeys _ List.mem_cons_self
    have hgo : (parseEntry e p key value).1.succeeded = true := by
      by_contra hne
      rw [Bool.not_eq_true] at hne
      simp [parseEntries, hne] at hret
    have hrest : parseEntries e p ((key, value) :: entries)
        = parseEntries e (parseEntry e p key value).2 entries := by
      simp [parseEntries, hgo]
    obtain ⟨hfile, hsha, hoptions', hmap⟩ := parseEntry_stores hkey h hoptions hgo
    rw [hrest] at hret ⊢
    obtain ⟨hnone, hoptions'', hmap'⟩ := ih (fun x hx => hkeys x (List.mem_cons_of_mem _ hx))
      (sound_parseEntry e h key value) hoptions' hret
    refine ⟨?_, hoptions'', fun k v => ?_⟩
    · rintro x (_ | ⟨_, hx⟩)
      · exact ⟨hfile, hsha⟩
      · exact hnone x hx
    · rw [hmap', lastStored_cons]
      cases lastStored e entries k with
      | some s => rfl
      | none =>
        rw [Option.none_or]
        simp only [hmap]
        split_ifs <;> rfl

/-- An accepted string stores the last value of each of its options, and names no session
init file. `GetOptionFromConfigMap` finds the data source in the map. -/
theorem parseInputStr_stores {dsn : String} {diags : List DiagRecord} {inputStr : List Char}
    (hret : (parseInputStr e (.new e dsn diags) inputStr).1.succeeded = true) :
    ∃ entries, Entries inputStr entries ∧
      (∀ x ∈ entries, x.1 ≠ sqlFileOption ∧ x.1 ≠ sqlFileSha256Option) ∧
      (∀ k v, (k, v) ∈ (parseInputStr e (.new e dsn diags) inputStr).2.configMap ↔
        lastStored e entries k = some v) ∧
      (parseInputStr e (.new e dsn diags) inputStr).2.options = optionKeys e ∧
      (parseInputStr e (.new e dsn diags) inputStr).2.dsn = (lastStored e entries "dsn").getD "" ∧
      (parseLoop e ⟨.new e dsn diags, [], false, false⟩ inputStr).2.connect.lookUp "dsn" ""
        = some (parseInputStr e (.new e dsn diags) inputStr).2.dsn := by
  have hloop : (parseLoop e ⟨.new e dsn diags, [], false, false⟩ inputStr).1.succeeded = true := by
    by_contra hne
    rw [Bool.not_eq_true] at hne
    simp [parseInputStr, hne] at hret
  have hsound := sound_parseLoop e ⟨.new e dsn diags, [], false, false⟩ inputStr
    (sound_new e dsn diags)
  obtain ⟨entries, hentries⟩ := entries_of_parseLoop e _ _ hloop
  rw [parseLoop_entries e hentries] at hloop hsound ⊢
  obtain ⟨hnone, hoptions, hmap⟩ := parseEntries_stores entries hentries.isKey
    (sound_new e dsn diags) rfl hloop
  have hstored : ∀ k v, (k, v) ∈ (parseEntries e ⟨.new e dsn diags, [], false, false⟩
      entries).2.connect.configMap ↔ lastStored e entries k = some v := by
    intro k v
    rw [hmap]
    cases lastStored e entries k with
    | none => simp [new]
    | some s => simp [eq_comm]
  generalize hp : parseEntries e ⟨.new e dsn diags, [], false, false⟩ entries = r at *
  have hget : r.2.connect.getOptionFromConfigMap "dsn" "" = (lastStored e entries "dsn").getD "" :=
    getOption_eq hsound (by decide) (hstored "dsn") ""
  have hdsn := lookUp_eq hsound (show lower "dsn".toList = "dsn".toList by decide) ""
  rw [hget] at hdsn
  have hresult : (parseInputStr e (.new e dsn diags) inputStr).2
      = { r.2.connect with dsn := (lastStored e entries "dsn").getD "" } := by
    simp only [parseInputStr, parseLoop_entries e hentries, hp, hloop, hget] at hret ⊢
    split_ifs at hret ⊢
    · simp at *
    · exact absurd hret (by simp [setDiagnosticRecord, SqlReturn.succeeded])
    all_goals rfl
  rw [hresult]
  exact ⟨entries, hentries, hnone, hstored, hoptions, rfl, hdsn⟩

end Stored

/-! ## Which value wins -/

section Wins

variable {w : World} {entries : List (String × String)} {c : Connect} {k v name : String}

/-- The data source that the string names. -/
def namedDsn (e : EngineNames) (entries : List (String × String)) : String :=
  (lastStored e entries "dsn").getD ""

/-- The data source gives the option a value : it is asked for it, because the string stored
none, and no answer to an option before it fails. -/
def DsnGives (w : World) (entries : List (String × String)) (key val : String) : Prop :=
  w.linkOdbcinst = true ∧ namedDsn w.toEngineNames entries ≠ "" ∧
    lastStored w.toEngineNames entries key = none ∧
    w.profileString (namedDsn w.toEngineNames entries) key = .value val ∧
    ∃ before after, optionKeys w.toEngineNames = before ++ key :: after ∧
      ∀ k ∈ before, lastStored w.toEngineNames entries k = none →
        w.profileString (namedDsn w.toEngineNames entries) k ≠ .failed

/-- The option has the value : the last one that the string stores, or else the one of the data
source. -/
def Wins (w : World) (entries : List (String × String)) (key val : String) : Prop :=
  lastStored w.toEngineNames entries key = some val ∨ DsnGives w entries key val

/-- A value of the string is never replaced. -/
theorem wins_of_stored {s : String} (h : lastStored w.toEngineNames entries k = some s) :
    Wins w entries k v ↔ v = s := by
  refine ⟨fun hwins => ?_, fun hv => .inl (hv ▸ h)⟩
  rcases hwins with hwins | hwins
  · exact Option.some.inj (hwins.symm.trans h)
  · cases h.symm.trans hwins.2.2.1

/-- An option has one value at most. -/
theorem Wins.unique {v' : String} (h : Wins w entries k v) (h' : Wins w entries k v') : v = v' := by
  rcases h with h | h
  · exact ((wins_of_stored h).1 h').symm
  · rcases h' with h' | h'
    · cases h'.symm.trans h.2.2.1
    · exact ProfileAnswer.value.inj (h.2.2.2.1.symm.trans h'.2.2.2.1)

/-- What `SetConnection` goes by is what wins. -/
theorem given_iff_wins (hsound : c.Sound)
    (hmap : ∀ k v, (k, v) ∈ c.configMap ↔ lastStored w.toEngineNames entries k = some v)
    (hoptions : c.options = optionKeys w.toEngineNames)
    (hdsn : c.dsn = namedDsn w.toEngineNames entries) : Given w c k v ↔ Wins w entries k v := by
  have hseen : ∀ k, k ∉ c.seen ↔ lastStored w.toEngineNames entries k = none := by
    intro k
    rw [hsound.seen]
    constructor
    · intro hnot
      cases hl : lastStored w.toEngineNames entries k with
      | none => rfl
      | some v => exact absurd (List.mem_map_of_mem ((hmap k v).2 hl)) hnot
    · intro hnone hmem
      obtain ⟨⟨k', v⟩, hx, hk⟩ := List.mem_map.1 hmem
      obtain rfl : k' = k := hk
      cases ((hmap k' v).1 hx).symm.trans hnone
  simp only [Given, Supplies, Wins, DsnGives, hmap, hseen, hoptions, hdsn]
  refine or_congr_right ⟨?_, ?_⟩
  · rintro ⟨hlink, hne, before, after, heq, hnew, hval, hbefore⟩
    exact ⟨hlink, hne, hnew, hval, before, after, heq, hbefore⟩
  · rintro ⟨hlink, hne, hnew, hval, before, after, heq, hbefore⟩
    exact ⟨hlink, hne, before, after, heq, hnew, hval, hbefore⟩

/-! ## What the engine is handed -/

/-- The value of the option as the engine is handed it. -/
def handedValue (w : World) (key val : String) : String :=
  if w.windows = true ∧ (key = "allowed_paths" ∨ key = "allowed_directories") then withSlashes val
  else val

/-- The options that `SetConnection` hands to the engine. -/
def handed (w : World) (c : Connect) : Opened :=
  ((if w.linkOdbcinst then c.readFromIniFile w else c).opening w).1

/-- The value of an option, with what it is by default. -/
def ValueOr (gives : String → String → Prop) (key defaultVal val : String) : Prop :=
  gives key val ∨ val = defaultVal ∧ ∀ v, ¬gives key v

/-- The engine is handed the options that win, but for those the driver keeps. The database
and the session init file are the driver's, and the latter is the data source's to give. -/
structure HandsOver (w : World) (entries : List (String × String)) (o : Opened) : Prop where
  database : ValueOr (Wins w entries) "database" inMemoryPath o.database
  sessionInitSqlFile : ValueOr (DsnGives w entries) sqlFileOption "" o.sessionInitSqlFile
  sessionInitSqlFileSha256 :
    ValueOr (DsnGives w entries) sqlFileSha256Option "" o.sessionInitSqlFileSha256
  options : ∃ (cupola enableExternalAccess : String) (rest : ConfigMap),
    ValueOr (Wins w entries) "cupolaconnection" "" cupola ∧
    ValueOr (Wins w entries) "enable_external_access" "" enableExternalAccess ∧
    (rest.map Prod.fst).Nodup ∧
    (∀ k v, (k, v) ∈ rest ↔ k ∉ removedOptions ∧ ∃ u, Wins w entries k u ∧ v = handedValue w k u) ∧
    o.options = (if cupola ≠ "" then [("allow_unsigned_extensions", .bool false)] else []) ++
      [("duckdb_api", .text "odbc")] ++ rest.map (fun x => (x.1, .text x.2)) ++
      if enableExternalAccess ≠ "" then [("enable_external_access", .text enableExternalAccess)]
      else []

theorem mem_normalize_iff (h : c.Sound) (hname : lower name.toList = name.toList) :
    (k, v) ∈ (c.normalizeWindowsPathSeparators w name).configMap ↔
      ∃ u, (k, u) ∈ c.configMap ∧ v = if w.windows = true ∧ k = name then withSlashes u else u := by
  by_cases hw : w.windows = true
  swap
  · simp [normalizeWindowsPathSeparators, hw]
  by_cases hval : c.getOptionFromConfigMap name "" = ""
  · -- a path that is empty stays so
    have hempty := (h.getOption_eq_default_iff hname "").1 hval
    have hself : ∀ u, (k, u) ∈ c.configMap → (if w.windows = true ∧ k = name then withSlashes u
        else u) = u := by
      intro u hu
      split_ifs with hk
      · rw [hempty u (hk.2 ▸ hu)]
        rfl
      · rfl
    have hsame : c.normalizeWindowsPathSeparators w name = c := by
      simp [normalizeWindowsPathSeparators, hval]
    rw [hsame]
    constructor
    · exact fun hmem => ⟨v, hmem, (hself v hmem).symm⟩
    · rintro ⟨u, hmem, rfl⟩
      rwa [hself u hmem]
  · have hseen := Sound.seen_of_getOption_ne hval
    obtain ⟨⟨k₀, u₀⟩, hx, hk₀⟩ := List.mem_map.1 ((h.seen name).1 hseen)
    obtain rfl : k₀ = name := hk₀
    have hget : c.getOptionFromConfigMap k₀ "" = u₀ := by
      have hfind := (h.find_eq_some_iff hname u₀).2 hx
      simp [getOptionFromConfigMap, hseen, hfind]
    have hstep : (c.normalizeWindowsPathSeparators w k₀).configMap
        = c.configMap.erase k₀ ++ [(k₀, withSlashes u₀)] := by
      rw [hget] at hval
      simp only [normalizeWindowsPathSeparators, if_pos hw, hget, if_neg hval, withSlashes]
    have honly : ∀ u, (k₀, u) ∈ c.configMap → u = u₀ := fun u hu =>
      congrArg Prod.snd (List.inj_on_of_nodup_map h.nodup hu hx rfl)
    have herase : ∀ v, (k, v) ∈ c.configMap.erase k₀ ↔ (k, v) ∈ c.configMap ∧ k ≠ k₀ := by
      intro v
      rw [ConfigMap.erase, List.mem_filter]
      refine and_congr_right fun hmem => ?_
      rw [Bool.not_eq_true', Bool.eq_false_iff, Ne,
        h.sameKey_iff (List.mem_map_of_mem hmem) hname]
    rw [hstep, List.mem_append, herase, List.mem_singleton, Prod.mk.injEq]
    by_cases hk : k = k₀
    · subst hk
      simp only [hw, ne_eq, not_true_eq_false, and_false, true_and, false_or, and_self, if_true]
      constructor
      · rintro rfl
        exact ⟨u₀, hx, rfl⟩
      · rintro ⟨u, hu, rfl⟩
        rw [honly u hu]
    · simp [hk]

/-- What `GetOptionFromConfigMap` returns is the value that wins, or its default. -/
theorem valueOr_getOption (h : c.Sound) (hname : lower name.toList = name.toList)
    {gives : String → String → Prop} (hmap : ∀ v, (name, v) ∈ c.configMap ↔ gives name v)
    (defaultVal : String) :
    ValueOr gives name defaultVal (c.getOptionFromConfigMap name defaultVal) := by
  by_cases hseen : name ∈ c.seen
  · obtain ⟨⟨k, v⟩, hx, hk⟩ := List.mem_map.1 ((h.seen name).1 hseen)
    obtain rfl : k = name := hk
    have hfind := (h.find_eq_some_iff hname v).2 hx
    refine .inl ((hmap _).1 ?_)
    simpa [getOptionFromConfigMap, hseen, hfind] using hx
  · refine .inr ⟨if_pos hseen, fun v hv => hseen ?_⟩
    exact (h.seen name).2 (List.mem_map_of_mem ((hmap v).2 hv))

/-- What is left in the map for the engine. -/
theorem mem_opening_iff (h : c.Sound) :
    (k, v) ∈ (c.opening w).2.configMap ↔
      k ∉ removedOptions ∧ ∃ u, (k, u) ∈ c.configMap ∧ v = handedValue w k u := by
  have hlower : ∀ name ∈ removedOptions, lower name.toList = name.toList := by decide
  obtain ⟨h1, -⟩ := normalizeWindowsPathSeparators_keys w h "allowed_paths"
  obtain ⟨h2, -⟩ := normalizeWindowsPathSeparators_keys w h1 "allowed_directories"
  have hpaths : (k, v) ∈ ((c.normalizeWindowsPathSeparators w
      "allowed_paths").normalizeWindowsPathSeparators w "allowed_directories").configMap ↔
      ∃ u, (k, u) ∈ c.configMap ∧ v = handedValue w k u := by
    simp only [mem_normalize_iff h1 (show lower "allowed_directories".toList = _ by decide),
      mem_normalize_iff h (show lower "allowed_paths".toList = _ by decide), handedValue]
    constructor
    · rintro ⟨_, ⟨u, hu, rfl⟩, rfl⟩
      refine ⟨u, hu, ?_⟩
      by_cases hp : k = "allowed_paths"
      · simp [hp]
      · simp [hp]
    · rintro ⟨u, hu, rfl⟩
      refine ⟨_, ⟨u, hu, rfl⟩, ?_⟩
      by_cases hp : k = "allowed_paths"
      · simp [hp]
      · simp [hp]
  simp only [opening, mem_foldl_erase, hpaths]
  rw [and_comm]
  refine and_congr_left ?_
  rintro ⟨u, hu, -⟩
  have hk := List.mem_map_of_mem (f := Prod.fst) hu
  constructor
  · intro hne hmem
    have hsame := (h.sameKey_iff hk (hlower k hmem)).2 rfl
    rw [hne k hmem] at hsame
    cases hsame
  · intro hnot name hname
    rw [Bool.eq_false_iff]
    intro hsame
    obtain rfl : k = name := (h.sameKey_iff hk (hlower name hname)).1 hsame
    exact hnot hname

theorem nodup_opening (w : World) (h : c.Sound) :
    ((c.opening w).2.configMap.map Prod.fst).Nodup := by
  obtain ⟨h1, -⟩ := normalizeWindowsPathSeparators_keys w h "allowed_paths"
  obtain ⟨h2, -⟩ := normalizeWindowsPathSeparators_keys w h1 "allowed_directories"
  have hsub : ∀ (names : List String) (m : ConfigMap),
    (names.foldl ConfigMap.erase m).Sublist m := by
    intro names
    induction names with
    | nil => exact fun m => .refl m
    | cons name names ih => exact fun m => (ih _).trans List.filter_sublist
  exact h2.nodup.sublist ((hsub removedOptions _).map Prod.fst)

/-- The call hands over what its string stored. -/
theorem handsOver_stores {inConnStr : List Char} {dsn : String} {diags : List DiagRecord}
    (hcall : (ConnectCall.sqlDriverConnect inConnStr dsn diags).handsOver
    w.toEngineNames = some c) :
    ∃ entries, Entries inConnStr entries ∧
      (∀ x ∈ entries, x.1 ≠ sqlFileOption ∧ x.1 ≠ sqlFileSha256Option) ∧
      (∀ k v, (k, v) ∈ c.configMap ↔ lastStored w.toEngineNames entries k = some v) ∧
      c.options = optionKeys w.toEngineNames ∧ c.dsn = namedDsn w.toEngineNames entries ∧
      (parseLoop w.toEngineNames ⟨.new w.toEngineNames dsn diags, [], false, false⟩
        inConnStr).2.connect.lookUp "dsn" "" = some c.dsn := by
  have hret : (parseInputStr w.toEngineNames (.new w.toEngineNames dsn diags)
      inConnStr).1.succeeded = true := by
    by_contra hne
    rw [Bool.not_eq_true] at hne
    simp [ConnectCall.handsOver, setSuccessWithInfo, hne] at hcall
  have hsame : c.configMap = (parseInputStr w.toEngineNames (.new w.toEngineNames dsn diags)
        inConnStr).2.configMap ∧
      c.options = (parseInputStr w.toEngineNames (.new w.toEngineNames dsn diags)
        inConnStr).2.options ∧
      c.dsn = (parseInputStr w.toEngineNames (.new w.toEngineNames dsn diags) inConnStr).2.dsn := by
    simp only [ConnectCall.handsOver, setSuccessWithInfo, hret, Bool.not_true, Bool.false_eq_true,
      if_false, if_true] at hcall
    cases hcall
    split_ifs <;> exact ⟨rfl, rfl, rfl⟩
  rw [hsame.1, hsame.2.1, hsame.2.2]
  exact parseInputStr_stores hret

/-- For every connection string that is accepted, the engine is handed the options that win,
and the session init file is never one of the string's. Every lookup on the way finds its
option. -/
theorem handed_options {inConnStr : List Char} {dsn : String} {diags : List DiagRecord}
    (hcall : (ConnectCall.sqlDriverConnect inConnStr dsn diags).handsOver
    w.toEngineNames = some c) :
    ∃ entries, Entries inConnStr entries ∧ HandsOver w entries (handed w c) ∧
      (∀ x ∈ entries, x.1 ≠ sqlFileOption ∧ x.1 ≠ sqlFileSha256Option) ∧
      (parseLoop w.toEngineNames ⟨.new w.toEngineNames dsn diags, [], false, false⟩
        inConnStr).2.connect.lookUp "dsn" "" = some c.dsn ∧
      (if w.linkOdbcinst then c.readFromIniFile w else c).openingFound w
        = some ((if w.linkOdbcinst then c.readFromIniFile w else c).opening w) := by
  obtain ⟨entries, hentries, hnone, hmap, hoptions, hdsn, hlookUp⟩ := handsOver_stores hcall
  have hsound := ConnectCall.sound_handsOver hcall
  obtain ⟨hs, hgiven⟩ := given_iff w hsound
  have hwins : ∀ k v, (k, v) ∈ (if w.linkOdbcinst then c.readFromIniFile w else c).configMap ↔
      Wins w entries k v := fun k v =>
    (hgiven k v).trans (given_iff_wins hsound hmap hoptions hdsn)
  have hfile : ∀ key, (∀ x ∈ entries, x.1 ≠ key) → ∀ v, Wins w entries key v ↔
      DsnGives w entries key v := by
    intro key hkey v
    refine or_iff_right fun hl => ?_
    obtain ⟨-, hfind⟩ := Option.ite_none_right_eq_some.1 hl
    obtain ⟨x, hx, -⟩ := Option.map_eq_some_iff.1 hfind
    have hmem := List.mem_of_find?_eq_some hx
    exact hkey x (List.mem_reverse.1 hmem) (by simpa using List.find?_some hx)
  refine ⟨entries, hentries, ⟨?_, ?_, ?_, ?_⟩, hnone, hlookUp, openingFound_eq w hs⟩
  · exact valueOr_getOption hs (by decide) (hwins _) _
  · exact valueOr_getOption hs (by decide) (fun v => (hwins _ v).trans
      (hfile _ (fun x hx => (hnone x hx).1) v)) _
  · exact valueOr_getOption hs (by decide) (fun v => (hwins _ v).trans
      (hfile _ (fun x hx => (hnone x hx).2) v)) _
  · refine ⟨_, _, _, valueOr_getOption hs (by decide) (hwins _) _,
      valueOr_getOption hs (by decide) (hwins _) _, nodup_opening w hs, fun k v => ?_, rfl⟩
    rw [mem_opening_iff hs]
    simp only [hwins]

/-- A string with an option and a data source : the data source gives what the string does not. -/
theorem handed_options_named :
    ∃ c entries, (ConnectCall.sqlDriverConnect "allow_unsigned_extensions=false;DSN=Sales".toList ""
        []).handsOver (dataSource fun _ => .nothing).toEngineNames = some c ∧
      HandsOver (dataSource fun _ => .nothing) entries (handed (dataSource fun _ => .nothing) c) ∧
      (handed (dataSource fun _ => .nothing) c).options
        = [("allow_unsigned_extensions", .bool false), ("duckdb_api", .text "odbc"),
          ("allow_unsigned_extensions", .text "false")] := by
  have hentries : Entries "allow_unsigned_extensions=false;DSN=Sales".toList
      [("allow_unsigned_extensions", "false"), ("dsn", "Sales")] := by
    have hdsn : Entries ";DSN=Sales".toList [("dsn", "Sales")] :=
      @Entries.cons [';'] "DSN".toList "Sales".toList _ _ _ (List.all_eq_true.1 rfl) (by decide)
        (by rintro _ _ ⟨⟩; rfl)
        (@ValueOf.plain [] "Sales".toList [] nofun (by decide)
          (by rintro _ _ ⟨⟩; exact ⟨rfl, by decide⟩) nofun) (.nil nofun)
    exact @Entries.cons [] "allow_unsigned_extensions".toList "false;DSN=Sales".toList _ _ _
      nofun (by decide) (by rintro _ _ ⟨⟩; rfl)
      (@ValueOf.plain [] "false".toList ";DSN=Sales".toList nofun (by decide)
        (by rintro _ _ ⟨⟩; exact ⟨rfl, by decide⟩) (by rintro _ _ ⟨⟩; rfl)) hdsn
  have hcall : ∃ c, (ConnectCall.sqlDriverConnect
      "allow_unsigned_extensions=false;DSN=Sales".toList "" []).handsOver
        (dataSource fun _ => .nothing).toEngineNames = some c ∧
      (handed (dataSource fun _ => .nothing) c).options
        = [("allow_unsigned_extensions", .bool false), ("duckdb_api", .text "odbc"),
          ("allow_unsigned_extensions", .text "false")] := by
    simp only [ConnectCall.handsOver, parseInputStr, parseLoop_entries _ hentries]
    exact ⟨_, rfl, by decide⟩
  obtain ⟨c, hc, hoptions⟩ := hcall
  obtain ⟨entries, -, h, -⟩ := handed_options hc
  exact ⟨c, entries, hc, h, hoptions⟩

/-- On Windows a path of the string is changed before the engine is handed it, and an answer that
fails keeps the engine from the options of the data source after it. -/
theorem handed_options_differ :
    (∃ (w : World) (c : Connect) (entries : List (String × String)),
      Entries "allowed_paths=C:\\d".toList entries ∧
      (ConnectCall.sqlDriverConnect "allowed_paths=C:\\d".toList "" []).handsOver w.toEngineNames
        = some c ∧
      lastStored w.toEngineNames entries "allowed_paths" = some "C:\\d" ∧
      ("allowed_paths", .text "C:\\d") ∉ (handed w c).options) ∧
    ∃ (w : World) (c : Connect) (entries : List (String × String)),
      Entries "DSN=Sales".toList entries ∧
      (ConnectCall.sqlDriverConnect "DSN=Sales".toList "" []).handsOver w.toEngineNames = some c ∧
      "threads" ∈ optionKeys w.toEngineNames ∧
      lastStored w.toEngineNames entries "threads" = none ∧
      w.profileString "Sales" "threads" = .value "4" ∧
      ∀ v, ("threads", v) ∉ (handed w c).options := by
  constructor
  · have hentries : Entries "allowed_paths=C:\\d".toList [("allowed_paths", "C:\\d")] :=
      @Entries.cons [] "allowed_paths".toList "C:\\d".toList _ _ _ nofun (by decide)
        (by rintro _ _ ⟨⟩; rfl)
        (@ValueOf.plain [] "C:\\d".toList [] nofun (by decide)
          (by rintro _ _ ⟨⟩; exact ⟨rfl, by decide⟩) nofun) (.nil nofun)
    refine ⟨{ dataSource (fun _ => .nothing) with
      optionNames := ["allowed_paths"], lower_optionNames := by decide }, ?_⟩
    simp only [ConnectCall.handsOver, parseInputStr, parseLoop_entries _ hentries]
    exact ⟨_, _, hentries, rfl, by decide, by decide⟩
  · have hentries : Entries "DSN=Sales".toList [("dsn", "Sales")] :=
      @Entries.cons [] "DSN".toList "Sales".toList _ _ _ nofun (by decide)
        (by rintro _ _ ⟨⟩; rfl)
        (@ValueOf.plain [] "Sales".toList [] nofun (by decide)
          (by rintro _ _ ⟨⟩; exact ⟨rfl, by decide⟩) nofun) (.nil nofun)
    refine ⟨{ dataSource (fun _ => .nothing) with
      optionNames := ["threads"], lower_optionNames := by decide,
      profileString := fun _ key => if key = "threads" then .value "4" else .failed }, ?_⟩
    simp only [ConnectCall.handsOver, parseInputStr, parseLoop_entries _ hentries]
    refine ⟨_, _, hentries, rfl, by decide, by decide, by decide, fun v hv => ?_⟩
    have hoptions : ∀ x ∈ [("duckdb_api", OptionValue.text "odbc")], x.1 ≠ "threads" := by decide
    exact hoptions _ hv rfl

end Wins

end Connect

end HaybarnOdbc
