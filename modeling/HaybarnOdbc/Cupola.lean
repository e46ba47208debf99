import HaybarnOdbc.ConnectionString
import HaybarnOdbc.SessionInit

/-!
# Opening the database

`Connect::SetConnection` adds the options of the data source to those of the connection
string, opens the database instance with them, runs the session init file and attaches the
Cupola connection. `ReadFromIniFile` asks for every option the string did not give, in the
order of `seen_config_options`; its code is not looked at.

A Cupola connection is meant to stand alone. In a connection string it does
(`parseInputStr_cupola`), but a data source can name one as well, and nothing checks what else
the data source or the string around it gives (`attachCupola_isolated_iff`).
-/

namespace HaybarnOdbc

/-- `IN_MEMORY_PATH`. -/
def inMemoryPath : String := ":memory:"

/-- The value an option is set to. -/
inductive OptionValue
  | bool (b : Bool)
  | text (s : String)
  deriving DecidableEq, Repr

/-- What `SQLGetPrivateProfileString` does for a key of a data source : it finds nothing, fails
or stores a value. -/
inductive ProfileAnswer
  | nothing
  | failed
  | value (s : String)
  deriving DecidableEq, Repr

/-- What `SetConnection` uses of the world. -/
structure World extends EngineNames where
  /-- The driver is built for Windows. -/
  windows : Bool
  /-- The driver is linked to the installer library (`ODBC_LINK_ODBCINST`, or Windows). -/
  linkOdbcinst : Bool
  /-- `SQLGetPrivateProfileString` of a data source and a key. -/
  profileString : String → String → ProfileAnswer
  files : SessionInit.Files
  /-- `SetOptionsByName` and the options after it, with `GetOrCreateInstance` : whether the
  instance was created, or the message of the exception. -/
  getOrCreateInstance : String → List (String × OptionValue) → Except String Bool
  session : SessionInit.Session
  /-- `AttachCupolaConnection` : the message of its exception. -/
  attachCupolaConnection : String → Option String

/-- How a database instance is opened : its database, the calls of `SetOptionByName` in their
order, and the session init file with its hash. -/
structure Opened where
  database : String
  options : List (String × OptionValue)
  sessionInitSqlFile : String
  sessionInitSqlFileSha256 : String

/-- The value of an option after the calls. -/
def Opened.optionValue (o : Opened) (name : String) : Option OptionValue :=
  (o.options.reverse.find? fun e => e.1 == name).map Prod.snd

namespace Connect

/-- A turn of the loop of `ReadFromIniFile` : the connection, and whether to go on. -/
def readOption (w : World) (c : Connect) (key : String) : Connect × Bool :=
  -- if the key has already been set, skip it
  if key ∈ c.seen then (c, true)
  else
    match w.profileString c.dsn key with
    | .nothing => (c, true)
    | .failed => ((c.setDiagnosticRecord .error "Error reading from .odbc.ini" .st01S09).2, false)
    | .value val => (c.give key val, true)

/-- The loop of `ReadFromIniFile`. -/
def readOptions (w : World) : Connect → List String → Connect
  | c, [] => c
  | c, key :: keys =>
    let (c, more) := readOption w c key
    if more then readOptions w c keys else c

/-- `ReadFromIniFile`, without its code. -/
def readFromIniFile (w : World) (c : Connect) : Connect :=
  if c.dsn = "" then c else readOptions w c c.options

/-- `NormalizeWindowsPathSeparators`. -/
def normalizeWindowsPathSeparators (w : World) (c : Connect) (name : String) : Connect :=
  if w.windows then
    let valueStr := c.getOptionFromConfigMap name ""
    if valueStr = "" then c
    else
      let valueStrNorm := String.ofList
        (valueStr.toList.map fun ch => if ch = '\\' then '/' else ch)
      { c with configMap := c.configMap.erase name ++ [(name, valueStrNorm)] }
  else c

/-- The options that are not for the engine, or handled separately. -/
def removedOptions : List String :=
  ["cupolaconnection", "database", "dsn", sqlFileOption, sqlFileSha256Option,
    "enable_external_access"]

/-- What `SetConnection` opens the instance with. -/
def opening (w : World) (c : Connect) : Opened × Connect :=
  let cupola := c.getOptionFromConfigMap "cupolaconnection" ""
  let unsigned : List (String × OptionValue) :=
    if cupola ≠ "" then [("allow_unsigned_extensions", .bool false)] else []
  let database := c.getOptionFromConfigMap "database" inMemoryPath
  -- 'enable_external_access' is set after all other options
  let enableExternalAccess := c.getOptionFromConfigMap "enable_external_access" ""
  let external : List (String × OptionValue) :=
    if enableExternalAccess ≠ "" then [("enable_external_access", .text enableExternalAccess)]
    else []
  let sessionInitSqlFile := c.getOptionFromConfigMap sqlFileOption ""
  let sessionInitSqlFileSha256 := c.getOptionFromConfigMap sqlFileSha256Option ""
  let c := c.normalizeWindowsPathSeparators w "allowed_paths"
  let c := c.normalizeWindowsPathSeparators w "allowed_directories"
  let c := { c with configMap := removedOptions.foldl ConfigMap.erase c.configMap }
  (⟨database, unsigned ++ [("duckdb_api", .text "odbc")] ++
    c.configMap.map (fun e => (e.1, .text e.2)) ++ external, sessionInitSqlFile,
    sessionInitSqlFileSha256⟩, c)

/-- What a connect did : its code, the connection, how the instance was opened, and whether
`AttachCupolaConnection` was reached. -/
structure Connected where
  ret : SqlReturn
  connect : Connect
  opened : Option Opened
  attached : Bool

/-- `SetDiagnosticRecord` at the end of a connect. -/
def failed (c : Connect) (message : String) (st : SqlState) (opened : Option Opened)
    (attached : Bool) : Connected :=
  ⟨.error, (c.setDiagnosticRecord .error message st).2, opened, attached⟩

/-- `SetConnection`. -/
def setConnection (w : World) (c : Connect) : Connected :=
  let c := if w.linkOdbcinst then c.readFromIniFile w else c
  let cupola := c.getOptionFromConfigMap "cupolaconnection" ""
  if "cupolaconnection" ∈ c.seen ∧ cupola = "" then
    c.failed "CupolaConnection must name an existing connection." .stHY000 none false
  else
    let (o, c) := c.opening w
    match SessionInit.readSqlFile w.files o.sessionInitSqlFile o.sessionInitSqlFileSha256 with
    | .error message => c.failed message .stIM003 none false
    | .ok sessionInitContent =>
      match w.getOrCreateInstance o.database o.options with
      | .error message => c.failed message .stIM003 none false
      | .ok dbCreated =>
        let init : SessionInit.Ran :=
          if sessionInitContent.isEmpty then ⟨.success, [], []⟩
          else SessionInit.run w.session sessionInitContent dbCreated
        let c := { c with diags := c.diags ++ init.diags }
        if cupola ≠ "" ∧ init.ret.succeeded = true then
          match w.attachCupolaConnection cupola with
          | some message => c.failed message .stHY000 (some o) true
          | none => ⟨init.ret, c, some o, true⟩
        else ⟨init.ret, c, some o, false⟩

/-- A connect : `SQLConnect` to a data source, or `SQLDriverConnect` with a connection string.
The data source name of an earlier attempt and its diagnostic records are still there. -/
inductive ConnectCall
  | sqlConnect (serverName : String) (diags : List DiagRecord)
  | sqlDriverConnect (inConnStr : List Char) (dsn : String) (diags : List DiagRecord)

/-- What the call hands to `SetConnection`, if it comes to that. -/
def ConnectCall.handsOver (e : EngineNames) : ConnectCall → Option Connect
  | .sqlConnect serverName diags => some (.new e serverName diags)
  | .sqlDriverConnect inConnStr dsn diags =>
    let (ret, c) := parseInputStr e (.new e dsn diags) inConnStr
    let (go, c) := c.setSuccessWithInfo ret
    if go then some c else none

/-- Every call hands over options that are sound. -/
theorem ConnectCall.sound_handsOver {e : EngineNames} {call : ConnectCall} {c : Connect}
    (h : call.handsOver e = some c) : c.Sound := by
  cases call with
  | sqlConnect serverName diags =>
    obtain rfl : new e serverName diags = c := by simpa [handsOver] using h
    exact sound_new e serverName diags
  | sqlDriverConnect inConnStr dsn diags =>
    have hsound := sound_setSuccessWithInfo
      (sound_parseInputStr e (sound_new e dsn diags) inConnStr)
      (parseInputStr e (new e dsn diags) inConnStr).1
    simp only [handsOver] at h
    split_ifs at h
    cases h
    exact hsound

/-! ## What the data source adds -/

/-- The data source is asked for the option, before any answer fails, and gives a value. -/
def Supplies (w : World) (c : Connect) (keys : List String) (key val : String) : Prop :=
  ∃ before after, keys = before ++ key :: after ∧ key ∉ c.seen ∧
    w.profileString c.dsn key = .value val ∧
    ∀ k ∈ before, k ∉ c.seen → w.profileString c.dsn k ≠ .failed

/-- The option is given, by the connection string or by its data source. -/
def Given (w : World) (c : Connect) (key val : String) : Prop :=
  (key, val) ∈ c.configMap ∨
    w.linkOdbcinst = true ∧ c.dsn ≠ "" ∧ Supplies w c c.options key val

section Supplies

variable {w : World} {c : Connect} {keys : List String} {k key val : String}

theorem not_supplies_nil : ¬Supplies w c [] key val := by
  rintro ⟨before, after, heq, -⟩
  simp at heq

/-- What is supplied by the options after the first one, which was given or is not found. -/
theorem supplies_cons_skip (hskip : k ∈ c.seen ∨ w.profileString c.dsn k = .nothing) :
    Supplies w c (k :: keys) key val ↔ Supplies w c keys key val := by
  constructor
  · rintro ⟨before, after, heq, hnew, hval, hbefore⟩
    cases before with
    | nil =>
      obtain ⟨rfl, rfl⟩ := List.cons.inj heq
      rcases hskip with hskip | hskip
      · exact absurd hskip hnew
      · simp [hval] at hskip
    | cons b before =>
      obtain ⟨rfl, rfl⟩ := List.cons.inj heq
      exact ⟨before, after, rfl, hnew, hval, fun k hk => hbefore k (List.mem_cons_of_mem _ hk)⟩
  · rintro ⟨before, after, rfl, hnew, hval, hbefore⟩
    refine ⟨k :: before, after, rfl, hnew, hval, fun k' hk' hnew' => ?_⟩
    rcases List.mem_cons.1 hk' with rfl | hk'
    · rcases hskip with hskip | hskip
      · exact absurd hskip hnew'
      · simp [hskip]
    · exact hbefore k' hk' hnew'

/-- Nothing is supplied after an answer that fails. -/
theorem not_supplies_cons_failed (hnew : k ∉ c.seen) (hfail : w.profileString c.dsn k = .failed) :
    ¬Supplies w c (k :: keys) key val := by
  rintro ⟨before, after, heq, -, hval, hbefore⟩
  cases before with
  | nil =>
    obtain ⟨rfl, rfl⟩ := List.cons.inj heq
    simp [hval] at hfail
  | cons b before =>
    obtain ⟨rfl, rfl⟩ := List.cons.inj heq
    exact hbefore _ List.mem_cons_self hnew hfail

/-- What is supplied by an option that is found and those after it. -/
theorem supplies_cons_value {v : String} (hnew : k ∉ c.seen)
    (hv : w.profileString c.dsn k = .value v) :
    Supplies w c (k :: keys) key val ↔
      (key = k ∧ val = v) ∨ Supplies w (c.give k v) keys key val := by
  have hdsn : (c.give k v).dsn = c.dsn := rfl
  have hseen : ∀ k', k' ∉ (c.give k v).seen ↔ k' ≠ k ∧ k' ∉ c.seen := by
    intro k'
    simp [give, List.mem_insert_iff]
  constructor
  · rintro ⟨before, after, heq, hkey, hval, hbefore⟩
    cases before with
    | nil =>
      obtain ⟨rfl, rfl⟩ := List.cons.inj heq
      rw [hv] at hval
      exact .inl ⟨rfl, by cases hval; rfl⟩
    | cons b before =>
      obtain ⟨rfl, rfl⟩ := List.cons.inj heq
      by_cases hk : key = k
      · subst hk
        rw [hv] at hval
        exact .inl ⟨rfl, by cases hval; rfl⟩
      · exact .inr ⟨before, after, rfl, (hseen key).2 ⟨hk, hkey⟩, hval,
          fun k' hk' hn => hbefore k' (List.mem_cons_of_mem _ hk') ((hseen k').1 hn).2⟩
  · rintro (⟨rfl, rfl⟩ | ⟨before, after, rfl, hkey, hval, hbefore⟩)
    · exact ⟨[], keys, rfl, hnew, hv, by simp⟩
    · refine ⟨k :: before, after, rfl, ((hseen key).1 hkey).2, hval, fun k' hk' hn => ?_⟩
      by_cases hk : k' = k
      · rw [hk, hv]
        simp
      · exact hbefore k' ((List.mem_cons.1 hk').resolve_left hk) ((hseen k').2 ⟨hk, hn⟩)

end Supplies

/-- The options after the loop are those before it and those the data source supplies. -/
theorem readOptions_configMap (w : World) (keys : List String) {c : Connect} (h : c.Sound)
    (hkeys : ∀ key ∈ keys, key ∈ c.options) :
    (readOptions w c keys).Sound ∧ ∀ key val, (key, val) ∈ (readOptions w c keys).configMap ↔
      (key, val) ∈ c.configMap ∨ Supplies w c keys key val := by
  induction keys generalizing c with
  | nil => exact ⟨h, fun key val => by simp [readOptions, not_supplies_nil]⟩
  | cons k keys ih =>
    have hk := hkeys k List.mem_cons_self
    have hrest : ∀ key ∈ keys, key ∈ c.options :=
      fun key hkey => hkeys key (List.mem_cons_of_mem _ hkey)
    by_cases hseen : k ∈ c.seen
    · obtain ⟨hs, hm⟩ := ih h hrest
      have hskip : readOptions w c (k :: keys) = readOptions w c keys := by
        simp [readOptions, readOption, hseen]
      rw [hskip]
      exact ⟨hs, fun key val => by rw [hm, supplies_cons_skip (.inl hseen)]⟩
    cases hans : w.profileString c.dsn k with
    | nothing =>
      obtain ⟨hs, hm⟩ := ih h hrest
      have hskip : readOptions w c (k :: keys) = readOptions w c keys := by
        simp [readOptions, readOption, hseen, hans]
      rw [hskip]
      exact ⟨hs, fun key val => by rw [hm, supplies_cons_skip (.inr hans)]⟩
    | failed =>
      have hstop : readOptions w c (k :: keys)
          = (c.setDiagnosticRecord .error "Error reading from .odbc.ini" .st01S09).2 := by
        simp [readOptions, readOption, hseen, hans]
      rw [hstop]
      refine ⟨sound_setDiagnosticRecord h _ _ _, fun key val => ?_⟩
      exact (or_iff_left (not_supplies_cons_failed hseen hans)).symm
    | value v =>
      obtain ⟨hs, hm⟩ := ih (h.give hk v) hrest
      have hgive : readOptions w c (k :: keys) = readOptions w (c.give k v) keys := by
        simp [readOptions, readOption, hseen, hans]
      rw [hgive]
      refine ⟨hs, fun key val => ?_⟩
      rw [hm, supplies_cons_value hseen hans, h.configMap_give_new hk hseen]
      simp [or_assoc]

/-- The options that `SetConnection` goes by, after the data source was read. -/
theorem given_iff (w : World) {c : Connect} (h : c.Sound) :
    (if w.linkOdbcinst then c.readFromIniFile w else c).Sound ∧
      ∀ key val, (key, val) ∈ (if w.linkOdbcinst then c.readFromIniFile w else c).configMap ↔
        Given w c key val := by
  unfold Given readFromIniFile
  cases w.linkOdbcinst with
  | false => exact ⟨h, fun key val => by simp⟩
  | true =>
    by_cases hdsn : c.dsn = ""
    · exact ⟨by simpa [hdsn] using h, fun key val => by simp [hdsn]⟩
    · obtain ⟨hs, hm⟩ := readOptions_configMap w c.options h fun _ hkey => hkey
      exact ⟨by simpa [hdsn] using hs, fun key val => by simp [hdsn, hm]⟩

/-! ## What the instance is opened with -/

/-- Erasing takes away the options of these names and no others. -/
theorem mem_foldl_erase {x : String × String} (names : List String) (m : ConfigMap) :
    x ∈ names.foldl ConfigMap.erase m ↔
      x ∈ m ∧ ∀ name ∈ names, ConfigMap.sameKey x.1 name = false := by
  induction names generalizing m with
  | nil => simp
  | cons name names ih =>
    rw [List.foldl_cons, ih, ConfigMap.erase, List.mem_filter]
    simp [and_assoc]

/-- The separators of a path are changed in place. -/
theorem normalizeWindowsPathSeparators_keys (w : World) {c : Connect} (h : c.Sound)
    (name : String) :
    (c.normalizeWindowsPathSeparators w name).Sound ∧
      ∀ k, k ∈ (c.normalizeWindowsPathSeparators w name).configMap.map Prod.fst ↔
        k ∈ c.configMap.map Prod.fst := by
  simp only [normalizeWindowsPathSeparators]
  split_ifs with hw hval
  · exact ⟨h, fun k => Iff.rfl⟩
  · have hseen := Sound.seen_of_getOption_ne hval
    have hname := h.lower name (h.known name hseen)
    have hkeys : ∀ k, k ∈ (c.configMap.erase name).map Prod.fst ↔
        k ∈ c.configMap.map Prod.fst ∧ k ≠ name := by
      intro k
      constructor
      · intro hk
        obtain ⟨x, hx, rfl⟩ := List.mem_map.1 hk
        obtain ⟨hmem, hne⟩ := List.mem_filter.1 hx
        refine ⟨List.mem_map_of_mem hmem, fun heq => ?_⟩
        simp [(h.sameKey_iff (List.mem_map_of_mem hmem) hname).2 heq] at hne
      · rintro ⟨hk, hne⟩
        obtain ⟨x, hx, rfl⟩ := List.mem_map.1 hk
        refine List.mem_map_of_mem (List.mem_filter.2 ⟨hx, ?_⟩)
        rw [Bool.not_eq_true', Bool.eq_false_iff]
        exact fun hsame => hne ((h.sameKey_iff hk hname).1 hsame)
    have hall : ∀ k v, k ∈ (c.configMap.erase name ++ [(name, v)]).map Prod.fst ↔
        k ∈ c.configMap.map Prod.fst := by
      intro k v
      rw [List.map_append, List.mem_append, hkeys]
      simp only [List.map_cons, List.map_nil, List.mem_singleton]
      by_cases hk : k = name
      · subst hk
        simpa using (h.seen k).1 hseen
      · simp [hk]
    refine ⟨⟨h.lower, h.ofLocal, ?_, fun k => ?_, h.known⟩, fun k => hall k _⟩
    · rw [List.map_append]
      refine List.nodup_append.2 ⟨h.nodup.sublist (List.filter_sublist.map Prod.fst), by simp, ?_⟩
      rintro k hk k' hk' rfl
      rw [List.map_singleton, List.mem_singleton] at hk'
      exact ((hkeys k).1 hk).2 hk'
    · rw [hall, h.seen]
  · exact ⟨h, fun k => Iff.rfl⟩

/-- Nothing is left for the engine if every option is among those that are removed. -/
theorem opening_rest_eq_nil_iff (w : World) {c : Connect} (h : c.Sound) :
    (c.opening w).2.configMap = [] ↔ ∀ k ∈ c.configMap.map Prod.fst, k ∈ removedOptions := by
  have hlower : ∀ name ∈ removedOptions, HaybarnOdbc.lower name.toList = name.toList := by decide
  obtain ⟨h1, hkeys1⟩ := normalizeWindowsPathSeparators_keys w h "allowed_paths"
  obtain ⟨h2, hkeys2⟩ := normalizeWindowsPathSeparators_keys w h1 "allowed_directories"
  simp only [opening]
  rw [List.eq_nil_iff_forall_not_mem]
  constructor
  · intro hnil k hk
    rw [← hkeys1, ← hkeys2] at hk
    obtain ⟨x, hx, rfl⟩ := List.mem_map.1 hk
    by_contra hnot
    refine hnil x ((mem_foldl_erase _ _).2 ⟨hx, fun name hname => ?_⟩)
    rw [Bool.eq_false_iff]
    intro hsame
    exact hnot (((h2.sameKey_iff hk (hlower name hname)).1 hsame) ▸ hname)
  · intro hall x hx
    obtain ⟨hmem, hne⟩ := (mem_foldl_erase _ _).1 hx
    have hk := List.mem_map_of_mem (f := Prod.fst) hmem
    have hremoved := hall x.1 (by rwa [← hkeys1, ← hkeys2])
    have hsame := (h2.sameKey_iff hk (hlower _ hremoved)).2 rfl
    simp [hne x.1 hremoved] at hsame

/-- A Cupola connection stands alone : the instance was opened in memory, without unsigned
extensions, without a session init file and with no option of the connection string or of the
data source. -/
structure CupolaIsolated (o : Opened) : Prop where
  database : o.database = inMemoryPath
  unsigned : o.optionValue "allow_unsigned_extensions" = some (.bool false)
  sessionInit : o.sessionInitSqlFile = ""
  alone : o.options = [("allow_unsigned_extensions", .bool false), ("duckdb_api", .text "odbc")]

/-- The value makes no difference to the instance : the name of the Cupola connection or of the
data source, the database in memory, an option that is read as if it were not there, or a hash
without a file. -/
def Harmless (key val : String) : Prop :=
  key = "cupolaconnection" ∨ key = "dsn" ∨ key = "database" ∧ val = inMemoryPath ∨
    key = sqlFileOption ∧ val = "" ∨ key = "enable_external_access" ∧ val = "" ∨
    key = sqlFileSha256Option

/-- What a connection with a Cupola connection opens the instance with. -/
theorem opening_isolated_iff (w : World) {c : Connect} (h : c.Sound)
    (hcupola : c.getOptionFromConfigMap "cupolaconnection" "" ≠ "") :
    CupolaIsolated (c.opening w).1 ↔ ∀ key val, (key, val) ∈ c.configMap → Harmless key val := by
  have hdatabase : (c.opening w).1.database = inMemoryPath ↔
      ∀ val, ("database", val) ∈ c.configMap → val = inMemoryPath :=
    h.getOption_eq_default_iff (by decide) inMemoryPath
  have hfile : (c.opening w).1.sessionInitSqlFile = "" ↔
      ∀ val, (sqlFileOption, val) ∈ c.configMap → val = "" :=
    h.getOption_eq_default_iff (by decide) ""
  have hexternal : c.getOptionFromConfigMap "enable_external_access" "" = "" ↔
      ∀ val, ("enable_external_access", val) ∈ c.configMap → val = "" :=
    h.getOption_eq_default_iff (by decide) ""
  have hrest := opening_rest_eq_nil_iff w h
  have hoptions : (c.opening w).1.options
      = ("allow_unsigned_extensions", .bool false) :: ("duckdb_api", .text "odbc") ::
        ((c.opening w).2.configMap.map (fun x => (x.1, .text x.2)) ++
          if c.getOptionFromConfigMap "enable_external_access" "" ≠ "" then
            [("enable_external_access",
              .text (c.getOptionFromConfigMap "enable_external_access" ""))] else []) := by
    simp [opening, hcupola]
  have halone : (c.opening w).1.options
        = [("allow_unsigned_extensions", .bool false), ("duckdb_api", .text "odbc")] ↔
      (c.opening w).2.configMap = [] ∧ c.getOptionFromConfigMap "enable_external_access"
        "" = "" := by
    rw [hoptions]
    simp
  constructor
  · intro hisolated key val hmem
    obtain ⟨hnil, hempty⟩ := halone.1 hisolated.alone
    have hremoved := hrest.1 hnil key (List.mem_map_of_mem hmem)
    simp only [removedOptions, List.mem_cons, List.not_mem_nil, or_false] at hremoved
    rcases hremoved with rfl | rfl | rfl | rfl | rfl | rfl
    · exact .inl rfl
    · exact .inr (.inr (.inl ⟨rfl, hdatabase.1 hisolated.database val hmem⟩))
    · exact .inr (.inl rfl)
    · exact .inr (.inr (.inr (.inl ⟨rfl, hfile.1 hisolated.sessionInit val hmem⟩)))
    · exact .inr (.inr (.inr (.inr (.inr rfl))))
    · exact .inr (.inr (.inr (.inr (.inl ⟨rfl, hexternal.1 hempty val hmem⟩))))
  · intro hall
    have hnil : (c.opening w).2.configMap = [] := by
      refine hrest.2 fun k hk => ?_
      obtain ⟨x, hx, rfl⟩ := List.mem_map.1 hk
      simp only [removedOptions, List.mem_cons, List.not_mem_nil, or_false]
      obtain hk | hk | ⟨hk, -⟩ | ⟨hk, -⟩ | ⟨hk, -⟩ | hk := hall x.1 x.2 hx <;> simp [hk]
    have hempty : c.getOptionFromConfigMap "enable_external_access" "" = "" := by
      refine hexternal.2 fun val hmem => ?_
      simpa [Harmless, sqlFileOption, sqlFileSha256Option] using hall _ val hmem
    have heq := halone.2 ⟨hnil, hempty⟩
    refine ⟨hdatabase.2 fun val hmem => ?_, ?_, hfile.2 fun val hmem => ?_, heq⟩
    · simpa [Harmless, sqlFileOption, sqlFileSha256Option] using hall _ val hmem
    · rw [Opened.optionValue, heq]
      rfl
    · simpa [Harmless, sqlFileOption, sqlFileSha256Option] using hall _ val hmem

/-- A connect that reached `AttachCupolaConnection` opened the instance with what it collected,
and was given the name of a Cupola connection. -/
theorem setConnection_attached {w : World} {c : Connect} {o : Opened}
    (hattached : (setConnection w c).attached = true) (ho : (setConnection w c).opened = some o) :
    o = ((if w.linkOdbcinst then c.readFromIniFile w else c).opening w).1 ∧
      (if w.linkOdbcinst then c.readFromIniFile w else c).getOptionFromConfigMap
        "cupolaconnection" "" ≠ "" := by
  unfold setConnection at hattached ho
  generalize (if w.linkOdbcinst then c.readFromIniFile w else c) = c' at hattached ho ⊢
  by_cases hempty : "cupolaconnection" ∈ c'.seen ∧
    c'.getOptionFromConfigMap "cupolaconnection" "" = ""
  · simp [hempty, failed] at hattached
  simp only [if_neg hempty] at hattached ho
  cases hread : SessionInit.readSqlFile w.files (c'.opening w).1.sessionInitSqlFile
      (c'.opening w).1.sessionInitSqlFileSha256 with
  | error message => simp [hread, failed] at hattached
  | ok content =>
    cases hcreate : w.getOrCreateInstance (c'.opening w).1.database (c'.opening w).1.options with
    | error message => simp [hread, hcreate, failed] at hattached
    | ok dbCreated =>
      simp only [hread, hcreate] at hattached ho
      generalize (if content.isEmpty = true then (⟨.success, [], []⟩ : SessionInit.Ran)
        else SessionInit.run w.session content dbCreated) = init at hattached ho
      split at hattached
      · next hcond =>
        rw [if_pos hcond] at ho
        refine ⟨?_, hcond.1⟩
        split at ho <;> exact (Option.some.inj ho).symm
      · cases hattached

/-- When a connect reaches `AttachCupolaConnection`, the Cupola connection stands alone if and
only if nothing that makes a difference was given besides, in the connection string or in the
data source. -/
theorem attachCupola_isolated_iff {w : World} {call : ConnectCall} {c : Connect} {o : Opened}
    (hcall : call.handsOver w.toEngineNames = some c)
    (hattached : (setConnection w c).attached = true) (ho : (setConnection w c).opened = some o) :
    CupolaIsolated o ↔ ∀ key val, Given w c key val → Harmless key val := by
  obtain ⟨hsound, hgiven⟩ := given_iff w (ConnectCall.sound_handsOver hcall)
  obtain ⟨rfl, hcupola⟩ := setConnection_attached hattached ho
  rw [opening_isolated_iff w hsound hcupola]
  exact forall₂_congr fun key val => by rw [hgiven]

/-- A world whose data sources name a Cupola connection, and give the options besides. -/
def dataSource (besides : String → ProfileAnswer) : World where
  optionNames := ["allow_unsigned_extensions"]
  lower_optionNames := by decide
  candidates _ := ""
  windows := true
  linkOdbcinst := true
  profileString _ key := if key = "cupolaconnection" then .value "sales" else besides key
  files := ⟨fun _ => none, fun _ => ""⟩
  getOrCreateInstance _ _ := .ok true
  session := SessionInit.obliging
  attachCupolaConnection _ := none

/-- A data source with nothing else. -/
theorem attachCupola_isolated_alone :
    ∃ c o, (ConnectCall.sqlConnect "Sales" []).handsOver
    (dataSource fun _ => .nothing).toEngineNames
        = some c ∧
      (setConnection (dataSource fun _ => .nothing) c).opened = some o ∧ CupolaIsolated o := by
  have hcall : (ConnectCall.sqlConnect "Sales" []).handsOver
      (dataSource fun _ => .nothing).toEngineNames
      = some (.new (dataSource fun _ => .nothing).toEngineNames "Sales" []) := rfl
  refine ⟨_, _, hcall, rfl, (attachCupola_isolated_iff hcall (by decide) rfl).2 ?_⟩
  rintro key val (h | ⟨-, -, before, after, -, -, hval, -⟩)
  · simp [new] at h
  · simp only [dataSource] at hval
    split_ifs at hval with hkey
    exact .inl hkey

/-- A data source that also names a database and allows unsigned extensions : both are in force
when the Cupola connection is attached. -/
theorem dataSource_not_isolated :
    ∃ (w : World) (c : Connect) (o : Opened),
      (ConnectCall.sqlConnect "Sales" []).handsOver w.toEngineNames = some c ∧
      (setConnection w c).attached = true ∧ (setConnection w c).opened = some o ∧
      o.database = "sales.db" ∧ o.optionValue "allow_unsigned_extensions" = some (.text "true") ∧
      ¬CupolaIsolated o :=
  ⟨dataSource fun key =>
      if key = "database" then .value "sales.db"
      else if key = "allow_unsigned_extensions" then .value "true" else .nothing,
    _, _, rfl, by decide, rfl, by decide, by decide, fun h => absurd h.database (by decide)⟩

end Connect

end HaybarnOdbc
