import Mathlib.Data.List.Nodup
import HaybarnOdbc.OdbcUtils
import HaybarnOdbc.Types

/-!
# The connection string

`Connect::ParseInputStr` takes a connection string apart, entry by entry, and notes the
options it gives. What an entry may be is decided in `FindKeyValPair` : a few keys are
ignored, a key that is no option only warns, and the options of the session init file are
refused here. `cupolaconnection` is the exception : it goes into the map as it is, and at the
end of the string it is checked that nothing else was given with it.

`seen_config_options` is kept in two parts, its keys (`options`, in the order of the map) and
those of them that were given (`seen`).
-/

namespace HaybarnOdbc

/-- What connecting reads of the engine's library. -/
structure EngineNames where
  /-- `DBConfig::GetOptionNames`. -/
  optionNames : List String
  /-- The names of the engine's table are written in lower case. -/
  lower_optionNames : ∀ name ∈ optionNames, lower name.toList = name.toList
  /-- `StringUtil::CandidatesErrorMessage` of the names, with "Did you mean: ". -/
  candidates : String → String

/-- `config_map`, a map whose keys differ in more than case. -/
abbrev ConfigMap := List (String × String)

namespace ConfigMap

/-- The keys are the same for the map. -/
def sameKey (a b : String) : Bool := lower a.toList == lower b.toList

/-- `config_map[key] = val`. -/
def set (m : ConfigMap) (key val : String) : ConfigMap :=
  if m.any fun e => sameKey e.1 key then
    m.map fun e => if sameKey e.1 key then (e.1, val) else e
  else m ++ [(key, val)]

/-- `config_map.find`. -/
def find (m : ConfigMap) (key : String) : Option String :=
  (m.find? fun e => sameKey e.1 key).map Prod.snd

/-- `config_map.erase`. -/
def erase (m : ConfigMap) (key : String) : ConfigMap := m.filter fun e => !sameKey e.1 key

/-- Keys in lower case are the same for the map only if they are. -/
theorem sameKey_iff {a b : String} (ha : lower a.toList = a.toList)
    (hb : lower b.toList = b.toList) : sameKey a b = true ↔ a = b := by
  rw [sameKey, ha, hb, beq_iff_eq]
  exact ⟨fun h => String.toList_inj.1 h, fun h => h ▸ rfl⟩

variable {m : ConfigMap} {key : String}

/-- A new key is added at the end. -/
theorem set_of_new (h : ∀ e ∈ m, sameKey e.1 key = false) (val : String) :
    m.set key val = m ++ [(key, val)] := by
  rw [set, if_neg]
  simpa using h

/-- A key that is there keeps its place. -/
theorem keys_set_of_old {e : String × String} (he : e ∈ m) (h : sameKey e.1 key = true)
    (val : String) : (m.set key val).map Prod.fst = m.map Prod.fst := by
  rw [set, if_pos (List.any_eq_true.2 ⟨e, he, h⟩), List.map_map]
  refine List.map_congr_left fun x _ => ?_
  simp only [Function.comp_apply]
  split_ifs <;> rfl

end ConfigMap

/-- `Connect`, with the data source name and the diagnostic records of its connection
handle. -/
structure Connect where
  options : List String
  seen : List String
  configMap : ConfigMap
  successWithInfo : Bool
  dsn : String
  diags : List DiagRecord

/-- `SessionInit::SQL_FILE_OPTION`. -/
def sqlFileOption : String := "session_init_sql_file"

/-- `SessionInit::SQL_FILE_SHA256_OPTION`. -/
def sqlFileSha256Option : String := "session_init_sql_file_sha256"

/-- Insert a key into a map that is ordered by its keys. -/
def insertKey (key : String) : List String → List String
  | [] => [key]
  | k :: ks => if key < k then key :: k :: ks else if key = k then k :: ks
    else k :: insertKey key ks

namespace Connect

/-- `Connect::IGNORE_KEYS`. -/
def ignoreKeys : List String := ["driver", "trusted_connection", "uid", "pwd"]

/-- The options that the driver takes itself. -/
def localOptions : List String :=
  ["cupolaconnection", "database", "dsn", sqlFileOption, sqlFileSha256Option]

/-- `Connect::Connect` : no option is given yet. -/
def new (e : EngineNames) (dsn : String) (diags : List DiagRecord) : Connect where
  options := (e.optionNames ++ localOptions).foldl (fun ks k => insertKey k ks) []
  seen := []
  configMap := []
  successWithInfo := false
  dsn := dsn
  diags := diags

/-- `SetDiagnosticRecord`. -/
def setDiagnosticRecord (c : Connect) (ret : SqlReturn) (message : String) (st : SqlState) :
    SqlReturn × Connect :=
  (ret, { c with diags := c.diags ++ [⟨"SQLDriverConnect", message, st⟩] })

/-- `SetSuccessWithInfo`. -/
def setSuccessWithInfo (c : Connect) (ret : SqlReturn) : Bool × Connect :=
  if !ret.succeeded then (false, c)
  else (true, if ret = .successWithInfo then { c with successWithInfo := true } else c)

/-- An option is given. Its text is valid UTF-8; `Value(std::string)` throws for another one. -/
def give (c : Connect) (key val : String) : Connect :=
  { c with configMap := c.configMap.set key val, seen := c.seen.insert key }

/-- `GetOptionFromConfigMap`. An option that was given is in the map. -/
def getOptionFromConfigMap (c : Connect) (name defaultVal : String) : String :=
  if name ∉ c.seen then defaultVal else (c.configMap.find name).getD defaultVal

/-- `FindMatchingKey`. -/
def findMatchingKey (e : EngineNames) (c : Connect) (input : String) : SqlReturn × Connect :=
  if input ∈ c.options then (.success, c)
  else
    -- if the input doesn't match a keyname, find a similar keyname
    c.setDiagnosticRecord .successWithInfo
      ("Invalid keyword: '" ++ input ++ "'. " ++ e.candidates input) .st01S09

/-- `FindKeyValPair`. -/
def findKeyValPair (e : EngineNames) (c : Connect) (row : List Char) : SqlReturn × Connect :=
  match row.dropWhile (· != '=') with
  | [] =>
    -- an equal '=' char must be present (syntax error)
    c.setDiagnosticRecord .error "Invalid connection string" .stHY000
  | _ :: valSpaces =>
    let keyCandidate := String.ofList (trimString (lower (row.takeWhile (· != '='))))
    -- check if the key can be ignored
    if keyCandidate ∈ ignoreKeys then (.success, c)
    else
      let (ret, c) := findMatchingKey e c keyCandidate
      if ret ≠ .success then (ret, c)
      else if keyCandidate = sqlFileOption ∨ keyCandidate = sqlFileSha256Option then
        c.setDiagnosticRecord .error
          ("Options '" ++ sqlFileOption ++ "' and '" ++ sqlFileSha256Option ++
            "' can only be specified in DSN configuration in a file or registry.") .st01S09
      else (.success, c.give keyCandidate (String.ofList (trimString valSpaces)))

/-! ## The loop of `ParseInputStr` -/

/-- What is between two entries. -/
def isSeparator (ch : Char) : Bool := ch == ';' || isSpace ch

/-- The loop over a braced value, after the opening brace : the value, whether the closing
brace was found, and what comes after it. -/
def bracedValue : List Char → List Char × Bool × List Char
  | [] => ([], false, [])
  | '}' :: '}' :: rest =>
    let (value, closed, rest) := bracedValue rest
    ('}' :: value, closed, rest)
  | '}' :: rest => ([], true, rest)
  | ch :: rest =>
    let (value, closed, rest) := bracedValue rest
    (ch :: value, closed, rest)

/-- The value after the equals sign and what comes after it, `none` for a braced value that
is not closed or not the end of its entry. -/
def parseValue (text : List Char) : Option (List Char × List Char) :=
  match text.dropWhile isSpace with
  | '{' :: text =>
    let (value, closed, rest) := bracedValue text
    let rest := rest.dropWhile isSpace
    if !closed || rest.head?.any (· != ';') then none else some (value, rest)
  | text => some (trimString (text.takeWhile (· != ';')), text.dropWhile (· != ';'))

/-- The variables of the loop. -/
structure ParseState where
  connect : Connect
  supplied : List String
  duplicate : Bool
  unexpected : Bool

/-- The key may stand beside `cupolaconnection`. -/
def besideCupola (key value : String) : Bool :=
  key == "driver" || key == "cupolaconnection" ||
    ((key == "uid" || key == "pwd" || key == "trusted_connection") && value == "")

/-- The rest of a turn, once the key and the value of the entry are known. -/
def parseEntry (e : EngineNames) (p : ParseState) (key value : String) : SqlReturn × ParseState :=
  let p := { p with
    supplied := p.supplied.insert key
    duplicate := p.duplicate || p.supplied.elem key
    unexpected := p.unexpected || !besideCupola key value }
  if key = "cupolaconnection" then (.success, { p with connect := p.connect.give key value })
  else
    let (ret, c) := findKeyValPair e p.connect (key.toList ++ '=' :: value.toList)
    let (_, c) := c.setSuccessWithInfo ret
    (ret, { p with connect := c })

theorem length_dropWhile_le (p : Char → Bool) (s : List Char) : (s.dropWhile p).length ≤ s.length :=
  (List.dropWhile_sublist p).length_le

theorem length_bracedValue_le (s : List Char) : (bracedValue s).2.2.length ≤ s.length := by
  fun_induction bracedValue s <;> simp_all
  all_goals omega

/-- Behind a value there is less text than before. -/
theorem length_le_of_parseValue {s value rest : List Char} (h : parseValue s = some (value, rest)) :
    rest.length ≤ s.length := by
  have hs := length_dropWhile_le isSpace s
  unfold parseValue at h
  split at h
  · next text heq =>
    rw [heq] at hs
    simp only at h
    split at h
    · cases h
    · cases h
      simp only [List.length_cons] at hs
      calc _ ≤ (bracedValue text).2.2.length := length_dropWhile_le _ _
        _ ≤ text.length := length_bracedValue_le text
        _ ≤ s.length := by omega
  · cases h
    have hd := length_dropWhile_le (· != ';') (s.dropWhile isSpace)
    omega

/-- The loop over the entries of the connection string. -/
def parseLoop (e : EngineNames) (p : ParseState) (input : List Char) : SqlReturn × ParseState :=
  match _hsep : input.dropWhile isSeparator with
  | [] => (.success, p)
  | ch :: text =>
    match _heq : (ch :: text).dropWhile (· != '=') with
    | [] =>
      let (ret, c) := p.connect.setDiagnosticRecord .error "Invalid ODBC connection string" .stHY000
      (ret, { p with connect := c })
    | _ :: after =>
      match _hval : parseValue after with
      | none =>
        let (ret, c) := p.connect.setDiagnosticRecord .error "Invalid ODBC braced value" .stHY000
        (ret, { p with connect := c })
      | some (value, rest) =>
        let key := lower (trimString ((ch :: text).takeWhile (· != '=')))
        let (ret, p) := parseEntry e p (String.ofList key) (String.ofList value)
        if !ret.succeeded then (ret, p) else parseLoop e p rest
  termination_by input.length
  decreasing_by
    have h1 := length_dropWhile_le isSeparator input
    have h2 := length_dropWhile_le (· != '=') (ch :: text)
    have h3 := length_le_of_parseValue _hval
    rw [_hsep] at h1
    rw [_heq] at h2
    simp only [List.length_cons] at h1 h2
    omega

/-- `ParseInputStr`. -/
def parseInputStr (e : EngineNames) (c : Connect) (inputStr : List Char) : SqlReturn × Connect :=
  let (ret, p) := parseLoop e ⟨c, [], false, false⟩ inputStr
  let c := p.connect
  if !ret.succeeded then (ret, c)
  else if "cupolaconnection" ∈ c.seen ∧ (p.duplicate ∨ p.unexpected) then
    c.setDiagnosticRecord .error
      ("CupolaConnection cannot be combined with a DSN, database, credentials, duplicate " ++
        "keys, or other connection options.") .stHY000
  else
    -- extract the DSN from the config map as it is needed to read from the .odbc.ini file
    let c := { c with dsn := c.getOptionFromConfigMap "dsn" "" }
    (if c.successWithInfo then .successWithInfo else .success, c)

/-! ## The options that were given -/

/-- A key is added to those that are there. -/
theorem mem_insertKey {k key : String} : ∀ {ks : List String},
    k ∈ insertKey key ks ↔ k = key ∨ k ∈ ks
  | [] => by simp [insertKey]
  | k' :: ks => by
    unfold insertKey
    split_ifs with hlt heq
    · simp
    · subst heq
      simp
    · rw [List.mem_cons, mem_insertKey, List.mem_cons]
      tauto

theorem mem_foldl_insertKey {k : String} (names : List String) (ks : List String) :
    k ∈ names.foldl (fun ks k => insertKey k ks) ks ↔ k ∈ names ∨ k ∈ ks := by
  induction names generalizing ks with
  | nil => simp
  | cons name names ih =>
    rw [List.foldl_cons, ih, mem_insertKey, List.mem_cons]
    tauto

/-- What holds of the options while they are collected : the keys are in lower case, and those
noted as given are the keys of the map, each there once. -/
structure Sound (c : Connect) : Prop where
  lower : ∀ k ∈ c.options, lower k.toList = k.toList
  ofLocal : ∀ k ∈ localOptions, k ∈ c.options
  nodup : (c.configMap.map Prod.fst).Nodup
  seen : ∀ k, k ∈ c.seen ↔ k ∈ c.configMap.map Prod.fst
  known : ∀ k ∈ c.seen, k ∈ c.options

/-- A new connection is in order. -/
theorem sound_new (e : EngineNames) (dsn : String) (diags : List DiagRecord) :
    (new e dsn diags).Sound where
  lower k hk := by
    simp only [new, mem_foldl_insertKey, List.mem_append, List.not_mem_nil, or_false] at hk
    rcases hk with hk | hk
    · exact e.lower_optionNames k hk
    · simp only [localOptions, sqlFileOption, sqlFileSha256Option, List.mem_cons, List.not_mem_nil,
        or_false] at hk
      rcases hk with rfl | rfl | rfl | rfl | rfl <;> decide
  ofLocal k hk := by
    simp only [new, mem_foldl_insertKey, List.mem_append]
    exact .inl (.inr hk)
  nodup := by simp [new]
  seen k := by simp [new]
  known k hk := by simp [new] at hk

namespace Sound

variable {c : Connect}

/-- A key of the map is the key of an option only if it is the same. -/
theorem sameKey_iff (h : c.Sound) {k key : String} (hk : k ∈ c.configMap.map Prod.fst)
    (hkey : HaybarnOdbc.lower key.toList = key.toList) : ConfigMap.sameKey k key = true ↔ k = key :=
  ConfigMap.sameKey_iff (h.lower k (h.known k ((h.seen k).2 hk))) hkey

/-- A key that was not given yet is new to the map. -/
theorem not_sameKey (h : c.Sound) {key : String} (hkey : key ∈ c.options) (hnew : key ∉ c.seen) :
    ∀ x ∈ c.configMap, ConfigMap.sameKey x.1 key = false := by
  intro x hx
  rw [Bool.eq_false_iff]
  intro hsame
  have hmem : x.1 ∈ c.configMap.map Prod.fst := List.mem_map_of_mem hx
  rw [h.sameKey_iff hmem (h.lower key hkey)] at hsame
  exact hnew ((h.seen key).2 (hsame ▸ hmem))

/-- An option that is given first is added to the map. -/
theorem configMap_give_new (h : c.Sound) {key : String} (hkey : key ∈ c.options)
    (hnew : key ∉ c.seen) (val : String) :
    (c.give key val).configMap = c.configMap ++ [(key, val)] :=
  ConfigMap.set_of_new (h.not_sameKey hkey hnew) val

/-- The options stay sound when one that is known is given. -/
theorem give (h : c.Sound) {key : String} (hkey : key ∈ c.options) (val : String) :
    (c.give key val).Sound := by
  by_cases hold : key ∈ c.seen
  · have hmem := (h.seen key).1 hold
    obtain ⟨x, hx, rfl⟩ := List.mem_map.1 hmem
    have hkeys : (c.give x.1 val).configMap.map Prod.fst = c.configMap.map Prod.fst :=
      ConfigMap.keys_set_of_old hx ((h.sameKey_iff hmem (h.lower _ hkey)).2 rfl) val
    have hseen : (c.give x.1 val).seen = c.seen := List.insert_of_mem hold
    exact ⟨h.lower, h.ofLocal, hkeys ▸ h.nodup, fun k => by rw [hseen, hkeys, h.seen],
      fun k hk => h.known k (hseen ▸ hk)⟩
  · have hmap := h.configMap_give_new hkey hold val
    have hnot : key ∉ c.configMap.map Prod.fst := fun hmem => hold ((h.seen key).2 hmem)
    refine ⟨h.lower, h.ofLocal, ?_, fun k => ?_, fun k hk => ?_⟩
    · rw [hmap, List.map_append]
      refine List.nodup_append.2 ⟨h.nodup, by simp, ?_⟩
      rintro k hk k' hk' rfl
      rw [List.map_singleton, List.mem_singleton] at hk'
      rw [hk'] at hk
      exact hnot hk
    · rw [hmap, List.map_append, List.mem_append, ← h.seen]
      simp [Connect.give, or_comm]
    · rcases List.mem_insert_iff.1 hk with rfl | hk
      · exact hkey
      · exact h.known k hk

/-- The map finds the value that its entry of the key has. -/
theorem find_eq_some_iff (h : c.Sound) {key : String}
    (hkey : HaybarnOdbc.lower key.toList = key.toList) (val : String) :
    c.configMap.find key = some val ↔ (key, val) ∈ c.configMap := by
  constructor
  · intro hfind
    obtain ⟨x, hx, rfl⟩ := Option.map_eq_some_iff.1 hfind
    have hmem := List.mem_of_find?_eq_some hx
    have hsame := List.find?_some hx
    rw [h.sameKey_iff (List.mem_map_of_mem hmem) hkey] at hsame
    exact hsame ▸ hmem
  · intro hmem
    have hsome : (c.configMap.find? fun x => ConfigMap.sameKey x.1 key).isSome := by
      rw [List.find?_isSome]
      exact ⟨_, hmem, (h.sameKey_iff (List.mem_map_of_mem hmem) hkey).2 rfl⟩
    obtain ⟨x, hx⟩ := Option.isSome_iff_exists.1 hsome
    have hxmem := List.mem_of_find?_eq_some hx
    have hsame := List.find?_some hx
    rw [h.sameKey_iff (List.mem_map_of_mem hxmem) hkey] at hsame
    have heq : x = (key, val) := List.inj_on_of_nodup_map h.nodup hxmem hmem hsame
    rw [ConfigMap.find, hx, heq]
    rfl

/-- `GetOptionFromConfigMap` returns its default if the option has no other value. -/
theorem getOption_eq_default_iff (h : c.Sound) {key : String}
    (hkey : HaybarnOdbc.lower key.toList = key.toList) (defaultVal : String) :
    c.getOptionFromConfigMap key defaultVal = defaultVal ↔
      ∀ val, (key, val) ∈ c.configMap → val = defaultVal := by
  unfold getOptionFromConfigMap
  by_cases hseen : key ∈ c.seen
  · obtain ⟨⟨_, v⟩, hv, rfl⟩ := List.mem_map.1 ((h.seen key).1 hseen)
    have hfind := (h.find_eq_some_iff hkey v).2 hv
    rw [if_neg (not_not.2 hseen), hfind]
    refine ⟨fun heq val hval => ?_, fun hall => hall v hv⟩
    rw [← h.find_eq_some_iff hkey, hfind] at hval
    cases hval
    exact heq
  · have hnot : ∀ val, (key, val) ∉ c.configMap :=
      fun val hmem => hseen ((h.seen key).2 (List.mem_map_of_mem hmem))
    simp [hseen, hnot]

/-- An option with another value than the default was given. -/
theorem seen_of_getOption_ne {key defaultVal : String}
    (hne : c.getOptionFromConfigMap key defaultVal ≠ defaultVal) : key ∈ c.seen := by
  by_contra hseen
  exact hne (if_pos hseen)

end Sound

/-! ## The parser keeps them sound -/

variable (e : EngineNames)

/-- A record changes nothing of it. -/
theorem sound_setDiagnosticRecord {c : Connect} (h : c.Sound) (ret : SqlReturn) (message : String)
    (st : SqlState) : (c.setDiagnosticRecord ret message st).2.Sound :=
  ⟨h.lower, h.ofLocal, h.nodup, h.seen, h.known⟩

/-- An entry posts a record, or gives an option that is known. -/
theorem findKeyValPair_cases (c : Connect) (row : List Char) :
    (∃ diags, (findKeyValPair e c row).2 = { c with diags := diags }) ∨
      ∃ key ∈ c.options, ∃ val, (findKeyValPair e c row).2 = c.give key val := by
  unfold findKeyValPair
  split
  · exact .inl ⟨_, rfl⟩
  · next valSpaces _ =>
    generalize String.ofList (trimString (lower (row.takeWhile (· != '=')))) = key
    by_cases hkey : key ∈ c.options
    · have hmatch : findMatchingKey e c key = (.success, c) := if_pos hkey
      simp only [hmatch]
      split_ifs
      · exact .inl ⟨_, rfl⟩
      · exact .inl ⟨_, rfl⟩
      · exact .inl ⟨_, rfl⟩
      · exact .inr ⟨key, hkey, _, rfl⟩
    · have hmatch : findMatchingKey e c key = _ := if_neg hkey
      simp only [hmatch, setDiagnosticRecord]
      split_ifs with hignore hret <;> first | exact .inl ⟨_, rfl⟩ | exact absurd hret (by simp)

/-- A pair that is looked up keeps it. -/
theorem sound_findKeyValPair {c : Connect} (h : c.Sound) (row : List Char) :
    (findKeyValPair e c row).2.Sound := by
  obtain ⟨diags, heq⟩ | ⟨key, hkey, val, heq⟩ := findKeyValPair_cases e c row
  · rw [heq]
    exact ⟨h.lower, h.ofLocal, h.nodup, h.seen, h.known⟩
  · rw [heq]
    exact h.give hkey val

theorem sound_setSuccessWithInfo {c : Connect} (h : c.Sound) (ret : SqlReturn) :
    (c.setSuccessWithInfo ret).2.Sound := by
  unfold setSuccessWithInfo
  split_ifs
  · exact h
  · exact ⟨h.lower, h.ofLocal, h.nodup, h.seen, h.known⟩
  · exact h

/-- An entry keeps it. -/
theorem sound_parseEntry {p : ParseState} (h : p.connect.Sound) (key value : String) :
    (parseEntry e p key value).2.connect.Sound := by
  unfold parseEntry
  split_ifs with hkey
  · subst hkey
    exact h.give (h.ofLocal _ (by simp [localOptions])) value
  · exact sound_setSuccessWithInfo (sound_findKeyValPair e h _) _

/-- The loop over the entries keeps it. -/
theorem sound_parseLoop (p : ParseState) (input : List Char) :
    p.connect.Sound → (parseLoop e p input).2.connect.Sound := by
  fun_induction parseLoop e p input with
  | case1 => exact id
  | case2 p input ch text hsep heq ret c hdiag =>
    intro h
    have hsound := sound_setDiagnosticRecord h .error "Invalid ODBC connection string" .stHY000
    rw [hdiag] at hsound
    exact hsound
  | case3 p input ch text hsep eq after heq hval ret c hdiag =>
    intro h
    have hsound := sound_setDiagnosticRecord h .error "Invalid ODBC braced value" .stHY000
    rw [hdiag] at hsound
    exact hsound
  | case4 p input ch text hsep eq after heq value rest hval key ret p' hentry hret =>
    intro h
    have hsound := sound_parseEntry e h (String.ofList key) (String.ofList value)
    rw [hentry] at hsound
    exact hsound
  | case5 p input ch text hsep eq after heq value rest hval key ret p' hentry hret ih =>
    intro h
    have hsound := sound_parseEntry e h (String.ofList key) (String.ofList value)
    rw [hentry] at hsound
    exact ih hsound

/-- `ParseInputStr` leaves the options sound. -/
theorem sound_parseInputStr {c : Connect} (h : c.Sound) (inputStr : List Char) :
    (parseInputStr e c inputStr).2.Sound := by
  have hloop := sound_parseLoop e ⟨c, [], false, false⟩ inputStr h
  simp only [parseInputStr]
  split_ifs
  · exact hloop
  · exact sound_setDiagnosticRecord hloop _ _ _
  all_goals exact ⟨hloop.lower, hloop.ofLocal, hloop.nodup, hloop.seen, hloop.known⟩

end Connect

end HaybarnOdbc
