import Mathlib.Data.Char
import Mathlib.Data.List.Lex
import Mathlib.Data.List.TakeWhile
import HaybarnOdbc.Lib.Outcome
import HaybarnOdbc.Lib.SqlLex
import HaybarnOdbc.OdbcUtils

/-!
# The statements of a Cupola connection

`AttachCupolaConnection` looks up an entry of the connection store and runs `LOAD`, `ATTACH`,
`USE` and `CREATE MACRO` statements with the fields of the entry, its attach options and the
token of its OAuth session. What the store holds and what Windows answers are parameters, and
so is the writer of JSON.

Every field is one token of its statement, but for the name of an attach option, which is read
as a C string : a name with a NUL in it is cut there (`attach_tokens_iff`). What the options
may be called is checked after that, so none of them is a second `TYPE`, `LOCATION` or
credential.
-/

namespace HaybarnOdbc.Cupola

open SqlLex Outcome

variable {N : Type}

/-! ## The store -/

/-- A value of an attach option, with numbers of a type of their own; `other` is an array or an
object. -/
inductive JsonVal (N : Type)
  | str (s : List Char)
  | num (n : N)
  | bool (b : Bool)
  | null
  | other

/-- `AttachOptions` of an entry. -/
inductive AttachOptions (N : Type)
  | absent
  | null
  | object (entries : List (List Char × JsonVal N))
  | other

/-- An entry of the registry : its string fields and the attach options. -/
structure Row (N : Type) where
  str : String → Option (List Char)
  attachOptions : AttachOptions N

/-- The document of an OAuth session : its string fields and `UseIdToken`. -/
structure Session where
  str : String → Option (List Char)
  useIdToken : Bool

/-- What is not looked at. An error is the message of an exception. -/
structure Store (N : Type) where
  /-- The registry, if it is an array. -/
  registry : Except String (Option (List (Row N)))
  /-- `CompareStringOrdinal` of two names, ignoring case. -/
  sameName : List Char → List Char → Except String Bool
  oauthKey : List Char → Except String (List Char)
  /-- The session of a key, decrypted. -/
  session : List Char → Except String Session
  /-- The time in UTC. -/
  stamp : List Char
  /-- `yyjson_val_write`. -/
  valWrite : JsonVal N → Option (List Char)
  objWrite : List (List Char × JsonVal N) → Option (List Char)
  /-- The path of the extension beside the driver. -/
  extension : Except String (List Char)
  fileExists : List Char → Bool
  /-- `Query` of the connection has no error. -/
  query : List Char → Bool

/-! ## Texts -/

/-- The loop of `Quote`. -/
def quoteChars (mark : Mark) : List Char → Except String (List Char)
  | [] => .ok []
  | ch :: s =>
    if ch = '\x00' then .error "Cupola fields must not contain NUL."
    else do
      let v ← quoteChars mark s
      .ok (if ch = mark.char then ch :: ch :: v else ch :: v)

/-- `Quote`. -/
def quote (mark : Mark) (s : List Char) : Except String (List Char) := do
  let v ← quoteChars mark s
  .ok (mark.char :: (v ++ [mark.char]))

/-- `Field`. -/
def Row.field (r : Row N) (key : String) : Except String (List Char) :=
  match r.str key with
  | some s => .ok s
  | none => .error "Cupola connection fields are invalid."

/-- `Optional`. -/
def Session.optional (o : Session) (key : String) : List Char := (o.str key).getD []

/-- What `yyjson_get_str` gives as a C string. -/
def cString (s : List Char) : List Char := s.takeWhile (· ≠ '\x00')

/-- The regular expression for the name of an attach option. -/
def isOptionName : List Char → Bool
  | [] => false
  | ch :: s => (ch.isAlpha || ch == '_') && s.all fun ch => ch.isAlphanum || ch == '_'

/-- The names of credentials. -/
def credentialNames : List (List Char) :=
  ["access_token", "api_key", "authorization", "bearer_token", "client_secret", "id_token",
    "oauth_refresh_token", "password", "refresh_token", "secret"].map String.toList

/-- The options that the driver writes itself : none may come from the JSON. -/
def forbidden : List (List Char) := "type".toList :: "location".toList :: credentialNames

namespace Store

variable (s : Store N)

/-- `Dump`. -/
def dump (v : JsonVal N) : Except String (List Char) :=
  match s.valWrite v with
  | some text => .ok text
  | none => .error "Invalid Cupola option."

/-- The token that `Credential` gives, with the name of its option. -/
def usableToken (key : List Char) : Except String (List Char × List Char) := do
  let tokens ← s.session key
  let refresh := tokens.optional "refresh_token"
  if refresh ≠ [] then .ok ("oauth_refresh_token".toList, refresh)
  else
    let expiry := tokens.optional "ExpiresAtUtc"
    if expiry.length < 19 ∨ expiry.take 19 ≤ s.stamp then
      .error "Cupola OAuth session has expired. Sign in again in Cupola."
    else
      let token := tokens.optional (if tokens.useIdToken then "id_token" else "access_token")
      if token = [] then
        .error "Cupola OAuth session has no usable credential. Sign in again in Cupola."
      else .ok ("bearer_token".toList, token)

/-- `Credential`. -/
def credential (key : List Char) : Except String (List Char) := do
  let (name, token) ← s.usableToken key
  let quoted ← quote .single token
  .ok (name ++ (' ' :: quoted))

/-- The value of an attach option. -/
def optionValue : JsonVal N → Except String (List Char)
  | .str text => quote .single text
  | .other => .error "Cupola ATTACH options must be scalar values."
  | v => s.dump v

/-- A turn of the loop over the attach options. -/
def optionText (entry : List Char × JsonVal N) : Except String (List Char) :=
  let key := cString entry.1
  if isOptionName key = false ∨ lower key ∈ forbidden then
    .error "Cupola ATTACH options contain an invalid or reserved name."
  else do
    let value ← s.optionValue entry.2
    .ok (", ".toList ++ (key ++ (' ' :: value)))

/-- The loop. -/
def optionTexts : List (List Char × JsonVal N) → Except String (List Char)
  | [] => .ok []
  | entry :: entries => do
    let text ← s.optionText entry
    let texts ← optionTexts entries
    .ok (text ++ texts)

/-! ## The entry -/

/-- The loop over the registry, with the entry selected so far. -/
def select (wanted : List Char) : Option (Row N) → List (Row N) → Except String (Option (Row N))
  | selected, [] => .ok selected
  | selected, row :: rows => do
    let candidate ← row.field "Name"
    if ← s.sameName candidate wanted then
      if selected.isSome then .error "Cupola connection name is ambiguous."
      else select wanted (some row) rows
    else select wanted selected rows

end Store

/-- The fields of the selected entry, with the key of its OAuth session. -/
structure Entry (N : Type) where
  name : List Char
  catalog : List Char
  location : List Char
  auth : List Char
  oauthKey : List Char
  /-- The attach options, if they are an object. -/
  options : Option (List (List Char × JsonVal N))

namespace Store

variable (s : Store N)

/-- The entry that is asked for, with all checks of its fields. -/
def readEntry (requested : List Char) : Except String (Entry N) := do
  match ← s.registry with
  | none => .error "A valid Cupola connection name is required."
  | some rows =>
    if requested = [] then .error "A valid Cupola connection name is required."
    else
      match ← s.select requested none rows with
      | none =>
        .error "The named Cupola connection does not exist. Select an existing connection in Cupola."
      | some selected =>
        let name ← selected.field "Name"
        let catalog ← selected.field "Catalog"
        let location ← selected.field "Location"
        let auth ← selected.field "Authentication"
        if catalog = [] then .error "Cupola catalog alias is missing."
        else
          let oauthKey ← s.oauthKey location
          if auth ≠ "anonymous".toList ∧ auth ≠ "oauth".toList then
            .error "Cupola authentication mode is invalid."
          else
            match selected.attachOptions with
            | .other => .error "Cupola ATTACH options must be an object."
            | .object entries => .ok ⟨name, catalog, location, auth, oauthKey, some entries⟩
            | _ => .ok ⟨name, catalog, location, auth, oauthKey, none⟩

/-! ## The statements -/

/-- The credential among the options, if the entry uses one. -/
def credentialOption (e : Entry N) : Except String (List Char) :=
  if e.auth = "oauth".toList then (", ".toList ++ ·) <$> s.credential e.oauthKey else .ok []

/-- `attach`. -/
def attachText (e : Entry N) : Except String (List Char) := do
  let catalog ← quote .single e.catalog
  let identifier ← quote .double e.catalog
  let location ← quote .single e.location
  let credential ← s.credentialOption e
  let options ← s.optionTexts (e.options.getD [])
  .ok ("ATTACH ".toList ++ (catalog ++ (" AS ".toList ++ (identifier ++
    (" (TYPE vgi, LOCATION ".toList ++ (location ++ (credential ++ (options ++ ")".toList))))))))

/-- `option_json`. -/
def optionJson (e : Entry N) : Except String (List Char) :=
  match e.options with
  | none => .ok "\x7b\x7d".toList
  | some entries =>
    match s.objWrite entries with
    | some text => .ok text
    | none => .error "Invalid Cupola option."

/-- The `CREATE TEMP MACRO` statement. -/
def macroText (e : Entry N) : Except String (List Char) := do
  let optionJson ← s.optionJson e
  let name ← quote .single e.name
  let catalog ← quote .single e.catalog
  let location ← quote .single e.location
  let auth ← quote .single e.auth
  let options ← quote .single optionJson
  .ok ("CREATE TEMP MACRO cupola_connection_info() AS TABLE SELECT 1 AS contract_version, ".toList ++
    (name ++ (" AS connection_name, ".toList ++ (catalog ++ (" AS catalog_alias, ".toList ++
    (location ++ (" AS location, ".toList ++ (auth ++ (" AS authentication, ".toList ++
    (options ++ " AS attach_options".toList))))))))))

/-- The texts that were run, and how it ended. -/
abbrev Runs := List (List Char) × Except String Unit

/-- `Run` of a text that is built before it. -/
def run (text : Except String (List Char)) (error : String) : Runs :=
  match text with
  | .error e => ([], .error e)
  | .ok sql => ([sql], if s.query sql then .ok () else .error error)

/-- What comes after runs that succeed. -/
def Runs.andThen (r next : Runs) : Runs :=
  match r.2 with
  | .ok () => (r.1 ++ next.1, next.2)
  | .error _ => r

/-- The extension is loaded from beside the driver, or installed. -/
def load (extension : List Char) : Runs :=
  if s.fileExists extension then
    s.run ((("LOAD ".toList ++ ·)) <$> quote .single extension)
      "Cupola VGI extension could not be loaded."
  else
    (s.run (.ok "INSTALL vgi FROM community".toList)
      "Cupola VGI extension could not be installed.").andThen
      (s.run (.ok "LOAD vgi".toList) "Cupola VGI extension could not be loaded.")

/-- `AttachCupolaConnection`. -/
def attachCupolaConnection (requested : List Char) : Runs :=
  match s.readEntry requested with
  | .error e => ([], .error e)
  | .ok e =>
    match s.attachText e with
    | .error e => ([], .error e)
    | .ok attach =>
      match s.extension with
      | .error e => ([], .error e)
      | .ok extension =>
        (s.load extension).andThen
          ((s.run (.ok attach)
            ("Cupola could not attach the HTTPS catalog. Check the connection " ++
            "and sign-in in Cupola.")).andThen
          ((s.run ((("USE ".toList ++ ·)) <$> quote .double e.catalog)
            "Cupola could not select its attached catalog.").andThen
          (s.run (s.macroText e) "Cupola connection identity could not be initialized.")))

end Store

/-! ## The tokens of the statements -/

/-- What a call puts into its statements. -/
structure Accepted (N : Type) where
  entry : Entry N
  /-- The name of the option of the credential, and the token. -/
  credential : Option (List Char × List Char)
  /-- The extension beside the driver, if it is there. -/
  extension : Option (List Char)
  optionJson : List Char

/-- What the call finds in the store. -/
structure Store.Accepts (s : Store N) (requested : List Char) (a : Accepted N) : Prop where
  entry : s.readEntry requested = .ok a.entry
  credential : if a.entry.auth = "oauth".toList then
      ∃ token, s.usableToken a.entry.oauthKey = .ok token ∧ a.credential = some token
    else a.credential = none
  extension : ∃ path, s.extension = .ok path ∧
    a.extension = if s.fileExists path then some path else none
  optionJson : s.optionJson a.entry = .ok a.optionJson

/-- The token of an option value. -/
def Store.valueToken (s : Store N) : JsonVal N → Token
  | .str text => .literal text
  | v => .word ((s.valWrite v).getD [])

/-- The token of a word of the statement. -/
def keyword (text : String) : Token := .word text.toList

/-- The statement in front of the attach options. -/
def attachHead (catalog location : List Char) (credential : Option (List Char × List Char)) :
    List Token :=
  [keyword "ATTACH", .literal catalog, keyword "AS", .identifier catalog, .symbol '(',
    keyword "TYPE", keyword "vgi", .symbol ',', keyword "LOCATION", .literal location] ++
    match credential with
    | none => []
    | some (name, token) => [.symbol ',', .word name, .literal token]

/-- An attach option by its name and the token of its value. -/
def optionTokens (option : List Char × Token) : List Token :=
  [.symbol ',', .word option.1, option.2]

/-- The statements, by their fields and the names of the attach options. -/
def Accepted.statements (a : Accepted N) (options : List (List Char × Token)) : List (List Token) :=
  (match a.extension with
    | some path => [[keyword "LOAD", .literal path]]
    | none => [[keyword "INSTALL", keyword "vgi", keyword "FROM", keyword "community"],
        [keyword "LOAD", keyword "vgi"]]) ++
  [attachHead a.entry.catalog a.entry.location a.credential ++
      (options.flatMap optionTokens ++ [.symbol ')']),
    [keyword "USE", .identifier a.entry.catalog],
    [keyword "CREATE", keyword "TEMP", keyword "MACRO", keyword "cupola_connection_info",
      .symbol '(', .symbol ')', keyword "AS", keyword "TABLE", keyword "SELECT", keyword "1",
      keyword "AS", keyword "contract_version", .symbol ',',
      .literal a.entry.name, keyword "AS", keyword "connection_name", .symbol ',',
      .literal a.entry.catalog, keyword "AS", keyword "catalog_alias", .symbol ',',
      .literal a.entry.location, keyword "AS", keyword "location", .symbol ',',
      .literal a.entry.auth, keyword "AS", keyword "authentication", .symbol ',',
      .literal a.optionJson, keyword "AS", keyword "attach_options"]]

/-- The names in a list of options : the words behind a bracket or a comma. -/
def optionNames : List Token → List (List Char)
  | .symbol ch :: .word name :: tokens =>
    if ch = '(' ∨ ch = ',' then name :: optionNames tokens else optionNames tokens
  | _ :: tokens => optionNames tokens
  | [] => []

/-- How many options have one of the names, in any case. -/
def countNames (names : List (List Char)) (tokens : List Token) : ℕ :=
  (optionNames tokens).countP fun name => lower name ∈ names

/-- One `TYPE`, one `LOCATION` and at most one credential. -/
structure OneEach (tokens : List Token) : Prop where
  type : countNames ["type".toList] tokens = 1
  location : countNames ["location".toList] tokens = 1
  credential : countNames credentialNames tokens ≤ 1

/-! ## Quoting -/

/-- Doubling the marks fails only at a NUL. -/
theorem quoteChars_eq_ok_iff {mark : Mark} {s v : List Char} :
    quoteChars mark s = .ok v ↔ '\x00' ∉ s ∧ v = doubled mark s := by
  induction s generalizing v with
  | nil => simp [quoteChars, doubled, eq_comm]
  | cons ch s ih =>
    unfold quoteChars doubled
    by_cases hnul : ch = '\x00'
    · rw [if_pos hnul]
      exact iff_of_false (fun h => by cases h) fun h => h.1 (hnul ▸ List.mem_cons_self)
    · rw [if_neg hnul, bind_eq_ok]
      constructor
      · rintro ⟨v', hv', hv⟩
        obtain ⟨hs, rfl⟩ := ih.1 hv'
        exact ⟨by simp [Ne.symm hnul, hs], (Except.ok.inj hv).symm⟩
      · rintro ⟨hs, rfl⟩
        exact ⟨_, ih.2 ⟨fun h => hs (List.mem_cons_of_mem _ h), rfl⟩, rfl⟩

/-- So does quoting. -/
theorem quote_eq_ok_iff {mark : Mark} {s text : List Char} :
    quote mark s = .ok text ↔ '\x00' ∉ s ∧ text = SqlLex.quote mark s := by
  unfold quote
  rw [bind_eq_ok]
  constructor
  · rintro ⟨v, hv, htext⟩
    obtain ⟨hs, rfl⟩ := quoteChars_eq_ok_iff.1 hv
    exact ⟨hs, (Except.ok.inj htext).symm⟩
  · rintro ⟨hs, rfl⟩
    exact ⟨_, quoteChars_eq_ok_iff.2 ⟨hs, rfl⟩, rfl⟩

/-- A field in quotes is one token. -/
theorem whole_of_quote {mark : Mark} {s text : List Char} (h : quote mark s = .ok text) :
    Whole text [mark.token s] := by
  obtain ⟨-, rfl⟩ := quote_eq_ok_iff.1 h
  exact whole_quote mark s

/-! ## The attach options -/

namespace Store

variable {s : Store N}

/-- The writer of JSON prints numbers, booleans and `null` as single tokens. -/
def PrintsTokens (s : Store N) : Prop :=
  ∀ v text, (∀ t, v ≠ .str t) → v ≠ .other → s.valWrite v = some text → Whole text [.word text]

/-- The value of an option is one token. -/
theorem whole_optionValue (hprint : s.PrintsTokens) {v : JsonVal N} {text : List Char}
    (h : s.optionValue v = .ok text) : Whole text [s.valueToken v] := by
  have hdump : ∀ {v : JsonVal N}, (∀ t, v ≠ .str t) → v ≠ .other → s.dump v = .ok text →
      Whole text [.word ((s.valWrite v).getD [])] := by
    intro v hstr hother h
    unfold dump at h
    split at h
    · next text' hwrite =>
      obtain rfl := Except.ok.inj h
      rw [hwrite]
      exact hprint v text' hstr hother hwrite
    · cases h
  cases v with
  | str t => exact whole_of_quote h
  | num n => exact hdump nofun nofun h
  | bool b => exact hdump nofun nofun h
  | null => exact hdump nofun nofun h
  | other => cases h

/-- The options with their names as the code reads them, or as they are. -/
def options (s : Store N) (name : List Char → List Char) (entries : List (List Char × JsonVal N)) :
    List (List Char × Token) :=
  entries.map fun entry => (name entry.1, s.valueToken entry.2)

/-- The name of an option is a word. -/
theorem wordChars_of_isOptionName {key : List Char} (h : isOptionName key = true) :
    key ≠ [] ∧ ∀ ch ∈ key, isWordChar ch = true := by
  have halnum : ∀ {ch : Char}, (ch.isAlphanum || ch == '_') = true → isWordChar ch = true := by
    intro ch hch
    rw [isWordChar, hch]
    rfl
  cases key with
  | nil => cases h
  | cons ch key =>
    rw [isOptionName, Bool.and_eq_true] at h
    refine ⟨List.cons_ne_nil _ _, fun ch' hmem => ?_⟩
    rcases List.mem_cons.1 hmem with rfl | hmem
    · refine halnum ?_
      rw [Char.isAlphanum, Bool.or_assoc, Bool.or_comm ch'.isDigit, ← Bool.or_assoc, h.1]
      rfl
    · exact halnum (List.all_eq_true.1 h.2 ch' hmem)

/-- What the check of the names lets through. -/
def NamesAllowed (entries : List (List Char × JsonVal N)) : Prop :=
  ∀ entry ∈ entries, lower (cString entry.1) ∉ forbidden

/-- The text of the options in front of the end of the statement. -/
theorem follows_optionTexts (hprint : s.PrintsTokens) {entries : List (List Char × JsonVal N)}
    {texts : List Char} (h : s.optionTexts entries = .ok texts) {tail : List Char}
    {tokens : List Token} (htail : Follows tail tokens) :
    Follows (texts ++ tail) ((s.options cString entries).flatMap optionTokens ++ tokens) ∧
      NamesAllowed entries := by
  induction entries generalizing texts with
  | nil =>
    obtain rfl := Except.ok.inj h
    exact ⟨htail, nofun⟩
  | cons entry entries ih =>
    unfold optionTexts at h
    obtain ⟨text, htext, h⟩ := bind_eq_ok.1 h
    obtain ⟨rest, hrest, h⟩ := bind_eq_ok.1 h
    obtain rfl := Except.ok.inj h
    obtain ⟨hfollows, hnames⟩ := ih hrest
    unfold optionText at htext
    dsimp only at htext
    split at htext
    · cases htext
    · next hallowed =>
      obtain ⟨value, hvalue, htext⟩ := bind_eq_ok.1 htext
      obtain rfl := Except.ok.inj htext
      rw [not_or, Bool.not_eq_false] at hallowed
      obtain ⟨hne, hword⟩ := wordChars_of_isOptionName hallowed.1
      have hcomma : Reads ", ".toList [.symbol ','] := by decide
      have hblank : Reads " ".toList [] := by decide
      have hbehind := (whole_optionValue hprint hvalue).append_follows hfollows
      have hkey := (whole_word hne hword).append_follows (hblank.append_follows rfl hbehind)
      have hall := hcomma.append_follows rfl hkey
      refine ⟨?_, ?_⟩
      · simpa [options, optionTokens] using hall
      · intro entry' hmem
        rcases List.mem_cons.1 hmem with rfl | hmem
        · exact hallowed.2
        · exact hnames entry' hmem

/-! ## The statements one by one -/

/-- The names of the options that `Credential` gives. -/
theorem name_of_usableToken {key : List Char} {token : List Char × List Char}
    (h : s.usableToken key = .ok token) :
    token.1 = "oauth_refresh_token".toList ∨ token.1 = "bearer_token".toList := by
  unfold usableToken at h
  obtain ⟨tokens, -, h⟩ := bind_eq_ok.1 h
  dsimp only at h
  generalize tokens.optional
    (if tokens.useIdToken then "id_token" else "access_token") = token' at h
  split at h
  · exact .inl (congrArg Prod.fst (Except.ok.inj h)).symm
  · split at h
    · cases h
    · split at h
      · cases h
      · exact .inr (congrArg Prod.fst (Except.ok.inj h)).symm

/-- A credential is an option of its own. -/
theorem follows_credential {key credential : List Char} (h : s.credential key = .ok credential)
    {tail : List Char} {tokens : List Token} (htail : Follows tail tokens) :
    ∃ token, s.usableToken key = .ok token ∧
      Follows (", ".toList ++ credential ++ tail)
        ([.symbol ',', .word token.1, .literal token.2] ++ tokens) := by
  unfold Store.credential at h
  obtain ⟨token, htoken, h⟩ := bind_eq_ok.1 h
  obtain ⟨quoted, hquoted, h⟩ := bind_eq_ok.1 h
  obtain rfl := Except.ok.inj h
  have hname : Whole token.1 [.word token.1] := by
    rcases name_of_usableToken htoken with hname | hname
    · rw [hname]
      exact whole_word (by decide) (List.all_eq_true.1 rfl)
    · rw [hname]
      exact whole_word (by decide) (List.all_eq_true.1 rfl)
  have hcomma : Reads ", ".toList [.symbol ','] := by decide
  have hblank : Reads " ".toList [] := by decide
  have hbehind := (whole_of_quote hquoted).append_follows htail
  have hall := hcomma.append_follows rfl (hname.append_follows (hblank.append_follows rfl hbehind))
  exact ⟨token, htoken, by simpa [Mark.token] using hall⟩

/-- The `ATTACH` statement, with the names of its options as they are read. -/
theorem whole_attachText (hprint : s.PrintsTokens) {e : Entry N} {text : List Char}
    (h : s.attachText e = .ok text) :
    ∃ credential, (if e.auth = "oauth".toList then
        ∃ token, s.usableToken e.oauthKey = .ok token ∧ credential = some token
      else credential = none) ∧
      NamesAllowed (e.options.getD []) ∧
      Whole text (attachHead e.catalog e.location credential ++
        ((s.options cString (e.options.getD [])).flatMap optionTokens ++ [.symbol ')'])) := by
  unfold attachText at h
  obtain ⟨catalog, hcatalog, h⟩ := bind_eq_ok.1 h
  obtain ⟨identifier, hidentifier, h⟩ := bind_eq_ok.1 h
  obtain ⟨location, hlocation, h⟩ := bind_eq_ok.1 h
  obtain ⟨credential, hcredential, h⟩ := bind_eq_ok.1 h
  obtain ⟨options, hoptions, h⟩ := bind_eq_ok.1 h
  obtain rfl := Except.ok.inj h
  have hclose : Follows ")".toList [.symbol ')'] := ⟨⟨by decide, by decide⟩, by decide⟩
  obtain ⟨htail, hnames⟩ := follows_optionTexts hprint hoptions hclose
  -- the credential in front of the options
  have hmiddle : ∃ token, (if e.auth = "oauth".toList then
        ∃ token', s.usableToken e.oauthKey = .ok token' ∧ token = some token'
      else token = none) ∧
      Follows (credential ++ (options ++ ")".toList))
        ((match token with
          | none => []
          | some (name, token) => [.symbol ',', .word name, .literal token]) ++
          ((s.options cString (e.options.getD [])).flatMap optionTokens ++ [.symbol ')'])) := by
    unfold credentialOption at hcredential
    split at hcredential
    · next hauth =>
      obtain ⟨text, htext, rfl⟩ := map_eq_ok.1 hcredential
      obtain ⟨token, htoken, hfollows⟩ := follows_credential htext htail
      exact ⟨some token, by rw [if_pos hauth]; exact ⟨token, htoken, rfl⟩, hfollows⟩
    · next hauth =>
      obtain rfl := Except.ok.inj hcredential
      exact ⟨none, by rw [if_neg hauth], htail⟩
  obtain ⟨token, htoken, hmiddle⟩ := hmiddle
  have hattach : Reads "ATTACH ".toList [keyword "ATTACH"] := by decide
  have has : Reads " AS ".toList [keyword "AS"] := by decide
  have htype : Reads " (TYPE vgi, LOCATION ".toList [.symbol '(', keyword "TYPE", keyword "vgi",
    .symbol ',', keyword "LOCATION"] := by decide
  have h1 := htype.append_follows rfl ((whole_of_quote hlocation).append_follows hmiddle)
  have h2 := has.append_follows rfl ((whole_of_quote hidentifier).append_follows h1)
  have h3 := hattach.append_whole ((whole_of_quote hcatalog).append_follows h2)
  refine ⟨token, htoken, hnames, ?_⟩
  simpa [attachHead, Mark.token] using h3

/-- The macro is read as it is meant. -/
theorem whole_macroText {e : Entry N} {text : List Char} (h : s.macroText e = .ok text) :
    ∃ json, s.optionJson e = .ok json ∧ Whole text
      [keyword "CREATE", keyword "TEMP", keyword "MACRO", keyword "cupola_connection_info",
        .symbol '(', .symbol ')', keyword "AS", keyword "TABLE", keyword "SELECT", keyword "1",
        keyword "AS", keyword "contract_version", .symbol ',',
        .literal e.name, keyword "AS", keyword "connection_name", .symbol ',',
        .literal e.catalog, keyword "AS", keyword "catalog_alias", .symbol ',',
        .literal e.location, keyword "AS", keyword "location", .symbol ',',
        .literal e.auth, keyword "AS", keyword "authentication", .symbol ',',
        .literal json, keyword "AS", keyword "attach_options"] := by
  unfold macroText at h
  obtain ⟨json, hjson, h⟩ := bind_eq_ok.1 h
  obtain ⟨name, hname, h⟩ := bind_eq_ok.1 h
  obtain ⟨catalog, hcatalog, h⟩ := bind_eq_ok.1 h
  obtain ⟨location, hlocation, h⟩ := bind_eq_ok.1 h
  obtain ⟨auth, hauth, h⟩ := bind_eq_ok.1 h
  obtain ⟨options, hoptions, h⟩ := bind_eq_ok.1 h
  obtain rfl := Except.ok.inj h
  have hcreate : Reads ("CREATE TEMP MACRO cupola_connection_info() AS TABLE SELECT 1 AS " ++
      "contract_version, ").toList
      [keyword "CREATE", keyword "TEMP", keyword "MACRO", keyword "cupola_connection_info",
        .symbol '(', .symbol ')', keyword "AS", keyword "TABLE", keyword "SELECT", keyword "1",
        keyword "AS", keyword "contract_version", .symbol ','] := by decide
  have hcolumn : ∀ text column : List Char,
      Reads text [keyword "AS", .word column, .symbol ','] →
      text.head?.map isSeparator = some true →
      ∀ {field value tail : List Char} {tokens : List Token}, quote .single field = .ok value →
        Whole tail tokens →
        Whole (value ++ (text ++ tail)) (.literal field :: keyword "AS" :: .word column ::
          .symbol ',' :: tokens) := by
    intro text column htext hsep field value tail tokens hvalue htail
    exact (whole_of_quote hvalue).append_follows (htext.append_follows hsep htail)
  have hend : Follows " AS attach_options".toList [keyword "AS", keyword "attach_options"] :=
    ⟨⟨by decide, by decide⟩, by decide⟩
  have h1 := (whole_of_quote hoptions).append_follows hend
  have h2 := hcolumn " AS authentication, ".toList "authentication".toList
    (by decide) rfl hauth h1
  have h3 := hcolumn " AS location, ".toList "location".toList
    (by decide) rfl hlocation h2
  have h4 := hcolumn " AS catalog_alias, ".toList "catalog_alias".toList
    (by decide) rfl hcatalog h3
  have h5 := hcolumn " AS connection_name, ".toList "connection_name".toList
    (by decide) rfl hname h4
  exact ⟨json, hjson, hcreate.append_whole h5⟩

/-! ## The whole call -/

/-- A text that is run and succeeds. -/
theorem run_ok {text : Except String (List Char)} {error : String}
    (h : (s.run text error).2 = .ok ()) : ∃ sql, text = .ok sql ∧ (s.run text error).1 = [sql] := by
  cases text with
  | error e => cases h
  | ok sql => exact ⟨sql, rfl, rfl⟩

/-- Two steps succeed if both do, and their logs are one behind the other. -/
theorem Runs.andThen_ok {r next : Runs} (h : (r.andThen next).2 = .ok ()) :
    r.2 = .ok () ∧ next.2 = .ok () ∧ (r.andThen next).1 = r.1 ++ next.1 := by
  unfold Runs.andThen at h ⊢
  cases hr : r.2 with
  | error e =>
    rw [hr] at h
    rw [hr] at h
    cases h
  | ok u =>
    rw [hr] at h
    exact ⟨rfl, h, rfl⟩

/-- The statements that load the extension. -/
theorem load_tokens {path : List Char} (h : (s.load path).2 = .ok ()) :
    (s.load path).1.map lex =
      (match if s.fileExists path then some path else none with
        | some path => [[keyword "LOAD", .literal path]]
        | none => [[keyword "INSTALL", keyword "vgi", keyword "FROM", keyword "community"],
            [keyword "LOAD", keyword "vgi"]]).map some := by
  unfold load at h ⊢
  by_cases hfile : s.fileExists path = true
  · rw [if_pos hfile] at h
    rw [if_pos hfile, if_pos hfile]
    obtain ⟨sql, hsql, hlog⟩ := run_ok h
    obtain ⟨text, htext, rfl⟩ := map_eq_ok.1 hsql
    have hload : Reads "LOAD ".toList [keyword "LOAD"] := by decide
    rw [hlog, List.map_singleton, (hload.append_whole (whole_of_quote htext)).tokens]
    rfl
  · rw [if_neg hfile] at h
    rw [if_neg hfile, if_neg hfile]
    obtain ⟨-, -, hlog⟩ := Runs.andThen_ok h
    rw [hlog]
    show [lex "INSTALL vgi FROM community".toList, lex "LOAD vgi".toList] = _
    decide

/-- A call that is accepted has run the statements, with the names of the options as they are
read. -/
theorem statements_of_ok (hprint : s.PrintsTokens) {requested : List Char} {log : List (List Char)}
    (h : s.attachCupolaConnection requested = (log, .ok ())) :
    ∃ a, s.Accepts requested a ∧ NamesAllowed (a.entry.options.getD []) ∧
      log.map lex =
        (a.statements (s.options cString (a.entry.options.getD []))).map some := by
  unfold attachCupolaConnection at h
  cases hentry : s.readEntry requested with
  | error e => simp [hentry] at h
  | ok e =>
  rw [hentry] at h
  dsimp only at h
  cases hattach : s.attachText e with
  | error e => simp [hattach] at h
  | ok attach =>
  rw [hattach] at h
  dsimp only at h
  cases hpath : s.extension with
  | error e => simp [hpath] at h
  | ok path =>
  rw [hpath] at h
  dsimp only at h
  obtain ⟨hload, hrest, hlog⟩ := Runs.andThen_ok (congrArg Prod.snd h)
  obtain ⟨hrun1, hrest, hlog1⟩ := Runs.andThen_ok hrest
  obtain ⟨hrun2, hrun3, hlog2⟩ := Runs.andThen_ok hrest
  obtain ⟨sql1, hsql1, hone⟩ := run_ok hrun1
  obtain ⟨sql2, hsql2, htwo⟩ := run_ok hrun2
  obtain ⟨sql3, hsql3, hthree⟩ := run_ok hrun3
  obtain rfl := Except.ok.inj hsql1
  obtain ⟨use, huse, rfl⟩ := map_eq_ok.1 hsql2
  obtain ⟨credential, hcredential, hnames, hwhole⟩ := whole_attachText hprint hattach
  obtain ⟨json, hjson, hmacro⟩ := whole_macroText hsql3
  have huseTokens : Reads "USE ".toList [keyword "USE"] := by decide
  have hwholeUse := huseTokens.append_whole (whole_of_quote huse)
  refine ⟨⟨e, credential, if s.fileExists path then some path else none, json⟩,
    ⟨hentry, hcredential, ⟨path, hpath, rfl⟩, hjson⟩, hnames, ?_⟩
  have hall := (congrArg Prod.fst h).symm.trans hlog
  rw [hlog1, hlog2, hone, htwo, hthree] at hall
  dsimp only at hall
  rw [hall]
  simp only [List.map_append, Accepted.statements]
  rw [load_tokens hload]
  congr 1
  show [lex attach, lex ("USE ".toList ++ use), lex sql3] = [some _, some _, some _]
  rw [hwhole.tokens, hwholeUse.tokens, hmacro.tokens]
  rfl

/-! ## The options of the statement -/

theorem optionNames_cons_of_ne_symbol {token : Token} (h : ∀ ch, token ≠ .symbol ch)
    (tokens : List Token) : optionNames (token :: tokens) = optionNames tokens := by
  cases token with
  | symbol ch => exact absurd rfl (h ch)
  | word text => rfl
  | literal value => rfl
  | identifier value => rfl

theorem valueToken_ne_symbol (v : JsonVal N) (ch : Char) : s.valueToken v ≠ .symbol ch := by
  cases v <;> exact nofun

/-- The names of the options are those of the entries. -/
theorem optionNames_options (name : List Char → List Char)
    (entries : List (List Char × JsonVal N)) :
    optionNames ((s.options name entries).flatMap optionTokens ++ [.symbol ')']) =
      entries.map fun entry => name entry.1 := by
  induction entries with
  | nil => rfl
  | cons entry entries ih =>
    have hvalue := optionNames_cons_of_ne_symbol (valueToken_ne_symbol (s := s) entry.2)
      ((s.options name entries).flatMap optionTokens ++ [.symbol ')'])
    show optionNames (.symbol ',' :: .word (name entry.1) :: s.valueToken entry.2 ::
      ((s.options name entries).flatMap optionTokens ++ [.symbol ')'])) = _
    rw [optionNames, if_pos (.inr rfl), hvalue, ih]
    rfl

/-- The names of all options : those that are always there, the one of the credential, and the
attach options. -/
theorem optionNames_attach (catalog location : List Char)
    (credential : Option (List Char × List Char)) (name : List Char → List Char)
    (entries : List (List Char × JsonVal N)) :
    optionNames (attachHead catalog location credential ++
        ((s.options name entries).flatMap optionTokens ++ [.symbol ')'])) =
      ["TYPE".toList, "LOCATION".toList] ++ (credential.toList.map Prod.fst ++
        entries.map fun entry => name entry.1) := by
  rw [← optionNames_options]
  cases credential with
  | none => rfl
  | some token => rfl

/-- Options that are allowed leave one `TYPE`, one `LOCATION` and at most one credential. -/
theorem oneEach_attach (catalog location : List Char) {credential : Option (List Char × List Char)}
    (hcredential : ∀ token ∈ credential, token.1 = "oauth_refresh_token".toList ∨
      token.1 = "bearer_token".toList) {entries : List (List Char × JsonVal N)}
    (hnames : NamesAllowed entries) :
    OneEach (attachHead catalog location credential ++
      ((s.options cString entries).flatMap optionTokens ++ [.symbol ')'])) := by
  have hzero : ∀ names ⊆ forbidden,
      (entries.map fun entry => cString entry.1).countP (fun name => lower name ∈ names) = 0 := by
    intro names hsub
    rw [List.countP_eq_zero]
    intro name hmem
    obtain ⟨entry, hentry, rfl⟩ := List.mem_map.1 hmem
    simpa using fun h => hnames entry hentry (hsub h)
  have hcount : ∀ names ⊆ forbidden, countNames names (attachHead catalog location credential ++
      ((s.options cString entries).flatMap optionTokens ++ [.symbol ')'])) =
      ["TYPE".toList, "LOCATION".toList].countP (fun name => lower name ∈ names) +
        (credential.toList.map Prod.fst).countP (fun name => lower name ∈ names) := by
    intro names hsub
    rw [countNames, optionNames_attach, List.countP_append, List.countP_append, hzero names hsub]
    rfl
  have htype : ["type".toList] ⊆ forbidden := by decide
  have hlocation : ["location".toList] ⊆ forbidden := by decide
  have hnamesSub : credentialNames ⊆ forbidden := List.subset_cons_of_subset _
    (List.subset_cons_self _ _)
  cases credential with
  | none =>
    refine ⟨?_, ?_, ?_⟩
    · rw [hcount _ htype]
      decide
    · rw [hcount _ hlocation]
      decide
    · rw [hcount _ hnamesSub]
      decide
  | some token =>
    have hone : ∀ name, name = "oauth_refresh_token".toList ∨ name = "bearer_token".toList →
        [name].countP (fun name => lower name ∈ ["type".toList]) = 0 ∧
          [name].countP (fun name => lower name ∈ ["location".toList]) = 0 := by
      rintro name (rfl | rfl)
      · decide
      · decide
    obtain ⟨hone1, hone2⟩ := hone token.1 (hcredential token rfl)
    refine ⟨?_, ?_, ?_⟩
    · rw [hcount _ htype]
      show _ + [token.1].countP _ = 1
      rw [hone1]
      decide
    · rw [hcount _ hlocation]
      show _ + [token.1].countP _ = 1
      rw [hone2]
      decide
    · rw [hcount _ hnamesSub]
      have hle := List.countP_le_length (p := fun name => decide (lower name ∈ credentialNames))
        (l := [token.1])
      have hnone : ["TYPE".toList, "LOCATION".toList].countP
          (fun name => lower name ∈ credentialNames) = 0 := by decide
      rw [hnone, Nat.zero_add]
      exact hle

/-! ## What a call accepts -/

/-- The statements have each field as one token, and the options of `ATTACH` are one `TYPE`, one
`LOCATION` and at most one credential. -/
structure Meets (s : Store N) (a : Accepted N) (log : List (List Char)) : Prop where
  shape : log.map lex = (a.statements (s.options id (a.entry.options.getD []))).map some
  oneEach : ∀ text ∈ log, ∀ tokens, lex text = some (keyword "ATTACH" :: tokens) →
    OneEach (keyword "ATTACH" :: tokens)

/-- A request is accepted in one way. -/
theorem Accepts.unique {requested : List Char} {a a' : Accepted N} (h : s.Accepts requested a)
    (h' : s.Accepts requested a') : a = a' := by
  obtain ⟨entry, credential, extension, json⟩ := a
  obtain ⟨entry', credential', extension', json'⟩ := a'
  obtain ⟨hentry, hcredential, ⟨path, hpath, hextension⟩, hjson⟩ := h
  obtain ⟨hentry', hcredential', ⟨path', hpath', hextension'⟩, hjson'⟩ := h'
  obtain rfl : entry = entry' := Except.ok.inj (hentry.symm.trans hentry')
  obtain rfl : path = path' := Except.ok.inj (hpath.symm.trans hpath')
  obtain rfl : json = json' := Except.ok.inj (hjson.symm.trans hjson')
  obtain rfl : extension = extension' := hextension.trans hextension'.symm
  have hsame : credential = credential' := by
    dsimp only at hcredential hcredential'
    split at hcredential
    · next hauth =>
      rw [if_pos hauth] at hcredential'
      obtain ⟨token, htoken, rfl⟩ := hcredential
      obtain ⟨token', htoken', rfl⟩ := hcredential'
      rw [Except.ok.inj (htoken.symm.trans htoken')]
    · next hauth =>
      rw [if_neg hauth] at hcredential'
      rw [hcredential, hcredential']
  rw [hsame]

theorem cString_eq_self_iff {key : List Char} : cString key = key ↔ '\x00' ∉ key := by
  rw [cString, List.takeWhile_eq_self_iff]
  constructor
  · intro h hmem
    simpa using h _ hmem
  · intro h ch hmem
    exact decide_eq_true fun heq => h (heq ▸ hmem)

/-- The credential of a call that is accepted has one of two names. -/
theorem Accepts.credential_name {requested : List Char} {a : Accepted N}
    (h : s.Accepts requested a) : ∀ token ∈ a.credential,
      token.1 = "oauth_refresh_token".toList ∨ token.1 = "bearer_token".toList := by
  have hcredential := h.credential
  intro token htoken
  split at hcredential
  · obtain ⟨token', htoken', heq⟩ := hcredential
    rw [heq] at htoken
    obtain rfl := Option.some.inj htoken
    exact name_of_usableToken htoken'
  · rw [hcredential] at htoken
    cases htoken

/-- The engine attaches what was asked for just if no option has a NUL in its name. -/
theorem meets_iff (hprint : s.PrintsTokens) {requested : List Char} {log : List (List Char)}
    (h : s.attachCupolaConnection requested = (log, .ok ())) {a : Accepted N}
    (ha : s.Accepts requested a) :
    Meets s a log ↔ ∀ entry ∈ a.entry.options.getD [], '\x00' ∉ entry.1 := by
  obtain ⟨a', ha', hnames, hlog⟩ := statements_of_ok hprint h
  obtain rfl := ha'.unique ha
  generalize hentries : a'.entry.options.getD [] = entries at hnames hlog
  have hattach := oneEach_attach (s := s) a'.entry.catalog a'.entry.location ha'.credential_name
    hnames
  constructor
  · rintro ⟨hshape, -⟩
    rw [hentries, hlog] at hshape
    have hsame := List.map_injective_iff.2 (fun _ _ => Option.some.inj) hshape
    unfold Accepted.statements at hsame
    have hbehind := List.append_cancel_left hsame
    have hnamesEq := congrArg optionNames (List.cons.inj hbehind).1
    rw [optionNames_attach, optionNames_attach] at hnamesEq
    have hmap := List.append_cancel_left (List.append_cancel_left hnamesEq)
    intro entry hmem
    exact cString_eq_self_iff.1 (List.map_inj_left.1 hmap entry hmem)
  · intro hnul
    have hoptions : s.options cString entries = s.options id entries :=
      List.map_congr_left fun entry hmem => by rw [cString_eq_self_iff.2 (hnul entry hmem), id]
    refine ⟨by rw [hentries, ← hoptions, hlog], fun text hmem tokens htokens => ?_⟩
    have hstatement := List.mem_map_of_mem (f := lex) hmem
    rw [hlog, htokens] at hstatement
    obtain ⟨statement, hstatement, heq⟩ := List.mem_map.1 hstatement
    obtain rfl := Option.some.inj heq
    have hother : ∀ {statement : List Token} {first : String},
        keyword "ATTACH" ≠ keyword first → statement.head? = some (keyword first) →
        keyword "ATTACH" :: tokens ≠ statement := by
      rintro statement first hne hfirst rfl
      exact hne (Option.some.inj hfirst)
    rcases List.mem_append.1 hstatement with hload | hrest
    · -- the extension
      split at hload
      · exact absurd (List.mem_singleton.1 hload) (hother (by decide) rfl)
      · rcases List.mem_cons.1 hload with hinstall | hload
        · exact absurd hinstall (hother (by decide) rfl)
        · exact absurd (List.mem_singleton.1 hload) (hother (by decide) rfl)
    · rcases List.mem_cons.1 hrest with hattached | hrest
      · rw [hattached]
        exact hattach
      · rcases List.mem_cons.1 hrest with huse | hmacro
        · exact absurd huse (hother (by decide) rfl)
        · exact absurd (List.mem_singleton.1 hmacro) (hother (by decide) rfl)

/-- Every field that goes into the statements of an accepted call is one token of them, with its
value, exactly if the names of the attach options have no NUL. -/
theorem attach_tokens_iff (s : Store N) (hprint : s.PrintsTokens) {requested : List Char}
    {log : List (List Char)} (h : s.attachCupolaConnection requested = (log, .ok ())) :
    ∃ a, s.Accepts requested a ∧
      (Meets s a log ↔ ∀ entry ∈ a.entry.options.getD [], '\x00' ∉ entry.1) := by
  obtain ⟨a, ha, -, -⟩ := statements_of_ok hprint h
  exact ⟨a, ha, meets_iff hprint h ha⟩

/-! ## Two stores -/

/-- An object with one option of the value 5. -/
def writtenOption (option : List Char) : List Char :=
  "\x7b\"".toList ++ (option.flatMap (fun ch => if ch = '\x00' then "\\u0000".toList else [ch]) ++
    "\":5\x7d".toList)

/-- A store with one anonymous entry, with quotes in its catalog, and an attach option. The
numbers are digits. -/
def oneEntry (option : List Char) : Store (Fin 10) where
  registry := .ok (some [⟨fun key =>
    if key = "Name" then some "n".toList
    else if key = "Catalog" then some "a'b\"c".toList
    else if key = "Location" then some "https://h".toList
    else if key = "Authentication" then some "anonymous".toList
    else none, .object [(option, .num 5)]⟩])
  sameName candidate wanted := .ok (candidate == wanted)
  oauthKey location := .ok location
  session _ := .error "Cupola OAuth session has expired. Sign in again in Cupola."
  stamp := []
  valWrite
    | .num n => some [Nat.digitChar n]
    | .bool b => some (if b then "true".toList else "false".toList)
    | .null => some "null".toList
    | _ => none
  objWrite _ := some (writtenOption option)
  extension := .ok "vgi.duckdb_extension".toList
  fileExists _ := true
  query _ := true

theorem printsTokens_oneEntry (option : List Char) : (oneEntry option).PrintsTokens := by
  intro v text hstr hother h
  cases v with
  | str t => exact absurd rfl (hstr t)
  | num n =>
    obtain rfl := Option.some.inj h
    revert n
    exact fun n _ _ _ => whole_word (List.cons_ne_nil _ _)
      (List.all_eq_true.1 ((by decide : ∀ n : Fin 10, [Nat.digitChar n].all isWordChar = true) n))
  | bool b =>
    obtain rfl := Option.some.inj h
    cases b with
    | true => exact whole_word (by decide) (List.all_eq_true.1 rfl)
    | false => exact whole_word (by decide) (List.all_eq_true.1 rfl)
  | null =>
    obtain rfl := Option.some.inj h
    exact whole_word (by decide) (List.all_eq_true.1 rfl)
  | other => exact absurd rfl hother

/-- The entry that `oneEntry` accepts. -/
theorem accepts_oneEntry (option : List Char) : (oneEntry option).Accepts "n".toList
    ⟨⟨"n".toList, "a'b\"c".toList, "https://h".toList, "anonymous".toList, "https://h".toList,
      some [(option, .num 5)]⟩, none, some "vgi.duckdb_extension".toList, writtenOption option⟩ :=
  ⟨rfl, rfl, ⟨_, rfl, rfl⟩, rfl⟩

/-- A timeout is attached. -/
theorem attach_tokens_iff_timeout :
    ∃ a, (oneEntry "timeout".toList).Accepts "n".toList a ∧
      Meets (oneEntry "timeout".toList) a
        ((oneEntry "timeout".toList).attachCupolaConnection "n".toList).1 := by
  have hok : ((oneEntry "timeout".toList).attachCupolaConnection "n".toList).2 = .ok () := rfl
  obtain ⟨a, ha, hiff⟩ := attach_tokens_iff (oneEntry "timeout".toList)
    (printsTokens_oneEntry _) (Prod.ext rfl hok)
  obtain rfl := ha.unique (accepts_oneEntry _)
  exact ⟨_, ha, hiff.2 (by decide)⟩

/-- The option `a` with a NUL behind it is accepted and goes into the statement as `a`. -/
theorem option_cut_at_nul :
    ((oneEntry ['a', '\x00', 'b']).attachCupolaConnection "n".toList).2 = .ok () ∧
      ∀ a, (oneEntry ['a', '\x00', 'b']).Accepts "n".toList a →
        ¬Meets (oneEntry ['a', '\x00', 'b']) a
          ((oneEntry ['a', '\x00', 'b']).attachCupolaConnection "n".toList).1 := by
  have hok : ((oneEntry ['a', '\x00', 'b']).attachCupolaConnection "n".toList).2 = .ok () := rfl
  refine ⟨hok, fun a ha hmeets => ?_⟩
  have hnul := (meets_iff (printsTokens_oneEntry _) (Prod.ext rfl hok) ha).1 hmeets
  obtain rfl := ha.unique (accepts_oneEntry _)
  exact absurd (hnul _ List.mem_cons_self) (by decide)

end Store

end HaybarnOdbc.Cupola
