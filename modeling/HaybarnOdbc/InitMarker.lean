import HaybarnOdbc.SessionInit

/-!
# The connection init marker

What `ReadSQLFile` makes of a file by the markers in it. `First` is the marker that a search
from the start finds, `Twice` two markers that do not overlap; both are about the text and not
about a search.

The markers are counted by the pieces between them, and the piece behind the last one is left
out if it is empty. So a file with two markers is refused unless the second one is its end, and
else read as it should be (`readSqlFile_law_iff`).

A configured hash is put into lower case for the message only, and compared as it is
(`readSqlFile_hash_iff`).
-/

namespace HaybarnOdbc.SessionInit

/-! ## Markers -/

/-- What is between the comment signs of the marker, but for blanks. -/
def markerName : List Char := "DUCKDB_CONNECTION_INIT_BELOW_MARKER".toList

/-- The texts of `CONN_INIT_MARKER`. -/
def IsMarker (m : List Char) : Prop :=
  ∃ ws ws', (∀ ch ∈ ws, isSpace ch = true) ∧ (∀ ch ∈ ws', isSpace ch = true) ∧
    m = "/*".toList ++ (ws ++ (markerName ++ (ws' ++ "*/".toList)))

/-- A marker is in the text. -/
def Occurs (text : List Char) : Prop := ∃ a m c, IsMarker m ∧ text = a ++ (m ++ c)

/-- The texts before and after the marker that starts first. -/
def First (text a c : List Char) : Prop :=
  ∃ m, IsMarker m ∧ text = a ++ (m ++ c) ∧
    ∀ a' m' c', IsMarker m' → text = a' ++ (m' ++ c') → a.length ≤ a'.length

/-- Two markers are in the text. -/
def Twice (text : List Char) : Prop :=
  ∃ a m b m' c, IsMarker m ∧ IsMarker m' ∧ text = a ++ (m ++ (b ++ (m' ++ c)))

/-! ## The search -/

theorem isPrefixOf?_append (a rest : List Char) : a.isPrefixOf? (a ++ rest) = some rest := by
  induction a with
  | nil => rfl
  | cons ch a ih => simp [List.isPrefixOf?, ih]

/-- White space in front of a text that starts with none. -/
theorem dropWhile_isSpace_append {ws t : List Char} (hws : ∀ ch ∈ ws, isSpace ch = true)
    (ht : t.head?.map isSpace = some false) (rest : List Char) :
    (ws ++ (t ++ rest)).dropWhile isSpace = t ++ rest := by
  cases t with
  | nil => cases ht
  | cons ch t =>
    have hch : isSpace ch = false := Option.some.inj ht
    rw [List.dropWhile_append_of_pos hws, List.cons_append,
      List.dropWhile_cons_of_neg (by simp [hch])]

/-- Three parts with white space between them at the front of a text. -/
theorem matchParts_eq_some_iff {o n c : List Char} (hn : n.head?.map isSpace = some false)
    (hc : c.head?.map isSpace = some false) {text rest : List Char} :
    ((o.isPrefixOf? text).bind fun text => (n.isPrefixOf? (text.dropWhile isSpace)).bind fun text =>
        c.isPrefixOf? (text.dropWhile isSpace)) = some rest ↔
      ∃ ws ws', (∀ ch ∈ ws, isSpace ch = true) ∧ (∀ ch ∈ ws', isSpace ch = true) ∧
        text = (o ++ (ws ++ (n ++ (ws' ++ c)))) ++ rest := by
  simp only [List.append_assoc]
  constructor
  · intro h
    obtain ⟨t1, h1, h⟩ := Option.bind_eq_some_iff.1 h
    obtain ⟨t2, h2, h3⟩ := Option.bind_eq_some_iff.1 h
    have ht1 : t1 = t1.takeWhile isSpace ++ (n ++ t2) := by
      rw [← append_of_isPrefixOf? h2, List.takeWhile_append_dropWhile]
    have ht2 : t2 = t2.takeWhile isSpace ++ (c ++ rest) := by
      rw [← append_of_isPrefixOf? h3, List.takeWhile_append_dropWhile]
    refine ⟨t1.takeWhile isSpace, t2.takeWhile isSpace, fun ch => List.mem_takeWhile_imp,
      fun ch => List.mem_takeWhile_imp, ?_⟩
    rw [← ht2, ← ht1]
    exact append_of_isPrefixOf? h1
  · rintro ⟨ws, ws', hws, hws', rfl⟩
    rw [isPrefixOf?_append, Option.bind_some, dropWhile_isSpace_append hws hn, isPrefixOf?_append,
      Option.bind_some, dropWhile_isSpace_append hws' hc, isPrefixOf?_append]

/-- What is matched is a marker at the front of the text. -/
theorem matchMarker_eq_some_iff {text rest : List Char} :
    matchMarker text = some rest ↔ ∃ m, IsMarker m ∧ text = m ++ rest := by
  refine (matchParts_eq_some_iff (by decide) (by decide)).trans ?_
  constructor
  · rintro ⟨ws, ws', hws, hws', htext⟩
    exact ⟨_, ⟨ws, ws', hws, hws', rfl⟩, htext⟩
  · rintro ⟨m, ⟨ws, ws', hws, hws', rfl⟩, htext⟩
    exact ⟨ws, ws', hws, hws', htext⟩

theorem matchMarker_ne_none {m : List Char} (hm : IsMarker m) (rest : List Char) :
    matchMarker (m ++ rest) = some rest :=
  matchMarker_eq_some_iff.2 ⟨m, hm, rfl⟩

/-- What `findMarker` finds is the first marker. -/
theorem first_of_findMarker : ∀ {text a c : List Char}, findMarker text = (a, some c) →
    First text a c
  | [], a, c, h => by simp [findMarker] at h
  | ch :: text, a, c, h => by
    rw [findMarker] at h
    cases hmatch : matchMarker (ch :: text) with
    | some rest =>
      rw [hmatch] at h
      obtain ⟨rfl, hrest⟩ := Prod.mk.inj h
      obtain rfl := Option.some.inj hrest
      obtain ⟨m, hm, htext⟩ := matchMarker_eq_some_iff.1 hmatch
      exact ⟨m, hm, htext, fun _ _ _ _ _ => Nat.zero_le _⟩
    | none =>
      rw [hmatch] at h
      dsimp only at h
      obtain ⟨rfl, hrest⟩ := Prod.mk.inj h
      obtain ⟨m, hm, htext, hleast⟩ := first_of_findMarker (Prod.ext rfl hrest)
      refine ⟨m, hm, congrArg (ch :: ·) htext, fun a' m' c' hm' htext' => ?_⟩
      cases a' with
      | nil =>
        -- a marker at the start would have been found
        rw [htext', List.nil_append, matchMarker_ne_none hm'] at hmatch
        cases hmatch
      | cons ch' a' => exact Nat.succ_le_succ (hleast a' m' c' hm' (List.cons.inj htext').2)

/-- Nothing is found in a text without a marker only. -/
theorem not_occurs_of_findMarker : ∀ {text : List Char}, (findMarker text).2 = none →
    ¬Occurs text ∧ (findMarker text).1 = text
  | [], _ => by
    refine ⟨?_, rfl⟩
    rintro ⟨a, m, c, ⟨ws, ws', -, -, rfl⟩, htext⟩
    have hlen := congrArg List.length htext
    simp at hlen
  | ch :: text, h => by
    rw [findMarker] at h ⊢
    cases hmatch : matchMarker (ch :: text) with
    | some rest =>
      rw [hmatch] at h
      cases h
    | none =>
      rw [hmatch] at h
      obtain ⟨hnot, hbefore⟩ := not_occurs_of_findMarker h
      refine ⟨?_, congrArg (ch :: ·) hbefore⟩
      rintro ⟨a, m, c, hm, htext⟩
      cases a with
      | nil =>
        rw [htext, List.nil_append, matchMarker_ne_none hm] at hmatch
        cases hmatch
      | cons ch' a => exact hnot ⟨a, m, c, hm, (List.cons.inj htext).2⟩

/-- The first marker is the one that is found. -/
theorem findMarker_eq_iff {text a c : List Char} :
    findMarker text = (a, some c) ↔ First text a c := by
  refine ⟨first_of_findMarker, fun ⟨m, hm, htext, hleast⟩ => ?_⟩
  cases hfind : findMarker text with
  | mk a' rest =>
    cases rest with
    | none =>
      have hnot := (not_occurs_of_findMarker (by rw [hfind] : (findMarker text).2 = none)).1
      exact absurd ⟨a, m, c, hm, htext⟩ hnot
    | some c' =>
      obtain ⟨m', hm', htext', hleast'⟩ := first_of_findMarker hfind
      have hlen : a'.length = a.length :=
        Nat.le_antisymm (hleast' a m c hm htext) (hleast a' m' c' hm' htext')
      obtain ⟨rfl, hsame⟩ := List.append_inj (htext'.symm.trans htext) hlen
      have hrest := matchMarker_ne_none hm' c'
      rw [hsame, matchMarker_ne_none hm] at hrest
      obtain rfl := Option.some.inj hrest
      rfl

/-! ## Two markers -/

/-- A marker has a slash at its ends and nowhere else. -/
theorem IsMarker.slashes {m : List Char} (hm : IsMarker m) :
    ∃ mid, '/' ∉ mid ∧ m = '/' :: (mid ++ ['/']) := by
  obtain ⟨ws, ws', hws, hws', rfl⟩ := hm
  have hslash : ∀ {ws : List Char}, (∀ ch ∈ ws, isSpace ch = true) → '/' ∉ ws := fun h hmem =>
    absurd (h '/' hmem) (by decide)
  have hname : '/' ∉ markerName := by decide
  refine ⟨'*' :: (ws ++ (markerName ++ (ws' ++ ['*']))), ?_, ?_⟩
  · simp [hslash hws, hslash hws', hname]
  · simp

/-- What follows a marker anywhere is at the end of what follows the first one : they overlap
in a slash at most. -/
theorem First.suffix {text a₀ c₀ a m r : List Char} (hfirst : First text a₀ c₀)
    (hm : IsMarker m) (htext : text = a ++ (m ++ r)) : r <:+ c₀ := by
  obtain ⟨m₀, hm₀, htext₀, hleast⟩ := hfirst
  have hle := hleast a m r hm htext
  obtain ⟨x, rfl⟩ : a₀ <+: a :=
    List.prefix_of_prefix_length_le ⟨_, htext₀.symm⟩ ⟨_, htext.symm⟩ hle
  have hboth : m₀ ++ c₀ = x ++ (m ++ r) :=
    List.append_cancel_left ((htext₀.symm.trans htext).trans (List.append_assoc ..))
  rcases List.append_eq_append_iff.1 hboth with ⟨y, hx, hc⟩ | ⟨z, hm₀z, hc⟩
  · rw [hc]
    exact ⟨y ++ m, by rw [List.append_assoc]⟩
  · obtain ⟨mid₀, hmid₀, hshape₀⟩ := hm₀.slashes
    obtain ⟨mid, -, hshape⟩ := hm.slashes
    cases x with
    | nil =>
      -- the two start together
      have hrest := matchMarker_ne_none hm₀ c₀
      rw [hboth, List.nil_append, matchMarker_ne_none hm] at hrest
      exact (Option.some.inj hrest) ▸ List.suffix_rfl
    | cons ch x =>
      cases z with
      | nil => exact ⟨m, by rw [hc]; rfl⟩
      | cons ch' z =>
        -- the marker starts at the last slash of the first one
        rw [hshape] at hc
        rw [hshape₀] at hm₀z
        have hinner : mid₀ ++ '/' :: [] = x ++ ch' :: z := (List.cons.inj hm₀z).2
        have hbehind : mid ++ ['/'] ++ r = z ++ c₀ := (List.cons.inj hc).2
        obtain rfl : '/' = ch' := (List.cons.inj hc).1
        obtain ⟨-, -, rfl⟩ := (List.append_cons_inj_of_notMem hmid₀ List.not_mem_nil).1 hinner
        exact ⟨mid ++ ['/'], hbehind⟩

/-- There are two markers exactly when there is one behind the first. -/
theorem twice_iff {text : List Char} : Twice text ↔ ∃ a c, First text a c ∧ Occurs c := by
  constructor
  · rintro ⟨a, m, b, m', c, hm, hm', htext⟩
    cases hfind : findMarker text with
    | mk a₀ rest =>
      cases rest with
      | none =>
        have hnot := (not_occurs_of_findMarker (by rw [hfind] : (findMarker text).2 = none)).1
        exact absurd ⟨a, m, _, hm, htext⟩ hnot
      | some c₀ =>
        have hfirst := findMarker_eq_iff.1 hfind
        obtain ⟨y, hy⟩ := hfirst.suffix hm htext
        exact ⟨a₀, c₀, hfirst, y ++ b, m', c, hm', by rw [← hy]; simp only [List.append_assoc]⟩
  · rintro ⟨a, c, ⟨m, hm, htext, -⟩, b, m', c', hm', hc⟩
    exact ⟨a, m, b, m', c', hm, hm', by rw [htext, hc]⟩

/-! ## The pieces -/

/-- Without a marker nothing is found. -/
theorem findMarker_of_not_occurs {text : List Char} (h : ¬Occurs text) :
    findMarker text = (text, none) := by
  cases hfind : findMarker text with
  | mk a rest =>
    cases rest with
    | none =>
      have hbefore := (not_occurs_of_findMarker (by rw [hfind] : (findMarker text).2 = none)).2
      rw [hfind] at hbefore
      dsimp only at hbefore
      rw [hbefore]
    | some c =>
      obtain ⟨m, hm, htext, -⟩ := findMarker_eq_iff.1 hfind
      exact absurd ⟨a, m, c, hm, htext⟩ h

/-- If there is a marker there is a first one. -/
theorem exists_first {text : List Char} (h : Occurs text) : ∃ a c, First text a c := by
  cases hfind : findMarker text with
  | mk a rest =>
    cases rest with
    | none =>
      exact absurd h (not_occurs_of_findMarker (by rw [hfind] : (findMarker text).2 = none)).1
    | some c => exact ⟨a, c, findMarker_eq_iff.1 hfind⟩

/-- Without a marker there is one piece. -/
theorem splitByMarker_of_not_occurs {text : List Char} (h : ¬Occurs text) :
    splitByMarker text = [text] := by
  rw [splitByMarker, findMarker_of_not_occurs h]

/-- The first piece is in front of the first marker. -/
theorem splitByMarker_of_first {text a c : List Char} (h : First text a c) :
    splitByMarker text = a :: tokensAfter c := by
  rw [splitByMarker, findMarker_eq_iff.2 h]

/-- What is behind the last marker is a piece, unless it is empty. -/
theorem tokensAfter_of_not_occurs {text : List Char} (h : ¬Occurs text) :
    tokensAfter text = if text.isEmpty then [] else [text] := by
  have hfind := findMarker_of_not_occurs h
  rw [tokensAfter]
  split
  · next heq =>
    rw [hfind] at heq
    cases heq
  · next heq =>
    rw [hfind] at heq
    obtain ⟨rfl, -⟩ := Prod.mk.inj heq
    rfl

/-- The others are between markers. -/
theorem tokensAfter_of_first {text b d : List Char} (h : First text b d) :
    tokensAfter text = b :: tokensAfter d := by
  have hfind := findMarker_eq_iff.2 h
  rw [tokensAfter]
  split
  · next heq =>
    rw [hfind] at heq
    obtain ⟨rfl, hrest⟩ := Prod.mk.inj heq
    rw [Option.some.inj hrest]
  · next heq =>
    rw [hfind] at heq
    cases heq

/-- A text gives no piece only if it is empty. -/
theorem tokensAfter_eq_nil_iff {text : List Char} : tokensAfter text = [] ↔ text = [] := by
  by_cases hoccurs : Occurs text
  · obtain ⟨b, d, hfirst⟩ := exists_first hoccurs
    rw [tokensAfter_of_first hfirst]
    refine iff_of_false (List.cons_ne_nil _ _) fun hnil => ?_
    obtain ⟨m, hm, htext, -⟩ := hfirst
    obtain ⟨mid, -, rfl⟩ := hm.slashes
    simp [hnil] at htext
  · rw [tokensAfter_of_not_occurs hoccurs]
    cases text with
    | nil => exact iff_of_true rfl rfl
    | cons ch text => exact iff_of_false (List.cons_ne_nil _ _) (List.cons_ne_nil _ _)

/-! ## What is read -/

/-- A file with two markers is refused. Otherwise the parts are the texts before and after the
marker, or the whole text and nothing. -/
structure Law (text : List Char) (read : Except String SqlFile) : Prop where
  refused : (∃ message, read = .error message) ↔ Twice text
  parted : ∀ a c, First text a c → ¬Twice text → read = .ok ⟨trimString a, trimString c, text⟩
  whole : ¬Occurs text → read = .ok ⟨trimString text, [], text⟩

/-- The second marker is the end of the text. -/
def EndsAtSecond (text : List Char) : Prop := ∃ a c b, First text a c ∧ First c b []

/-- What `ReadSQLFile` makes of the pieces. -/
def ofPieces (text : List Char) : List (List Char) → Except String SqlFile
  | [dbPart] => .ok ⟨trimString dbPart, [], text⟩
  | [dbPart, connPart] => .ok ⟨trimString dbPart, trimString connPart, text⟩
  | _ => .error ("Connection init marker: '" ++ connInitMarker ++ "' can only be specified once")

/-- A file that is read is split into its pieces. -/
theorem readSqlFile_eq {files : Files} {file sha : String} {text : List Char} (hfile : file ≠ "")
    (htext : files.text file = some text) (hsize : text.length ≤ sqlFileMaxSizeBytes)
    (hsha : sha = "" ∨ files.sha256 text = sha) :
    readSqlFile files file sha = ofPieces text (splitByMarker text) := by
  have hmatch : ¬(sha ≠ "" ∧ files.sha256 text ≠ sha) := fun h => hsha.elim h.1 h.2
  rw [readSqlFile, if_neg hfile, htext]
  dsimp only
  rw [if_neg (by omega), if_neg hmatch]
  unfold ofPieces
  rfl

/-- There is one first marker. -/
theorem First.unique {text a c a' c' : List Char} (h : First text a c) (h' : First text a' c') :
    a = a' ∧ c = c' := by
  have heq := (findMarker_eq_iff.2 h).symm.trans (findMarker_eq_iff.2 h')
  obtain ⟨ha, hc⟩ := Prod.mk.inj heq
  exact ⟨ha, Option.some.inj hc⟩

/-- There are two just if there is one behind the first. -/
theorem twice_of_first {text a c : List Char} (h : First text a c) : Twice text ↔ Occurs c := by
  rw [twice_iff]
  constructor
  · rintro ⟨a', c', h', hoccurs⟩
    rwa [(h.unique h').2]
  · exact fun hoccurs => ⟨a, c, h, hoccurs⟩

/-- The pieces are as they should be just if the second marker does not end the text. -/
theorem ofPieces_law_iff {text : List Char} :
    Law text (ofPieces text (splitByMarker text)) ↔ ¬EndsAtSecond text := by
  by_cases hoccurs : Occurs text
  · obtain ⟨a, c, hfirst⟩ := exists_first hoccurs
    have htwice := twice_of_first hfirst
    rw [splitByMarker_of_first hfirst]
    by_cases hsecond : Occurs c
    · obtain ⟨b, d, hfirst'⟩ := exists_first hsecond
      rw [tokensAfter_of_first hfirst']
      cases d with
      | nil =>
        have hread : ofPieces text (a :: b :: tokensAfter []) =
            .ok ⟨trimString a, trimString b, text⟩ := by
          rw [tokensAfter_eq_nil_iff.2 rfl]
          rfl
        rw [hread]
        refine iff_of_false (fun hlaw => ?_) (not_not.2 ⟨a, c, b, hfirst, hfirst'⟩)
        obtain ⟨message, herror⟩ := hlaw.refused.2 (htwice.2 hsecond)
        cases herror
      | cons ch d =>
        have hne : tokensAfter (ch :: d) ≠ [] := fun h => by
          cases tokensAfter_eq_nil_iff.1 h
        obtain ⟨piece, pieces, hpieces⟩ := List.exists_cons_of_ne_nil hne
        rw [hpieces]
        refine iff_of_true ⟨iff_of_true ⟨_, rfl⟩ (htwice.2 hsecond), ?_, ?_⟩ ?_
        · exact fun _ _ _ hnot => absurd (htwice.2 hsecond) hnot
        · exact fun hnot => absurd hoccurs hnot
        · rintro ⟨a', c', b', h, h'⟩
          rw [← (hfirst.unique h).2] at h'
          cases (hfirst'.unique h').2
    · have hread : ofPieces text (a :: tokensAfter c) =
          .ok ⟨trimString a, trimString c, text⟩ := by
        rw [tokensAfter_of_not_occurs hsecond]
        cases c with
        | nil => rfl
        | cons ch c => rfl
      rw [hread]
      refine iff_of_true ⟨iff_of_false nofun fun h => hsecond (htwice.1 h), ?_, ?_⟩ ?_
      · intro a' c' h' _
        rw [(hfirst.unique h').1, (hfirst.unique h').2]
      · exact fun hnot => absurd hoccurs hnot
      · rintro ⟨a', c', b', h, m, hm, hc, -⟩
        rw [← (hfirst.unique h).2] at hc
        exact hsecond ⟨b', m, [], hm, hc⟩
  · rw [splitByMarker_of_not_occurs hoccurs]
    have hnotFirst : ∀ {a c}, ¬First text a c := fun ⟨m, hm, htext, _⟩ =>
      hoccurs ⟨_, m, _, hm, htext⟩
    refine iff_of_true ⟨iff_of_false nofun ?_, ?_, fun _ => rfl⟩ ?_
    · rw [twice_iff]
      rintro ⟨a, c, hfirst, -⟩
      exact hnotFirst hfirst
    · exact fun a c hfirst => absurd hfirst hnotFirst
    · rintro ⟨a, c, b, hfirst, -⟩
      exact hnotFirst hfirst

/-- `ReadSQLFile` reads a file as it should exactly if its second marker is not its end. -/
theorem readSqlFile_law_iff {files : Files} {file sha : String} {text : List Char}
    (hfile : file ≠ "") (htext : files.text file = some text)
    (hsize : text.length ≤ sqlFileMaxSizeBytes) (hsha : sha = "" ∨ files.sha256 text = sha) :
    Law text (readSqlFile files file sha) ↔ ¬EndsAtSecond text := by
  rw [readSqlFile_eq hfile htext hsize hsha]
  exact ofPieces_law_iff

/-- There is one file, of the given text. -/
def onlyFile (text : List Char) : Files := ⟨fun _ => some text, fun _ => ""⟩

/-- A file with one marker, at its end. -/
theorem readSqlFile_law_iff_one :
    Law "a/*DUCKDB_CONNECTION_INIT_BELOW_MARKER*/".toList
      (readSqlFile (onlyFile "a/*DUCKDB_CONNECTION_INIT_BELOW_MARKER*/".toList) "init.sql" "") := by
  refine (readSqlFile_law_iff (by decide) rfl (by decide) (.inl rfl)).2 ?_
  have hfirst : First "a/*DUCKDB_CONNECTION_INIT_BELOW_MARKER*/".toList ['a'] [] :=
    findMarker_eq_iff.1 (by decide)
  rintro ⟨a, c, b, h, hsecond⟩
  rw [← (hfirst.unique h).2] at hsecond
  cases findMarker_eq_iff.2 hsecond

/-- A text with two markers, of which the second one is its end. -/
def twoMarkers : List Char :=
  "a/* DUCKDB_CONNECTION_INIT_BELOW_MARKER */b/*DUCKDB_CONNECTION_INIT_BELOW_MARKER*/".toList

/-- It is read, and the second part is what stands between the markers. -/
theorem two_markers_accepted :
    ¬Law twoMarkers (readSqlFile (onlyFile twoMarkers) "init.sql" "") := by
  intro hlaw
  have hfirst : First twoMarkers ['a'] "b/*DUCKDB_CONNECTION_INIT_BELOW_MARKER*/".toList :=
    findMarker_eq_iff.1 (by decide)
  have hsecond : First "b/*DUCKDB_CONNECTION_INIT_BELOW_MARKER*/".toList ['b'] [] :=
    findMarker_eq_iff.1 (by decide)
  have hread : readSqlFile (onlyFile twoMarkers) "init.sql" "" =
      ofPieces twoMarkers (splitByMarker twoMarkers) :=
    readSqlFile_eq (by decide) rfl (by decide) (.inl rfl)
  rw [splitByMarker_of_first hfirst, tokensAfter_of_first hsecond,
    tokensAfter_eq_nil_iff.2 rfl] at hread
  obtain ⟨m, hm, hc, -⟩ := hsecond
  obtain ⟨message, herror⟩ := hlaw.refused.2 ((twice_of_first hfirst).2 ⟨_, m, _, hm, hc⟩)
  cases hread.symm.trans herror

/-! ## The configured hash -/

/-- The parts are those of the text. -/
structure PartsOf (text : List Char) (f : SqlFile) : Prop where
  origFileText : f.origFileText = text
  parted : ∀ a c, First text a c → f.dbInitSql = trimString a ∧ f.connInitSql = trimString c
  whole : ¬Occurs text → f.dbInitSql = trimString text ∧ f.connInitSql = []

/-- A file is read exactly if its hash is the configured one up to letter case, and what is read
are the parts of the text with this hash. -/
structure HashLaw (files : Files) (text : List Char) (sha : String)
    (read : Except String SqlFile) : Prop where
  accepted : (∃ f, read = .ok f) ↔ lower sha.toList = lower (files.sha256 text).toList
  parts : ∀ f, read = .ok f → PartsOf text f

theorem not_endsAtSecond_of_not_twice {text : List Char} (h : ¬Twice text) :
    ¬EndsAtSecond text := by
  rintro ⟨a, c, b, hfirst, m, hm, hc, -⟩
  exact h ((twice_of_first hfirst).2 ⟨b, m, [], hm, hc⟩)

/-- A text with one marker at most is read as its parts. -/
theorem exists_partsOf {text : List Char} (h : ¬Twice text) :
    ∃ f, ofPieces text (splitByMarker text) = .ok f ∧ PartsOf text f := by
  have hlaw := ofPieces_law_iff.2 (not_endsAtSecond_of_not_twice h)
  by_cases hoccurs : Occurs text
  · obtain ⟨a, c, hfirst⟩ := exists_first hoccurs
    refine ⟨_, hlaw.parted a c hfirst h, rfl, fun a' c' hfirst' => ?_, fun hnot =>
      absurd hoccurs hnot⟩
    rw [(hfirst.unique hfirst').1, (hfirst.unique hfirst').2]
    exact ⟨rfl, rfl⟩
  · refine ⟨_, hlaw.whole hoccurs, rfl, ?_, fun _ => ⟨rfl, rfl⟩⟩
    rintro a c ⟨m, hm, htext, -⟩
    exact absurd ⟨a, m, c, hm, htext⟩ hoccurs

/-- A hash that does not match is an error. -/
theorem readSqlFile_of_mismatch {files : Files} {file sha : String} {text : List Char}
    (hfile : file ≠ "") (htext : files.text file = some text)
    (hsize : text.length ≤ sqlFileMaxSizeBytes) (hsha : sha ≠ "") (hne : files.sha256 text ≠ sha) :
    ∃ message, readSqlFile files file sha = .error message := by
  rw [readSqlFile, if_neg hfile, htext]
  dsimp only
  rw [if_neg (by omega), if_pos ⟨hsha, hne⟩]
  exact ⟨_, rfl⟩

/-- The value is put into lower case for the message only, so that a hash in capital letters is
refused : the law holds exactly if the configured value has none or is not the hash. -/
theorem readSqlFile_hash_iff {files : Files} {file sha : String} {text : List Char}
    (hfile : file ≠ "") (htext : files.text file = some text)
    (hsize : text.length ≤ sqlFileMaxSizeBytes) (honce : ¬Twice text) (hsha : sha ≠ "")
    (hhex : ∀ t, lower (files.sha256 t).toList = (files.sha256 t).toList) :
    HashLaw files text sha (readSqlFile files file sha) ↔
      (lower sha.toList = sha.toList ∨ lower sha.toList ≠ (files.sha256 text).toList) := by
  by_cases heq : files.sha256 text = sha
  · -- the hash is the one that is configured
    obtain ⟨f, hread, hparts⟩ := exists_partsOf honce
    rw [readSqlFile_eq hfile htext hsize (.inr heq), hread]
    refine iff_of_true ⟨iff_of_true ⟨f, rfl⟩ (by rw [heq]), ?_⟩ (.inl ?_)
    · rintro _ ⟨⟩
      exact hparts
    · rw [← heq]
      exact hhex text
  · obtain ⟨message, hread⟩ := readSqlFile_of_mismatch hfile htext hsize hsha heq
    rw [hread]
    by_cases hsame : lower sha.toList = (files.sha256 text).toList
    · refine iff_of_false (fun hlaw => ?_) ?_
      · obtain ⟨f, hf⟩ := hlaw.accepted.2 (hsame.trans (hhex text).symm)
        cases hf
      · rintro (hlower | hne)
        · exact heq (String.toList_inj.1 (hsame.symm.trans hlower))
        · exact hne hsame
    · refine iff_of_true ⟨iff_of_false nofun fun hlower => ?_, nofun⟩ (.inr hsame)
      exact hsame (hlower.trans (hhex text))

/-- The hash of the file of a test. -/
def testHash : String := "e916fc2bcab2e0fad8d8e94273b8c79ff576aafbca9941e06ab268d9176269ec"

/-- The hash in capitals. -/
def capitalHash : String := "E916FC2BCAB2E0FAD8D8E94273B8C79FF576AAFBCA9941E06AB268D9176269EC"

/-- A file of one statement, whose hash is that one. -/
def hashedFile : Files := ⟨fun _ => some "CREATE TABLE tab1(col1 int)".toList, fun _ => testHash⟩

theorem not_twice_of_no_slash {text : List Char} (h : '/' ∉ text) : ¬Twice text := by
  rintro ⟨a, m, b, m', c, hm, -, rfl⟩
  obtain ⟨mid, -, rfl⟩ := hm.slashes
  exact h (by simp)

theorem lower_testHash : lower testHash.toList = testHash.toList := by decide +kernel

/-- The hash of the test matches. -/
theorem readSqlFile_hash_iff_test :
    HashLaw hashedFile "CREATE TABLE tab1(col1 int)".toList testHash
      (readSqlFile hashedFile "init.sql" testHash) :=
  (readSqlFile_hash_iff (by decide) rfl (by decide) (not_twice_of_no_slash (by decide))
    (by decide) fun _ => lower_testHash).2 (.inl lower_testHash)

/-- The same hash in capital letters is refused. -/
theorem capital_hash_refused :
    ¬HashLaw hashedFile "CREATE TABLE tab1(col1 int)".toList capitalHash
      (readSqlFile hashedFile "init.sql" capitalHash) := by
  intro hlaw
  obtain ⟨message, hread⟩ := @readSqlFile_of_mismatch hashedFile "init.sql" capitalHash _
    (by decide) rfl (by decide) (by decide) (by decide)
  obtain ⟨f, hf⟩ := hlaw.accepted.2 (by decide +kernel)
  cases hread.symm.trans hf

end HaybarnOdbc.SessionInit
