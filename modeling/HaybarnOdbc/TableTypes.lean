import HaybarnOdbc.Lib.Replace
import HaybarnOdbc.CatalogQueries

/-!
# The types of `SQLTables`

`TablesInternal` rewrites a list of table types by five replacements, each of the whole text :
`SYSTEM TABLE` goes with one of its commas, the other names are put in quotes and `TABLE` becomes
`BASE TABLE`. `GetQueryDuckdbTables` puts what is left between the parentheses of an `IN`, where
the engine accepts one comma after the last type.

The restriction denotes the types of the list only if no `SYSTEM TABLE` comes first or next to
another one that is not at the end, `%` is alone, and the other names have nothing in them that
one of the replacements finds (`tableTypes_iff`).
-/

namespace HaybarnOdbc.Catalog

open SqlLex Replace

/-! ## The replacements -/

/-- A name in single quotes. -/
def quoted (name : List Char) : List Char := '\'' :: (name ++ ['\''])

/-- `('name'|name)`. -/
def quotedOr (name : List Char) (hname : name ≠ []) : Pattern Char where
  matchAt text :=
    if quoted name <+: text then some (name.length + 2)
    else if name <+: text then some name.length
    else none
  pos {text n} h := by
    have hpos := List.length_pos_iff.2 hname
    split at h
    · obtain rfl := Option.some.inj h
      exact Nat.succ_pos _
    · split at h
      · obtain rfl := Option.some.inj h
        exact hpos
      · cases h
  le_length {text n} h := by
    split at h
    · rename_i hprefix
      obtain rfl := Option.some.inj h
      have hle := hprefix.length_le
      rwa [quoted, List.length_cons, List.length_append, List.length_singleton] at hle
    · split at h
      · rename_i hprefix
        obtain rfl := Option.some.inj h
        exact hprefix.length_le
      · cases h

/-- `,\s*,`. -/
def twoCommas : Pattern Char where
  matchAt
    | ',' :: text =>
      if (text.dropWhile isSpace).head? = some ',' then
        some ((text.takeWhile isSpace).length + 2)
      else none
    | _ => none
  pos {text n} h := by
    split at h
    · split at h
      · obtain rfl := Option.some.inj h
        exact Nat.succ_pos _
      · cases h
    · cases h
  le_length {text n} h := by
    split at h
    · rename_i text
      split at h
      · rename_i hcomma
        obtain rfl := Option.some.inj h
        have hsplit := congrArg List.length
          (List.takeWhile_append_dropWhile (p := isSpace) (l := text))
        have hrest : (text.dropWhile isSpace).length ≠ 0 := fun hzero => by
          rw [List.length_eq_zero_iff.1 hzero] at hcomma
          cases hcomma
        rw [List.length_append] at hsplit
        rw [List.length_cons]
        omega
      · cases h
    · cases h

/-- `SYSTEM TABLE` with quotes around it or without. -/
def systemTable : Pattern Char := quotedOr "SYSTEM TABLE".toList (by decide)

/-- `TABLE` with quotes around it or without. -/
def baseTable : Pattern Char := quotedOr "TABLE".toList (by decide)

/-- `VIEW` with quotes around it or without. -/
def viewType : Pattern Char := quotedOr "VIEW".toList (by decide)

/-- `%` with quotes around it or without. -/
def allTypes : Pattern Char := quotedOr "%".toList (by decide)

/-- What `TablesInternal` makes of the types. -/
def rewriteTypes (tableType : List Char) : List Char :=
  allTypes.replace (quoted "%".toList) <|
    viewType.replace (quoted "VIEW".toList) <|
      baseTable.replace (quoted "BASE TABLE".toList) <|
        twoCommas.replace [','] <| systemTable.replace [] tableType

/-! ## Lists of types -/

/-- A name that `SQLTables` has no use for, without the quotes around it. Names with a quote in
them are left out. -/
structure OtherName where
  val : List Char
  noQuote : '\'' ∉ val
  notSpecial : val ∉ ["TABLE".toList, "VIEW".toList, "SYSTEM TABLE".toList, "%".toList]

/-- A type of the list; the ones that have a meaning need no quotes. -/
inductive Entry
  | table (inQuotes : Bool)
  | view (inQuotes : Bool)
  | systemTable (inQuotes : Bool)
  | all (inQuotes : Bool)
  | other (name : OtherName)

namespace Entry

/-- A name in quotes or without. -/
def spelled (name : List Char) (inQuotes : Bool) : List Char :=
  if inQuotes then quoted name else name

/-- The type as the list has it. -/
def text : Entry → List Char
  | .table q => spelled "TABLE".toList q
  | .view q => spelled "VIEW".toList q
  | .systemTable q => spelled "SYSTEM TABLE".toList q
  | .all q => spelled "%".toList q
  | .other name => quoted name.val

/-- The type that does not exist. -/
def isSystemTable : Entry → Bool
  | .systemTable _ => true
  | _ => false

/-- The types of the engine that are listed. -/
def Means : Entry → List Char → Prop
  | .table _, type => type = "BASE TABLE".toList
  | .view _, type => type = "VIEW".toList
  | .systemTable _, _ => False
  | .all _, _ => True
  | .other name, type => type = name.val

end Entry

/-- Texts that are joined by commas, with blanks behind them. -/
def listOf (text : Entry → List Char) (first : Entry) (rest : List (ℕ × Entry)) : List Char :=
  text first ++ rest.flatMap fun e => ',' :: (List.replicate e.1 ' ' ++ text e.2)

/-! ## What the restriction has to mean -/

/-- What follows a type in the parentheses of an `IN`, with the types in it. -/
inductive ListTail : List Token → List (List Char) → Prop
  | nil : ListTail [] []
  | comma : ListTail [.symbol ','] []
  | cons {type tokens types} (h : ListTail tokens types) :
    ListTail (.symbol ',' :: .literal type :: tokens) (type :: types)

/-- The tokens of `tablesRest` without a restriction. -/
def restTokens : List Token := tokensOf (tablesRest []) ++ [word "TABLE_NAME"]

/-- The tokens restrict a query to the types. -/
inductive Restricts : List Token → (List Char → Prop) → Prop
  | none : Restricts restTokens fun _ => True
  | types {type tokens types} (h : ListTail tokens types) :
    Restricts (word "AND" :: word "table_type" :: word "IN" :: .symbol '(' :: .literal type ::
      (tokens ++ .symbol ')' :: restTokens)) fun t => t ∈ type :: types

/-- Behind any conditions the rewritten list restricts the query to the types that are listed. -/
def TypesMeet (first : Entry) (rest : List (ℕ × Entry)) : Prop :=
  ∃ restriction types,
    (∀ catalog schema table catalogTokens schemaTokens tableTokens,
      Sound catalog catalogTokens → Sound schema schemaTokens → Sound table tableTokens →
      lexC (getQueryDuckdbTables catalog schema table
        (rewriteTypes (listOf Entry.text first rest))) =
        some (tokensOf (textOf tablesSelect) ++ word "WHERE" :: (catalogTokens ++
          word "AND" :: (schemaTokens ++ word "AND" :: (tableTokens ++ restriction))))) ∧
    Restricts restriction types ∧
    ∀ type, types type ↔ ∃ e ∈ first :: rest.map Prod.snd, e.Means type

/-- No replacement finds anything in the name, and the engine reads it to its end. -/
structure OtherName.Plain (name : OtherName) : Prop where
  noTable : ¬"TABLE".toList <:+: name.val
  noView : ¬"VIEW".toList <:+: name.val
  noPercent : '%' ∉ name.val
  noCommas : ∀ a b c, name.val = a ++ ',' :: (b ++ ',' :: c) → ¬∀ ch ∈ b, isSpace ch = true
  noNul : '\x00' ∉ name.val

/-- An entry that can stand in a list with others. -/
def Entry.Plain : Entry → Prop
  | .all _ => False
  | .other name => name.Plain
  | _ => True

/-- Two of `SYSTEM TABLE` in a row are the last two. -/
def PairsAtEnd (entries : List Entry) : Prop :=
  ∀ before e e' after, entries = before ++ e :: e' :: after →
    e.isSystemTable = true → e'.isSystemTable = true → after = []

/-- A `%` by itself, or a list of plain entries that does not start with `SYSTEM TABLE` and has
two of them in a row at its end only. -/
def Supported (first : Entry) (rest : List (ℕ × Entry)) : Prop :=
  (∃ q, first = .all q) ∧ rest = [] ∨
    first.isSystemTable = false ∧ (∀ e ∈ first :: rest.map Prod.snd, e.Plain) ∧
      PairsAtEnd (first :: rest.map Prod.snd)

/-! ## Where a name is found -/

theorem prefix_append_cons_iff {x s b : List Char} {d : Char} (h : d ∉ x) :
    x <+: s ++ d :: b ↔ x <+: s := by
  refine ⟨fun hx => ?_, fun hx => hx.trans (List.prefix_append s _)⟩
  rcases List.prefix_or_prefix_of_prefix hx (List.prefix_append s (d :: b)) with hle | ⟨t, rfl⟩
  · exact hle
  · have ht := (List.prefix_append_right_inj s).1 hx
    cases t with
    | nil => simp
    | cons c t =>
      obtain rfl := (List.cons_prefix_cons.1 ht).1
      exact absurd (List.mem_append_right s List.mem_cons_self) h

theorem comma_notMem_quoted {name : List Char} (h : ',' ∉ name) : ',' ∉ quoted name := by
  simp [quoted, h]

/-- A name that a replacement looks for. -/
structure Wanted (name : List Char) : Prop where
  ne_nil : name ≠ []
  noQuote : '\'' ∉ name
  noComma : ',' ∉ name
  noBlank : name.head? ≠ some ' '

namespace Wanted

variable {name : List Char} (h : Wanted name) (new : List Char)
include h

theorem matchAt_cons {c : Char} (hquote : c ≠ '\'') (hc : name.head? ≠ some c) (text : List Char) :
    (quotedOr name h.ne_nil).matchAt (c :: text) = none := by
  have hquoted : ¬quoted name <+: c :: text := fun hp =>
    hquote (List.cons_prefix_cons.1 hp).1.symm
  have hname : ¬name <+: c :: text := fun hp => by
    have hne := h.ne_nil
    cases name with
    | nil => exact hne rfl
    | cons x name =>
      obtain rfl := (List.cons_prefix_cons.1 hp).1
      exact hc rfl
  simp only [quotedOr, if_neg hquoted, if_neg hname]

theorem replace_comma (a b : List Char) :
    (quotedOr name h.ne_nil).replace new (a ++ ',' :: b) =
      (quotedOr name h.ne_nil).replace new a ++ ',' :: (quotedOr name h.ne_nil).replace new b := by
  have hhead : name.head? ≠ some ',' := fun heq => h.noComma (List.mem_of_mem_head? heq)
  have hstep := h.matchAt_cons (by decide) hhead b
  rw [Pattern.replace_append fun s _ _ => ?_, Pattern.replace_cons hstep]
  simp only [quotedOr, prefix_append_cons_iff (comma_notMem_quoted h.noComma),
    prefix_append_cons_iff h.noComma]

theorem replace_blanks (n : ℕ) (text : List Char) :
    (quotedOr name h.ne_nil).replace new (List.replicate n ' ' ++ text) =
      List.replicate n ' ' ++ (quotedOr name h.ne_nil).replace new text := by
  induction n with
  | zero => rfl
  | succ n ih =>
    rw [List.replicate_succ, List.cons_append,
      Pattern.replace_cons (h.matchAt_cons (by decide) h.noBlank _), ih, List.cons_append]

/-- A replacement of names goes through a list piece by piece. -/
theorem replace_listOf (text : Entry → List Char) (first : Entry) (rest : List (ℕ × Entry)) :
    (quotedOr name h.ne_nil).replace new (listOf text first rest) =
      listOf (fun e => (quotedOr name h.ne_nil).replace new (text e)) first rest := by
  have hall : ∀ a : List Char, (quotedOr name h.ne_nil).replace new
      (a ++ rest.flatMap fun e => ',' :: (List.replicate e.1 ' ' ++ text e.2)) =
        (quotedOr name h.ne_nil).replace new a ++ rest.flatMap fun e =>
          ',' :: (List.replicate e.1 ' ' ++ (quotedOr name h.ne_nil).replace new (text e.2)) := by
    induction rest with
    | nil => intro a; simp
    | cons e rest ih =>
      intro a
      rw [List.flatMap_cons, List.cons_append, h.replace_comma, ih, h.replace_blanks,
        List.flatMap_cons, List.cons_append]
  exact hall (text first)

/-- A quoted name and what does not start like the name that is looked for. -/
theorem replace_quoted {other : List Char} (hother : '\'' ∉ other) (hne : other ≠ name)
    {r : List Char} (hr : r.head? ≠ name.head?) :
    (quotedOr name h.ne_nil).replace new (quoted other ++ r) =
      '\'' :: ((quotedOr name h.ne_nil).replace new other ++
        '\'' :: (quotedOr name h.ne_nil).replace new r) := by
  have hname : ∀ text : List Char, ¬name <+: '\'' :: text := fun text hp =>
    h.ne_nil (List.prefix_nil.1 ((prefix_append_cons_iff (s := []) h.noQuote).1 hp))
  have hopen : (quotedOr name h.ne_nil).matchAt ('\'' :: (other ++ '\'' :: r)) = none := by
    have hquoted : ¬quoted name <+: '\'' :: (other ++ '\'' :: r) := fun hp => by
      have htext := (List.cons_prefix_cons.1 hp).2
      have hle := (prefix_append_cons_iff h.noQuote).1
        ((List.prefix_append name ['\'']).trans htext)
      obtain ⟨t, ht⟩ := htext
      have hge := (prefix_append_cons_iff (b := t) hother).1 (by
        rw [← List.singleton_append, ← List.append_assoc, ht]
        exact List.prefix_append other _)
      exact hne (hge.eq_of_length_le hle.length_le)
    simp only [quotedOr, if_neg hquoted, if_neg (hname _)]
  have hclose : (quotedOr name h.ne_nil).matchAt ('\'' :: r) = none := by
    have hquoted : ¬quoted name <+: '\'' :: r := fun hp => by
      obtain ⟨t, rfl⟩ := (List.cons_prefix_cons.1 hp).2
      rw [List.append_assoc, List.head?_append_of_ne_nil _ h.ne_nil] at hr
      exact hr rfl
    simp only [quotedOr, if_neg hquoted, if_neg (hname _)]
  have hinner : (quotedOr name h.ne_nil).replace new (other ++ '\'' :: r) =
      (quotedOr name h.ne_nil).replace new other ++
        (quotedOr name h.ne_nil).replace new ('\'' :: r) := by
    refine Pattern.replace_append fun s hs hnil => ?_
    cases s with
    | nil => exact absurd rfl hnil
    | cons c s =>
      have hc : c ≠ '\'' := fun heq => hother (heq ▸ hs.mem List.mem_cons_self)
      have hquoted : ∀ text : List Char, ¬quoted name <+: c :: text := fun text hp =>
        hc (List.cons_prefix_cons.1 hp).1.symm
      have hprefix := prefix_append_cons_iff (s := c :: s) (b := r) h.noQuote
      rw [List.cons_append] at hprefix ⊢
      simp only [quotedOr, if_neg (hquoted _), hprefix]
  rw [quoted, List.cons_append, List.append_assoc, List.singleton_append,
    Pattern.replace_cons hopen, hinner, Pattern.replace_cons hclose]

/-- The name itself in quotes. -/
theorem replace_quoted_self (r : List Char) :
    (quotedOr name h.ne_nil).replace new (quoted name ++ r) =
      new ++ (quotedOr name h.ne_nil).replace new r := by
  have hmatch : (quotedOr name h.ne_nil).matchAt (quoted name ++ r) = some (name.length + 2) := by
    simp only [quotedOr, if_pos (List.prefix_append (quoted name) r)]
  have hlength : (quoted name).length = name.length + 2 := by simp [quoted]
  rw [Pattern.replace_match hmatch, ← hlength, List.drop_left]

/-- In a text without quotes only the name itself is found. -/
theorem free_iff {text : List Char} (htext : '\'' ∉ text) :
    (quotedOr name h.ne_nil).Free text ↔ ¬name <:+: text := by
  constructor
  · rintro hfree ⟨a, b, rfl⟩
    have hnone := hfree (name ++ b) ⟨a, by rw [List.append_assoc]⟩
    have hprefix := List.prefix_append name b
    by_cases hquoted : quoted name <+: name ++ b
    · simp only [quotedOr, if_pos hquoted] at hnone
      cases hnone
    · simp only [quotedOr, if_neg hquoted, if_pos hprefix] at hnone
      cases hnone
  · intro hfound s hs
    have hname : ¬name <+: s := fun hp => hfound (hp.isInfix.trans hs.isInfix)
    have hquoted : ¬quoted name <+: s := fun hp =>
      htext (hs.mem (hp.mem (List.mem_cons_self : '\'' ∈ quoted name)))
    simp only [quotedOr, if_neg hquoted, if_neg hname]

end Wanted

/-! ## Where two commas are found -/

/-- Neither a comma nor white space. -/
def isInner (ch : Char) : Bool := ch != ',' && !isSpace ch

theorem twoCommas_cons {c : Char} (hc : c ≠ ',') (text : List Char) :
    twoCommas.matchAt (c :: text) = none := by
  simp only [twoCommas]
  split
  · rename_i heq
    exact absurd (List.cons.inj heq).1 hc
  · rfl

theorem twoCommas_blanks (n : ℕ) {text : List Char}
    (htext : ∀ c, text.head? = some c → isSpace c = false) :
    twoCommas.matchAt (',' :: (List.replicate n ' ' ++ text)) =
      if text.head? = some ',' then some (n + 2) else none := by
  have hblanks : ∀ c ∈ List.replicate n ' ', isSpace c = true := fun c hc => by
    obtain rfl := List.eq_of_mem_replicate hc
    rfl
  have hdrop : text.dropWhile isSpace = text ∧ text.takeWhile isSpace = [] := by
    cases text with
    | nil => exact ⟨rfl, rfl⟩
    | cons c text =>
      have hc := htext c rfl
      exact ⟨List.dropWhile_cons_of_neg (by simp [hc]), List.takeWhile_cons_of_neg (by simp [hc])⟩
  have hrest : (List.replicate n ' ' ++ text).dropWhile isSpace = text := by
    rw [List.dropWhile_append_of_pos hblanks, hdrop.1]
  have htake : ((List.replicate n ' ' ++ text).takeWhile isSpace).length = n := by
    rw [List.takeWhile_append_of_pos hblanks, hdrop.2, List.append_nil, List.length_replicate]
  simp only [twoCommas, hrest, htake]

/-- A text that does not end in white space or a comma keeps its matches to itself. -/
theorem twoCommas_append {a : List Char} {c : Char} (hc : isInner c = true) {s : List Char}
    (hs : s <:+ a ++ [c]) (hne : s ≠ []) (b : List Char) :
    twoCommas.matchAt (s ++ b) = twoCommas.matchAt s := by
  simp only [isInner, Bool.and_eq_true, bne_iff_ne, Bool.not_eq_true'] at hc
  obtain ⟨s, d, rfl⟩ := List.eq_nil_or_concat' s |>.resolve_left hne
  obtain ⟨p, hp⟩ := hs
  rw [← List.append_assoc] at hp
  obtain rfl := List.singleton_inj.1 (List.append_inj' hp rfl).2
  cases s with
  | nil => rw [List.nil_append, List.singleton_append, twoCommas_cons hc.1, twoCommas_cons hc.1]
  | cons e s =>
    by_cases he : e = ','
    · subst he
      have hdrop : (s ++ [d]).dropWhile isSpace ≠ [] := fun hnil => by
        have hall := List.dropWhile_eq_nil_iff.1 hnil d (List.mem_append_right s List.mem_cons_self)
        rw [hc.2] at hall
        cases hall
      have htake : ((s ++ [d]).takeWhile isSpace).length ≠ (s ++ [d]).length := fun hlength => by
        have hsplit := congrArg List.length
          (List.takeWhile_append_dropWhile (p := isSpace) (l := s ++ [d]))
        rw [List.length_append] at hsplit
        exact hdrop (List.length_eq_zero_iff.1 (by omega))
      have hdropAppend : (s ++ [d] ++ b).dropWhile isSpace = (s ++ [d]).dropWhile isSpace ++ b := by
        rw [List.dropWhile_append, if_neg (by simpa using hdrop)]
      have htakeAppend : (s ++ [d] ++ b).takeWhile isSpace = (s ++ [d]).takeWhile isSpace := by
        rw [List.takeWhile_append, if_neg htake]
      rw [List.cons_append, List.cons_append]
      simp only [twoCommas, hdropAppend, htakeAppend, List.head?_append_of_ne_nil _ hdrop]
    · rw [List.cons_append, List.cons_append, twoCommas_cons he, twoCommas_cons he]

/-- Nothing of the text can go with a comma beside it. -/
structure Solid (text : List Char) : Prop where
  first : ∃ c r, text = c :: r ∧ isInner c = true
  last : ∃ r c, text = r ++ [c] ∧ isInner c = true

theorem Solid.replace_append {text : List Char} (h : Solid text) (b : List Char) :
    twoCommas.replace [','] (text ++ b) =
      twoCommas.replace [','] text ++ twoCommas.replace [','] b := by
  obtain ⟨r, c, rfl, hc⟩ := h.last
  exact Pattern.replace_append fun s hs hne => twoCommas_append hc hs hne b

theorem Solid.head?_ne {text : List Char} (h : Solid text) (b : List Char) :
    (text ++ b).head? ≠ some ',' ∧ ∀ c, (text ++ b).head? = some c → isSpace c = false := by
  obtain ⟨c, r, rfl, hc⟩ := h.first
  simp only [isInner, Bool.and_eq_true, bne_iff_ne, Bool.not_eq_true'] at hc
  refine ⟨fun heq => hc.1 (Option.some.inj heq), fun d hd => ?_⟩
  obtain rfl := Option.some.inj hd
  exact hc.2

theorem twoCommas_replace_blanks (n : ℕ) (text : List Char) :
    twoCommas.replace [','] (List.replicate n ' ' ++ text) =
      List.replicate n ' ' ++ twoCommas.replace [','] text := by
  induction n with
  | zero => rfl
  | succ n ih =>
    rw [List.replicate_succ, List.cons_append, Pattern.replace_cons (twoCommas_cons (by decide) _),
      ih, List.cons_append]

theorem drop_blanks (n : ℕ) (rest : List Char) :
    (',' :: (List.replicate n ' ' ++ ',' :: rest)).drop (n + 2) = rest := by
  rw [List.drop_succ_cons]
  induction n with
  | zero => rfl
  | succ n ih => exact ih

/-- What is left of a list without the types of `text` that are empty : each of them goes with the
comma before it, and the comma behind it counts no more. -/
def kept : List (ℕ × Entry) → List (ℕ × Entry)
  | [] => []
  | [e] => [e]
  | e :: e' :: rest =>
    if e.2.isSystemTable then e' :: kept rest else e :: kept (e' :: rest)

/-- The list behind its first type : each type comes after a comma and so many blanks. -/
def tailOf (text : Entry → List Char) (rest : List (ℕ × Entry)) : List Char :=
  rest.flatMap fun e => ',' :: (List.replicate e.1 ' ' ++ text e.2)

theorem tailOf_cons (text : Entry → List Char) (e : ℕ × Entry) (rest : List (ℕ × Entry)) :
    tailOf text (e :: rest) =
      ',' :: (List.replicate e.1 ' ' ++ (text e.2 ++ tailOf text rest)) := by
  simp [tailOf]

section Commas

variable {text : Entry → List Char} (hsystem : ∀ e : Entry, e.isSystemTable = true → text e = [])
  (hsolid : ∀ e : Entry, e.isSystemTable = false → Solid (text e))
include hsystem hsolid

theorem replace_piece (e : Entry) (b : List Char) : twoCommas.replace [','] (text e ++ b) =
    twoCommas.replace [','] (text e) ++ twoCommas.replace [','] b := by
  cases he : e.isSystemTable with
  | true =>
    rw [hsystem e he]
    rfl
  | false => exact (hsolid e he).replace_append b

theorem replace_solid {e : ℕ × Entry} (he : e.2.isSystemTable = false) (rest : List (ℕ × Entry)) :
    twoCommas.replace [','] (tailOf text (e :: rest)) =
      ',' :: (List.replicate e.1 ' ' ++ (twoCommas.replace [','] (text e.2) ++
        twoCommas.replace [','] (tailOf text rest))) := by
  obtain ⟨hcomma, hspace⟩ := (hsolid e.2 he).head?_ne (tailOf text rest)
  have hnone := twoCommas_blanks e.1 hspace
  rw [if_neg hcomma] at hnone
  rw [tailOf_cons, Pattern.replace_cons hnone, twoCommas_replace_blanks,
    replace_piece hsystem hsolid]

theorem replace_tailOf (rest : List (ℕ × Entry)) :
    twoCommas.replace [','] (tailOf text rest) =
      tailOf (fun e => twoCommas.replace [','] (text e)) (kept rest) := by
  induction rest using kept.induct with
  | case1 => rfl
  | case2 e =>
    cases he : e.2.isSystemTable with
    | true =>
      have hnone := @twoCommas_blanks e.1 [] nofun
      rw [if_neg nofun] at hnone
      rw [kept, tailOf_cons, tailOf_cons, hsystem e.2 he]
      simp only [tailOf, List.flatMap_nil, List.append_nil] at hnone ⊢
      have hblanks := twoCommas_replace_blanks e.1 []
      rw [List.append_nil] at hblanks
      rw [Pattern.replace_cons hnone, hblanks]
    | false =>
      rw [replace_solid hsystem hsolid he, kept, tailOf_cons]
      rfl
  | case3 e e' rest he ih =>
    -- the comma of the next one is the second of two
    rw [kept, if_pos he, tailOf_cons, hsystem e.2 he, List.nil_append, tailOf_cons]
    have hspace : ∀ c, (',' :: (List.replicate e'.1 ' ' ++ (text e'.2 ++ tailOf text rest))).head? =
        some c → isSpace c = false := by
      rintro c ⟨⟩
      rfl
    have hmatch := twoCommas_blanks e.1 hspace
    rw [List.head?_cons, if_pos rfl] at hmatch
    rw [Pattern.replace_match hmatch, drop_blanks, twoCommas_replace_blanks,
      replace_piece hsystem hsolid, ih, tailOf_cons]
    rfl
  | case4 e e' rest he ih =>
    rw [replace_solid hsystem hsolid (Bool.eq_false_iff.2 he), ih, kept, if_neg he, tailOf_cons]

theorem replace_commas (first : Entry) (rest : List (ℕ × Entry)) :
    twoCommas.replace [','] (listOf text first rest) =
      listOf (fun e => twoCommas.replace [','] (text e)) first (kept rest) := by
  have hpiece := replace_piece hsystem hsolid first (tailOf text rest)
  rw [replace_tailOf hsystem hsolid] at hpiece
  exact hpiece

end Commas

/-! ## What becomes of an entry -/

theorem wanted_systemTable : Wanted "SYSTEM TABLE".toList :=
  ⟨by decide, by decide, by decide, by decide⟩

theorem wanted_table : Wanted "TABLE".toList := ⟨by decide, by decide, by decide, by decide⟩

theorem wanted_view : Wanted "VIEW".toList := ⟨by decide, by decide, by decide, by decide⟩

theorem wanted_percent : Wanted "%".toList := ⟨by decide, by decide, by decide, by decide⟩

theorem Wanted.replace_quoted_nil {name other : List Char} (h : Wanted name) (new : List Char)
    (hother : '\'' ∉ other) (hne : other ≠ name) :
    (quotedOr name h.ne_nil).replace new (quoted other) =
      quoted ((quotedOr name h.ne_nil).replace new other) := by
  have hhead : ([] : List Char).head? ≠ name.head? := fun heq =>
    h.ne_nil (List.head?_eq_none_iff.1 heq.symm)
  have hquoted := h.replace_quoted new hother hne hhead
  rwa [List.append_nil] at hquoted

theorem OtherName.ne_of_mem (name : OtherName) {special : List Char}
    (h : special ∈ ["TABLE".toList, "VIEW".toList, "SYSTEM TABLE".toList, "%".toList]) :
    name.val ≠ special := fun heq => name.notSpecial (heq ▸ h)

theorem replace_other (name : OtherName) : systemTable.replace [] (quoted name.val) =
    quoted (systemTable.replace [] name.val) :=
  wanted_systemTable.replace_quoted_nil [] name.noQuote (name.ne_of_mem (by decide))

theorem solid_quoted (text : List Char) : Solid (quoted text) :=
  ⟨⟨_, _, rfl, rfl⟩, ⟨'\'' :: text, '\'', rfl, rfl⟩⟩

theorem replace_text_systemTable {e : Entry} (h : e.isSystemTable = true) :
    systemTable.replace [] e.text = [] := by
  cases e with
  | systemTable q =>
    cases q with
    | false => decide
    | true => decide
  | _ => cases h

theorem solid_replace_text {e : Entry} (h : e.isSystemTable = false) :
    Solid (systemTable.replace [] e.text) := by
  cases e with
  | systemTable q => cases h
  | other name =>
    have hreplace := replace_other name
    exact hreplace ▸ solid_quoted _
  | table q =>
    cases q with
    | false => exact ⟨⟨'T', "ABLE".toList, by decide, rfl⟩, ⟨"TABL".toList, 'E', by decide, rfl⟩⟩
    | true => exact (by decide : systemTable.replace [] (quoted "TABLE".toList) =
        quoted "TABLE".toList) ▸ solid_quoted "TABLE".toList
  | view q =>
    cases q with
    | false => exact ⟨⟨'V', "IEW".toList, by decide, rfl⟩, ⟨"VIE".toList, 'W', by decide, rfl⟩⟩
    | true => exact (by decide : systemTable.replace [] (quoted "VIEW".toList) =
        quoted "VIEW".toList) ▸ solid_quoted "VIEW".toList
  | all q =>
    cases q with
    | false => exact ⟨⟨'%', [], by decide, rfl⟩, ⟨[], '%', by decide, rfl⟩⟩
    | true => exact (by decide : systemTable.replace [] (quoted "%".toList) =
        quoted "%".toList) ▸ solid_quoted "%".toList

/-- What an entry is rewritten to by itself. -/
def Entry.image (e : Entry) : List Char := rewriteTypes e.text

theorem rewriteTypes_listOf (first : Entry) (rest : List (ℕ × Entry)) :
    rewriteTypes (listOf Entry.text first rest) = listOf Entry.image first (kept rest) := by
  have hremove := wanted_systemTable.replace_listOf [] Entry.text first rest
  have hcommas := replace_commas (fun e he => replace_text_systemTable he)
    (fun e he => solid_replace_text he) first rest
  unfold rewriteTypes
  unfold systemTable at hcommas ⊢
  rw [hremove, hcommas]
  unfold baseTable viewType allTypes
  rw [wanted_table.replace_listOf, wanted_view.replace_listOf, wanted_percent.replace_listOf]
  rfl

/-- A quoted text with a char behind its second quote that cannot be there. -/
def Broken (chars text : List Char) : Prop :=
  ∃ p c r, '\'' ∉ p ∧ c ∈ chars ∧ text = quoted p ++ c :: r

/-- What a replacement makes of a quoted text : it is what is looked for, it stays, or it is torn
apart. -/
theorem Wanted.replace_cases {name : List Char} (h : Wanted name) {c : Char} {v p r : List Char}
    (hp : '\'' ∉ p) (hr : r.head? ≠ name.head?) :
    (p = name ∧ (quotedOr name h.ne_nil).replace (quoted (c :: v)) (quoted p ++ r) =
      quoted (c :: v) ++ (quotedOr name h.ne_nil).replace (quoted (c :: v)) r) ∨
    (¬name <:+: p ∧ (quotedOr name h.ne_nil).replace (quoted (c :: v)) (quoted p ++ r) =
      quoted p ++ (quotedOr name h.ne_nil).replace (quoted (c :: v)) r) ∨
    (p ≠ name ∧ name <:+: p ∧
      Broken [c] ((quotedOr name h.ne_nil).replace (quoted (c :: v)) (quoted p ++ r))) := by
  by_cases hne : p = name
  · subst hne
    exact .inl ⟨rfl, h.replace_quoted_self _ r⟩
  have hquoted := h.replace_quoted (quoted (c :: v)) hp hne hr
  by_cases hfound : name <:+: p
  · obtain ⟨a, b, n, rfl, -, hreplace⟩ :=
      @Pattern.exists_first _ _ (quoted (c :: v)) p fun hfree => (h.free_iff hp).1 hfree hfound
    refine .inr (.inr ⟨hne, hfound, a, c,
      v ++ '\'' :: ((quotedOr name h.ne_nil).replace (quoted (c :: v)) (b.drop n) ++
        '\'' :: (quotedOr name h.ne_nil).replace (quoted (c :: v)) r),
      fun hmem => hp (List.mem_append_left b hmem), List.mem_cons_self, ?_⟩)
    rw [hquoted, hreplace]
    simp [quoted]
  · rw [Pattern.replace_of_free ((h.free_iff hp).2 hfound)] at hquoted
    refine .inr (.inl ⟨hfound, ?_⟩)
    rw [hquoted]
    simp [quoted]

theorem Wanted.quoted_cases {name : List Char} (h : Wanted name) {p : List Char} (hp : '\'' ∉ p)
    (c : Char) (v : List Char) :
    (p = name ∧ (quotedOr name h.ne_nil).replace (quoted (c :: v)) (quoted p) = quoted (c :: v)) ∨
    (¬name <:+: p ∧ (quotedOr name h.ne_nil).replace (quoted (c :: v)) (quoted p) = quoted p) ∨
    (p ≠ name ∧ name <:+: p ∧
      Broken [c] ((quotedOr name h.ne_nil).replace (quoted (c :: v)) (quoted p))) := by
  have hhead : ([] : List Char).head? ≠ name.head? := fun heq =>
    h.ne_nil (List.head?_eq_none_iff.1 heq.symm)
  have hcases := @Wanted.replace_cases name h c v p [] hp hhead
  simpa only [Pattern.replace_nil, List.append_nil] using hcases

theorem Wanted.broken_replace {name : List Char} (h : Wanted name) {c : Char} {v : List Char}
    (hv : '\'' ∉ c :: v) {chars text : List Char}
    (hchars : ∀ d ∈ chars, d ≠ '\'' ∧ name.head? ≠ some d) (htext : Broken chars text) :
    Broken (c :: chars) ((quotedOr name h.ne_nil).replace (quoted (c :: v)) text) := by
  obtain ⟨p, d, r, hp, hd, rfl⟩ := htext
  obtain ⟨hquote, hhead⟩ := hchars d hd
  have hstep : (quotedOr name h.ne_nil).replace (quoted (c :: v)) (d :: r) =
      d :: (quotedOr name h.ne_nil).replace (quoted (c :: v)) r :=
    Pattern.replace_cons (h.matchAt_cons hquote hhead r)
  rcases @Wanted.replace_cases name h c v p (d :: r) hp fun heq => hhead heq.symm with
    ⟨-, heq⟩ | ⟨-, heq⟩ | ⟨-, -, hbroken⟩
  · exact ⟨_, d, _, hv, List.mem_cons_of_mem c hd, by rw [heq, hstep]⟩
  · exact ⟨p, d, _, hp, List.mem_cons_of_mem c hd, by rw [heq, hstep]⟩
  · obtain ⟨a, e, R, ha, he, heq⟩ := hbroken
    obtain rfl := List.mem_singleton.1 he
    exact ⟨a, e, R, ha, List.mem_cons_self, heq⟩

/-- The last three replacements. -/
def nameTypes (text : List Char) : List Char :=
  allTypes.replace (quoted "%".toList) <| viewType.replace (quoted "VIEW".toList) <|
    baseTable.replace (quoted "BASE TABLE".toList) text

/-- The first chars of what is put in quotes. -/
def newStarts : List Char := ['%', 'V', 'B']

theorem broken_viewType {text : List Char} (h : Broken ['B'] text) :
    Broken ['V', 'B'] (viewType.replace (quoted "VIEW".toList) text) :=
  wanted_view.broken_replace (by decide) (List.forall_mem_singleton.2 (by decide)) h

theorem broken_allTypes {text : List Char} (h : Broken ['V', 'B'] text) :
    Broken newStarts (allTypes.replace (quoted "%".toList) text) :=
  wanted_percent.broken_replace (by decide)
    (List.forall_mem_cons.2 ⟨by decide, List.forall_mem_singleton.2 (by decide)⟩) h

/-- A name in quotes becomes one of the three, or it stays, or it is torn apart. -/
theorem nameTypes_cases {p : List Char} (hp : '\'' ∉ p) :
    (p = "TABLE".toList ∧ nameTypes (quoted p) = quoted "BASE TABLE".toList) ∨
    (nameTypes (quoted p) = quoted p ∧ (p = "VIEW".toList ∨ p = "%".toList ∨
      ¬"TABLE".toList <:+: p ∧ ¬"VIEW".toList <:+: p ∧ ¬"%".toList <:+: p)) ∨
    Broken newStarts (nameTypes (quoted p)) := by
  rcases wanted_table.quoted_cases hp 'B' "ASE TABLE".toList with
    ⟨rfl, -⟩ | ⟨htable, heq⟩ | ⟨-, -, hbroken⟩
  · exact .inl ⟨rfl, by decide⟩
  · have hbase : baseTable.replace (quoted "BASE TABLE".toList) (quoted p) = quoted p := heq
    rw [nameTypes, hbase]
    rcases wanted_view.quoted_cases hp 'V' "IEW".toList with
      ⟨rfl, -⟩ | ⟨hview, heq⟩ | ⟨-, -, hbroken⟩
    · exact .inr (.inl ⟨by decide, .inl rfl⟩)
    · have hkeep : viewType.replace (quoted "VIEW".toList) (quoted p) = quoted p := heq
      rw [hkeep]
      rcases wanted_percent.quoted_cases hp '%' [] with
        ⟨rfl, -⟩ | ⟨hpercent, heq⟩ | ⟨-, -, hbroken⟩
      · exact .inr (.inl ⟨by decide, .inr (.inl rfl)⟩)
      · exact .inr (.inl ⟨heq, .inr (.inr ⟨htable, hview, hpercent⟩)⟩)
      · obtain ⟨a, c, r, ha, hc, heq⟩ := hbroken
        obtain rfl := List.mem_singleton.1 hc
        exact .inr (.inr ⟨a, _, r, ha, by decide, heq⟩)
    · exact .inr (.inr (broken_allTypes (by
        obtain ⟨a, c, r, ha, hc, heq⟩ := hbroken
        obtain rfl := List.mem_singleton.1 hc
        exact ⟨a, _, r, ha, by decide, heq⟩)))
  · exact .inr (.inr (broken_allTypes (broken_viewType hbroken)))

/-- A char that is neither a comma nor white space ends the search for a second comma. -/
theorem twoCommas_stop {d : Char} (hd : isInner d = true) {s : List Char} (hs : s ≠ [])
    (b : List Char) : twoCommas.matchAt (s ++ d :: b) = twoCommas.matchAt s := by
  simp only [isInner, Bool.and_eq_true, bne_iff_ne, Bool.not_eq_true'] at hd
  cases s with
  | nil => exact absurd rfl hs
  | cons e s =>
    by_cases he : e = ','
    · subst he
      have hkeep : (d :: b).dropWhile isSpace = d :: b :=
        List.dropWhile_cons_of_neg (by simp [hd.2])
      rw [List.cons_append]
      by_cases hall : s.dropWhile isSpace = []
      · have hdrop : (s ++ d :: b).dropWhile isSpace = d :: b := by
          rw [List.dropWhile_append, if_pos (by simpa using hall), hkeep]
        have hhead : (d :: b).head? ≠ some ',' := fun heq => hd.1 (Option.some.inj heq)
        simp only [twoCommas, hdrop, hall, if_neg hhead, List.head?_nil]
        rfl
      · have hdrop : (s ++ d :: b).dropWhile isSpace = s.dropWhile isSpace ++ d :: b := by
          rw [List.dropWhile_append, if_neg (by simpa using hall)]
        have htake : (s.takeWhile isSpace).length ≠ s.length := fun hlength => by
          have hsplit := congrArg List.length
            (List.takeWhile_append_dropWhile (p := isSpace) (l := s))
          rw [List.length_append] at hsplit
          exact hall (List.length_eq_zero_iff.1 (by omega))
        have htakeAppend : (s ++ d :: b).takeWhile isSpace = s.takeWhile isSpace := by
          rw [List.takeWhile_append, if_neg htake]
        simp only [twoCommas, hdrop, htakeAppend, List.head?_append_of_ne_nil _ hall]
    · rw [List.cons_append, twoCommas_cons he, twoCommas_cons he]

theorem twoCommas_replace_quoted (text : List Char) :
    twoCommas.replace [','] (quoted text) = quoted (twoCommas.replace [','] text) := by
  have hinner : twoCommas.replace [','] (text ++ ['\'']) =
      twoCommas.replace [','] text ++ twoCommas.replace [','] ['\''] :=
    Pattern.replace_append fun s _ hs => twoCommas_stop (by decide) hs []
  rw [quoted, Pattern.replace_cons (twoCommas_cons (by decide) _), hinner]
  rfl

theorem free_twoCommas_iff {text : List Char} : twoCommas.Free text ↔
    ∀ a b c, text = a ++ ',' :: (b ++ ',' :: c) → ¬∀ ch ∈ b, isSpace ch = true := by
  constructor
  · rintro hfree a b c rfl hb
    have hnone := hfree _ (List.suffix_append a (',' :: (b ++ ',' :: c)))
    have hdrop : (b ++ ',' :: c).dropWhile isSpace = ',' :: c := by
      rw [List.dropWhile_append_of_pos hb]
      rfl
    simp only [twoCommas, hdrop, List.head?_cons, if_true] at hnone
    cases hnone
  · intro h s hs
    obtain ⟨a, rfl⟩ := hs
    cases s with
    | nil => rfl
    | cons e s =>
      by_cases he : e = ','
      · subst he
        by_cases hcomma : (s.dropWhile isSpace).head? = some ','
        · have hsplit := List.takeWhile_append_dropWhile (p := isSpace) (l := s)
          cases hdrop : s.dropWhile isSpace with
          | nil =>
            rw [hdrop] at hcomma
            cases hcomma
          | cons d c =>
            rw [hdrop] at hcomma hsplit
            obtain rfl := Option.some.inj hcomma
            refine absurd (fun ch hch => List.mem_takeWhile_imp hch)
              (h a (s.takeWhile isSpace) c (by rw [hsplit]))
        · simp only [twoCommas, if_neg hcomma]
      · exact twoCommas_cons he s

/-- What is in the quotes of a name before the last three replacements. -/
def OtherName.left (name : OtherName) : List Char :=
  twoCommas.replace [','] (systemTable.replace [] name.val)

theorem OtherName.image_eq (name : OtherName) :
    (Entry.other name).image = nameTypes (quoted name.left) := by
  have htext : (Entry.other name).text = quoted name.val := rfl
  rw [Entry.image, htext, rewriteTypes, replace_other, twoCommas_replace_quoted]
  rfl

theorem OtherName.noQuote_left (name : OtherName) : '\'' ∉ name.left := fun hmem => by
  rcases Pattern.mem_replace hmem with hmem | hmem
  · exact absurd hmem (by decide)
  · rcases Pattern.mem_replace hmem with hmem | hmem
    · cases hmem
    · exact name.noQuote hmem

theorem systemTable_gap {text : List Char} {n : ℕ} (h : systemTable.matchAt text = some n) :
    ([] : List Char).length + 12 ≤ n := by
  simp only [systemTable, quotedOr] at h
  split at h
  · obtain rfl := Option.some.inj h
    decide
  · split at h
    · obtain rfl := Option.some.inj h
      decide
    · cases h

theorem twoCommas_gap {text : List Char} {n : ℕ} (h : twoCommas.matchAt text = some n) :
    [','].length + 1 ≤ n := by
  simp only [twoCommas] at h
  split at h
  · split at h
    · obtain rfl := Option.some.inj h
      exact Nat.le_add_left 2 _
    · cases h
  · cases h

/-- A name in which the first two replacements find something gets shorter, also if it ends as a
`BASE TABLE`. -/
theorem OtherName.shorter (name : OtherName)
    (h : ¬(systemTable.Free name.val ∧ twoCommas.Free (systemTable.replace [] name.val))) :
    name.left.length < name.val.length ∧
      (name.left = "TABLE".toList → "BASE TABLE".toList.length < name.val.length) := by
  have hleft : name.left.length ≤ (systemTable.replace [] name.val).length :=
    Pattern.length_replace_le twoCommas_gap _
  by_cases hfree : systemTable.Free name.val
  · have hcommas : ¬twoCommas.Free (systemTable.replace [] name.val) := fun hcommas =>
      h ⟨hfree, hcommas⟩
    rw [Pattern.replace_of_free hfree] at hcommas
    have hless := Pattern.length_replace_of_not_free twoCommas_gap hcommas
    have heq : name.left = twoCommas.replace [','] name.val := by
      rw [OtherName.left, Pattern.replace_of_free hfree]
    rw [heq]
    refine ⟨by omega, fun htable => ?_⟩
    -- a comma is left
    obtain ⟨a, b, n, -, -, hreplace⟩ := @Pattern.exists_first _ _ [','] _ hcommas
    have hcomma : ',' ∈ twoCommas.replace [','] name.val := by
      rw [hreplace]
      simp
    rw [htable] at hcomma
    exact absurd hcomma (by decide)
  · have hless := Pattern.length_replace_of_not_free systemTable_gap hfree
    refine ⟨by omega, fun htable => ?_⟩
    rw [htable] at hleft
    have htableLength : "TABLE".toList.length = 5 := rfl
    have hbaseLength : "BASE TABLE".toList.length = 10 := rfl
    omega

theorem infix_systemTable {text : List Char} (h : "SYSTEM TABLE".toList <:+: text) :
    "TABLE".toList <:+: text :=
  List.IsInfix.trans ⟨"SYSTEM ".toList, [], rfl⟩ h

/-- A name that nothing is found in stays; any other one gets shorter or is torn apart. -/
theorem OtherName.image_cases (name : OtherName) :
    ((Entry.other name).image = quoted name.val ∧ ('\x00' ∉ name.val → name.Plain)) ∨
    (∃ v, '\'' ∉ v ∧ (Entry.other name).image = quoted v ∧ v.length < name.val.length) ∨
    Broken newStarts (Entry.other name).image := by
  rw [name.image_eq]
  by_cases hfree : systemTable.Free name.val ∧ twoCommas.Free (systemTable.replace [] name.val)
  · have hleft : name.left = name.val := by
      rw [OtherName.left, Pattern.replace_of_free hfree.2, Pattern.replace_of_free hfree.1]
    have hcommas := hfree.2
    rw [Pattern.replace_of_free hfree.1] at hcommas
    rw [hleft]
    rcases nameTypes_cases name.noQuote with ⟨htable, -⟩ | ⟨heq, hcases⟩ | hbroken
    · exact absurd htable (name.ne_of_mem (by decide))
    · rcases hcases with hview | hpercent | ⟨htable, hview, hpercent⟩
      · exact absurd hview (name.ne_of_mem (by decide))
      · exact absurd hpercent (name.ne_of_mem (by decide))
      · refine .inl ⟨heq, fun hnul => ⟨htable, hview, fun hmem => hpercent ?_,
          free_twoCommas_iff.1 hcommas, hnul⟩⟩
        obtain ⟨a, b, hab⟩ := List.append_of_mem hmem
        exact ⟨a, b, by rw [hab, List.append_assoc]; rfl⟩
    · exact .inr (.inr hbroken)
  · obtain ⟨hless, hbase⟩ := name.shorter hfree
    rcases nameTypes_cases name.noQuote_left with ⟨htable, heq⟩ | ⟨heq, -⟩ | hbroken
    · exact .inr (.inl ⟨_, by decide, heq, hbase htable⟩)
    · exact .inr (.inl ⟨_, name.noQuote_left, heq, hless⟩)
    · exact .inr (.inr hbroken)

theorem OtherName.image_of_plain {name : OtherName} (h : name.Plain) :
    (Entry.other name).image = quoted name.val := by
  have hsystem : systemTable.Free name.val :=
    (wanted_systemTable.free_iff name.noQuote).2 fun hfound => h.noTable (infix_systemTable hfound)
  have hleft : name.left = name.val := by
    rw [OtherName.left, Pattern.replace_of_free hsystem,
      Pattern.replace_of_free (free_twoCommas_iff.2 h.noCommas)]
  have hpercent : ¬"%".toList <:+: name.val := fun hfound =>
    h.noPercent (hfound.mem (by decide))
  have hbase : baseTable.replace (quoted "BASE TABLE".toList) (quoted name.val) =
      quoted name.val := by
    unfold baseTable
    rw [wanted_table.replace_quoted_nil _ name.noQuote (name.ne_of_mem (by decide)),
      Pattern.replace_of_free ((wanted_table.free_iff name.noQuote).2 h.noTable)]
  have hview : viewType.replace (quoted "VIEW".toList) (quoted name.val) = quoted name.val := by
    unfold viewType
    rw [wanted_view.replace_quoted_nil _ name.noQuote (name.ne_of_mem (by decide)),
      Pattern.replace_of_free ((wanted_view.free_iff name.noQuote).2 h.noView)]
  have hall : allTypes.replace (quoted "%".toList) (quoted name.val) = quoted name.val := by
    unfold allTypes
    rw [wanted_percent.replace_quoted_nil _ name.noQuote (name.ne_of_mem (by decide)),
      Pattern.replace_of_free ((wanted_percent.free_iff name.noQuote).2 hpercent)]
  rw [name.image_eq, hleft, nameTypes, hbase, hview, hall]

/-! ## How the engine reads what is left -/

theorem quote_eq_quoted {name : List Char} (h : '\'' ∉ name) :
    quote .single name = quoted name := by
  rw [quote, @doubled_of_notMem .single name h]
  rfl

theorem sound_quoted {name : List Char} (hquote : '\'' ∉ name) (hnul : '\x00' ∉ name) :
    Sound (quoted name) [.literal name] := by
  rw [← quote_eq_quoted hquote]
  exact ⟨whole_quote .single name, notMem_quote hnul⟩

/-- A literal that the engine does not see the end of. -/
theorem lexC_quoted_of_nul {name : List Char} (hquote : '\'' ∉ name) (hnul : '\x00' ∈ name)
    (text : List Char) : lexC (quoted name ++ text) = none := by
  obtain ⟨a, b, rfl, ha⟩ := List.eq_append_cons_of_mem hnul
  have hquoteA : '\'' ∉ a := fun hmem => hquote (List.mem_append_left _ hmem)
  have hnulOpen : '\x00' ∉ '\'' :: a := by
    rw [List.mem_cons, not_or]
    exact ⟨by decide, ha⟩
  have hsplit : quoted (a ++ '\x00' :: b) ++ text =
      ('\'' :: a) ++ ('\x00' :: (b ++ '\'' :: text)) := by
    simp [quoted]
  have hinner := run_doubled .single [] a
  rw [@doubled_of_notMem .single a hquoteA] at hinner
  rw [hsplit, SqlLex.lexC_append hnulOpen, List.takeWhile_cons_of_neg (by decide), List.append_nil,
    lex, lexFrom_cons, step_code]
  have hstart : start '\'' = ([], .quoted .single []) := rfl
  rw [hstart, lexFrom, hinner]
  rfl

/-- Behind the literal of a broken text there is a token that cannot be there. -/
theorem lexC_broken {text rest : List Char} (h : Broken newStarts text) {tokens : List Token}
    (hlex : lexC (text ++ rest) = some tokens) :
    ∃ p t ts, tokens = .literal p :: t :: ts ∧ t ≠ .symbol ',' ∧ t ≠ .symbol ')' := by
  obtain ⟨p, c, r, hp, hc, rfl⟩ := h
  rw [List.append_assoc, List.cons_append] at hlex
  by_cases hnul : '\x00' ∈ p
  · rw [lexC_quoted_of_nul hp hnul] at hlex
    cases hlex
  have hc' : c = '%' ∨ c = 'V' ∨ c = 'B' := by simpa [newStarts] using hc
  have hcut : (c :: (r ++ rest)).takeWhile (· ≠ '\x00') =
      c :: (r ++ rest).takeWhile (· ≠ '\x00') := by
    refine List.takeWhile_cons_of_pos ?_
    rcases hc' with rfl | rfl | rfl <;> rfl
  have hclose : (c :: (r ++ rest).takeWhile (· ≠ '\x00')).head? ≠ some Mark.single.char := by
    rcases hc' with rfl | rfl | rfl <;> simp [Mark.char]
  rw [SqlLex.lexC_append (sound_quoted hp hnul).noNul, hcut, ← quote_eq_quoted hp, lex,
    SqlLex.lexFrom_append, run_quote] at hlex
  simp only [List.nil_append, Option.map_id'] at hlex
  rw [lexFrom_closing .single p hclose] at hlex
  obtain ⟨ts, hts, rfl⟩ := Option.map_eq_some_iff.1 hlex
  rw [lexFrom_cons] at hts
  obtain ⟨us, hus, rfl⟩ := Option.map_eq_some_iff.1 hts
  rcases hc' with rfl | rfl | rfl
  · exact ⟨p, .symbol '%', us, rfl, by decide, by decide⟩
  · obtain ⟨value, us, rfl⟩ := exists_of_lexFrom_word hus
    exact ⟨p, .word value, us, rfl, by simp, by simp⟩
  · obtain ⟨value, us, rfl⟩ := exists_of_lexFrom_word hus
    exact ⟨p, .word value, us, rfl, by simp, by simp⟩

/-- What comes after the list. -/
def stop : List Char := ") ".toList ++ tablesRest []

theorem lexC_tablesRest_nil : lexC (tablesRest []) = some restTokens := by decide +kernel

theorem lexC_stop : lexC stop = some (.symbol ')' :: restTokens) := by
  have hclose : Reads ") ".toList [.symbol ')'] := rfl
  rw [stop, hclose.lexC_append (by decide), lexC_tablesRest_nil]
  rfl

theorem tablesRest_of_ne {types : List Char} (hnil : types ≠ []) (hall : types ≠ "'%'".toList) :
    tablesRest types = "\n AND table_type IN (".toList ++ (types ++ stop) := by
  have htypes : typeRestriction types =
      "\n AND table_type IN (".toList ++ types ++ ") ".toList := by
    rw [typeRestriction, if_pos ⟨hnil, hall⟩]
  have hempty : typeRestriction [] = [] := by
    rw [typeRestriction, if_neg fun hand => hand.1 rfl]
  simp only [stop, tablesRest, htypes, hempty, List.append_assoc, List.nil_append]

theorem lexC_tablesRest {types : List Char} (hnil : types ≠ []) (hall : types ≠ "'%'".toList) :
    lexC (tablesRest types) = (lexC (types ++ stop)).map fun tokens =>
      word "AND" :: word "table_type" :: word "IN" :: .symbol '(' :: tokens := by
  have hopen : Reads "\n AND table_type IN (".toList
      [word "AND", word "table_type", word "IN", .symbol '('] := rfl
  rw [tablesRest_of_ne hnil hall, hopen.lexC_append (by decide)]
  rfl

theorem lexC_comma (n : ℕ) (text : List Char) :
    lexC (',' :: (List.replicate n ' ' ++ text)) = (lexC text).map (.symbol ',' :: ·) := by
  have hcomma : Reads [','] [.symbol ','] := rfl
  have hblanks : Reads (List.replicate n ' ') [] := by
    induction n with
    | zero => rfl
    | succ n ih =>
      have hblank : Reads [' '] [] := rfl
      exact hblank.append ih
  have hnul : '\x00' ∉ List.replicate n ' ' := fun hmem =>
    absurd (List.eq_of_mem_replicate hmem) (by decide)
  rw [← List.singleton_append, hcomma.lexC_append (by decide), hblanks.lexC_append hnul,
    Option.map_map]
  rfl

/-- The end of the list, or of one of its types. -/
def IsEnd (text : List Char) : Prop :=
  (∃ b, text = ',' :: b) ∨ ∃ b, text = ')' :: b

theorem isEnd_tailOf (rest : List (ℕ × Entry)) : IsEnd (tailOf Entry.image rest ++ stop) := by
  cases rest with
  | nil => exact .inr ⟨_, rfl⟩
  | cons e rest => exact .inl ⟨_, rfl⟩

theorem IsEnd.lexC_quoted {text : List Char} (h : IsEnd text) {name : List Char}
    (hquote : '\'' ∉ name) (hnul : '\x00' ∉ name) :
    lexC (quoted name ++ text) = (lexC text).map (.literal name :: ·) := by
  have hsound := sound_quoted hquote hnul
  rcases h with ⟨b, rfl⟩ | ⟨b, rfl⟩
  · exact hsound.toWhole.lexC_append hsound.noNul rfl
  · exact hsound.toWhole.lexC_append hsound.noNul rfl

theorem IsEnd.not_literal {text : List Char} (h : IsEnd text) {type : List Char}
    {tokens : List Token} : lexC text ≠ some (.literal type :: tokens) := by
  have hsymbol : ∀ {ch : Char} {b : List Char}, Reads [ch] [.symbol ch] → '\x00' ∉ [ch] →
      lexC (ch :: b) ≠ some (.literal type :: tokens) := fun {ch b} hreads hnul heq => by
    rw [← List.singleton_append, hreads.lexC_append hnul] at heq
    obtain ⟨ts, -, hts⟩ := Option.map_eq_some_iff.1 heq
    cases (List.cons.inj hts).1
  rcases h with ⟨b, rfl⟩ | ⟨b, rfl⟩
  · exact hsymbol rfl (by decide)
  · exact hsymbol rfl (by decide)

theorem Entry.image_systemTable {e : Entry} (h : e.isSystemTable = true) : e.image = [] := by
  cases e with
  | systemTable q =>
    cases q with
    | false => decide
    | true => decide
  | _ => cases h

theorem Entry.image_table (q : Bool) : (Entry.table q).image = quoted "BASE TABLE".toList := by
  cases q with
  | false => decide
  | true => decide

theorem Entry.image_view (q : Bool) : (Entry.view q).image = quoted "VIEW".toList := by
  cases q with
  | false => decide
  | true => decide

theorem Entry.image_all (q : Bool) : (Entry.all q).image = quoted "%".toList := by
  cases q with
  | false => decide
  | true => decide

/-- Every other entry leaves a literal or a broken text. -/
theorem Entry.image_cases {e : Entry} (h : e.isSystemTable = false) :
    (∃ v, '\'' ∉ v ∧ e.image = quoted v) ∨ Broken newStarts e.image := by
  cases e with
  | table q => exact .inl ⟨_, by decide, Entry.image_table q⟩
  | view q => exact .inl ⟨_, by decide, Entry.image_view q⟩
  | systemTable q => cases h
  | all q => exact .inl ⟨_, by decide, Entry.image_all q⟩
  | other name =>
    rcases name.image_cases with ⟨heq, -⟩ | ⟨v, hv, heq, -⟩ | hbroken
    · exact .inl ⟨_, name.noQuote, heq⟩
    · exact .inl ⟨v, hv, heq⟩
    · exact .inr hbroken

/-- The entry is read as the literal of a type. -/
structure Entry.Names (e : Entry) (type : List Char) : Prop where
  notSystemTable : e.isSystemTable = false
  noQuote : '\'' ∉ type
  noNul : '\x00' ∉ type
  image : e.image = quoted type

/-- An entry at the start of what is left of the list, with a token of the list behind it. -/
theorem Entry.names_of_lexC {e : Entry} {text : List Char} (hend : IsEnd text) {type : List Char}
    {token : Token} {tokens : List Token}
    (h : lexC (e.image ++ text) = some (.literal type :: token :: tokens))
    (htoken : token = .symbol ',' ∨ token = .symbol ')') :
    e.Names type ∧ lexC text = some (token :: tokens) := by
  cases hsystem : e.isSystemTable with
  | true =>
    rw [Entry.image_systemTable hsystem, List.nil_append] at h
    exact absurd h hend.not_literal
  | false =>
    rcases Entry.image_cases hsystem with ⟨v, hquote, himage⟩ | hbroken
    · rw [himage] at h
      by_cases hnul : '\x00' ∈ v
      · rw [lexC_quoted_of_nul hquote hnul] at h
        cases h
      · rw [hend.lexC_quoted hquote hnul] at h
        obtain ⟨ts, hts, heq⟩ := Option.map_eq_some_iff.1 h
        obtain ⟨hliteral, rfl⟩ := List.cons.inj heq
        obtain rfl := Token.literal.inj hliteral
        exact ⟨⟨hsystem, hquote, hnul, himage⟩, hts⟩
    · obtain ⟨p, t, ts, heq, hcomma, hclose⟩ := lexC_broken hbroken h
      obtain ⟨rfl, -⟩ := List.cons.inj (List.cons.inj heq).2
      exact absurd htoken (not_or.2 ⟨hcomma, hclose⟩)

/-- What is read first of an entry that is not a `SYSTEM TABLE`. -/
theorem Entry.literal_of_lexC {e : Entry} (h : e.isSystemTable = false) {text : List Char}
    (hend : IsEnd text) {tokens : List Token} (hlex : lexC (e.image ++ text) = some tokens) :
    ∃ type ts, tokens = .literal type :: ts := by
  rcases Entry.image_cases h with ⟨v, hquote, himage⟩ | hbroken
  · rw [himage] at hlex
    by_cases hnul : '\x00' ∈ v
    · rw [lexC_quoted_of_nul hquote hnul] at hlex
      cases hlex
    · rw [hend.lexC_quoted hquote hnul] at hlex
      obtain ⟨ts, -, rfl⟩ := Option.map_eq_some_iff.1 hlex
      exact ⟨v, ts, rfl⟩
  · obtain ⟨p, t, ts, rfl, -⟩ := lexC_broken hbroken hlex
    exact ⟨p, t :: ts, rfl⟩

/-- The entries behind a type name the types; a `SYSTEM TABLE` is the last one. -/
inductive Listed : List (ℕ × Entry) → List (List Char) → Prop
  | nil : Listed [] []
  | last {e : ℕ × Entry} (h : e.2.isSystemTable = true) : Listed [e] []
  | cons {e : ℕ × Entry} {type rest types} (hnames : e.2.Names type) (h : Listed rest types) :
    Listed (e :: rest) (type :: types)

theorem lexC_tailOf_cons (e : ℕ × Entry) (rest : List (ℕ × Entry)) :
    lexC (tailOf Entry.image (e :: rest) ++ stop) =
      (lexC (e.2.image ++ (tailOf Entry.image rest ++ stop))).map (.symbol ',' :: ·) := by
  rw [tailOf_cons, List.cons_append, List.append_assoc, List.append_assoc, lexC_comma]

/-- Behind a type there is a comma or the end. -/
theorem ListTail.head {tokens : List Token} {types : List (List Char)} (h : ListTail tokens types)
    (rest : List Token) : ∃ token ts, tokens ++ .symbol ')' :: rest = token :: ts ∧
      (token = .symbol ',' ∨ token = .symbol ')') := by
  cases h with
  | nil => exact ⟨_, _, rfl, .inr rfl⟩
  | comma => exact ⟨_, _, rfl, .inl rfl⟩
  | cons h => exact ⟨_, _, rfl, .inl rfl⟩

theorem listed_of_lexC {rest : List (ℕ × Entry)} {tokens : List Token} {types : List (List Char)}
    (htail : ListTail tokens types)
    (h : lexC (tailOf Entry.image rest ++ stop) = some (tokens ++ .symbol ')' :: restTokens)) :
    Listed rest types := by
  induction rest generalizing tokens types with
  | nil =>
    have hstop : lexC (tailOf Entry.image [] ++ stop) = some (.symbol ')' :: restTokens) :=
      lexC_stop
    rw [hstop] at h
    cases htail with
    | nil => exact .nil
    | comma => cases (List.cons.inj (Option.some.inj h)).1
    | cons htail => cases (List.cons.inj (Option.some.inj h)).1
  | cons e rest ih =>
    rw [lexC_tailOf_cons] at h
    obtain ⟨ts, hts, heq⟩ := Option.map_eq_some_iff.1 h
    have hend := isEnd_tailOf rest
    cases htail with
    | nil => cases (List.cons.inj heq).1
    | comma =>
      obtain rfl := (List.cons.inj heq).2
      cases hsystem : e.2.isSystemTable with
      | false =>
        obtain ⟨type, us, hus⟩ := Entry.literal_of_lexC hsystem hend hts
        cases (List.cons.inj hus).1
      | true =>
        rw [Entry.image_systemTable hsystem, List.nil_append] at hts
        cases rest with
        | nil => exact .last hsystem
        | cons e' rest =>
          rw [lexC_tailOf_cons] at hts
          obtain ⟨us, -, hus⟩ := Option.map_eq_some_iff.1 hts
          cases (List.cons.inj hus).1
    | @cons type toks types htail =>
      have htext : ts = .literal type :: (toks ++ .symbol ')' :: restTokens) :=
        (List.cons.inj heq).2
      obtain ⟨token, us, hus, htoken⟩ := htail.head restTokens
      rw [htext, hus] at hts
      obtain ⟨hnames, hrest⟩ := Entry.names_of_lexC hend hts htoken
      rw [← hus] at hrest
      exact .cons hnames (ih htail hrest)

theorem Entry.Names.lexC {e : Entry} {type : List Char} (h : e.Names type) {text : List Char}
    (hend : IsEnd text) :
    SqlLex.lexC (e.image ++ text) = (SqlLex.lexC text).map (.literal type :: ·) := by
  rw [h.image, hend.lexC_quoted h.noQuote h.noNul]

theorem Listed.exists_lexC {rest : List (ℕ × Entry)} {types : List (List Char)}
    (h : Listed rest types) : ∃ tokens, ListTail tokens types ∧
      lexC (tailOf Entry.image rest ++ stop) = some (tokens ++ .symbol ')' :: restTokens) := by
  induction h with
  | nil => exact ⟨[], .nil, lexC_stop⟩
  | @last e hsystem =>
    refine ⟨[.symbol ','], .comma, ?_⟩
    rw [lexC_tailOf_cons, Entry.image_systemTable hsystem]
    exact congrArg (Option.map _) lexC_stop
  | @cons e type rest types hnames _ ih =>
    obtain ⟨tokens, htail, hlex⟩ := ih
    refine ⟨.symbol ',' :: .literal type :: tokens, .cons htail, ?_⟩
    rw [lexC_tailOf_cons, hnames.lexC (isEnd_tailOf rest), hlex]
    rfl

/-! ## Which entries are kept -/

theorem pairsAtEnd_cons_of_not {e : Entry} (h : e.isSystemTable = false) {entries : List Entry} :
    PairsAtEnd (e :: entries) ↔ PairsAtEnd entries := by
  constructor
  · rintro hpairs before a b after rfl
    exact hpairs (e :: before) a b after rfl
  · intro hpairs before a b after heq ha hb
    cases before with
    | nil =>
      obtain rfl := (List.cons.inj heq).1
      rw [h] at ha
      cases ha
    | cons c before => exact hpairs before a b after (List.cons.inj heq).2 ha hb

theorem pairsAtEnd_pair (e e' : Entry) : PairsAtEnd [e, e'] := by
  intro before a b after heq _ _
  have hlength := congrArg List.length heq
  simp only [List.length_cons, List.length_nil, List.length_append] at hlength
  exact List.length_eq_zero_iff.1 (by omega)

theorem pairsAtEnd_singleton (e : Entry) : PairsAtEnd [e] := by
  intro before a b after heq _ _
  have hlength := congrArg List.length heq
  simp only [List.length_cons, List.length_nil, List.length_append] at hlength
  omega

theorem kept_eq_nil {rest : List (ℕ × Entry)} (h : kept rest = []) : rest = [] := by
  induction rest using kept.induct with
  | case1 => rfl
  | case2 e => cases h
  | case3 e e' rest he ih =>
    rw [kept, if_pos he] at h
    cases h
  | case4 e e' rest he ih =>
    rw [kept, if_neg he] at h
    cases h

theorem mem_kept_iff {rest : List (ℕ × Entry)} {e : ℕ × Entry} (h : e.2.isSystemTable = false) :
    e ∈ kept rest ↔ e ∈ rest := by
  induction rest using kept.induct with
  | case1 => exact Iff.rfl
  | case2 a => exact Iff.rfl
  | case3 a b rest ha ih =>
    have hne : e ≠ a := by
      rintro rfl
      rw [h] at ha
      cases ha
    rw [kept, if_pos ha, List.mem_cons, ih, List.mem_cons, List.mem_cons, or_iff_right hne]
  | case4 a b rest ha ih => rw [kept, if_neg ha, List.mem_cons, ih, ← List.mem_cons]

/-- The list in which only the last entry is a `SYSTEM TABLE` comes from one that has no two in a
row but at its end. -/
theorem pairsAtEnd_of_listed {rest : List (ℕ × Entry)} {types : List (List Char)}
    (h : Listed (kept rest) types) : PairsAtEnd (rest.map Prod.snd) := by
  induction rest using kept.induct generalizing types with
  | case1 => exact fun before a b after heq => absurd heq (by simp)
  | case2 e => exact pairsAtEnd_singleton e.2
  | case3 e e' rest he ih =>
    rw [kept, if_pos he] at h
    generalize hkept : kept rest = left at h
    cases h with
    | last _ =>
      rw [kept_eq_nil hkept]
      exact pairsAtEnd_pair e.2 e'.2
    | cons hnames h =>
      have hrest := (pairsAtEnd_cons_of_not hnames.notSystemTable).2 (ih (hkept ▸ h))
      intro before a b after heq ha hb
      cases before with
      | nil =>
        obtain ⟨-, heq⟩ := List.cons.inj heq
        obtain rfl := (List.cons.inj heq).1
        rw [hnames.notSystemTable] at hb
        cases hb
      | cons c before => exact hrest before a b after (List.cons.inj heq).2 ha hb
  | case4 e e' rest he ih =>
    rw [kept, if_neg he] at h
    generalize hkept : kept (e' :: rest) = left at h
    cases h with
    | last hsystem => exact absurd hsystem he
    | cons hnames h => exact (pairsAtEnd_cons_of_not hnames.notSystemTable).2 (ih (hkept ▸ h))

theorem exists_listed {rest : List (ℕ × Entry)} (hpairs : PairsAtEnd (rest.map Prod.snd))
    (hnames : ∀ e ∈ rest, e.2.isSystemTable = false → ∃ type, e.2.Names type) :
    ∃ types, Listed (kept rest) types := by
  induction rest using kept.induct with
  | case1 => exact ⟨[], .nil⟩
  | case2 e =>
    cases he : e.2.isSystemTable with
    | true => exact ⟨[], .last he⟩
    | false =>
      obtain ⟨type, htype⟩ := hnames e List.mem_cons_self he
      exact ⟨[type], .cons htype .nil⟩
  | case3 e e' rest he ih =>
    have htail : PairsAtEnd (e'.2 :: rest.map Prod.snd) := fun before a b after heq =>
      hpairs (e.2 :: before) a b after (congrArg (e.2 :: ·) heq)
    rw [kept, if_pos he]
    cases he' : e'.2.isSystemTable with
    | true =>
      have hnil := hpairs [] e.2 e'.2 _ rfl he he'
      rw [List.map_eq_nil_iff.1 hnil]
      exact ⟨[], .last he'⟩
    | false =>
      obtain ⟨types, htypes⟩ := ih ((pairsAtEnd_cons_of_not he').1 htail) fun a ha =>
        hnames a (List.mem_cons_of_mem e (List.mem_cons_of_mem e' ha))
      obtain ⟨type, htype⟩ := hnames e' (List.mem_cons_of_mem e List.mem_cons_self) he'
      exact ⟨type :: types, .cons htype htypes⟩
  | case4 e e' rest he ih =>
    have hfalse := Bool.eq_false_iff.2 he
    obtain ⟨types, htypes⟩ := ih ((pairsAtEnd_cons_of_not hfalse).1 hpairs) fun a ha =>
      hnames a (List.mem_cons_of_mem e ha)
    obtain ⟨type, htype⟩ := hnames e List.mem_cons_self hfalse
    rw [kept, if_neg he]
    exact ⟨type :: types, .cons htype htypes⟩

theorem quoted_append_inj {v w a b : List Char} (hv : '\'' ∉ v) (hw : '\'' ∉ w)
    (h : quoted v ++ a = quoted w ++ b) : v = w ∧ a = b := by
  have htext : v ++ '\'' :: a = w ++ '\'' :: b := by
    simpa [quoted] using h
  have hle := (prefix_append_cons_iff hv).1 (htext ▸ List.prefix_append v ('\'' :: a))
  have hge := (prefix_append_cons_iff hw).1 (htext.symm ▸ List.prefix_append w ('\'' :: b))
  obtain rfl := hle.eq_of_length_le hge.length_le
  exact ⟨rfl, (List.cons.inj (List.append_cancel_left htext)).2⟩

theorem quoted_inj {v w : List Char} (hv : '\'' ∉ v) (hw : '\'' ∉ w) (h : quoted v = quoted w) :
    v = w :=
  (quoted_append_inj (a := []) (b := []) hv hw (by rw [h])).1

theorem not_broken_quoted {v : List Char} (hv : '\'' ∉ v) : ¬Broken newStarts (quoted v) := by
  rintro ⟨p, c, r, hp, -, heq⟩
  have hinj := quoted_append_inj hv hp (a := []) (by rw [List.append_nil]; exact heq)
  cases hinj.2

theorem Entry.Names.unique {e : Entry} {a b : List Char} (ha : e.Names a) (hb : e.Names b) :
    a = b :=
  quoted_inj ha.noQuote hb.noQuote (ha.image.symm.trans hb.image)

/-- The types are those that the entries name. -/
theorem Listed.mem_iff {rest : List (ℕ × Entry)} {types : List (List Char)} (h : Listed rest types)
    (type : List Char) : type ∈ types ↔ ∃ e ∈ rest, e.2.Names type := by
  induction h with
  | nil => simp
  | @last e hsystem =>
    refine iff_of_false nofun ?_
    rintro ⟨a, ha, hnames⟩
    obtain rfl := List.mem_singleton.1 ha
    rw [hnames.notSystemTable] at hsystem
    cases hsystem
  | @cons e t rest types hnames _ ih =>
    rw [List.mem_cons, ih]
    constructor
    · rintro (rfl | ⟨a, ha, htype⟩)
      · exact ⟨e, List.mem_cons_self, hnames⟩
      · exact ⟨a, List.mem_cons_of_mem e ha, htype⟩
    · rintro ⟨a, ha, htype⟩
      rcases List.mem_cons.1 ha with rfl | ha
      · exact .inl (htype.unique hnames)
      · exact .inr ⟨a, ha, htype⟩

theorem Listed.exists_names {rest : List (ℕ × Entry)} {types : List (List Char)}
    (h : Listed rest types) {e : ℕ × Entry} (he : e ∈ rest) (hsystem : e.2.isSystemTable = false) :
    ∃ type, e.2.Names type := by
  induction h with
  | nil => cases he
  | last hlast =>
    obtain rfl := List.mem_singleton.1 he
    rw [hsystem] at hlast
    cases hlast
  | cons hnames _ ih =>
    rcases List.mem_cons.1 he with rfl | he
    · exact ⟨_, hnames⟩
    · exact ih he

/-! ## Which lists are supported -/

theorem Entry.names_iff_means {e : Entry} (h : e.Plain) (type : List Char) :
    e.Names type ↔ e.Means type := by
  cases e with
  | table q =>
    constructor
    · intro hnames
      exact quoted_inj hnames.noQuote (by decide) (hnames.image.symm.trans (Entry.image_table q))
    · rintro rfl
      exact ⟨rfl, by decide, by decide, Entry.image_table q⟩
  | view q =>
    constructor
    · intro hnames
      exact quoted_inj hnames.noQuote (by decide) (hnames.image.symm.trans (Entry.image_view q))
    · rintro rfl
      exact ⟨rfl, by decide, by decide, Entry.image_view q⟩
  | systemTable q => exact iff_of_false (fun hnames => nomatch hnames.notSystemTable) nofun
  | all q => exact h.elim
  | other name =>
    have himage := @OtherName.image_of_plain name h
    constructor
    · intro hnames
      exact quoted_inj hnames.noQuote name.noQuote (hnames.image.symm.trans himage)
    · rintro rfl
      exact ⟨rfl, name.noQuote, h.noNul, himage⟩

theorem exists_notMem (types : List (List Char)) : ∃ type, type ∉ types := by
  refine ⟨'a' :: types.flatten, fun hmem => ?_⟩
  have hle := (List.sublist_flatten_of_mem hmem).length_le
  rw [List.length_cons] at hle
  omega

/-- If the entries name the types that they mean, a name in which something is found is what a
longer one of them becomes. -/
theorem exists_longer {entries : List Entry}
    (hnames : ∀ e ∈ entries, e.isSystemTable = false → ∃ type, e.Names type)
    (hmeans : ∀ type, (∃ e ∈ entries, e.Names type) ↔ ∃ e ∈ entries, e.Means type)
    (hall : ∀ q, .all q ∉ entries) {name : OtherName} (hmem : .other name ∈ entries)
    (hplain : ¬name.Plain) :
    ∃ longer : OtherName, .other longer ∈ entries ∧ ¬longer.Plain ∧
      name.val.length < longer.val.length := by
  obtain ⟨e, he, htype⟩ := (hmeans name.val).2 ⟨.other name, hmem, rfl⟩
  cases e with
  | table q =>
    -- a name `BASE TABLE` is torn apart
    have hval := quoted_inj htype.noQuote (by decide) (htype.image.symm.trans (Entry.image_table q))
    obtain ⟨type, htorn⟩ := hnames _ hmem rfl
    have himage : (Entry.other name).image = rewriteTypes (quoted "BASE TABLE".toList) := by
      rw [Entry.image, Entry.text, hval]
    have hbroken : Broken newStarts (rewriteTypes (quoted "BASE TABLE".toList)) :=
      ⟨"BASE ".toList, 'B', "ASE TABLE''".toList, by decide, by decide, by decide⟩
    rw [← himage, htorn.image] at hbroken
    exact absurd hbroken (not_broken_quoted htorn.noQuote)
  | view q =>
    have hval := quoted_inj htype.noQuote (by decide) (htype.image.symm.trans (Entry.image_view q))
    exact absurd hval (name.ne_of_mem (by decide))
  | systemTable q => cases htype.notSystemTable
  | all q => exact absurd he (hall q)
  | other longer =>
    rcases longer.image_cases with ⟨himage, hlonger⟩ | ⟨v, hv, himage, hless⟩ | hbroken
    · have hval := quoted_inj htype.noQuote longer.noQuote (htype.image.symm.trans himage)
      have hsame : longer.Plain := hlonger (hval ▸ htype.noNul)
      refine absurd ?_ hplain
      exact ⟨hval ▸ hsame.noTable, hval ▸ hsame.noView, hval ▸ hsame.noPercent,
        hval ▸ hsame.noCommas, hval ▸ hsame.noNul⟩
    · obtain rfl := quoted_inj hv htype.noQuote (himage.symm.trans htype.image)
      refine ⟨longer, he, fun hlonger => ?_, hless⟩
      have hval := quoted_inj hv longer.noQuote
        (himage.symm.trans (OtherName.image_of_plain hlonger))
      rw [hval] at hless
      exact Nat.lt_irrefl _ hless
    · rw [htype.image] at hbroken
      exact absurd hbroken (not_broken_quoted htype.noQuote)

theorem plain_of_names_iff_means {entries : List Entry}
    (hnames : ∀ e ∈ entries, e.isSystemTable = false → ∃ type, e.Names type)
    (hmeans : ∀ type, (∃ e ∈ entries, e.Names type) ↔ ∃ e ∈ entries, e.Means type)
    (hall : ∀ q, .all q ∉ entries) : ∀ e ∈ entries, e.Plain := by
  have hbound : ∀ k, ∀ name : OtherName, .other name ∈ entries → ¬name.Plain →
      name.val.length + k ≤ (entries.map Entry.text).flatten.length := by
    intro k
    induction k with
    | zero =>
      intro name hmem _
      have htext : (Entry.other name).text ∈ entries.map Entry.text := List.mem_map_of_mem hmem
      have hle := (List.sublist_flatten_of_mem htext).length_le
      have hlength : (Entry.other name).text.length = name.val.length + 2 := by
        simp [Entry.text, quoted]
      omega
    | succ k ih =>
      intro name hmem hplain
      obtain ⟨longer, hlonger, hnot, hless⟩ := exists_longer hnames hmeans hall hmem hplain
      have hle := ih longer hlonger hnot
      omega
  intro e he
  cases e with
  | other name =>
    by_contra hplain
    have hle := hbound ((entries.map Entry.text).flatten.length + 1) name he hplain
    omega
  | all q => exact absurd he (hall q)
  | _ => exact trivial

theorem restTokens_eq : ∃ tokens, restTokens = word "AND" :: word "table_catalog" :: tokens :=
  ⟨restTokens.drop 2, by decide +kernel⟩

/-- What is read behind the conditions. -/
theorem lexC_of_query {types : List Char} {restriction : List Token}
    (h : ∀ catalog schema table catalogTokens schemaTokens tableTokens,
      Sound catalog catalogTokens → Sound schema schemaTokens → Sound table tableTokens →
      lexC (getQueryDuckdbTables catalog schema table types) =
        some (tokensOf (textOf tablesSelect) ++ word "WHERE" :: (catalogTokens ++
          word "AND" :: (schemaTokens ++ word "AND" :: (tableTokens ++ restriction))))) :
    lexC (tablesRest types) = some restriction := by
  have hsound : Sound (quote .double []) [.identifier []] := sound_quote nofun
  have hquery := h _ _ _ _ _ _ hsound hsound hsound
  rw [lexC_getQueryDuckdbTables hsound hsound hsound] at hquery
  obtain ⟨tokens, htokens, heq⟩ := Option.map_eq_some_iff.1 hquery
  rw [htokens]
  simp only [List.append_cancel_left_eq, List.cons.injEq, true_and] at heq
  rw [heq]

theorem listOf_eq (text : Entry → List Char) (first : Entry) (rest : List (ℕ × Entry)) :
    listOf text first rest = text first ++ tailOf text rest := rfl

theorem tailOf_eq_nil {text : Entry → List Char} {rest : List (ℕ × Entry)}
    (h : tailOf text rest = []) : rest = [] := by
  cases rest with
  | nil => rfl
  | cons e rest => cases h

/-- No restriction is left only of a `%`. -/
theorem supported_of_all {first : Entry} {rest : List (ℕ × Entry)}
    (htypes : rewriteTypes (listOf Entry.text first rest) = [] ∨
      rewriteTypes (listOf Entry.text first rest) = "'%'".toList)
    (hmeans : ∀ type, ∃ e ∈ first :: rest.map Prod.snd, e.Means type) : Supported first rest := by
  rw [rewriteTypes_listOf, listOf_eq] at htypes
  cases hsystem : first.isSystemTable with
  | true =>
    have hmeansNone : ∀ e : Entry, e.isSystemTable = true → ∀ type, ¬e.Means type := by
      intro e he type
      cases e with
      | systemTable q => exact nofun
      | _ => cases he
    rw [Entry.image_systemTable hsystem, List.nil_append] at htypes
    have hnil : tailOf Entry.image (kept rest) = [] := by
      cases hkept : kept rest with
      | nil => rfl
      | cons e left =>
        rw [hkept, tailOf_cons] at htypes
        rcases htypes with hnil | hall
        · cases hnil
        · exact absurd (List.cons.inj hall).1 (by decide)
    obtain rfl := kept_eq_nil (tailOf_eq_nil hnil)
    obtain ⟨e, he, hmean⟩ := hmeans []
    obtain rfl := List.mem_singleton.1 he
    exact absurd hmean (hmeansNone e hsystem [])
  | false =>
    have hquoted : first.image ++ tailOf Entry.image (kept rest) = quoted "%".toList := by
      rcases htypes with hnil | hall
      · have hempty := (List.append_eq_nil_iff.1 hnil).1
        rcases Entry.image_cases hsystem with ⟨v, -, himage⟩ | ⟨p, c, r, -, -, himage⟩
        · rw [himage] at hempty
          cases hempty
        · rw [himage] at hempty
          cases hempty
      · exact hall
    have himage : first.image = quoted "%".toList ∧ rest = [] := by
      rcases Entry.image_cases hsystem with ⟨v, hv, himage⟩ | ⟨p, c, r, hp, -, himage⟩
      · rw [himage] at hquoted
        obtain ⟨rfl, hnil⟩ := quoted_append_inj hv (w := "%".toList) (b := []) (by decide)
          (by rw [hquoted, List.append_nil])
        exact ⟨himage, kept_eq_nil (tailOf_eq_nil hnil)⟩
      · rw [himage, List.append_assoc] at hquoted
        obtain ⟨-, hnil⟩ := quoted_append_inj hp (w := "%".toList) (b := []) (by decide)
          (by rw [hquoted, List.append_nil])
        cases hnil
    obtain ⟨himage, rfl⟩ := himage
    refine .inl ⟨?_, rfl⟩
    cases first with
    | table q =>
      have heq := quoted_inj (by decide) (by decide) ((Entry.image_table q).symm.trans himage)
      exact absurd heq (by decide)
    | view q =>
      have heq := quoted_inj (by decide) (by decide) ((Entry.image_view q).symm.trans himage)
      exact absurd heq (by decide)
    | systemTable q => cases hsystem
    | all q => exact ⟨q, rfl⟩
    | other name =>
      -- it means one type, not all of them
      obtain ⟨type, htype⟩ := exists_notMem [name.val]
      obtain ⟨e, he, hmean⟩ := hmeans type
      obtain rfl := List.mem_singleton.1 he
      exact absurd (List.mem_singleton.2 hmean) htype

/-- A list of types that the engine reads makes the list supported. -/
theorem supported_of_listed {first : Entry} {rest : List (ℕ × Entry)} {type : List Char}
    {types : List (List Char)} (hfirst : first.Names type) (hrest : Listed (kept rest) types)
    (hmeans : ∀ t, t ∈ type :: types ↔ ∃ e ∈ first :: rest.map Prod.snd, e.Means t) :
    Supported first rest := by
  have hnames : ∀ t, t ∈ type :: types ↔ ∃ e ∈ first :: rest.map Prod.snd, e.Names t := by
    intro t
    rw [List.mem_cons, hrest.mem_iff]
    constructor
    · rintro (rfl | ⟨e, he, ht⟩)
      · exact ⟨first, List.mem_cons_self, hfirst⟩
      · have hmem := (mem_kept_iff ht.notSystemTable).1 he
        exact ⟨e.2, List.mem_cons_of_mem first (List.mem_map_of_mem hmem), ht⟩
    · rintro ⟨e, he, ht⟩
      rcases List.mem_cons.1 he with rfl | he
      · exact .inl (ht.unique hfirst)
      · obtain ⟨a, ha, rfl⟩ := List.mem_map.1 he
        exact .inr ⟨a, (mem_kept_iff ht.notSystemTable).2 ha, ht⟩
  have hexists : ∀ e ∈ first :: rest.map Prod.snd, e.isSystemTable = false →
      ∃ t, e.Names t := by
    intro e he hsystem
    rcases List.mem_cons.1 he with rfl | he
    · exact ⟨type, hfirst⟩
    · obtain ⟨a, ha, rfl⟩ := List.mem_map.1 he
      exact hrest.exists_names ((mem_kept_iff hsystem).2 ha) hsystem
  have hall : ∀ q, Entry.all q ∉ first :: rest.map Prod.snd := fun q hmem => by
    obtain ⟨t, ht⟩ := exists_notMem (type :: types)
    exact ht ((hmeans t).2 ⟨_, hmem, trivial⟩)
  refine .inr ⟨hfirst.notSystemTable, ?_, ?_⟩
  · exact plain_of_names_iff_means hexists (fun t => (hnames t).symm.trans (hmeans t)) hall
  · exact (pairsAtEnd_cons_of_not hfirst.notSystemTable).2 (pairsAtEnd_of_listed hrest)

theorem supported_of_typesMeet {first : Entry} {rest : List (ℕ × Entry)}
    (h : TypesMeet first rest) : Supported first rest := by
  obtain ⟨restriction, types, hquery, hrestricts, hmeans⟩ := h
  have hlex := lexC_of_query hquery
  obtain ⟨ts, hts⟩ := restTokens_eq
  by_cases hnone : rewriteTypes (listOf Entry.text first rest) = [] ∨
      rewriteTypes (listOf Entry.text first rest) = "'%'".toList
  · refine supported_of_all hnone ?_
    have hrest : tablesRest (rewriteTypes (listOf Entry.text first rest)) = tablesRest [] := by
      rcases hnone with heq | heq
      · rw [heq]
      · rw [heq]
        rfl
    rw [hrest, lexC_tablesRest_nil, hts] at hlex
    cases hrestricts with
    | none => exact fun type => (hmeans type).1 trivial
    | types htail =>
      have hword := (List.cons.inj (List.cons.inj (Option.some.inj hlex)).2).1
      exact absurd hword (by decide)
  · obtain ⟨hnil, hall⟩ := not_or.1 hnone
    rw [lexC_tablesRest hnil hall] at hlex
    obtain ⟨tokens, htokens, heq⟩ := Option.map_eq_some_iff.1 hlex
    cases hrestricts with
    | none =>
      rw [hts] at heq
      have hword := (List.cons.inj (List.cons.inj heq).2).1
      exact absurd hword (by decide)
    | @types type toks tail htail =>
      have hlist : tokens = .literal type :: (toks ++ .symbol ')' :: restTokens) :=
        (List.cons.inj (List.cons.inj (List.cons.inj (List.cons.inj heq).2).2).2).2
      obtain ⟨token, us, hus, htoken⟩ := htail.head restTokens
      rw [rewriteTypes_listOf, listOf_eq, List.append_assoc, hlist, hus] at htokens
      obtain ⟨hfirst, hrest⟩ := Entry.names_of_lexC (isEnd_tailOf (kept rest)) htokens htoken
      rw [← hus] at hrest
      exact supported_of_listed hfirst (listed_of_lexC htail hrest) hmeans

theorem typesMeet_of_lexC {first : Entry} {rest : List (ℕ × Entry)} {restriction : List Token}
    {types : List Char → Prop}
    (hlex : lexC (tablesRest (rewriteTypes (listOf Entry.text first rest))) = some restriction)
    (hrestricts : Restricts restriction types)
    (hmeans : ∀ type, types type ↔ ∃ e ∈ first :: rest.map Prod.snd, e.Means type) :
    TypesMeet first rest := by
  refine ⟨restriction, types, ?_, hrestricts, hmeans⟩
  intro catalog schema table catalogTokens schemaTokens tableTokens hcatalog hschema htable
  rw [lexC_getQueryDuckdbTables hcatalog hschema htable, hlex]
  rfl

theorem Entry.exists_names {e : Entry} (h : e.Plain) (hsystem : e.isSystemTable = false) :
    ∃ type, e.Names type := by
  cases e with
  | table q => exact ⟨_, (Entry.names_iff_means h _).2 rfl⟩
  | view q => exact ⟨_, (Entry.names_iff_means h _).2 rfl⟩
  | systemTable q => cases hsystem
  | all q => exact h.elim
  | other name => exact ⟨_, (Entry.names_iff_means h _).2 rfl⟩

theorem typesMeet_of_supported {first : Entry} {rest : List (ℕ × Entry)}
    (h : Supported first rest) : TypesMeet first rest := by
  rcases h with ⟨⟨q, rfl⟩, rfl⟩ | ⟨hsystem, hplain, hpairs⟩
  · have htypes : rewriteTypes (listOf Entry.text (.all q) []) = "'%'".toList := by
      rw [rewriteTypes_listOf, listOf_eq, Entry.image_all]
      rfl
    refine typesMeet_of_lexC ?_ .none fun type => iff_of_true trivial ?_
    · rw [htypes]
      exact lexC_tablesRest_nil
    · exact ⟨_, List.mem_cons_self, trivial⟩
  · have hfirst := hplain first List.mem_cons_self
    obtain ⟨type, hnames⟩ := Entry.exists_names hfirst hsystem
    have hrestPlain : ∀ e ∈ rest, e.2.Plain := fun e he =>
      hplain e.2 (List.mem_cons_of_mem first (List.mem_map_of_mem he))
    obtain ⟨types, hlisted⟩ := exists_listed ((pairsAtEnd_cons_of_not hsystem).1 hpairs)
      fun e he he' => Entry.exists_names (hrestPlain e he) he'
    obtain ⟨tokens, htail, hlex⟩ := hlisted.exists_lexC
    have hlist : rewriteTypes (listOf Entry.text first rest) =
        quoted type ++ tailOf Entry.image (kept rest) := by
      rw [rewriteTypes_listOf, listOf_eq, hnames.image]
    have hnil : rewriteTypes (listOf Entry.text first rest) ≠ [] := by
      rw [hlist]
      exact nofun
    have hall : rewriteTypes (listOf Entry.text first rest) ≠ "'%'".toList := by
      intro hall
      rw [hlist] at hall
      obtain ⟨rfl, -⟩ := @quoted_append_inj type "%".toList _ [] hnames.noQuote (by decide) hall
      have hmeans := (Entry.names_iff_means hfirst _).1 hnames
      cases first with
      | table q =>
        have heq : "%".toList = "BASE TABLE".toList := hmeans
        exact absurd heq (by decide)
      | view q =>
        have heq : "%".toList = "VIEW".toList := hmeans
        exact absurd heq (by decide)
      | systemTable q => exact hmeans
      | all q => exact hfirst
      | other name => exact name.ne_of_mem (by decide) hmeans.symm
    refine typesMeet_of_lexC ?_ (@Restricts.types type _ _ htail) fun t => ?_
    · rw [lexC_tablesRest hnil hall, rewriteTypes_listOf, listOf_eq, List.append_assoc,
        hnames.lexC (isEnd_tailOf (kept rest)), hlex]
      rfl
    · rw [List.mem_cons, hlisted.mem_iff]
      constructor
      · rintro (rfl | ⟨e, he, ht⟩)
        · exact ⟨first, List.mem_cons_self, (Entry.names_iff_means hfirst t).1 hnames⟩
        · have hmem := (mem_kept_iff ht.notSystemTable).1 he
          exact ⟨e.2, List.mem_cons_of_mem first (List.mem_map_of_mem hmem),
            (Entry.names_iff_means (hrestPlain e hmem) t).1 ht⟩
      · rintro ⟨e, he, ht⟩
        rcases List.mem_cons.1 he with rfl | he
        · exact .inl (((Entry.names_iff_means hfirst t).2 ht).unique hnames)
        · obtain ⟨a, ha, rfl⟩ := List.mem_map.1 he
          have hname := (Entry.names_iff_means (hrestPlain a ha) t).2 ht
          exact .inr ⟨a, (mem_kept_iff hname.notSystemTable).2 ha, hname⟩

/-- The restriction denotes the listed types exactly if the list is supported. -/
theorem tableTypes_iff (first : Entry) (rest : List (ℕ × Entry)) :
    TypesMeet first rest ↔ Supported first rest :=
  ⟨supported_of_typesMeet, typesMeet_of_supported⟩

/-- Of `SYSTEM TABLE` nothing is left, and the query returns every table. -/
theorem systemTable_unrestricted : ¬TypesMeet (.systemTable false) [] := by
  intro h
  rcases supported_of_typesMeet h with ⟨⟨q, hq⟩, -⟩ | ⟨hsystem, -⟩
  · cases hq
  · cases hsystem

end HaybarnOdbc.Catalog
