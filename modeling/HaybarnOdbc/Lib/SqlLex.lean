import Mathlib.Algebra.Order.Ring.Int
import Mathlib.Tactic.Common
import Mathlib.Data.Nat.Notation

/-!
# Reading SQL as tokens

A lexer as a machine that reads a char at a time. String literals and quoted identifiers end at
a quote that is not doubled, and a backslash means nothing in them. Words are runs of letters,
digits, dots, underscores and chars beyond ASCII, and numbers with their signs. What the reader
of a statement would have to treat apart, a quote right after a word (`E'…'`), is refused.

The chars may be those of a text or the bytes of its encoding : the ones beyond ASCII are all
treated alike.
-/

namespace SqlLex

/-- A token : a word, a symbol of one character, a string literal or a quoted identifier. -/
inductive Token
  | word (text : List Char)
  | symbol (ch : Char)
  | literal (value : List Char)
  | identifier (value : List Char)
  deriving DecidableEq, Repr

/-- The two kinds of quotes. -/
inductive Mark
  | single
  | double
  deriving DecidableEq, Repr

namespace Mark

/-- The quotation mark of a literal, or of an identifier. -/
def char : Mark → Char
  | single => '\''
  | double => '"'

/-- What stands between two marks. -/
def token : Mark → List Char → Token
  | single => .literal
  | double => .identifier

end Mark

/-- Where the machine is. A `closing` quote may turn out to be the first one of two. -/
inductive Mode
  | code
  | word (text : List Char)
  | quoted (mark : Mark) (value : List Char)
  | closing (mark : Mark) (value : List Char)
  | dash
  | slash
  | lineComment
  | comment (depth : ℕ)
  | commentStar (depth : ℕ)
  | commentSlash (depth : ℕ)
  | failed
  deriving DecidableEq, Repr

/-- White space between tokens. -/
def isBlank (ch : Char) : Bool :=
  ch == ' ' || ch == '\t' || ch == '\n' || ch == '\r' || ch == '\x0c' || ch == '\x0b'

/-- What a word can begin with. -/
def isWordChar (ch : Char) : Bool :=
  ch.isAlphanum || ch == '_' || ch == '.' || 128 ≤ ch.toNat

/-- A char that continues a word. -/
def isWordPart (ch : Char) : Bool := isWordChar ch || ch == '$'

/-- A sign in the exponent of a number. -/
def isExponentSign (text : List Char) (ch : Char) : Bool :=
  (ch == '+' || ch == '-') && text.any Char.isDigit &&
    (text.getLast? == some 'e' || text.getLast? == some 'E') &&
    text.all fun ch => ch.isDigit || ch == '.' || ch == '-' || ch == 'e' || ch == 'E'

/-- A char outside of any token. -/
def start (ch : Char) : List Token × Mode :=
  if isBlank ch then ([], .code)
  else if ch = '\'' then ([], .quoted .single [])
  else if ch = '"' then ([], .quoted .double [])
  else if ch = '-' then ([], .dash)
  else if ch = '/' then ([], .slash)
  else if isWordChar ch then ([], .word [ch])
  else ([.symbol ch], .code)

/-- A token is finished and the char starts over. -/
def restart (token : Token) (ch : Char) : List Token × Mode := (token :: (start ch).1, (start ch).2)

/-- The lexer reads a character : the tokens that it completes, and the mode behind it. -/
def step : Mode → Char → List Token × Mode
  | .code, ch => start ch
  | .word text, ch =>
    if isWordPart ch || isExponentSign text ch then ([], .word (text ++ [ch]))
    else if ch = '\'' ∨ ch = '"' then ([], .failed)
    else restart (.word text) ch
  | .quoted mark value, ch =>
    if ch = mark.char then ([], .closing mark value) else ([], .quoted mark (value ++ [ch]))
  | .closing mark value, ch =>
    if ch = mark.char then ([], .quoted mark (value ++ [ch])) else restart (mark.token value) ch
  | .dash, ch =>
    if ch = '-' then ([], .lineComment)
    else if ch.isDigit then ([], .word ['-', ch])
    else restart (.symbol '-') ch
  | .slash, ch => if ch = '*' then ([], .comment 0) else restart (.symbol '/') ch
  | .lineComment, ch => if ch = '\n' ∨ ch = '\r' then ([], .code) else ([], .lineComment)
  | .comment depth, ch =>
    if ch = '*' then ([], .commentStar depth)
    else if ch = '/' then ([], .commentSlash depth)
    else ([], .comment depth)
  | .commentStar depth, ch =>
    if ch = '/' then
      match depth with
      | 0 => ([], .code)
      | depth + 1 => ([], .comment depth)
    else if ch = '*' then ([], .commentStar depth)
    else ([], .comment depth)
  | .commentSlash depth, ch =>
    if ch = '*' then ([], .comment (depth + 1))
    else if ch = '/' then ([], .commentSlash depth)
    else ([], .comment depth)
  | .failed, _ => ([], .failed)

/-- What is left at the end of the text, if it may end there. -/
def finish : Mode → Option (List Token)
  | .code => some []
  | .word text => some [.word text]
  | .closing mark value => some [mark.token value]
  | .dash => some [.symbol '-']
  | .slash => some [.symbol '/']
  | .lineComment => some []
  | _ => none

/-- The tokens that are finished in a text, and where the machine is after it. -/
def run : Mode → List Char → List Token × Mode
  | mode, [] => ([], mode)
  | mode, ch :: text =>
    ((step mode ch).1 ++ (run (step mode ch).2 text).1, (run (step mode ch).2 text).2)

/-- The tokens of a text that is read from a mode. -/
def lexFrom (mode : Mode) (text : List Char) : Option (List Token) :=
  (finish (run mode text).2).map ((run mode text).1 ++ ·)

/-- The tokens of a text. -/
def lex (text : List Char) : Option (List Token) := lexFrom .code text

theorem step_code (ch : Char) : step .code ch = start ch := rfl

theorem run_cons (mode : Mode) (ch : Char) (text : List Char) :
    run mode (ch :: text) =
      ((step mode ch).1 ++ (run (step mode ch).2 text).1, (run (step mode ch).2 text).2) := rfl

/-! ## Texts behind one another -/

/-- A text is read on from where the machine is behind the text before it. -/
theorem run_append (mode : Mode) (a b : List Char) :
    run mode (a ++ b) = ((run mode a).1 ++ (run (run mode a).2 b).1, (run (run mode a).2 b).2) := by
  induction a generalizing mode with
  | nil => rfl
  | cons ch a ih => simp only [List.cons_append, run, ih, List.append_assoc]

/-- So are its tokens. -/
theorem lexFrom_append (mode : Mode) (a b : List Char) :
    lexFrom mode (a ++ b) = (lexFrom (run mode a).2 b).map ((run mode a).1 ++ ·) := by
  unfold lexFrom
  rw [run_append]
  simp only [Option.map_map]
  congr 1
  funext tokens
  exact List.append_assoc ..

theorem lexFrom_cons (mode : Mode) (ch : Char) (text : List Char) :
    lexFrom mode (ch :: text) = (lexFrom (step mode ch).2 text).map ((step mode ch).1 ++ ·) := by
  have hrun : run mode [ch] = step mode ch := by simp [run]
  rw [← hrun]
  exact lexFrom_append mode [ch] text

/-- The text is read from code to code. -/
def Reads (text : List Char) (tokens : List Token) : Prop := run .code text = (tokens, .code)

instance (text : List Char) (tokens : List Token) : Decidable (Reads text tokens) := by
  unfold Reads
  infer_instance

/-- What is behind such a text is read by itself. -/
theorem Reads.lex_append {a : List Char} {tokens : List Token} (h : Reads a tokens)
    (b : List Char) : lex (a ++ b) = (lex b).map (tokens ++ ·) := by
  unfold Reads at h
  rw [lex, SqlLex.lexFrom_append, h]
  rfl

theorem Reads.append {a b : List Char} {tokens tokens' : List Token} (h : Reads a tokens)
    (h' : Reads b tokens') : Reads (a ++ b) (tokens ++ tokens') := by
  unfold Reads at h h' ⊢
  rw [run_append, h, h']

/-! ## Quotes -/

/-- The text between the quotes of a value. -/
def doubled (mark : Mark) : List Char → List Char
  | [] => []
  | ch :: value =>
    if ch = mark.char then ch :: ch :: doubled mark value else ch :: doubled mark value

/-- A value in quotes. -/
def quote (mark : Mark) (value : List Char) : List Char :=
  mark.char :: (doubled mark value ++ [mark.char])

theorem start_mark (mark : Mark) : start mark.char = ([], .quoted mark []) := by
  cases mark with
  | single => rfl
  | double => rfl

/-- Within quotes every char of a value is kept, and a doubled quote is one. -/
theorem run_doubled (mark : Mark) (acc value : List Char) :
    run (.quoted mark acc) (doubled mark value) = ([], .quoted mark (acc ++ value)) := by
  induction value generalizing acc with
  | nil => simp [doubled, run]
  | cons ch value ih =>
    by_cases hch : ch = mark.char
    · subst hch
      simp [doubled, run, step, ih]
    · simp [doubled, run, step, hch, ih]

/-- A value in quotes is read back, up to the closing quote. -/
theorem run_quote (mark : Mark) (value : List Char) :
    run .code (quote mark value) = ([], .closing mark value) := by
  have hinner := run_doubled mark [] value
  rw [List.nil_append] at hinner
  simp [quote, run, step, start_mark, run_append, hinner]

/-- A value in quotes is one token. -/
theorem lex_quote (mark : Mark) (value : List Char) :
    lex (quote mark value) = some [mark.token value] := by
  rw [lex, lexFrom, run_quote]
  rfl

/-! ## Words -/

/-- A char of a word starts one. -/
theorem start_wordChar {ch : Char} (h : isWordChar ch = true) : start ch = ([], .word [ch]) := by
  have hne : ∀ {c : Char}, isWordChar c = false → ch ≠ c := by
    rintro c hc rfl
    exact Bool.false_ne_true (hc.symm.trans h)
  have hblank : isBlank ch = false := by
    simp [isBlank, hne (c := ' ') rfl, hne (c := '\t') rfl, hne (c := '\n') rfl,
      hne (c := '\r') rfl, hne (c := '\x0c') rfl, hne (c := '\x0b') rfl]
  simp [start, hblank, hne (c := '\'') rfl, hne (c := '"') rfl, hne (c := '-') rfl,
    hne (c := '/') rfl, h]

theorem isWordPart_of_isWordChar {ch : Char} (h : isWordChar ch = true) :
    isWordPart ch = true := by
  rw [isWordPart, h, Bool.true_or]

theorem run_word_append (acc text : List Char) (h : ∀ ch ∈ text, isWordPart ch = true) :
    run (.word acc) text = ([], .word (acc ++ text)) := by
  induction text generalizing acc with
  | nil => simp [run]
  | cons ch text ih =>
    have hch := h ch List.mem_cons_self
    simp [run, step, hch, ih _ fun ch hmem => h ch (List.mem_cons_of_mem _ hmem)]

/-- A word is read to its end. -/
theorem run_word {ch : Char} {text : List Char} (hch : isWordChar ch = true)
    (h : ∀ c ∈ text, isWordPart c = true) : run .code (ch :: text) = ([], .word (ch :: text)) := by
  have hrest := run_word_append [ch] text h
  simp [run, step, start_wordChar hch, hrest]

/-! ## Whole tokens -/

/-- A char that every token ends at. -/
def isSeparator (ch : Char) : Bool := isBlank ch || ch == ',' || ch == '(' || ch == ')' || ch == '='

/-- The machine is in code or has read a token that can end. -/
def Mode.settled : Mode → Bool
  | .code => true
  | .word _ => true
  | .closing _ _ => true
  | _ => false

/-- The text consists of the tokens, and what is behind a separator is read by itself. -/
structure Whole (text : List Char) (tokens : List Token) : Prop where
  settled : (run .code text).2.settled = true
  tokens : lex text = some tokens

/-- A separator ends what the machine has read. -/
theorem step_separator {mode : Mode} (hmode : mode.settled = true) {ch : Char}
    (hch : isSeparator ch = true) :
    ∃ pending, finish mode = some pending ∧
      step mode ch = (pending ++ (start ch).1, (start ch).2) := by
  have hne : ∀ {c : Char}, isSeparator c = false → ch ≠ c := by
    rintro c hc rfl
    exact Bool.false_ne_true (hc.symm.trans hch)
  have hquotes : ¬(ch = '\'' ∨ ch = '"') := fun h => h.elim (hne rfl) (hne rfl)
  have hword : isWordChar ch = false := by
    simp only [isSeparator, isBlank, Bool.or_eq_true, beq_iff_eq] at hch
    rcases hch with ((((((((h | h) | h) | h) | h) | h) | h) | h) | h) | h <;> subst h <;> decide
  have hpart : isWordPart ch = false := by simp [isWordPart, hword, hne (c := '$') rfl]
  have hsign : ∀ text, isExponentSign text ch = false := fun text => by
    simp [isExponentSign, hne (c := '+') rfl, hne (c := '-') rfl]
  cases mode with
  | code => exact ⟨[], rfl, rfl⟩
  | word text =>
    refine ⟨_, rfl, ?_⟩
    simp [step, hpart, hsign, hquotes, restart]
  | closing mark value =>
    have hmark : ch ≠ mark.char := by
      cases mark with
      | single => exact hne rfl
      | double => exact hne rfl
    refine ⟨_, rfl, ?_⟩
    simp [step, hmark, restart]
  | _ => cases hmode

/-- A whole text and a separator behind it are read apart. -/
theorem Whole.lex_append {a b : List Char} {tokens : List Token} (h : Whole a tokens) {ch : Char}
    (hch : isSeparator ch = true) : lex (a ++ ch :: b) = (lex (ch :: b)).map (tokens ++ ·) := by
  obtain ⟨pending, hpending, hstep⟩ := step_separator h.settled hch
  have htokens := h.tokens
  rw [lex, lexFrom, hpending] at htokens
  have hall := Option.some.inj htokens
  rw [lex, lexFrom_append, lexFrom_cons, hstep, lex, lexFrom_cons, step_code, ← hall]
  simp only [Option.map_map]
  congr 1
  funext ts
  simp

theorem Whole.run_append {a : List Char} {tokens : List Token} (h : Whole a tokens) {ch : Char}
    (hch : isSeparator ch = true) (b : List Char) :
    (run .code (a ++ ch :: b)).2 = (run .code (ch :: b)).2 := by
  obtain ⟨pending, -, hstep⟩ := step_separator h.settled hch
  rw [SqlLex.run_append, run_cons, hstep, run_cons, step_code]

/-- Two whole texts make one if the second starts with a separator. -/
theorem Whole.append {a b : List Char} {tokens tokens' : List Token} (h : Whole a tokens)
    {ch : Char} (hch : isSeparator ch = true) (h' : Whole (ch :: b) tokens') :
    Whole (a ++ ch :: b) (tokens ++ tokens') := by
  refine ⟨?_, ?_⟩
  · rw [h.run_append hch]
    exact h'.settled
  · rw [h.lex_append hch, h'.tokens]
    rfl

/-- A separator brings the machine back to code. -/
theorem Whole.reads_append {a b : List Char} {tokens tokens' : List Token} (h : Whole a tokens)
    {ch : Char} (hch : isSeparator ch = true) (h' : Reads (ch :: b) tokens') :
    Reads (a ++ ch :: b) (tokens ++ tokens') := by
  obtain ⟨pending, hpending, hstep⟩ := step_separator h.settled hch
  have htokens := h.tokens
  rw [lex, lexFrom, hpending] at htokens
  have hall := Option.some.inj htokens
  unfold Reads at h' ⊢
  rw [run_cons, step_code, Prod.mk.injEq] at h'
  rw [SqlLex.run_append, run_cons, hstep]
  dsimp only
  rw [h'.2, List.append_assoc, h'.1, ← List.append_assoc]
  exact congrArg (fun all => (all ++ tokens', Mode.code)) hall

/-- A text that ends in code is whole. -/
theorem Reads.whole {a : List Char} {tokens : List Token} (h : Reads a tokens) :
    Whole a tokens := by
  unfold Reads at h
  refine ⟨by rw [h]; rfl, ?_⟩
  rw [lex, lexFrom, h]
  simp [finish]

theorem Reads.append_whole {a b : List Char} {tokens tokens' : List Token} (h : Reads a tokens)
    (h' : Whole b tokens') : Whole (a ++ b) (tokens ++ tokens') := by
  refine ⟨?_, ?_⟩
  · have hrun := h
    unfold Reads at hrun
    rw [run_append, hrun]
    exact h'.settled
  · rw [h.lex_append, h'.tokens]
    rfl

/-- A value in quotes is whole. -/
theorem whole_quote (mark : Mark) (value : List Char) :
    Whole (quote mark value) [mark.token value] :=
  ⟨by rw [run_quote]; rfl, lex_quote mark value⟩

theorem whole_of_isWordPart {ch : Char} {text : List Char} (hch : isWordChar ch = true)
    (h : ∀ c ∈ text, isWordPart c = true) : Whole (ch :: text) [.word (ch :: text)] := by
  have hrun := run_word hch h
  refine ⟨by rw [hrun]; rfl, ?_⟩
  rw [lex, lexFrom, hrun]
  rfl

/-- A word is whole. -/
theorem whole_word {text : List Char} (hne : text ≠ []) (h : ∀ ch ∈ text, isWordChar ch = true) :
    Whole text [.word text] := by
  cases text with
  | nil => exact absurd rfl hne
  | cons ch text =>
    exact whole_of_isWordPart (h ch List.mem_cons_self) fun c hmem =>
      isWordPart_of_isWordChar (h c (List.mem_cons_of_mem _ hmem))

/-- The text consists of the tokens and starts with a separator, so that it can follow any
text that is whole. -/
structure Follows (text : List Char) (tokens : List Token) : Prop extends Whole text tokens where
  separator : text.head?.map isSeparator = some true

/-- A text that follows any whole text follows this one. -/
theorem Whole.append_follows {a b : List Char} {tokens tokens' : List Token} (h : Whole a tokens)
    (h' : Follows b tokens') : Whole (a ++ b) (tokens ++ tokens') := by
  have hsep := h'.separator
  cases b with
  | nil => cases hsep
  | cons ch b => exact h.append (Option.some.inj hsep) h'.toWhole

theorem Reads.append_follows {a b : List Char} {tokens tokens' : List Token} (h : Reads a tokens)
    (hsep : a.head?.map isSeparator = some true) (h' : Whole b tokens') :
    Follows (a ++ b) (tokens ++ tokens') := by
  refine ⟨h.append_whole h', ?_⟩
  cases a with
  | nil => cases hsep
  | cons ch a => exact hsep

/-! ## What a literal comes from -/

theorem lexFrom_nil (mode : Mode) : lexFrom mode [] = finish mode := by
  simp [lexFrom, run]

/-- A closing quote and a char that does not double it. -/
theorem lexFrom_closing (mark : Mark) (value : List Char) {text : List Char}
    (h : text.head? ≠ some mark.char) :
    lexFrom (.closing mark value) text = (lexFrom .code text).map (mark.token value :: ·) := by
  cases text with
  | nil => rfl
  | cons ch text =>
    have hch : ch ≠ mark.char := fun heq => h (by rw [heq]; rfl)
    rw [lexFrom_cons, lexFrom_cons, step_code, step, if_neg hch]
    simp only [restart, Option.map_map]
    congr 1

/-- What a literal or a quoted identifier is read from. -/
theorem exists_of_lexFrom_quoted (mark : Mark) : ∀ {text acc : List Char} {token : Token}
    {tokens : List Token}, lexFrom (.quoted mark acc) text = some (token :: tokens) →
    ∃ value rest, text = doubled mark value ++ mark.char :: rest ∧
      token = mark.token (acc ++ value) ∧ lexFrom .code rest = some tokens
  | [], acc, token, tokens, h => by
    rw [lexFrom_nil] at h
    cases h
  | ch :: text, acc, token, tokens, h => by
    rw [lexFrom_cons] at h
    by_cases hch : ch = mark.char
    · have hstep : step (.quoted mark acc) ch = ([], .closing mark acc) := by
        rw [step, if_pos hch]
      rw [hstep] at h
      by_cases hdouble : text.head? = some mark.char
      · -- the quote is doubled
        cases text with
        | nil => cases hdouble
        | cons ch' text =>
          obtain rfl := Option.some.inj hdouble
          have hagain : step (.closing mark acc) mark.char =
              ([], .quoted mark (acc ++ [mark.char])) := by
            rw [step, if_pos rfl]
          rw [lexFrom_cons, hagain] at h
          simp only [Option.map_map] at h
          have hrest : lexFrom (.quoted mark (acc ++ [mark.char])) text =
              some (token :: tokens) := by
            simpa using h
          obtain ⟨value, rest, rfl, rfl, htokens⟩ := exists_of_lexFrom_quoted mark hrest
          refine ⟨mark.char :: value, rest, ?_, ?_, htokens⟩
          · simp [doubled, hch]
          · rw [List.append_assoc]
            rfl
      · rw [lexFrom_closing mark acc hdouble] at h
        cases hcode : lexFrom .code text with
        | none => simp [hcode] at h
        | some tokens' =>
          rw [hcode] at h
          obtain ⟨rfl, rfl⟩ := List.cons.inj (Option.some.inj h)
          exact ⟨[], text, by simp [doubled, hch], by rw [List.append_nil], hcode⟩
    · have hstep : step (.quoted mark acc) ch = ([], .quoted mark (acc ++ [ch])) := by
        rw [step, if_neg hch]
      rw [hstep] at h
      have hrest : lexFrom (.quoted mark (acc ++ [ch])) text = some (token :: tokens) := by
        simpa using h
      obtain ⟨value, rest, rfl, rfl, htokens⟩ := exists_of_lexFrom_quoted mark hrest
      refine ⟨ch :: value, rest, ?_, ?_, htokens⟩
      · simp [doubled, hch]
      · rw [List.append_assoc]
        rfl

/-- A word that is started is the next token. -/
theorem exists_of_lexFrom_word {text acc : List Char} {tokens : List Token}
    (h : lexFrom (.word acc) text = some tokens) : ∃ value rest, tokens = .word value :: rest := by
  induction text generalizing acc tokens with
  | nil =>
    obtain rfl := Option.some.inj h
    exact ⟨acc, [], rfl⟩
  | cons ch text ih =>
    rw [lexFrom_cons] at h
    obtain ⟨rest, hrest, rfl⟩ := Option.map_eq_some_iff.1 h
    by_cases hpart : (isWordPart ch || isExponentSign acc ch) = true
    · rw [step, if_pos hpart] at hrest
      obtain ⟨value, rest', rfl⟩ := ih hrest
      exact ⟨value, rest', by rw [step, if_pos hpart]; rfl⟩
    · by_cases hquote : ch = '\'' ∨ ch = '"'
      · rw [step, if_neg hpart, if_pos hquote] at hrest
        have hfailed : ∀ t : List Char, lexFrom .failed t = none := fun t => by
          induction t with
          | nil => rfl
          | cons c t iht =>
            rw [lexFrom_cons]
            exact congrArg (Option.map _) iht
        rw [hfailed] at hrest
        cases hrest
      · exact ⟨acc, (start ch).1 ++ rest, by rw [step, if_neg hpart, if_neg hquote]; rfl⟩

/-! ## How much text a token takes -/

/-- The least number of chars that a token is read from. -/
def Token.size : Token → ℕ
  | .word text => text.length
  | .symbol _ => 1
  | .literal value => value.length + 2
  | .identifier value => value.length + 2

/-- The chars of the token that the machine is in. -/
def Mode.size : Mode → ℕ
  | .word text => text.length
  | .quoted _ value => value.length + 1
  | .closing _ value => value.length + 2
  | .dash => 1
  | .slash => 1
  | _ => 0

/-- The characters that the tokens need at least. -/
def size (tokens : List Token) : ℕ := (tokens.map Token.size).sum

/-- The sizes of texts of tokens add up. -/
theorem size_append (a b : List Token) : size (a ++ b) = size a + size b := by
  simp [size]

theorem size_start (ch : Char) : size (start ch).1 + (start ch).2.size ≤ 1 := by
  unfold start
  repeat' split
  all_goals simp [size, Token.size, Mode.size]

theorem size_restart (token : Token) (ch : Char) :
    size (restart token ch).1 + (restart token ch).2.size ≤ token.size + 1 := by
  have h := size_start ch
  have hcons : size (token :: (start ch).1) = token.size + size (start ch).1 := by simp [size]
  simp only [restart, hcons]
  omega

/-- A char adds one to what has been read at most. -/
theorem size_step (mode : Mode) (ch : Char) :
    size (step mode ch).1 + (step mode ch).2.size ≤ mode.size + 1 := by
  cases mode with
  | code => exact Nat.le_trans (size_start ch) (by simp)
  | word text =>
    simp only [step]
    split
    · simp [size, Mode.size]
    · split
      · simp [size, Mode.size]
      · exact size_restart _ ch
  | quoted mark value =>
    simp only [step]
    split
    · simp [size, Mode.size]
    · simp [size, Mode.size]
  | closing mark value =>
    have hmark : (mark.token value).size = value.length + 2 := by
      cases mark with
      | single => rfl
      | double => rfl
    simp only [step]
    split
    · simp [size, Mode.size]
    · have h := size_restart (mark.token value) ch
      rw [hmark] at h
      exact h
  | dash =>
    simp only [step]
    split
    · simp [size, Mode.size]
    · split
      · simp [size, Mode.size]
      · exact size_restart _ ch
  | slash =>
    simp only [step]
    split
    · simp [size, Mode.size]
    · exact size_restart _ ch
  | lineComment =>
    simp only [step]
    split <;> simp [size, Mode.size]
  | comment depth =>
    simp only [step]
    repeat' split
    all_goals simp [size, Mode.size]
  | commentStar depth =>
    simp only [step]
    repeat' split
    all_goals simp [size, Mode.size]
  | commentSlash depth =>
    simp only [step]
    repeat' split
    all_goals simp [size, Mode.size]
  | failed => simp [step, size, Mode.size]

/-- Tokens are not longer than the text they are read from. -/
theorem size_run (mode : Mode) (text : List Char) :
    size (run mode text).1 + (run mode text).2.size ≤ mode.size + text.length := by
  induction text generalizing mode with
  | nil => simp [run, size]
  | cons ch text ih =>
    have hstep := size_step mode ch
    have hrest := ih (step mode ch).2
    rw [run_cons]
    dsimp only
    rw [size_append, List.length_cons]
    omega

/-- What the machine is in has room for the token it ends with. -/
theorem size_finish {mode : Mode} {tokens : List Token} (h : finish mode = some tokens) :
    size tokens ≤ mode.size := by
  cases mode with
  | code | word | dash | slash | lineComment =>
    obtain rfl := Option.some.inj h
    simp [size, Token.size, Mode.size]
  | closing mark value =>
    obtain rfl := Option.some.inj h
    cases mark <;> simp [size, Token.size, Mode.size, Mark.token]
  | _ => cases h

/-- The tokens of a text take no more than the text. -/
theorem size_lex {text : List Char} {tokens : List Token} (h : lex text = some tokens) :
    size tokens ≤ text.length := by
  have hrun := size_run .code text
  obtain ⟨pending, hpending, rfl⟩ := Option.map_eq_some_iff.1 h
  have hfinish := size_finish hpending
  have hcode : Mode.size .code = 0 := rfl
  rw [hcode] at hrun
  rw [size_append]
  omega

/-! ## Texts that end at a NUL -/

/-- The tokens of a text whose reader takes it for a C string. -/
def lexC (text : List Char) : Option (List Token) := lex (text.takeWhile (· ≠ '\x00'))

theorem lexC_append {a : List Char} (h : '\x00' ∉ a) (b : List Char) :
    lexC (a ++ b) = lex (a ++ b.takeWhile (· ≠ '\x00')) := by
  have hall : ∀ ch ∈ a, decide (ch ≠ '\x00') = true := fun ch hmem =>
    decide_eq_true fun heq => h (heq ▸ hmem)
  rw [lexC, List.takeWhile_append_of_pos hall]

/-- A text without a NUL is read as it is. -/
theorem lexC_of_notMem {text : List Char} (h : '\x00' ∉ text) : lexC text = lex text := by
  have happend := lexC_append h []
  rwa [List.append_nil, List.takeWhile_nil, List.append_nil] at happend

theorem Reads.lexC_append {a : List Char} {tokens : List Token} (h : Reads a tokens)
    (hnul : '\x00' ∉ a) (b : List Char) : lexC (a ++ b) = (lexC b).map (tokens ++ ·) := by
  rw [SqlLex.lexC_append hnul, h.lex_append, lexC]

theorem Whole.lexC_append {a b : List Char} {tokens : List Token} (h : Whole a tokens)
    (hnul : '\x00' ∉ a) {ch : Char} (hch : isSeparator ch = true) :
    lexC (a ++ ch :: b) = (lexC (ch :: b)).map (tokens ++ ·) := by
  have hne : ch ≠ '\x00' := by
    rintro rfl
    cases hch
  have hcut : (ch :: b).takeWhile (· ≠ '\x00') = ch :: b.takeWhile (· ≠ '\x00') :=
    List.takeWhile_cons_of_pos (decide_eq_true hne)
  rw [SqlLex.lexC_append hnul, lexC, hcut, h.lex_append hch]

end SqlLex
