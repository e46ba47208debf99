import HaybarnOdbc.Lib.Wildcard
import HaybarnOdbc.Utf8Cpp

/-!
# LIKE

`TemplatedLikeOperator` of the engine matches a text with a pattern, both of them UTF-8, byte by
byte. Behind a `%` it enters the text at every byte, also in the middle of a character, and a
pattern that ends in the escape character raises an error only where the text reaches it.

The bytes of a character make no difference (`templatedLikeOperator_text`) : a text matches if
its characters do, and there is an error if they match the pattern before the escape character
with something left.
-/

namespace HaybarnOdbc.Like

open Wildcard Unicode

/-- `IsCharacter` : the byte is the first one of a character. -/
def isCharacter (c : UInt8) : Bool := c &&& 0xc0 != 0x80

/-- `StandardCharacterReader::NextCharacter`. -/
def nextCharacter (sdata : List UInt8) : List UInt8 :=
  sdata.tail.dropWhile fun c => !isCharacter c

/-- The loop over what is left of the text, behind a `%`. -/
def firstMatch {α : Type} (f : List α → Except String Bool) : List α → Except String Bool
  | [] => .ok false
  | b :: s =>
    match f (b :: s) with
    | .ok false => firstMatch f s
    | answer => answer

/-- `SyntaxException`. -/
def endsWithEscape : String := "Like pattern must not end with escape character!"

/-- `TemplatedLikeOperator`, with the characters of its template. -/
def templatedLikeOperator (y : Syntax UInt8) : List UInt8 → List UInt8 → Except String Bool
  | [], sdata => .ok sdata.isEmpty
  | pchar :: pdata, [] => .ok ((pchar :: pdata).all (· = y.any))
  | pchar :: pdata, schar :: sdata =>
    if some pchar = y.escape then
      match pdata with
      | [] => .error endsWithEscape
      | pchar :: pdata =>
        if pchar = schar then templatedLikeOperator y pdata sdata else .ok false
    else if pchar = y.one then templatedLikeOperator y pdata (nextCharacter (schar :: sdata))
    else if pchar = y.any then
      if pdata.dropWhile (· = y.any) = [] then .ok true
      else
        firstMatch (fun sdata => templatedLikeOperator y (pdata.dropWhile (· = y.any)) sdata)
          (schar :: sdata)
    else if pchar = schar then templatedLikeOperator y pdata sdata
    else .ok false
termination_by pdata => pdata.length
decreasing_by
  all_goals simp only [List.length_cons]
  case _ => omega
  case _ => omega
  case _ =>
    have := (List.dropWhile_suffix (fun c => decide (c = y.any)) (l := pdata)).length_le
    omega
  case _ => omega

/-- `GetEscapeChar`. -/
def getEscapeChar : List UInt8 → Except String UInt8
  | [] => .ok 0
  | [c] => .ok c
  | _ => .error "Invalid escape string. Escape string must be empty or one character."

/-- `LikeEscapeOperator`. -/
def likeEscapeOperator (str pattern escape : List UInt8) : Except String Bool :=
  match getEscapeChar escape with
  | .error msg => .error msg
  | .ok c => templatedLikeOperator ⟨0x25, 0x5f, some c⟩ pattern str

/-- `LikeOperator`. -/
def likeOperator (str pattern : List UInt8) : Except String Bool :=
  templatedLikeOperator ⟨0x25, 0x5f, none⟩ pattern str

/-! ## Characters and their bytes -/

theorem land_c0 : ∀ n : Fin 256, n.val &&& 0xc0 = 0x80 ↔ n.val / 64 = 2 := by
  decide +kernel

theorem isCharacter_eq (b : UInt8) : isCharacter b = decide (b.toNat / 64 ≠ 2) := by
  have hiff : b &&& 0xc0 = 0x80 ↔ b.toNat / 64 = 2 := by
    rw [← UInt8.toNat_inj, ← land_c0 ⟨b.toNat, b.toNat_lt⟩]
    rfl
  rw [isCharacter, Bool.eq_iff_iff, bne_iff_ne, decide_eq_true_eq, ne_eq, ne_eq, hiff]

theorem utf8EncodeChar_word (c : Char) :
    ∃ b bs, String.utf8EncodeChar c = b :: bs ∧ isCharacter b = true ∧
      ∀ x ∈ bs, isCharacter x = false := by
  have hc := toNat_char_lt c
  by_cases h1 : c.toNat < 0x80
  · obtain ⟨a, henc, ha⟩ := utf8EncodeChar_one h1
    exact ⟨a, [], henc, by simp [isCharacter_eq]; omega, by simp⟩
  by_cases h2 : c.toNat < 0x800
  · obtain ⟨a, b, henc, ha, hb⟩ := utf8EncodeChar_two (Nat.le_of_not_lt h1) h2
    exact ⟨a, [b], henc, by simp [isCharacter_eq]; omega, by simp [isCharacter_eq]; omega⟩
  by_cases h3 : c.toNat < 0x10000
  · obtain ⟨a, b, d, henc, ha, hb, hd⟩ := utf8EncodeChar_three (Nat.le_of_not_lt h2) h3
    exact ⟨a, [b, d], henc, by simp [isCharacter_eq]; omega, by simp [isCharacter_eq]; omega⟩
  · obtain ⟨a, b, d, e, henc, ha, hb, hd, he⟩ := utf8EncodeChar_four (Nat.le_of_not_lt h3)
    exact ⟨a, [b, d, e], henc, by simp [isCharacter_eq]; omega, by simp [isCharacter_eq]; omega⟩

theorem utf8EncodeChar_free (c c' : Char)
    (h : String.utf8EncodeChar c <+: String.utf8EncodeChar c') : c = c' := by
  obtain ⟨t, ht⟩ := h
  have hn := Utf8Cpp.next_encode c t
  rw [ht, ← List.append_nil (String.utf8EncodeChar c'), Utf8Cpp.next_encode] at hn
  exact (Char.toNat_inj.1 (Prod.mk.inj (Option.some.inj hn)).1).symm

/-- UTF-8. -/
def utf8 : Code Char UInt8 where
  encode := String.utf8EncodeChar
  starts := isCharacter
  word := utf8EncodeChar_word
  free := utf8EncodeChar_free

/-! ## One byte -/

section Steps

variable {z : Syntax UInt8} {c b : UInt8} {p s : List UInt8}

theorem like_nil : templatedLikeOperator z [] s = .ok s.isEmpty := by
  rw [templatedLikeOperator]

theorem like_empty (p : List UInt8) :
    templatedLikeOperator z p [] = .ok (p.all (· = z.any)) := by
  cases p <;> rw [templatedLikeOperator]
  rfl

theorem like_escape_nil (hc : some c = z.escape) :
    templatedLikeOperator z [c] (b :: s) = .error endsWithEscape := by
  rw [templatedLikeOperator, if_pos hc]

theorem like_escape_cons (hc : some c = z.escape) {c' : UInt8} :
    templatedLikeOperator z (c :: c' :: p) (b :: s) =
      if c' = b then templatedLikeOperator z p s else .ok false := by
  rw [templatedLikeOperator, if_pos hc]

theorem like_one (hc : ¬some c = z.escape) (ho : c = z.one) :
    templatedLikeOperator z (c :: p) (b :: s) =
      templatedLikeOperator z p (nextCharacter (b :: s)) := by
  rw [templatedLikeOperator.eq_def]
  dsimp only
  rw [if_neg hc, if_pos ho]

theorem like_any (hc : ¬some c = z.escape) (ho : c ≠ z.one) (ha : c = z.any) :
    templatedLikeOperator z (c :: p) (b :: s) =
      if p.dropWhile (· = z.any) = [] then .ok true
      else firstMatch (templatedLikeOperator z (p.dropWhile (· = z.any))) (b :: s) := by
  rw [templatedLikeOperator.eq_def]
  dsimp only
  rw [if_neg hc, if_neg ho, if_pos ha]

theorem like_plain (hc : ¬some c = z.escape ∧ c ≠ z.one ∧ c ≠ z.any) :
    templatedLikeOperator z (c :: p) (b :: s) =
      if c = b then templatedLikeOperator z p s else .ok false := by
  rw [templatedLikeOperator.eq_def]
  dsimp only
  rw [if_neg hc.1, if_neg hc.2.1, if_neg hc.2.2]

end Steps

/-! ## One character -/

/-- What is behind the rest of a character. -/
theorem nextCharacter_text (b : UInt8) {bs : List UInt8} (hbs : ∀ x ∈ bs, utf8.starts x = false)
    (s : List Char) : nextCharacter (b :: (bs ++ utf8.text s)) = utf8.text s :=
  utf8.dropWhile_text bs hbs s

section Letters

variable {y : Syntax Char} {z : Syntax UInt8} (h : utf8.Encodes y z)

include h

/-- What is behind the first byte of two characters. -/
theorem like_tails {P S : List UInt8} {cs bs : List UInt8} (hcs : ∀ x ∈ cs, utf8.starts x = false)
    (hcb : cs <+: bs → cs = bs) (hbc : bs <+: cs → cs = bs) :
    templatedLikeOperator z (cs ++ P) (bs ++ S) =
      if cs = bs then templatedLikeOperator z P S else .ok false := by
  induction cs generalizing bs with
  | nil => rw [← hcb List.nil_prefix, if_pos rfl, List.nil_append, List.nil_append]
  | cons c cs ih =>
    have hc := h.not_special (hcs c List.mem_cons_self)
    cases bs with
    | nil => cases hbc List.nil_prefix
    | cons b bs =>
      rw [List.cons_append, List.cons_append, like_plain hc]
      by_cases hbe : c = b
      · subst hbe
        have hrest := ih (fun x hx => hcs x (List.mem_cons_of_mem c hx))
          (fun hp => (List.cons.inj (hcb ((List.prefix_cons_inj c).2 hp))).2)
          (fun hp => (List.cons.inj (hbc ((List.prefix_cons_inj c).2 hp))).2)
        simp [hrest]
      · simp [hbe]

/-- A character of the pattern that stands for itself, behind its first byte. -/
theorem like_letter (c d : Char) {b b' : UInt8} {bs bs' : List UInt8}
    (hc : utf8.encode c = b :: bs) (hd : utf8.encode d = b' :: bs') (p s : List Char) :
    (if b = b' then templatedLikeOperator z (bs ++ utf8.text p) (bs' ++ utf8.text s)
      else .ok false) =
      if c = d then templatedLikeOperator z (utf8.text p) (utf8.text s) else .ok false := by
  have hiff : b = b' ∧ bs = bs' ↔ c = d := by
    constructor
    · rintro ⟨rfl, rfl⟩
      exact utf8.free c d (by rw [hc, hd])
    · rintro rfl
      exact List.cons.inj (hc.symm.trans hd)
  by_cases hb : b = b'
  · subst hb
    have htails : ∀ x ∈ bs, utf8.starts x = false := by
      obtain ⟨b₁, bs₁, henc, -, hbs₁⟩ := utf8.word c
      obtain ⟨-, rfl⟩ := List.cons.inj (hc.symm.trans henc)
      exact hbs₁
    have hcb : bs <+: bs' → bs = bs' := fun hp =>
      (hiff.2 (utf8.free c d (by rwa [hc, hd, List.prefix_cons_inj]))).2
    have hbc : bs' <+: bs → bs = bs' := fun hp =>
      (hiff.2 (utf8.free d c (by rwa [hc, hd, List.prefix_cons_inj])).symm).2
    rw [if_pos rfl, like_tails h htails hcb hbc]
    by_cases hbs : bs = bs'
    · rw [if_pos hbs, if_pos (hiff.1 ⟨rfl, hbs⟩)]
    · rw [if_neg hbs, if_neg fun hcd => hbs (hiff.2 hcd).2]
  · rw [if_neg hb, if_neg fun hcd => hb (hiff.2 hcd).1]

/-- Within a character, the pattern goes on as at the beginning of it, or not at all. -/
theorem like_within {c d : Char} (hca : c ≠ y.any) (p s : List Char) {b : UInt8} {bs : List UInt8}
    (hbs : ∀ x ∈ b :: bs, utf8.starts x = false) :
    templatedLikeOperator z (utf8.text (c :: p)) (b :: bs ++ utf8.text s) = .ok false ∨
      templatedLikeOperator z (utf8.text (c :: p)) (b :: bs ++ utf8.text s) =
        templatedLikeOperator z (utf8.text (c :: p)) (utf8.text (d :: s)) := by
  obtain ⟨u, us, hc, hu, hus⟩ := utf8.word c
  obtain ⟨v, vs, hd, hv, hvs⟩ := utf8.word d
  have hb := hbs b List.mem_cons_self
  have hub : u ≠ b := fun hub => by simp [← hub, hu] at hb
  have hheads := h.head_iff hc
  rw [Code.text_cons, hc, Code.text_cons, hd, List.cons_append, List.cons_append, List.cons_append]
  by_cases hce : some u = z.escape
  · -- the escape character, alone or with the next one
    obtain rfl : us = [] := by
      obtain ⟨e, -, henc⟩ := h.encode_escape hce.symm
      exact utf8.tail_eq_nil henc hc
    cases p with
    | nil =>
      refine .inr ?_
      rw [Code.text_nil, List.append_nil, like_escape_nil hce, like_escape_nil hce]
    | cons c' p =>
      refine .inl ?_
      obtain ⟨u', us', hc', hu', -⟩ := utf8.word c'
      rw [Code.text_cons, hc', List.nil_append, List.cons_append, like_escape_cons hce,
        if_neg fun hub => by simp [← hub, hu'] at hb]
  by_cases hco : u = z.one
  · refine .inr ?_
    rw [like_one hce hco, like_one hce hco,
      nextCharacter_text b (fun x hx => hbs x (List.mem_cons_of_mem b hx)),
        nextCharacter_text v hvs]
  · refine .inl ?_
    rw [like_plain ⟨hce, hco, fun hua => hca (hheads.2.1 hua)⟩, if_neg hub]

end Letters

/-! ## Behind a `%` -/

section Loop

variable {α : Type}

theorem firstMatch_cons (f : List α → Except String Bool) (a : α) (s : List α) :
    firstMatch f (a :: s) = if f (a :: s) = .ok false then firstMatch f s else f (a :: s) := by
  rw [firstMatch]
  split
  · next hf => rw [if_pos hf]
  · next hf => rw [if_neg fun h => hf h]

/-- A text that can be entered where the pattern matches it. -/
theorem firstMatch_eq [DecidableEq α] {p : List (Piece α)} {answer : Except String Bool}
    (hanswer : answer ≠ .ok false) (hp : ¬Matches p []) {f : List α → Except String Bool}
    (hf : ∀ s, f s = if Matches p s then answer else .ok false) (s : List α) :
    firstMatch f s = if Matches (.any :: p) s then answer else .ok false := by
  induction s with
  | nil => rw [if_neg fun h => hp (matches_any_nil.1 h), firstMatch.eq_1]
  | cons a s ih =>
    rw [firstMatch_cons, ih, hf]
    by_cases hm : Matches p (a :: s)
    · rw [if_pos hm, if_neg hanswer, if_pos (matches_any_cons.2 (.inl hm))]
    · rw [if_neg hm, if_pos rfl]
      simp [matches_any_cons, hm]

end Loop

section Text

variable {y : Syntax Char} {z : Syntax UInt8} (h : utf8.Encodes y z)

include h

/-- A loop over the bytes of a text is one over its characters. -/
theorem firstMatch_text {c : Char} (hca : c ≠ y.any) (p s : List Char) :
    firstMatch (templatedLikeOperator z (utf8.text (c :: p))) (utf8.text s) =
      firstMatch (fun s => templatedLikeOperator z (utf8.text (c :: p)) (utf8.text s)) s := by
  induction s with
  | nil => rw [Code.text_nil, firstMatch.eq_1, firstMatch.eq_1]
  | cons d s ih =>
    obtain ⟨v, vs, hd, hv, hvs⟩ := utf8.word d
    have hwithin : ∀ bs, (∀ x ∈ bs, utf8.starts x = false) →
        templatedLikeOperator z (utf8.text (c :: p)) (utf8.text (d :: s)) = .ok false →
        firstMatch (templatedLikeOperator z (utf8.text (c :: p))) (bs ++ utf8.text s) =
          firstMatch (templatedLikeOperator z (utf8.text (c :: p))) (utf8.text s) := by
      intro bs hbs hfalse
      induction bs with
      | nil => rfl
      | cons b bs ihbs =>
        have hb : templatedLikeOperator z (utf8.text (c :: p)) (b :: bs ++ utf8.text s) =
            .ok false := by
          rcases like_within h hca p s (d := d) hbs with heq | heq
          · exact heq
          · exact heq.trans hfalse
        rw [List.cons_append, firstMatch_cons, ← List.cons_append, if_pos hb]
        exact ihbs fun x hx => hbs x (List.mem_cons_of_mem b hx)
    have htext : utf8.text (d :: s) = v :: (vs ++ utf8.text s) := by
      rw [Code.text_cons, hd, List.cons_append]
    rw [firstMatch_cons (fun s => templatedLikeOperator z (utf8.text (c :: p)) (utf8.text s)), ← ih,
      htext, firstMatch_cons]
    split
    · next hfalse => exact hwithin vs hvs (by rw [htext]; exact hfalse)
    · rfl

end Text

/-- What a pattern answers for a text that its pieces match. -/
def answer (dangling : Bool) : Except String Bool :=
  if dangling then .error endsWithEscape else .ok true

theorem answer_ne (dangling : Bool) : answer dangling ≠ .ok false := by
  cases dangling <;> simp [answer]

theorem if_matches_lit {α β : Type} [DecidableEq α] {p : List (Piece α)} {c d : α} {s : List α}
    {a b : β} : (if c = d then if Matches p s then a else b else b) =
      if Matches (.lit c :: p) (d :: s) then a else b := by
  by_cases hcd : c = d
  · subst hcd
    simp [Matches]
  · simp [Matches, hcd, Ne.symm hcd]

/-- A pattern matches a text as its characters do. One that ends in an escape character raises an
error for a text that goes on where it ends. -/
theorem templatedLikeOperator_text {y : Syntax Char} {z : Syntax UInt8} (h : utf8.Encodes y z)
    (hy : y.Distinct) (p s : List Char) :
    templatedLikeOperator z (utf8.text p) (utf8.text s) =
      if Matches (pieces y p).1 s then answer (pieces y p).2 else .ok false := by
  induction hn : p.length using Nat.strong_induction_on generalizing p s with
  | h n ih =>
    subst hn
    cases p with
    | nil =>
      rw [Code.text_nil, like_nil]
      cases s with
      | nil => rfl
      | cons d s =>
        obtain ⟨v, vs, hd, -⟩ := utf8.word d
        simp [hd, pieces_nil, Matches]
    | cons c p =>
      have hlt : p.length < (c :: p).length := Nat.lt_succ_self _
      cases s with
      | nil =>
        rw [Code.text_nil, like_empty, h.all_any]
        by_cases hall : (c :: p).all (· = y.any) = true
        · rw [if_pos ((hy.matches_nil_iff _).2 hall), hy.pieces_of_all hall, hall]
          rfl
        · rw [if_neg fun hm => hall ((hy.matches_nil_iff _).1 hm)]
          simpa using hall
      | cons d s =>
        obtain ⟨u, us, hc, -⟩ := utf8.word c
        obtain ⟨v, vs, hd, -, hvs⟩ := utf8.word d
        obtain ⟨hone, hany⟩ := h.head_iff hc
        have hesc := h.escape_iff hc
        rw [Code.text_cons, hc, Code.text_cons, hd, List.cons_append, List.cons_append]
        by_cases hce : some u = z.escape
        · obtain ⟨e, he, henc⟩ := h.encode_escape hce.symm
          obtain rfl := utf8.tail_eq_nil henc hc
          obtain rfl := (utf8.head_eq_iff henc hc).1 rfl
          cases p with
          | nil =>
            rw [Code.text_nil, List.append_nil, like_escape_nil hce, pieces_escape_nil he]
            simp [Matches, answer]
          | cons c' p =>
            obtain ⟨u', us', hc', -⟩ := utf8.word c'
            rw [Code.text_cons, hc', List.nil_append, List.cons_append, like_escape_cons hce,
              like_letter h c' d hc' hd,
              ih p.length (by rw [List.length_cons, List.length_cons]; omega) p s rfl,
              pieces_escape_cons he, if_matches_lit]
        rw [pieces_cons fun hcy => hce (hesc.2 hcy), Syntax.piece]
        by_cases hco : u = z.one
        · have hus : us = [] := utf8.tail_eq_nil h.one (hc.trans (by rw [hco]))
          rw [hone.1 hco, if_pos rfl, like_one hce hco, nextCharacter_text v hvs, hus,
            List.nil_append, ih p.length hlt p s rfl]
          simp [Matches]
        rw [if_neg fun hcy => hco (hone.2 hcy)]
        by_cases hca : u = z.any
        · have hus : us = [] := utf8.tail_eq_nil h.any (hc.trans (by rw [hca]))
          rw [if_pos (hany.1 hca), like_any hce hco hca, hus, List.nil_append, h.dropWhile_any,
            ← hy.pieces_dropWhile p]
          have hiff := hy.matches_dropWhile p (s := d :: s)
          have hle := (List.dropWhile_suffix (fun a => decide (a = y.any)) (l := p)).length_le
          have hhead := List.head?_dropWhile_not (fun a => decide (a = y.any)) p
          simp only [hiff]
          generalize p.dropWhile (fun a => decide (a = y.any)) = q at hle hhead
          cases q with
          | nil => simp [pieces_nil, matches_any_last, answer]
          | cons c' q =>
            have hca' : c' ≠ y.any := by simpa using hhead
            have hne : utf8.text (c' :: q) ≠ [] := fun hnil => by
              simpa using (utf8.text_eq_nil_iff).1 hnil
            have htext : utf8.text (d :: s) = v :: (vs ++ utf8.text s) := by
              rw [Code.text_cons, hd, List.cons_append]
            rw [if_neg hne, ← htext, firstMatch_text h hca']
            exact firstMatch_eq (answer_ne _) (not_matches_pieces_nil hca' q)
              (fun t => ih (c' :: q).length (by simp at hle ⊢; omega) (c' :: q) t rfl) (d :: s)
        · rw [if_neg fun hcy => hca (hany.2 hcy), like_plain ⟨hce, hco, hca⟩,
            like_letter h c d hc hd,
            ih p.length hlt p s rfl, if_matches_lit]

end HaybarnOdbc.Like
