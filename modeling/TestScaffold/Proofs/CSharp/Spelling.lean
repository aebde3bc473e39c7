/-
  TestScaffold/Proofs/CSharp/Spelling.lean
  ========================================
  **Texts that are spelled by plain tokens.**

  `Spelt cs ts` says that the characters `cs` are the text of the plain tokens
  `ts`, each of which may stand before the next.  Spelled texts are put one behind
  the other, with or without blanks between, where the last token of the one may
  stand before the first of the other.
-/
import TestScaffold.Proofs.CSharp.Lexing
import TestScaffold.Proofs.CSharp.Phrase

namespace TestScaffold.CSharp

open TestScaffold.Text
open Grammar

/-! ### Words and marks as tokens -/

namespace Keyword

/-- All keywords. -/
def all : List Keyword := (List.range 127).map ofNat

theorem mem_all (k : Keyword) : k ∈ all := by
  have hlt : k.ctorIdx < 127 := by cases k <;> decide
  exact List.mem_map.mpr ⟨k.ctorIdx, List.mem_range.mpr hlt, ofNat_ctorIdx k⟩

/-- The characters of a keyword. -/
def chars (k : Keyword) : List Char :=
  ((table.find? (·.2 = k)).map (·.1)).getD []

theorem isPlainWord_chars (k : Keyword) : isPlainWord k.chars = true := by
  have h : (all.all fun k => isPlainWord k.chars) = true := by decide
  exact List.all_eq_true.mp h k (mem_all k)

theorem ofChars?_chars (k : Keyword) : ofChars? k.chars = some k := by
  have h : (all.all fun k => ofChars? k.chars == some k) = true := by decide
  exact beq_iff_eq.mp (List.all_eq_true.mp h k (mem_all k))

end Keyword

/-- The characters of a mark. -/
def Mark.chars (m : Mark) : List Char :=
  ((Mark.table.find? (·.2 = m)).map (·.1)).getD []

theorem isWordChar_of_isPlainWord {cs : List Char} (h : isPlainWord cs = true) :
    ∀ c ∈ cs, isWordChar c = true := by
  obtain ⟨c, rest, _, hall, rfl | rfl⟩ := Lexer.exists_of_isPlainWord h
  · intro d hd
    simp [isWordChar, hall d hd]
  · intro d hd
    rcases List.mem_cons.mp hd with rfl | hd
    · decide
    · simp [isWordChar, hall d hd]

theorem ne_nil_of_isPlainWord {cs : List Char} (h : isPlainWord cs = true) : cs ≠ [] := by
  rintro rfl
  cases h

/-- The word of some characters; an underscore if they are none. -/
def wordOf (cs : List Char) : Word :=
  if h : isPlainWord cs = true then ⟨cs, ne_nil_of_isPlainWord h, isWordChar_of_isPlainWord h⟩
  else ⟨['_'], List.cons_ne_nil _ _, List.all_eq_true.mp (by decide)⟩

theorem wordOf_chars {cs : List Char} (h : isPlainWord cs = true) : (wordOf cs).chars = cs := by
  simp [wordOf, h]

namespace Token

/-- A keyword right behind the token before. -/
def keyword (k : Keyword) : Token := ⟨[], .word (wordOf k.chars), .keyword k⟩

/-- A mark right behind the token before. -/
def mark (m : Mark) : Token := ⟨[], .other m.chars, .mark m⟩

/-- A name right behind the token before. A word that is a keyword in some places is one here. -/
def name (cs : List Char) : Token where
  gap := []
  lexeme := .word (wordOf cs)
  role := match Keyword.ofChars? cs with
    | some k => if k ∈ Keyword.contextual then .keyword k else .identifier
    | none => .identifier

/-- A string literal right behind the token before. -/
def text (body : List Char) : Token := ⟨[], .other ('"' :: body ++ ['"']), .stringLiteral⟩

theorem keyword_chars (k : Keyword) : (keyword k).chars = k.chars := by
  simp [keyword, Token.chars, gapChars, Lexeme.chars, wordOf_chars k.isPlainWord_chars]

theorem mark_chars (m : Mark) : (mark m).chars = m.chars := by
  simp [mark, Token.chars, gapChars, Lexeme.chars]

theorem name_chars {cs : List Char} (h : isPlainWord cs = true) : (name cs).chars = cs := by
  simp [name, Token.chars, gapChars, Lexeme.chars, wordOf_chars h]

theorem text_chars (body : List Char) : (text body).chars = '"' :: body ++ ['"'] := by
  simp [text, Token.chars, gapChars, Lexeme.chars]

theorem plain_keyword (k : Keyword) : (keyword k).Plain where
  gap := Or.inl rfl
  lexeme := by
    refine .keyword ?_ ?_ <;> rw [wordOf_chars k.isPlainWord_chars]
    · exact k.isPlainWord_chars
    · exact k.ofChars?_chars

/-- The marks that plain tokens are made of: all but the odd ones. -/
theorem mem_plainMarks {m : Mark} (hm : m ∉ oddMarks) :
    (m.chars, m) ∈ Lexer.plainMarks := by
  revert hm
  cases m <;> decide

theorem plain_mark {m : Mark} (hm : m ∉ oddMarks) : (mark m).Plain where
  gap := Or.inl rfl
  lexeme := .mark (mem_plainMarks hm)

theorem plain_name {cs : List Char} (h : isPlainWord cs = true) : (name cs).Plain where
  gap := Or.inl rfl
  lexeme := by
    have hchars := wordOf_chars h
    unfold name
    cases hspelled : Keyword.ofChars? cs with
    | none => exact .name (hchars.symm ▸ h)
    | some k =>
      dsimp only
      split
      · exact .keyword (hchars.symm ▸ h) (hchars.symm ▸ hspelled)
      · exact .name (hchars.symm ▸ h)

theorem plain_text {body : List Char} (hne : body ≠ [])
    (hbody : ∀ c ∈ body, Lexer.isPlainText c = true) : (text body).Plain where
  gap := Or.inl rfl
  lexeme := .text hne hbody

/-- A name is read as the category of names. -/
theorem phrase_name (cs : List Char) : Phrase .identifier [name cs] := by
  have hcontextual : ∀ k ∈ Keyword.contextual,
      [Grammar.k k] ∈ rules .contextualWord := by decide
  have hname : (name cs).role = .identifier →  Phrase .identifier [name cs] := by
    intro hrole
    refine .of_rule List.mem_cons_self (Parses.token ?_ .nil)
    rw [fits_of_role (by simp), hrole]
    rfl
  cases hspelled : Keyword.ofChars? cs with
  | none => exact hname (by simp [name, hspelled])
  | some k =>
    by_cases hk : k ∈ Keyword.contextual
    · refine .of_category (d := .contextualWord) (by decide) (.of_rule (hcontextual k hk) ?_)
      refine Parses.token ?_ .nil
      rw [fits_of_role (by simp)]
      simp [name, hspelled, hk]
    · exact hname (by simp [name, hspelled, hk])

/-- A name may stand behind a token unless it is spelled like a keyword that may. -/
theorem named_name {a : Terminal} {cs : List Char} (hcs : isPlainWord cs = true)
    (h : ∀ k, Keyword.ofChars? cs = some k → k ∉ Keyword.contextual →
      ¬ MayFollow a (.keyword k)) : (name cs).Named a := by
  intro hrole k hk
  simp only [name, Lexeme.chars, wordOf_chars hcs] at hk
  refine h k hk fun hmem => ?_
  simp [name, hk, hmem] at hrole

/-! ### Tokens side by side -/

/-- A token that is not a name is read in its role everywhere. -/
theorem named_of_role {t : Token} (h : t.role ≠ .identifier) (a : Terminal) : t.Named a :=
  fun hrole => absurd hrole h

/-- Behind blanks, any token may stand that is read in its role. -/
theorem before_behind {a b : Token} {blanks : List Char} (ha : a.Plain) (hne : blanks ≠ [])
    (hblanks : ∀ c ∈ blanks, isPlainBlank c = true) (hb : b.Named a.role) :
    a.Before (b.behind blanks) where
  ends := by
    intro c hc
    refine ha.endsBefore_blank (hblanks c ?_)
    rw [Token.chars, gapChars, behind, if_neg hne] at hc
    cases blanks with
    | nil => exact absurd rfl hne
    | cons d rest =>
      cases hc
      exact List.mem_cons_self
  named := hb

theorem behind_nil {t : Token} (h : t.gap = []) : t.behind [] = t := by
  cases t
  cases h
  rfl

theorem chars_of_gap_nil {t : Token} (h : t.gap = []) : t.chars = t.lexeme.chars := by
  simp [Token.chars, gapChars, h]

theorem chars_behind {t : Token} (h : t.gap = []) (blanks : List Char) :
    (t.behind blanks).chars = blanks ++ t.chars := by
  rw [chars_of_gap_nil h]
  by_cases hblanks : blanks = []
  · simp [Token.chars, gapChars, behind, hblanks]
  · simp [Token.chars, gapChars, behind, hblanks, Separator.chars]

theorem Plain.behind {t : Token} (h : t.Plain) {blanks : List Char}
    (hblanks : ∀ c ∈ blanks, isPlainBlank c = true) : (t.behind blanks).Plain where
  gap := by
    by_cases hne : blanks = []
    · exact Or.inl (by simp [Token.behind, hne])
    · exact Or.inr ⟨blanks, hne, hblanks, by simp [Token.behind, hne]⟩
  lexeme := h.lexeme

/-- A plain token does not begin with a digit. -/
theorem Plain.not_isAsciiDigit {t : Token} (h : t.Plain) :
    ∀ c ∈ t.lexeme.chars.head?, isAsciiDigit c = false := by
  have hword : ∀ {w : Word}, isPlainWord w.chars = true →
      ∀ c ∈ w.chars.head?, isAsciiDigit c = false := by
    intro w hw c hc
    obtain ⟨d, rest, hd, _, hcs | hcs⟩ := Lexer.exists_of_isPlainWord hw
    · rw [hcs] at hc
      cases hc
      exact not_isAsciiDigit_of_isIdentifierStart hd
    · rw [hcs] at hc
      cases hc
      decide
  cases t with
  | mk gap lexeme role =>
    cases h.lexeme with
    | name plain => exact hword plain
    | keyword plain spelled => exact hword plain
    | @mark cs m listed =>
      obtain ⟨c, rest, rfl, hsign, _⟩ := Lexer.isSign_of_mem_plainMarks listed
      intro d hd
      cases hd
      simp only [Lexer.isSign, Bool.and_eq_true, Bool.not_eq_true'] at hsign
      exact hsign.1.1.1.1.1.1.2
    | text nonempty plain =>
      intro c hc
      cases hc
      decide

/-- Whether a token is read as a word or as an opening parenthesis. -/
def isWordOrParen (t : Token) : Bool :=
  match t.role with
  | .identifier | .keyword _ | .mark .openParen => true
  | _ => false

/-- The characters that make a mark longer are signs. -/
theorem mem_of_extends {cs : List Char} {c : Char} (hne : cs ≠ [])
    (h : Lexer.extends_ cs c = true) :
    c ∈ ['=', ':', '?', '>', '&', '|', '+', '-', '<', '.'] := by
  have htable : (Mark.table.all fun e => e.1.tail.all fun d =>
      ['=', ':', '?', '>', '&', '|', '+', '-', '<', '.'].contains d) = true := by decide
  have hall : ∀ e ∈ Mark.table, ∀ d ∈ e.1.tail,
      d ∈ ['=', ':', '?', '>', '&', '|', '+', '-', '<', '.'] := by
    intro e he d hd
    exact List.contains_iff_mem.mp (List.all_eq_true.mp (List.all_eq_true.mp htable e he) d hd)
  obtain ⟨e, he, hprefix⟩ := List.any_eq_true.mp h
  obtain ⟨rest, hrest⟩ := List.isPrefixOf_iff_prefix.mp hprefix
  refine hall e he c ?_
  cases cs with
  | nil => exact absurd rfl hne
  | cons b cs => rw [← hrest]; simp

/-- Right behind a mark, a word or an opening parenthesis may stand that is read in its role. -/
theorem before_of_mark {a b : Token} {m : Mark} (hrole : a.role = .mark m) (ha : a.Plain)
    (hb : b.Plain) (hflush : b.gap = []) (hword : b.isWordOrParen = true)
    (hnamed : b.Named a.role) : a.Before b where
  ends := by
    intro c hc
    rw [chars_of_gap_nil hflush] at hc
    have hhead : ∀ c ∈ b.lexeme.chars.head?,
        c ∉ ['=', ':', '?', '>', '&', '|', '+', '-', '<', '.'] := by
      have hstart : ∀ {w : Word}, isPlainWord w.chars = true → ∀ c ∈ w.chars.head?,
          c ∉ ['=', ':', '?', '>', '&', '|', '+', '-', '<', '.'] := by
        intro w hw c hc hmem
        obtain ⟨d, rest, hd, _, hcs | hcs⟩ := Lexer.exists_of_isPlainWord hw
        · rw [hcs] at hc
          cases hc
          have hsigns : (['=', ':', '?', '>', '&', '|', '+', '-', '<', '.'].all
              fun c => !isIdentifierStart c) = true := by decide
          have hsign := List.all_eq_true.mp hsigns _ hmem
          rw [hd] at hsign
          cases hsign
        · rw [hcs] at hc
          cases hc
          exact absurd hmem (by decide)
      cases b with
      | mk gap lexeme role =>
        cases hb.lexeme with
        | name plain => exact hstart plain
        | keyword plain spelled => exact hstart plain
        | @mark cs m' listed =>
          cases m' with
          | openParen =>
            have hall : ∀ e ∈ Lexer.plainMarks, e.2 = .openParen → e.1 = ['('] := by decide
            intro c hc
            rw [show cs = ['('] from hall _ listed rfl] at hc
            cases hc
            decide
          | _ => cases hword
        | text nonempty plain => cases hword
    have hext : Lexer.extends_ a.lexeme.chars c = false := by
      cases hext : Lexer.extends_ a.lexeme.chars c with
      | false => rfl
      | true =>
        obtain ⟨d, rest, hd, _⟩ := ha.begins
        exact absurd (mem_of_extends (by simp [hd]) hext) (hhead c hc)
    simp only [endsBefore, hrole, hext, hb.not_isAsciiDigit c hc]
    rfl
  named := hnamed

/-- The marks that no character makes longer. -/
def shutMarks : List Mark :=
  [.openParen, .closeParen, .openBracket, .closeBracket, .openBrace, .closeBrace, .comma,
    .semicolon, .greater]

/-- Right behind a mark that nothing makes longer, any token may stand that is read in its role. -/
theorem before_of_shut {a b : Token} {m : Mark} (hm : m ∈ shutMarks) (hrole : a.role = .mark m)
    (hchars : a.lexeme.chars = m.chars) (hb : b.Plain) (hflush : b.gap = [])
    (hnamed : b.Named a.role) : a.Before b where
  ends := by
    intro c hc
    rw [chars_of_gap_nil hflush] at hc
    have hext : Lexer.extends_ m.chars c = false := by
      have hall : ∀ m ∈ shutMarks, Mark.table.all (fun e =>
          !(m.chars.isPrefixOf e.1) || e.1.length == m.chars.length) = true := by decide
      refine List.any_eq_false.mpr fun e he hprefix => ?_
      have hone := List.all_eq_true.mp (hall m hm) e he
      obtain ⟨rest, hrest⟩ := List.isPrefixOf_iff_prefix.mp hprefix
      simp only [Bool.or_eq_true, Bool.not_eq_true', beq_iff_eq] at hone
      rcases hone with hone | hone
      · have : m.chars.isPrefixOf e.1 = true := by
          rw [List.isPrefixOf_iff_prefix, ← hrest, List.append_assoc]
          exact List.prefix_append _ _
        rw [hone] at this
        cases this
      · rw [← hrest] at hone
        simp at hone
    simp only [endsBefore, hrole, hchars, hext, hb.not_isAsciiDigit c hc]
    rfl
  named := hnamed

end Token

/-! ### Spelled texts -/

/-- The characters are the text of plain tokens, each of which may stand before the next. -/
structure Spelt (cs : List Char) (ts : List Token) : Prop where
  chars : ts.flatMap Token.chars = cs
  plain : ∀ t ∈ ts, t.Plain
  chain : ts.IsChain Token.Before
  flush : ∀ t ∈ ts.head?, t.gap = []

namespace Spelt

theorem single {t : Token} {cs : List Char} (hplain : t.Plain) (hflush : t.gap = [])
    (hcs : t.chars = cs) : Spelt cs [t] where
  chars := by simpa using hcs
  plain := by simpa using hplain
  chain := List.isChain_singleton t
  flush := by simpa using hflush

theorem keyword (k : Keyword) : Spelt k.chars [Token.keyword k] :=
  single (Token.plain_keyword k) rfl (Token.keyword_chars k)

theorem mark {m : Mark} (hm : m ∉ oddMarks) :
    Spelt m.chars [Token.mark m] :=
  single (Token.plain_mark hm) rfl (Token.mark_chars m)

theorem name {cs : List Char} (h : isPlainWord cs = true) : Spelt cs [Token.name cs] :=
  single (Token.plain_name h) rfl (Token.name_chars h)

theorem flatMap_allBehind {ts : List Token} (hne : ts ≠ []) (hflush : ∀ t ∈ ts.head?, t.gap = [])
    (blanks : List Char) :
    (Token.allBehind blanks ts).flatMap Token.chars = blanks ++ ts.flatMap Token.chars := by
  cases ts with
  | nil => exact absurd rfl hne
  | cons t ts => simp [Token.allBehind, Token.chars_behind (hflush t rfl)]

theorem plain_allBehind {ts : List Token} (hplain : ∀ t ∈ ts, t.Plain) {blanks : List Char}
    (hblanks : ∀ c ∈ blanks, isPlainBlank c = true) : ∀ t ∈ Token.allBehind blanks ts, t.Plain := by
  cases ts with
  | nil => exact hplain
  | cons t ts =>
    intro u hu
    rcases List.mem_cons.mp hu with rfl | hu
    · exact (hplain t List.mem_cons_self).behind hblanks
    · exact hplain u (List.mem_cons_of_mem _ hu)

/-- What a token may stand before does not depend on the gap before it. -/
theorem chain_allBehind {ts : List Token} (h : ts.IsChain Token.Before) (blanks : List Char) :
    (Token.allBehind blanks ts).IsChain Token.Before := by
  cases ts with
  | nil => exact h
  | cons t ts =>
    rw [Token.allBehind, List.isChain_cons]
    rw [List.isChain_cons] at h
    exact ⟨fun u hu => ⟨(h.1 u hu).ends, (h.1 u hu).named⟩, h.2⟩

/-- **Spelled texts one behind the other**, with blanks or none between. -/
theorem append {cs ds : List Char} {ts us : List Token} (h : Spelt cs ts) (hts : ts ≠ [])
    (h' : Spelt ds us) (hus : us ≠ []) (blanks : List Char)
    (hblanks : ∀ c ∈ blanks, isPlainBlank c = true)
    (joint : ∀ a ∈ ts.getLast?, ∀ b ∈ us.head?, a.Before (b.behind blanks)) :
    Spelt (cs ++ blanks ++ ds) (ts ++ Token.allBehind blanks us) where
  chars := by
    rw [List.flatMap_append, flatMap_allBehind hus h'.flush, h.chars, h'.chars, List.append_assoc]
  plain := by
    intro t ht
    rcases List.mem_append.mp ht with ht | ht
    · exact h.plain t ht
    · exact plain_allBehind h'.plain hblanks t ht
  chain := by
    refine List.isChain_append.mpr ⟨h.chain, chain_allBehind h'.chain blanks, ?_⟩
    intro a ha b hb
    cases us with
    | nil => exact absurd rfl hus
    | cons u us =>
      cases hb
      exact joint a ha u rfl
  flush := by
    intro t ht
    cases ts with
    | nil => exact absurd rfl hts
    | cons u us =>
      cases ht
      exact h.flush _ rfl

/-- Blanks before tokens leave the last of them as it is, but for its gap. -/
theorem mem_getLast?_allBehind {ts : List Token} {t : Token} {blanks : List Char}
    (ht : t ∈ (Token.allBehind blanks ts).getLast?) :
    ∃ u ∈ ts.getLast?, t.lexeme = u.lexeme ∧ t.role = u.role := by
  cases ts with
  | nil => cases ht
  | cons v vs =>
    cases vs with
    | nil =>
      cases ht
      exact ⟨v, rfl, rfl, rfl⟩
    | cons w ws => exact ⟨t, by simpa [Token.allBehind] using ht, rfl, rfl⟩

theorem allBehind_nil {ts : List Token} (hflush : ∀ t ∈ ts.head?, t.gap = []) :
    Token.allBehind [] ts = ts := by
  cases ts with
  | nil => rfl
  | cons t ts => rw [Token.allBehind, Token.behind_nil (hflush t rfl)]

theorem join {cs ds : List Char} {ts us : List Token} (h : Spelt cs ts) (hts : ts ≠ [])
    (h' : Spelt ds us) (hus : us ≠ [])
    (joint : ∀ a ∈ ts.getLast?, ∀ b ∈ us.head?, a.Before b) : Spelt (cs ++ ds) (ts ++ us) := by
  have hall := h.append hts h' hus [] (fun c hc => absurd hc List.not_mem_nil)
    fun a ha b hb => by rw [Token.behind_nil (h'.flush b hb)]; exact joint a ha b hb
  rwa [allBehind_nil h'.flush, List.append_nil] at hall

/-- With a blank between, only what the next token is read as matters. -/
theorem blank {cs ds : List Char} {ts us : List Token} (h : Spelt cs ts) (hts : ts ≠ [])
    (h' : Spelt ds us) (hus : us ≠ [])
    (hnamed : ∀ a ∈ ts.getLast?, ∀ b ∈ us.head?, b.Named a.role) :
    Spelt (cs ++ ' ' :: ds) (ts ++ Token.allBehind [' '] us) := by
  have hall := h.append hts h' hus [' '] (by simp [isPlainBlank])
    fun a ha b hb => Token.before_behind (h.plain a (List.mem_of_getLast? ha))
      (List.cons_ne_nil _ _) (by simp [isPlainBlank]) (hnamed a ha b hb)
  rwa [List.append_assoc, List.singleton_append] at hall

/-- A mark that nothing makes longer, and what follows it. -/
theorem after_shut {cs ds : List Char} {ts us : List Token} {m : Mark} (hm : m ∈ Token.shutMarks)
    (h : Spelt cs (ts ++ [Token.mark m])) (h' : Spelt ds us) (hus : us ≠ [])
    (hnamed : ∀ b ∈ us.head?, b.Named (.mark m)) :
    Spelt (cs ++ ds) (ts ++ [Token.mark m] ++ us) := by
  refine h.join (by simp) h' hus fun a ha b hb => ?_
  rw [List.getLast?_concat] at ha
  cases ha
  exact Token.before_of_shut hm rfl rfl (h'.plain b (List.mem_of_mem_head? hb)) (h'.flush b hb)
    (hnamed b hb)

/-- Text with a mark right behind it. -/
theorem sign {cs : List Char} {ts : List Token} (h : Spelt cs ts) (hts : ts ≠ []) {m : Mark}
    (hm : m ∉ oddMarks)
    (hends : ∀ a ∈ ts.getLast?, ∀ d ∈ m.chars.head?, a.endsBefore d = true) :
    Spelt (cs ++ m.chars) (ts ++ [Token.mark m]) := by
  refine h.join hts (mark hm) (List.cons_ne_nil _ _) fun a ha b hb => ?_
  cases hb
  refine ⟨?_, Token.named_of_role (fun h => by cases h) _⟩
  rw [Token.mark_chars]
  exact hends a ha

/-- The sign behind tokens of which the last is known. -/
theorem sign_of_all {cs : List Char} {ts : List Token} (h : Spelt cs ts) (hts : ts ≠ []) {m : Mark}
    (hm : m ∉ oddMarks) (hends : (ts.getLast?.all fun a => m.chars.head?.all a.endsBefore) = true) :
    Spelt (cs ++ m.chars) (ts ++ [Token.mark m]) := by
  apply h.sign hts hm
  intro a ha d hd
  rw [Option.mem_def] at ha hd
  rw [ha, Option.all_some, hd, Option.all_some] at hends
  exact hends

end Spelt

/-! ### Reading what is spelled -/

/-- **Plain tokens that are a phrase of a file have a tree**, and the tree reads these tokens. -/
theorem Tree.exists_of_phrase {ts : List Token} {blanks : List Char}
    (hphrase : Phrase .compilationUnit ts) (hplain : ∀ t ∈ ts, t.Plain)
    (hchain : ts.IsChain Token.Before) (hfirst : ∀ t ∈ ts.head?, t.role ≠ .identifier)
    (hblanks : ∀ c ∈ blanks, isPlainBlank c = true) :
    ∃ us, Tree.ofChars? (ts.flatMap Token.chars ++ blanks) = some (.node .compilationUnit us) ∧
      ∃ rhs ∈ rules .compilationUnit, Reads rhs ts us := by
  obtain ⟨rhs, hrule, trees, hreads⟩ := hphrase
  obtain ⟨word, hderives, hfits⟩ := hreads.derives
  have hspells : Spells none ⟨[], ts.flatMap Token.chars ++ blanks⟩ ts :=
    .of_plain hblanks hplain hchain fun t ht hrole => absurd hrole (hfirst t ht)
  refine Tree.exists_of_spells ?_ hspells hrule hderives hfits fun t ht =>
    (hplain t ht).role_ne_colon
  rw [List.mem_append, List.mem_flatMap]
  rintro (⟨t, ht, hnul⟩ | hnul)
  · exact (hplain t ht).nul_not_mem hnul
  · exact absurd (hblanks _ hnul) (by decide)

end TestScaffold.CSharp
