/-
  TestScaffold/Proofs/CSharp/Lexing.lean
  ======================================
  **Plain tokens are read back as they are written.**

  A plain token is a word without escapes, a punctuation mark or a simple string
  literal, behind blanks or right behind the token before.  Where each token of a
  list ends before the next one, and no name may be taken for a keyword, the
  lexer reads the text of the list as the list.
-/
import Mathlib.Data.List.Chain
import TestScaffold.Proofs.CSharp.Completeness

namespace TestScaffold.CSharp

open TestScaffold.Text
open Grammar

/-- The marks that are not always read as they stand: behind a colon a format may follow, and a
    comment begins with a slash. -/
def oddMarks : List Mark := [.colon, .divide, .divideAssign]

/-! ### Characters -/

/-- The characters of a word without escapes. -/
def isPlainWord (cs : List Char) : Bool :=
  let body := match cs with
    | '@' :: rest => rest
    | _ => cs
  match body with
  | c :: rest => isIdentifierStart c && (c :: rest).all isIdentifierPart
  | [] => false

/-- A blank of laid out text. -/
def isPlainBlank (c : Char) : Bool := c == ' ' || c == '\n' || c == '\r'

theorem eq_of_isPlainBlank {c : Char} (h : isPlainBlank c = true) : c = ' ' ∨ c = '\n' ∨ c = '\r' := by
  simpa [isPlainBlank, or_assoc] using h

theorem isGapBlank_of_isPlainBlank {c : Char} (h : isPlainBlank c = true) :
    Lexer.isGapBlank c = true := by
  rcases eq_of_isPlainBlank h with rfl | rfl | rfl <;> decide

/-- Two characters that a test tells apart are different. -/
theorem ne_of_test {p : Char → Bool} {c d : Char} (hc : p c = true) (hd : p d = false) : c ≠ d := by
  rintro rfl
  rw [hc] at hd
  cases hd

theorem not_isGapBlank_of_isIdentifierStart {c : Char} (h : isIdentifierStart c = true) :
    Lexer.isGapBlank c = false := by
  cases hblank : Lexer.isGapBlank c with
  | false => rfl
  | true =>
    have hcases : c.toNat ∈ [32, 9, 10, 11, 12, 13, 0xA0, 0xFEFF, 0x3000] := by
      simp only [Lexer.isGapBlank, Bool.or_eq_true, Bool.and_eq_true, beq_iff_eq,
        decide_eq_true_eq] at hblank
      simp only [List.mem_cons, List.not_mem_nil, or_false]
      omega
    have hall : ∀ n ∈ [32, 9, 10, 11, 12, 13, 0xA0, 0xFEFF, 0x3000],
        isIdentifierStart (Char.ofNat n) = false := by decide +kernel
    have hc := hall _ hcases
    rw [Char.ofNat_toNat, h] at hc
    cases hc

theorem not_isAsciiDigit_of_isIdentifierStart {c : Char} (h : isIdentifierStart c = true) :
    isAsciiDigit c = false := by
  cases hdigit : isAsciiDigit c with
  | false => rfl
  | true =>
    have hrange : 48 ≤ c.toNat ∧ c.toNat ≤ 57 := by
      simpa [isAsciiDigit, Char.le_def, UInt32.le_iff_toNat_le] using hdigit
    have hall : ∀ n < 58, 48 ≤ n → isIdentifierStart (Char.ofNat n) = false := by decide
    have hc := hall _ (by omega) hrange.1
    rw [Char.ofNat_toNat, h] at hc
    cases hc

/-! ### Gaps -/

namespace Lexer

/-- What a token begins with, so that no gap does. -/
def beginsToken (c : Char) : Bool := c != '/' && c != '#' && !isGapBlank c

theorem separator?_eq_none {c : Char} (cs : List Char) (h : beginsToken c = true) :
    separator? (c :: cs) = none := by
  simp only [beginsToken, Bool.and_eq_true, bne_iff_ne, ne_eq, Bool.not_eq_true'] at h
  obtain ⟨⟨hslash, hsharp⟩, hblank⟩ := h
  unfold separator?
  split
  · rename_i heq
    exact absurd (List.cons.inj heq).1 hslash
  · rename_i heq
    exact absurd (List.cons.inj heq).1 hslash
  · rename_i heq
    exact absurd (List.cons.inj heq).1 hsharp
  · rename_i heq
    rw [← (List.cons.inj heq).1, hblank]
    rfl
  · rename_i heq
    cases heq

theorem gap_of_begins {c : Char} (n : Nat) (cs : List Char) (h : beginsToken c = true) :
    gap n (c :: cs) = ([], c :: cs) := by
  cases n with
  | zero => rfl
  | succ n => rw [gap, separator?_eq_none cs h]

/-- A run of blanks is one separator. -/
theorem separator?_blanks {g cs : List Char} (hne : g ≠ []) (hg : ∀ c ∈ g, isPlainBlank c = true)
    (hcs : ∀ c ∈ cs.head?, isGapBlank c = false) :
    separator? (g ++ cs) = some (.blank g, cs) := by
  have hgap : ∀ c ∈ g, isGapBlank c = true := fun c hc => isGapBlank_of_isPlainBlank (hg c hc)
  have htake : (g ++ cs).takeWhile isGapBlank = g := by
    rw [List.takeWhile_append_of_pos hgap]
    cases cs with
    | nil => simp
    | cons c rest => simp [hcs c rfl]
  have hdrop : (g ++ cs).dropWhile isGapBlank = cs := by
    rw [List.dropWhile_append_of_pos hgap]
    cases cs with
    | nil => rfl
    | cons c rest => simp [hcs c rfl]
  cases g with
  | nil => exact absurd rfl hne
  | cons b g =>
    have hb := eq_of_isPlainBlank (hg b List.mem_cons_self)
    unfold separator?
    split
    · rename_i heq
      rcases hb with rfl | rfl | rfl <;> cases heq
    · rename_i heq
      rcases hb with rfl | rfl | rfl <;> cases heq
    · rename_i heq
      rcases hb with rfl | rfl | rfl <;> cases heq
    · rename_i c rest _ _ _ heq
      rw [← (List.cons.inj heq).1, if_pos (hgap b List.mem_cons_self), htake, hdrop]
    · rename_i heq
      cases heq

theorem gap_blanks {g cs : List Char} (n : Nat) (hne : g ≠ [])
    (hg : ∀ c ∈ g, isPlainBlank c = true) (hcs : ∀ c ∈ cs.head?, beginsToken c = true) :
    gap (n + 1) (g ++ cs) = ([.blank g], cs) := by
  have hblank : ∀ c ∈ cs.head?, isGapBlank c = false := by
    intro c hc
    have h := hcs c hc
    simp only [beginsToken, Bool.and_eq_true, Bool.not_eq_true'] at h
    exact h.2
  rw [gap, separator?_blanks hne hg hblank]
  cases cs with
  | nil => cases n <;> rfl
  | cons c rest => simp only [gap_of_begins n rest (hcs c rfl)]

/-! ### Words -/

theorem wordRest_append {cs ahead : List Char} (hcs : ∀ c ∈ cs, isIdentifierPart c = true)
    (hpart : ∀ c ∈ ahead.head?, isIdentifierPart c = false) (hescape : ∀ c ∈ ahead.head?, c ≠ '\\') :
    ∀ {n : Nat}, cs.length ≤ n → wordRest n (cs ++ ahead) = (cs, ahead) := by
  induction cs with
  | nil =>
    intro n _
    cases n with
    | zero => rfl
    | succ n =>
      cases ahead with
      | nil => rfl
      | cons c rest =>
        have hno : unicodeEscape? (c :: rest) = none := by
          unfold unicodeEscape?
          split
          · rename_i heq
            exact absurd (List.cons.inj heq).1 (hescape c rfl)
          · rename_i heq
            exact absurd (List.cons.inj heq).1 (hescape c rfl)
          · rfl
        simp only [List.nil_append, wordRest, hpart c rfl, hno, Bool.false_eq_true, if_false]
  | cons c cs ih =>
    intro n hn
    cases n with
    | zero => cases hn
    | succ n =>
      have hrest := ih (fun d hd => hcs d (List.mem_cons_of_mem _ hd)) (Nat.le_of_succ_le_succ hn)
      simp only [List.cons_append, wordRest, hcs c List.mem_cons_self, if_true, hrest, Cut.after,
        List.nil_append]

theorem bareWord?_append {c : Char} {cs ahead : List Char} (hc : isIdentifierStart c = true)
    (hcs : ∀ d ∈ cs, isIdentifierPart d = true)
    (hpart : ∀ d ∈ ahead.head?, isIdentifierPart d = false) (hescape : ∀ d ∈ ahead.head?, d ≠ '\\') :
    bareWord? (c :: cs ++ ahead) = some (c :: cs, ahead) := by
  simp only [List.cons_append, bareWord?, hc, if_true, Option.some.injEq]
  rw [wordRest_append hcs hpart hescape (by simp)]
  rfl

/-- How a plain word is made up. -/
theorem exists_of_isPlainWord {cs : List Char} (h : isPlainWord cs = true) :
    ∃ c rest, isIdentifierStart c = true ∧ (∀ d ∈ c :: rest, isIdentifierPart d = true) ∧
      (cs = c :: rest ∨ cs = '@' :: c :: rest) := by
  unfold isPlainWord at h
  split at h
  · rename_i body
    cases body with
    | nil => cases h
    | cons c rest =>
      rw [Bool.and_eq_true, List.all_eq_true] at h
      exact ⟨c, rest, h.1, h.2, Or.inr rfl⟩
  · cases cs with
    | nil => cases h
    | cons c rest =>
      rw [Bool.and_eq_true, List.all_eq_true] at h
      exact ⟨c, rest, h.1, h.2, Or.inl rfl⟩

theorem wordCut?_append {cs ahead : List Char} (h : isPlainWord cs = true)
    (hpart : ∀ d ∈ ahead.head?, isIdentifierPart d = false) (hescape : ∀ d ∈ ahead.head?, d ≠ '\\') :
    wordCut? (cs ++ ahead) = some (cs, ahead) := by
  obtain ⟨c, rest, hc, hall, rfl | rfl⟩ := exists_of_isPlainWord h
  · have hrest := fun d hd => hall d (List.mem_cons_of_mem _ hd)
    have hat : c ≠ '@' := ne_of_test hc (by decide)
    unfold wordCut?
    split
    · rename_i heq
      exact absurd (List.cons.inj heq).1 hat
    · exact bareWord?_append hc hrest hpart hescape
  · have hrest := fun d hd => hall d (List.mem_cons_of_mem _ hd)
    simp only [List.cons_append, wordCut?]
    rw [← List.cons_append, bareWord?_append hc hrest hpart hescape]
    rfl

/-! ### Punctuation -/

/-- The marks that are always read as they stand, with their characters. -/
def plainMarks : List (List Char × Mark) :=
  Mark.table.filter fun (_, m) => m ∉ oddMarks

/-- Whether a mark with one more character begins a longer mark. -/
def extends_ (cs : List Char) (c : Char) : Bool :=
  Mark.table.any fun (ds, _) => (cs ++ [c]).isPrefixOf ds

theorem strip?_append (ps cs : List Char) : strip? ps (ps ++ cs) = some cs := by
  induction ps with
  | nil => rfl
  | cons p ps ih => simpa [strip?] using ih

theorem exists_of_strip? {ps cs rest : List Char} (h : strip? ps cs = some rest) :
    cs = ps ++ rest := by
  induction ps generalizing cs with
  | nil =>
    cases h
    rfl
  | cons p ps ih =>
    cases cs with
    | nil => cases h
    | cons c cs =>
      unfold strip? at h
      split at h
      · rename_i hpc
        rw [hpc, ih h]
        rfl
      · cases h

/-- Of two marks with one before the other, the longer one is the first in the table. -/
theorem table_order : ∀ i (hi : i < Mark.table.length) j (hj : j < Mark.table.length), j < i →
    ¬ Mark.table[j].1 <+: Mark.table[i].1 := by
  decide

/-- **A mark that the next character does not extend is read as it stands.** -/
theorem markCut?_append {cs ahead : List Char} {m : Mark} (hlisted : (cs, m) ∈ Mark.table)
    (hends : ∀ c ∈ ahead.head?, extends_ cs c = false) :
    markCut? (cs ++ ahead) = some (m, cs, ahead) := by
  obtain ⟨i, hi, hget⟩ := List.getElem_of_mem hlisted
  unfold markCut?
  rw [List.findSome?_eq_some_iff]
  refine ⟨Mark.table.take i, (cs, m), Mark.table.drop (i + 1), ?_, ?_, ?_⟩
  · rw [← hget, List.getElem_cons_drop, List.take_append_drop]
  · simp only [strip?_append, Option.map_some]
  · rintro ⟨ds, m'⟩ hmem
    obtain ⟨j, hj, hgetj⟩ := List.getElem_of_mem hmem
    rw [List.length_take] at hj
    rw [List.getElem_take] at hgetj
    rw [Option.map_eq_none_iff]
    cases hstrip : strip? ds (cs ++ ahead) with
    | none => rfl
    | some rest =>
      -- an earlier mark that fits is longer, so the next character extends this one
      have heq := exists_of_strip? hstrip
      have horder := table_order i hi j (by omega) (by omega)
      rw [hget, hgetj] at horder
      rcases List.prefix_or_prefix_of_prefix (heq ▸ List.prefix_append ds rest)
        (List.prefix_append cs ahead) with hp | hp
      · exact absurd hp horder
      · obtain ⟨more, hmore⟩ := hp
        cases more with
        | nil =>
          rw [List.append_nil] at hmore
          exact absurd (hmore ▸ List.prefix_refl _) horder
        | cons c more =>
          have hahead : ahead = c :: (more ++ rest) := by
            rw [← hmore, List.append_assoc, List.append_cancel_left_eq] at heq
            exact heq
          have hext : extends_ cs c = true := by
            refine List.any_eq_true.mpr ⟨(ds, m'), ?_, ?_⟩
            · exact hgetj ▸ List.getElem_mem _
            · exact List.isPrefixOf_iff_prefix.mpr ⟨more, by rw [← hmore]; simp⟩
          rw [hends c (by rw [hahead]; rfl)] at hext
          cases hext

/-! ### Tokens by their first character -/

/-- A character that no word, number, literal or directive begins with. -/
def isSign (c : Char) : Bool :=
  !isIdentifierStart c && !isAsciiDigit c && c != '@' && c != '$' && c != '"' && c != '\\' &&
    c != '\'' && c != '#'

theorem isSign_of_mem_plainMarks {cs : List Char} {m : Mark} (h : (cs, m) ∈ plainMarks) :
    ∃ c rest, cs = c :: rest ∧ isSign c = true ∧ ∀ d ∈ rest.head?, isAsciiDigit d = false := by
  have hall : ∀ e ∈ plainMarks, ∃ c rest, e.1 = c :: rest ∧ isSign c = true ∧
      (rest.head?.all fun d => !isAsciiDigit d) = true := by
    intro e he
    have hcheck : (plainMarks.all fun e => match e.1 with
        | c :: rest => isSign c && rest.head?.all fun d => !isAsciiDigit d
        | [] => false) = true := by decide
    have hone := List.all_eq_true.mp hcheck e he
    split at hone
    · rename_i c rest heq
      rw [Bool.and_eq_true] at hone
      exact ⟨c, rest, heq, hone.1, hone.2⟩
    · cases hone
  obtain ⟨c, rest, heq, hsign, hdigit⟩ := hall _ h
  refine ⟨c, rest, heq, hsign, ?_⟩
  intro d hd
  rw [Option.mem_def] at hd
  simpa [hd] using hdigit

variable {c : Char} {cs ahead : List Char}

theorem textStart?_eq_none (hdollar : c ≠ '$')
    (hat : c = '@' → ∀ d ∈ cs.head?, d ≠ '$') : textStart? (c :: cs) = none := by
  unfold textStart?
  split
  · rename_i heq
    obtain ⟨rfl, rfl⟩ := List.cons.inj heq
    exact absurd rfl (hat rfl _ rfl)
  · rename_i heq
    exact absurd (List.cons.inj heq).1 hdollar
  · rename_i heq
    exact absurd (List.cons.inj heq).1 hdollar
  · rfl

theorem stringCut?_eq_none (hquote : c ≠ '"')
    (hat : c = '@' → ∀ d ∈ cs.head?, d ≠ '"') : stringCut? (c :: cs) = none := by
  unfold stringCut?
  split
  · rename_i heq
    obtain ⟨rfl, rfl⟩ := List.cons.inj heq
    exact absurd rfl (hat rfl _ rfl)
  · rename_i heq
    exact absurd (List.cons.inj heq).1 hquote
  · rfl

theorem wordCut?_eq_none (hstart : isIdentifierStart c = false) (hat : c ≠ '@')
    (hescape : c ≠ '\\') : wordCut? (c :: cs) = none := by
  unfold wordCut?
  split
  · rename_i heq
    exact absurd (List.cons.inj heq).1 hat
  · simp only [bareWord?, hstart, Bool.false_eq_true, if_false, Option.map_eq_none_iff]
    unfold unicodeEscape?
    split
    · rename_i heq
      exact absurd (List.cons.inj heq).1 hescape
    · rename_i heq
      exact absurd (List.cons.inj heq).1 hescape
    · rfl

theorem numberCut?_eq_none (hdigit : isAsciiDigit c = false)
    (hnext : ∀ d ∈ cs.head?, isAsciiDigit d = false) : numberCut? (c :: cs) = none := by
  have hzero : c ≠ '0' := by
    rintro rfl
    cases hdigit
  have hfraction : fraction? (c :: cs) = none := by
    unfold fraction?
    split
    · rename_i heq
      obtain ⟨rfl, rfl⟩ := List.cons.inj heq
      rw [hnext _ rfl]
      rfl
    · rfl
  simp only [numberCut?, hdigit, Bool.false_eq_true, if_false, hfraction, Option.map_none]
  split
  · rename_i heq
    exact absurd (List.cons.inj heq).1 hzero
  · rfl

theorem charCut?_eq_none (hquote : c ≠ '\'') : charCut? (c :: cs) = none := by
  unfold charCut?
  split
  · rename_i heq
    exact absurd (List.cons.inj heq).1 hquote
  · rfl

theorem conditional?_eq_none (hsharp : c ≠ '#') : conditional? (c :: cs) = none := by
  unfold conditional?
  split
  · rename_i heq
    exact absurd (List.cons.inj heq).1 hsharp
  · rename_i heq
    exact absurd (List.cons.inj heq).1 hsharp
  · rfl

/-! ### One token -/

/-- How a word is read. -/
def wordRole (wants : Terminal → Bool) (cs : List Char) : Terminal :=
  match Keyword.ofChars? cs with
  | some k => if wants (.keyword k) then .keyword k else .identifier
  | none => .identifier

theorem plainToken?_word {wants : Terminal → Bool} {before : List Separator} {w : Word}
    (h : isPlainWord w.chars = true) (hpart : ∀ d ∈ ahead.head?, isIdentifierPart d = false)
    (hescape : ∀ d ∈ ahead.head?, d ≠ '\\') :
    plainToken? wants [] before (w.chars ++ ahead) =
      some (⟨before, .word w, wordRole wants w.chars⟩, ⟨[], ahead⟩) := by
  have hcut := wordCut?_append h hpart hescape
  have hword : Word.ofChars? w.chars = some w := by
    unfold Word.ofChars?
    rw [dif_pos ⟨w.nonempty, List.all_eq_true.mpr w.allWord⟩]
  obtain ⟨c, rest, hc, _, hcs⟩ := exists_of_isPlainWord h
  have hstart : textStart? (w.chars ++ ahead) = none ∧ stringCut? (w.chars ++ ahead) = none := by
    rcases hcs with hcs | hcs
    · rw [hcs]
      have hat : c ≠ '@' := ne_of_test hc (by decide)
      exact ⟨textStart?_eq_none (ne_of_test hc (by decide)) (fun e => absurd e hat),
        stringCut?_eq_none (ne_of_test hc (by decide)) (fun e => absurd e hat)⟩
    · rw [hcs]
      constructor
      · refine textStart?_eq_none (by decide) fun _ d hd => ?_
        rw [← Option.some.inj hd]
        exact ne_of_test hc (by decide)
      · refine stringCut?_eq_none (by decide) fun _ d hd => ?_
        rw [← Option.some.inj hd]
        exact ne_of_test hc (by decide)
  rw [plainToken?, hstart.1, hstart.2, hcut]
  change Option.map _ (Word.ofChars? w.chars) = _
  rw [hword]
  rfl

theorem plainToken?_mark {wants : Terminal → Bool} {before : List Separator} {m : Mark}
    (hlisted : (cs, m) ∈ plainMarks) (hends : ∀ d ∈ ahead.head?, extends_ cs d = false)
    (hdigit : ∀ d ∈ ahead.head?, isAsciiDigit d = false) :
    plainToken? wants [] before (cs ++ ahead) =
      some (⟨before, .other cs, .mark m⟩, ⟨[], ahead⟩) := by
  have hmark := markCut?_append (List.mem_filter.mp hlisted).1 hends
  obtain ⟨c, rest, rfl, hsign, hrest⟩ := isSign_of_mem_plainMarks hlisted
  simp only [isSign, Bool.and_eq_true, Bool.not_eq_true', bne_iff_ne, ne_eq] at hsign
  obtain ⟨⟨⟨⟨⟨⟨⟨hstart, hnumber⟩, hat⟩, hdollar⟩, hquote⟩, hescape⟩, hchar⟩, hsharp⟩ := hsign
  have hnext : ∀ d ∈ (rest ++ ahead).head?, isAsciiDigit d = false := by
    intro d hd
    cases rest with
    | nil => exact hdigit d hd
    | cons e rest => exact hrest d hd
  rw [List.cons_append] at hmark ⊢
  simp only [plainToken?, textStart?_eq_none hdollar (fun e => absurd e hat),
    stringCut?_eq_none hquote (fun e => absurd e hat), wordCut?_eq_none hstart hat hescape,
    numberCut?_eq_none hnumber hnext, charCut?_eq_none hchar, conditional?_eq_none hsharp, hmark,
    Option.map_some]

/-- The characters of a string literal that need no escape. -/
def isPlainText (c : Char) : Bool := c != '"' && c != '\\' && c != '\n' && c != '\x00'

theorem stringRest?_append {body : List Char} (hbody : ∀ d ∈ body, isPlainText d = true)
    (hends : ∀ d ∈ ahead.head?, d ≠ 'u' ∧ d ≠ 'U') :
    stringRest? (body ++ '"' :: ahead) = some (body ++ ['"'], ahead) := by
  induction body with
  | nil =>
    have hsuffix : byteSuffix ahead = ([], ahead) := by
      unfold byteSuffix
      split
      · exact absurd rfl (hends _ rfl).1
      · exact absurd rfl (hends _ rfl).2
      · rfl
    simp only [List.nil_append, stringRest?, hsuffix, Cut.after, List.append_nil]
  | cons d body ih =>
    have hd := hbody d List.mem_cons_self
    simp only [isPlainText, Bool.and_eq_true, bne_iff_ne, ne_eq] at hd
    have hrest := ih fun e he => hbody e (List.mem_cons_of_mem _ he)
    rw [List.cons_append, stringRest?]
    · rw [hrest]
      rfl
    · exact hd.1.1.1
    · exact fun _ _ h _ => hd.1.1.2 h
    · exact hd.1.2

theorem plainToken?_text {wants : Terminal → Bool} {before : List Separator} {body : List Char}
    (hne : body ≠ []) (hbody : ∀ d ∈ body, isPlainText d = true)
    (hends : ∀ d ∈ ahead.head?, d ≠ 'u' ∧ d ≠ 'U') :
    plainToken? wants [] before ('"' :: body ++ ['"'] ++ ahead) =
      some (⟨before, .other ('"' :: body ++ ['"']), .stringLiteral⟩, ⟨[], ahead⟩) := by
  have hcut : stringCut? ('"' :: (body ++ ['"'] ++ ahead)) =
      some ('"' :: (body ++ ['"']), ahead) := by
    cases body with
    | nil => exact absurd rfl hne
    | cons d body =>
      have hd := hbody d List.mem_cons_self
      simp only [isPlainText, Bool.and_eq_true, bne_iff_ne, ne_eq] at hd
      have hrun : runLength '"' ('"' :: (d :: body ++ ['"'] ++ ahead)) = 1 := by
        simp [runLength, hd.1.1.1]
      have hrest := stringRest?_append hbody hends
      rw [show d :: body ++ '"' :: ahead = d :: body ++ ['"'] ++ ahead by simp] at hrest
      simp only [stringCut?, hrun, hrest]
      rfl
  have htext : textStart? ('"' :: (body ++ ['"'] ++ ahead)) = none :=
    textStart?_eq_none (by decide) fun e => absurd e (by decide)
  simp only [List.cons_append] at hcut htext ⊢
  simp only [plainToken?, htext, hcut]

end Lexer

/-! ### Plain tokens -/

/-- A lexeme that is written and read without escapes, as a terminal. -/
inductive Lexeme.Plain : Lexeme → Terminal → Prop where
  | name {w : Word} (plain : isPlainWord w.chars = true) : Plain (.word w) .identifier
  | keyword {w : Word} {k : Keyword} (plain : isPlainWord w.chars = true)
      (spelled : Keyword.ofChars? w.chars = some k) : Plain (.word w) (.keyword k)
  | mark {cs : List Char} {m : Mark} (listed : (cs, m) ∈ Lexer.plainMarks) :
      Plain (.other cs) (.mark m)
  | text {body : List Char} (nonempty : body ≠ [])
      (plain : ∀ c ∈ body, Lexer.isPlainText c = true) :
      Plain (.other ('"' :: body ++ ['"'])) .stringLiteral

namespace Token

/-- A plain lexeme behind blanks or right behind the token before. -/
structure Plain (t : Token) : Prop where
  gap : t.gap = [] ∨ ∃ g, g ≠ [] ∧ (∀ c ∈ g, isPlainBlank c = true) ∧ t.gap = [.blank g]
  lexeme : t.lexeme.Plain t.role

/-- Whether a plain token ends where this character follows. -/
def endsBefore (t : Token) (c : Char) : Bool :=
  match t.role with
  | .mark _ => !Lexer.extends_ t.lexeme.chars c && !isAsciiDigit c
  | .stringLiteral => c != 'u' && c != 'U'
  | _ => !isIdentifierPart c && c != '\\'

/-- Behind a token read as `a`, the token is not taken for a keyword if it is a name. -/
def Named (a : Terminal) (t : Token) : Prop :=
  t.role = .identifier → ∀ k, Keyword.ofChars? t.lexeme.chars = some k →
    ¬ MayFollow a (.keyword k)

/-- A token may stand right before another one: it ends there, and what follows is read in its
    role. -/
structure Before (a b : Token) : Prop where
  ends : ∀ c ∈ b.chars.head?, a.endsBefore c = true
  named : b.Named a.role

theorem Plain.begins {t : Token} (h : t.Plain) :
    ∃ c rest, t.lexeme.chars = c :: rest ∧ Lexer.beginsToken c = true := by
  have hstart : ∀ c, isIdentifierStart c = true → Lexer.beginsToken c = true := by
    intro c hc
    have hslash : c ≠ '/' := ne_of_test hc (by decide)
    have hsharp : c ≠ '#' := ne_of_test hc (by decide)
    simp [Lexer.beginsToken, not_isGapBlank_of_isIdentifierStart hc, hslash, hsharp]
  have hword : ∀ {w : Word}, isPlainWord w.chars = true →
      ∃ c rest, w.chars = c :: rest ∧ Lexer.beginsToken c = true := by
    intro w hw
    obtain ⟨c, rest, hc, _, hcs | hcs⟩ := Lexer.exists_of_isPlainWord hw
    · exact ⟨c, rest, hcs, hstart c hc⟩
    · exact ⟨'@', c :: rest, hcs, by decide⟩
  cases t with
  | mk gap lexeme role =>
    cases h.lexeme with
    | name plain => exact hword plain
    | keyword plain spelled => exact hword plain
    | @mark cs m listed =>
      have hcheck : (Lexer.plainMarks.all fun e => match e.1 with
          | c :: _ => Lexer.beginsToken c
          | [] => false) = true := by decide
      have hone := List.all_eq_true.mp hcheck _ listed
      split at hone
      · rename_i c rest heq
        exact ⟨c, rest, heq, hone⟩
      · cases hone
    | @text body nonempty plain => exact ⟨'"', body ++ ['"'], rfl, by decide⟩

/-- A plain token ends before any blank. -/
theorem Plain.endsBefore_blank {t : Token} (h : t.Plain) {c : Char} (hc : isPlainBlank c = true) :
    t.endsBefore c = true := by
  cases t with
  | mk gap lexeme role =>
    have hword : (!isIdentifierPart c && c != '\\') = true := by
      rcases eq_of_isPlainBlank hc with rfl | rfl | rfl <;> decide
    cases h.lexeme with
    | name plain => exact hword
    | keyword plain spelled => exact hword
    | @mark cs m listed =>
      have hcheck : (Lexer.plainMarks.all fun e => [' ', '\n', '\r'].all fun c =>
          !Lexer.extends_ e.1 c && !isAsciiDigit c) = true := by decide
      refine List.all_eq_true.mp (List.all_eq_true.mp hcheck _ listed) c ?_
      rcases eq_of_isPlainBlank hc with rfl | rfl | rfl <;> decide
    | text nonempty plain =>
      rcases eq_of_isPlainBlank hc with rfl | rfl | rfl <;> rfl

/-- The text of a plain token has no character that a text may not have. -/
theorem Plain.nul_not_mem {t : Token} (h : t.Plain) : '\x00' ∉ t.chars := by
  have hword : ∀ {w : Word}, isPlainWord w.chars = true → '\x00' ∉ w.chars := by
    intro w hw hmem
    obtain ⟨c, rest, hc, hall, hcs⟩ := Lexer.exists_of_isPlainWord hw
    have hnul : '\x00' ∉ c :: rest := by
      intro hmem
      have hpart : isIdentifierPart '\x00' = false := by decide
      rw [hall _ hmem] at hpart
      cases hpart
    rcases hcs with hcs | hcs
    · exact hnul (hcs ▸ hmem)
    · rw [hcs] at hmem
      rcases List.mem_cons.mp hmem with hat | hmem
      · exact absurd hat (by decide)
      · exact hnul hmem
  have hlexeme : '\x00' ∉ t.lexeme.chars := by
    cases t with
    | mk gap lexeme role =>
      cases h.lexeme with
      | name plain => exact hword plain
      | keyword plain spelled => exact hword plain
      | @mark cs m listed =>
        have hcheck : (Lexer.plainMarks.all fun e => !e.1.contains '\x00') = true := by
          decide
        simpa [Lexeme.chars] using List.all_eq_true.mp hcheck _ listed
      | @text body nonempty plain =>
        intro hmem
        have hbody : '\x00' ∈ body := by simpa [Lexeme.chars] using hmem
        exact absurd (plain _ hbody) (by decide)
  rw [Token.chars, List.mem_append]
  rintro (hgap | hmem)
  · rcases h.gap with hnil | ⟨g, _, hblank, hg⟩
    · rw [gapChars, hnil] at hgap
      cases hgap
    · rw [gapChars, hg] at hgap
      exact absurd (hblank _ (by simpa [gapChars, Separator.chars] using hgap)) (by decide)
  · exact hlexeme hmem

/-- A plain token is no colon. -/
theorem Plain.role_ne_colon {t : Token} (h : t.Plain) : t.role ≠ .mark .colon := by
  intro hrole
  have hlexeme := h.lexeme
  generalize t.lexeme = lexeme at hlexeme
  rw [hrole] at hlexeme
  cases hlexeme with
  | mark listed => exact absurd (of_decide_eq_true (List.mem_filter.mp listed).2) (by decide)

end Token

/-- Outside of interpolated strings a token stands behind a gap. -/
theorem Lexer.next_of_gap {wants : Terminal → Bool} {cs rest : List Char} {before : List Separator}
    (hformat : wants .format = false) (hgap : gap cs.length cs = (before, rest)) :
    next wants ⟨[], cs⟩ = if rest.isEmpty then .finished else
      match plainToken? wants [] before rest with
      | some (t, state) => .token t state
      | none => .stuck := by
  unfold next
  simp only [hformat, Bool.false_and, hgap]
  split <;> rfl

/-- **A plain token is read back** where it ends, if its word is read in its role. -/
theorem Lexer.next_of_plain {wants : Terminal → Bool} {t : Token} {ahead : List Char}
    (h : t.Plain) (hends : ∀ c ∈ ahead.head?, t.endsBefore c = true)
    (hformat : wants .format = false)
    (hrole : ∀ w, t.lexeme = .word w → wordRole wants w.chars = t.role) :
    next wants ⟨[], t.chars ++ ahead⟩ = .token t ⟨[], ahead⟩ := by
  obtain ⟨c, rest, hc, hbegins⟩ := h.begins
  have hgap : gap (t.chars ++ ahead).length (t.chars ++ ahead) =
      (t.gap, t.lexeme.chars ++ ahead) := by
    unfold Token.chars Token.gapChars
    rcases h.gap with hnil | ⟨g, hne, hg, hblank⟩
    · rw [hnil, hc]
      exact gap_of_begins _ _ hbegins
    · rw [hblank]
      simp only [List.flatMap_cons, List.flatMap_nil, Separator.chars, List.append_nil,
        List.append_assoc]
      obtain ⟨n, hn⟩ := Nat.exists_eq_succ_of_ne_zero
        (n := (g ++ (t.lexeme.chars ++ ahead)).length) (by simp [hne])
      rw [hn, gap_blanks n hne hg]
      rw [hc]
      intro d hd
      exact Option.some.inj hd ▸ hbegins
  have htoken : plainToken? wants [] t.gap (t.lexeme.chars ++ ahead) = some (t, ⟨[], ahead⟩) := by
    cases t with
    | mk gap lexeme role =>
      have hword : ∀ {w : Word}, lexeme = .word w → isPlainWord w.chars = true →
          (∀ c ∈ ahead.head?, (!isIdentifierPart c && c != '\\') = true) →
          plainToken? wants [] gap (lexeme.chars ++ ahead) =
            some (⟨gap, lexeme, role⟩, ⟨[], ahead⟩) := by
        intro w hw hplain hahead
        have hread := hrole w hw
        subst hw
        have hsplit : ∀ c ∈ ahead.head?, isIdentifierPart c = false ∧ c ≠ '\\' := by
          intro c hc
          simpa using hahead c hc
        refine (plainToken?_word hplain (fun c hc => (hsplit c hc).1)
          (fun c hc => (hsplit c hc).2)).trans ?_
        rw [hread]
      cases h.lexeme with
      | name plain => exact hword rfl plain hends
      | keyword plain spelled => exact hword rfl plain hends
      | @mark cs m listed =>
        have hsplit : ∀ c ∈ ahead.head?, extends_ cs c = false ∧ isAsciiDigit c = false := by
          intro c hc
          simpa [Token.endsBefore, Lexeme.chars] using hends c hc
        exact plainToken?_mark listed (fun c hc => (hsplit c hc).1) fun c hc => (hsplit c hc).2
      | @text body nonempty plain =>
        refine plainToken?_text nonempty plain fun c hc => ?_
        simpa [Token.endsBefore] using hends c hc
  have hnonempty : (t.lexeme.chars ++ ahead).isEmpty = false := by
    rw [hc]
    rfl
  rw [next_of_gap hformat hgap, hnonempty, htoken]
  rfl

theorem Lexer.next_of_blanks {wants : Terminal → Bool} {g : List Char}
    (hg : ∀ c ∈ g, isPlainBlank c = true) (hformat : wants .format = false) :
    next wants ⟨[], g⟩ = .finished := by
  by_cases hne : g = []
  · subst hne
    exact next_of_gap hformat rfl
  · obtain ⟨n, hn⟩ := Nat.exists_eq_succ_of_ne_zero (n := g.length) (by simpa using hne)
    have hnil : ∀ c ∈ ([] : List Char).head?, beginsToken c = true := by simp
    have hgap := gap_blanks n hne hg hnil
    rw [List.append_nil, ← Nat.succ_eq_add_one, ← hn] at hgap
    exact next_of_gap hformat hgap

/-- **The text of plain tokens that may stand one before the other spells them**, with blanks
    behind. -/
theorem Spells.of_plain {ts : List Token} {blanks : List Char}
    (hblanks : ∀ c ∈ blanks, isPlainBlank c = true) :
    ∀ {before? : Option Token}, (∀ t ∈ ts, t.Plain) → ts.IsChain Token.Before →
      (∀ t ∈ ts.head?, t.role = .identifier → ∀ k, Keyword.ofChars? t.lexeme.chars = some k →
        ∃ p, before? = some p ∧ ¬ MayFollow p.role (.keyword k)) →
      Spells before? ⟨[], ts.flatMap Token.chars ++ blanks⟩ ts := by
  induction ts with
  | nil =>
    intro before? _ _ _
    exact .finished fun wants hapt => Lexer.next_of_blanks hblanks hapt.format
  | cons t ts ih =>
    intro before? hplain hchain hfirst
    have ht := hplain t List.mem_cons_self
    have hends : ∀ c ∈ (ts.flatMap Token.chars ++ blanks).head?, t.endsBefore c = true := by
      intro c hc
      cases ts with
      | nil =>
        refine ht.endsBefore_blank (hblanks c ?_)
        exact List.mem_of_mem_head? hc
      | cons u us =>
        have hbefore := (List.isChain_cons_cons.mp hchain).1
        refine hbefore.ends c ?_
        obtain ⟨d, rest, hd, _⟩ := (hplain u (by simp)).begins
        have hne : u.chars ≠ [] := by simp [Token.chars, hd]
        rw [List.flatMap_cons, List.append_assoc, List.head?_append_of_ne_nil _ hne] at hc
        exact hc
    have hlength : 0 < t.chars.length := by
      obtain ⟨d, rest, hd, _⟩ := ht.begins
      simp only [Token.chars, hd, List.length_append, List.length_cons]
      omega
    refine .token ?_ ?_
      (ih (fun u hu => hplain u (List.mem_cons_of_mem _ hu)) hchain.tail ?_)
    · intro wants hapt hkeyword
      rw [List.flatMap_cons, List.append_assoc]
      refine Lexer.next_of_plain ht hends hapt.format fun w hw => ?_
      have hlexeme := ht.lexeme
      rw [hw] at hlexeme
      unfold Lexer.wordRole
      cases hspelled : Keyword.ofChars? w.chars with
      | none =>
        generalize hrole : t.role = role at hlexeme
        cases hlexeme with
        | name plain => rfl
        | keyword plain spelled => rw [hspelled] at spelled; cases spelled
      | some k =>
        generalize hrole : t.role = role at hlexeme
        cases hlexeme with
        | name plain =>
          -- a name that is spelled like a keyword stands where the keyword may not follow
          obtain ⟨p, hp, hnot⟩ := hfirst t rfl hrole k (by rw [hw]; exact hspelled)
          exact if_neg fun hwants => hnot (hapt.follows p hp _ hwants)
        | @keyword _ k' plain spelled =>
          rw [hspelled] at spelled
          cases spelled
          exact if_pos (hrole ▸ hkeyword k hrole)
    · simp only [List.flatMap_cons, List.length_append]
      omega
    · intro u hu hrole k hk
      cases ts with
      | nil => cases hu
      | cons v vs =>
        cases hu
        exact ⟨t, rfl, (List.isChain_cons_cons.mp hchain).1.named hrole k hk⟩

end TestScaffold.CSharp
