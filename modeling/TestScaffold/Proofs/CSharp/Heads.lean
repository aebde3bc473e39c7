/-
  TestScaffold/Proofs/CSharp/Heads.lean
  =====================================
  **The rows of a sheet spell the lines of a test class.**

  The heads of namespaces, classes, constructors and test methods, the attribute
  of a test, and the braces; then the rows of a whole sheet, which may stand one
  below the other.
-/
import TestScaffold.Proofs.CSharp.Sheet
import TestScaffold.Proofs.Text.Pieces

namespace TestScaffold.CSharp

open TestScaffold.Text

/-! ### Heads -/

namespace Spelt

/-- A keyword, and a word behind a blank. -/
theorem keyword_blank {cs ds : List Char} {ts us : List Token} (h : Spelt cs ts) (hts : ts ≠ [])
    (h' : Spelt ds us) (hus : us ≠ []) (hsteady : Steady us) :
    Spelt (cs ++ ' ' :: ds) (ts ++ Token.allBehind [' '] us) :=
  h.blank hts h' hus fun _ _ b hb => hsteady b hb _

/-- Empty parentheses right behind a name. -/
theorem parens {cs : List Char} {ts : List Token} (h : Spelt cs ts) (hts : ts ≠ [])
    (hends : Ends ts) :
    Spelt (cs ++ "()".toList) (ts ++ [Token.mark .openParen, Token.mark .closeParen]) := by
  have hopen := h.sign (m := .openParen) hts (by decide) fun a ha => hends a ha _ (by decide)
  have hclose := hopen.sign (m := .closeParen) (by simp) (by decide) fun a ha =>
    Ends.shut (m := .openParen) (by decide) a ha _ (by decide)
  simpa [show Mark.chars .openParen = ['('] by decide,
    show Mark.chars .closeParen = [')'] by decide] using hclose

end Spelt

/-- A name that is read as a name everywhere. -/
structure IsName (cs : List Char) : Prop where
  plain : isPlainWord cs = true
  noKeyword : Keyword.ofChars? cs = none

namespace IsName

variable {cs : List Char}

theorem steady (h : IsName cs) : Steady [Token.name cs] := Token.steady_name h.plain h.noKeyword

theorem spelt (h : IsName cs) : Spelt cs [Token.name cs] := .name h.plain

end IsName

theorem Token.steady_keyword (k : Keyword) : Steady [Token.keyword k] :=
  Token.steady_of_role fun e => by cases e

theorem spelt_setupRow {cs : List Char} (h : IsName cs) :
    Spelt ("public ".toList ++ cs ++ "()".toList) (setupRow cs) := by
  have hname := (Spelt.keyword .public_).keyword_blank (List.cons_ne_nil _ _) h.spelt
    (List.cons_ne_nil _ _) h.steady
  have hall := hname.parens (by simp)
    (((Ends.word (Token.role_name cs)).allBehind [' ']).append (by simp))
  simpa [setupRow, show Keyword.chars .public_ = "public".toList by decide] using hall

theorem spelt_testRow {t : TestSheet} (h : IsName t.name) :
    Spelt ((if t.isAsync then "public async Task ".toList else "public void ".toList) ++ t.name ++
      "()".toList) (testRow t) := by
  have hpublic := Spelt.keyword .public_
  have hends := ((Ends.word (Token.role_name t.name)).allBehind [' '])
  cases hasync : t.isAsync with
  | false =>
    have hvoid := hpublic.keyword_blank (List.cons_ne_nil _ _) (Spelt.keyword .void_)
      (List.cons_ne_nil _ _) (Token.steady_keyword _)
    have hname := hvoid.keyword_blank (by simp) h.spelt (List.cons_ne_nil _ _) h.steady
    have hall := hname.parens (by simp) (hends.append (by simp))
    simpa [testRow, hasync, show Keyword.chars .public_ = "public".toList by decide,
      show Keyword.chars .void_ = "void".toList by decide] using hall
  | true =>
    have hTask : IsName "Task".toList := ⟨by decide, by decide⟩
    have hasync' := hpublic.keyword_blank (List.cons_ne_nil _ _) (Spelt.keyword .async_)
      (List.cons_ne_nil _ _) (Token.steady_keyword _)
    have htask := hasync'.keyword_blank (by simp) hTask.spelt (List.cons_ne_nil _ _) hTask.steady
    have hname := htask.keyword_blank (by simp) h.spelt (List.cons_ne_nil _ _) h.steady
    have hall := hname.parens (by simp) (hends.append (by simp))
    simpa [testRow, hasync, show Keyword.chars .public_ = "public".toList by decide,
      show Keyword.chars .async_ = "async".toList by decide] using hall

theorem spelt_classRow {cs : List Char} (h : IsName cs) :
    Spelt ("public class ".toList ++ cs) (classRow cs) := by
  have hclass := (Spelt.keyword .public_).keyword_blank (List.cons_ne_nil _ _)
    (Spelt.keyword .class_) (List.cons_ne_nil _ _) (Token.steady_keyword _)
  have hall := hclass.keyword_blank (by simp) h.spelt (List.cons_ne_nil _ _) h.steady
  simpa [classRow, show Keyword.chars .public_ = "public".toList by decide,
    show Keyword.chars .class_ = "class".toList by decide] using hall

theorem spelt_attributeRow : Spelt "[Fact]".toList attributeRow := by
  have hFact : IsName "Fact".toList := ⟨by decide, by decide⟩
  have hopen : Spelt ['['] ([] ++ [Token.mark .openBracket]) :=
    Spelt.mark (m := .openBracket) (by decide)
  have hname := hopen.after_shut (by decide) hFact.spelt (List.cons_ne_nil _ _) fun b hb =>
    hFact.steady b hb _
  have hall := hname.sign_of_all (m := .closeBracket) (by simp) (by decide) (by decide)
  exact hall

/-! ### Names with points -/

/-- The characters of names with points between them. -/
def dottedChars : List (List Char) → List Char
  | [] => []
  | p :: ps => p ++ ps.flatMap fun q => '.' :: q

theorem dottedChars_splitChars (cs : List Char) : dottedChars (splitChars '.' cs) = cs := by
  induction cs with
  | nil => rfl
  | cons c cs ih =>
    rw [splitChars]
    split
    · rename_i hc
      subst hc
      cases hsplit : splitChars '.' cs with
      | nil => exact absurd hsplit (splitChars_ne_nil _ _)
      | cons p ps =>
        rw [hsplit] at ih
        simpa [dottedChars] using ih
    · cases hsplit : splitChars '.' cs with
      | nil =>
        rw [hsplit] at ih
        simpa [dottedChars] using ih
      | cons p ps =>
        rw [hsplit] at ih
        simpa [dottedChars] using ih

/-- Names that may stand behind points. -/
theorem spelt_dotted {p : List Char} {ps : List (List Char)}
    (hplain : ∀ q ∈ p :: ps, isPlainWord q = true)
    (hnamed : ∀ q ∈ ps, (Token.name q).Named (.mark .dot)) :
    Spelt (dottedChars (p :: ps)) (dotted (p :: ps)) := by
  have hmore : ∀ (ps : List (List Char)) (cs : List Char) (ts : List Token),
      Spelt cs ts → (∃ us q, ts = us ++ [Token.name q]) →
      (∀ q ∈ ps, isPlainWord q = true) → (∀ q ∈ ps, (Token.name q).Named (.mark .dot)) →
      Spelt (cs ++ ps.flatMap fun q => '.' :: q)
        (ts ++ ps.flatMap fun q => [Token.mark .dot, Token.name q]) := by
    intro ps
    induction ps with
    | nil => exact fun cs ts h _ _ _ => by simpa using h
    | cons q ps ih =>
      intro cs ts h hlast hplain hnamed
      obtain ⟨us, r, rfl⟩ := hlast
      have hname := h.point (hplain q List.mem_cons_self) (hnamed q List.mem_cons_self)
      have hall := ih _ _ hname ⟨us ++ [Token.name r] ++ [Token.mark .dot], q, by simp⟩
        (fun r hr => hplain r (List.mem_cons_of_mem _ hr))
        fun r hr => hnamed r (List.mem_cons_of_mem _ hr)
      simpa using hall
  exact hmore ps p _ (.name (hplain p List.mem_cons_self)) ⟨[], p, rfl⟩
    (fun q hq => hplain q (List.mem_cons_of_mem _ hq)) hnamed

/-! ### Rows one below the other -/

theorem chained_of_steady {rows : List (List Token)} (h : ∀ row ∈ rows, Steady row) :
    Chained rows := by
  unfold Chained
  induction rows with
  | nil => exact .nil
  | cons row rows ih =>
    have hrest := ih fun r hr => h r (List.mem_cons_of_mem _ hr)
    rw [List.filter_cons]
    split
    · refine List.isChain_cons.mpr ⟨fun next hnext a _ b hb => ?_, hrest⟩
      have hmem := List.mem_of_mem_filter (List.mem_of_mem_head? hnext)
      exact h next (List.mem_cons_of_mem _ hmem) b hb _
    · exact hrest

theorem Chained.append {rows m : List (List Token)} (h : Chained rows) (h' : Chained m)
    (hsteady : ∀ row ∈ (m.filter (!·.isEmpty)).head?, Steady row) : Chained (rows ++ m) := by
  unfold Chained at *
  rw [List.filter_append]
  exact List.isChain_append.mpr ⟨h, h', fun _ _ next hnext a _ b hb => hsteady next hnext b hb _⟩

/-- A steady row above others. -/
theorem Chained.cons {r : List Token} {rows : List (List Token)} (h : Chained rows)
    (hhead : ∀ next ∈ (rows.filter (!·.isEmpty)).head?, ∀ a ∈ r.getLast?, ∀ b ∈ next.head?,
      b.Named a.role) : Chained (r :: rows) := by
  unfold Chained at *
  rw [List.filter_cons]
  split
  · exact List.isChain_cons.mpr ⟨hhead, h⟩
  · exact h

/-- A statement on a row of its own: it ends with a semicolon, and may stand behind one or behind
    an opening brace. -/
structure StatementRow (row : List Token) : Prop where
  ends : ∃ us, row = us ++ [Token.mark .semicolon]
  named : ∀ t ∈ row.head?, t.Named (.mark .openBrace) ∧ t.Named (.mark .semicolon)

theorem Token.steady_mark (m : Mark) : Steady [Token.mark m] :=
  Token.steady_of_role fun e => by cases e

theorem Steady.head_filter {row : List Token} {rows : List (List Token)} (h : Steady row)
    (hne : row ≠ []) : ∀ next ∈ ((row :: rows).filter (!·.isEmpty)).head?, Steady next := by
  intro next hnext
  rw [List.filter_cons_of_pos (by simpa using hne)] at hnext
  cases hnext
  exact h

/-- Statements in braces. -/
theorem chained_statements {rows : List (List Token)} (h : ∀ row ∈ rows, StatementRow row) :
    Chained (inBraces rows) := by
  have hrows : ∀ rows : List (List Token), (∀ row ∈ rows, StatementRow row) →
      Chained (rows ++ [[Token.mark .closeBrace]]) := by
    intro rows
    induction rows with
    | nil =>
      intro _
      exact chained_of_steady fun row hrow => List.mem_singleton.mp hrow ▸ Token.steady_mark _
    | cons row rows ih =>
      intro hall
      refine (ih fun r hr => hall r (List.mem_cons_of_mem _ hr)).cons fun next hnext a ha b hb => ?_
      obtain ⟨us, rfl⟩ := (hall row List.mem_cons_self).ends
      rw [List.getLast?_concat] at ha
      cases ha
      rcases List.mem_append.mp (List.mem_of_mem_filter (List.mem_of_mem_head? hnext)) with hr | hr
      · exact ((hall next (List.mem_cons_of_mem _ hr)).named b hb).2
      · exact (List.mem_singleton.mp hr ▸ Token.steady_mark .closeBrace) b hb _
  refine (hrows rows h).cons fun next hnext a ha b hb => ?_
  cases ha
  rcases List.mem_append.mp (List.mem_of_mem_filter (List.mem_of_mem_head? hnext)) with hr | hr
  · exact ((h next hr).named b hb).1
  · exact (List.mem_singleton.mp hr ▸ Token.steady_mark .closeBrace) b hb _

/-- Rows in braces, the first of which is steady. -/
theorem Chained.inBraces {rows : List (List Token)} (h : Chained rows)
    (hsteady : ∀ row ∈ (rows.filter (!·.isEmpty)).head?, Steady row) :
    Chained (inBraces rows) := by
  have hclose : Chained [[Token.mark .closeBrace]] :=
    chained_of_steady fun row hrow => List.mem_singleton.mp hrow ▸ Token.steady_mark _
  have hrows := h.append hclose fun row hrow => by
    cases hrow
    exact Token.steady_mark _
  refine hrows.cons fun next hnext a _ b hb => ?_
  rw [List.filter_append] at hnext
  cases hfilter : rows.filter (!·.isEmpty) with
  | nil =>
    rw [hfilter] at hnext
    cases hnext
    exact Token.steady_mark _ b hb _
  | cons row more =>
    rw [hfilter] at hnext hsteady
    cases hnext
    exact hsteady _ rfl b hb _

namespace Sheet

/-- The rows of a sheet may stand one below the other. -/
structure Fluent (s : Sheet) : Prop where
  usings : ∀ row ∈ s.usings, Steady row
  fields : ∀ row ∈ s.fields, row ≠ [] ∧ Steady row
  setup : ∀ row ∈ s.setup, StatementRow row
  tests : ∀ t ∈ s.tests, ∀ row ∈ t.body, StatementRow row

/-- A member whose rows may stand one below the other, and below any row. -/
structure MemberRows (m : List (List Token)) : Prop where
  chained : Chained m
  head : ∃ row rest, m = row :: rest ∧ row ≠ [] ∧ Steady row

theorem MemberRows.of_head {head : List Token} {rest : List (List Token)} (hne : head ≠ [])
    (hhead : Steady head) (hrest : Chained rest)
    (hsteady : ∀ row ∈ (rest.filter (!·.isEmpty)).head?, Steady row) :
    MemberRows (head :: rest) where
  chained := hrest.cons fun next hnext _ _ b hb => hsteady next hnext b hb _
  head := ⟨head, rest, rfl, hne, hhead⟩

theorem head_inBraces (rows : List (List Token)) :
    ∀ row ∈ ((inBraces rows).filter (!·.isEmpty)).head?, Steady row :=
  (Token.steady_mark .openBrace).head_filter (List.cons_ne_nil _ _)

theorem chained_spacedRows {members : List (List (List Token))} (h : ∀ m ∈ members, MemberRows m) :
    Chained (spacedRows members) ∧
      ∀ row ∈ ((spacedRows members).filter (!·.isEmpty)).head?, Steady row := by
  induction members with
  | nil => exact ⟨.nil, fun row hrow => by cases hrow⟩
  | cons m rest ih =>
    obtain ⟨hm, row, more, rfl, hne, hsteady⟩ := h m List.mem_cons_self
    cases rest with
    | nil => exact ⟨hm, hsteady.head_filter hne⟩
    | cons n rest =>
      obtain ⟨hrest, hhead⟩ := ih fun k hk => h k (List.mem_cons_of_mem _ hk)
      refine ⟨hm.append (m := [] :: spacedRows (n :: rest)) ?_ ?_, ?_⟩
      · unfold Chained at *
        rwa [List.filter_cons_of_neg (by simp)]
      · rwa [List.filter_cons_of_neg (by simp)]
      · exact hsteady.head_filter hne

theorem Fluent.members {s : Sheet} (h : s.Fluent) : ∀ m ∈ s.members, MemberRows m := by
  intro m hm
  have hkeyword : ∀ (k : Keyword) (ts : List Token), Steady (Token.keyword k :: ts) := by
    intro k ts t ht
    cases ht
    exact Token.steady_keyword k _ rfl
  rcases List.mem_append.mp hm with hm | hm
  · split at hm
    · cases hm
    · rename_i hempty
      rw [List.mem_singleton.mp hm]
      refine ⟨chained_of_steady fun row hrow => (h.fields row hrow).2, ?_⟩
      cases hfields : s.fields with
      | nil => simp [hfields] at hempty
      | cons row rest =>
        have hrow := h.fields row (by rw [hfields]; exact List.mem_cons_self)
        exact ⟨row, rest, rfl, hrow⟩
  · rcases List.mem_cons.mp hm with rfl | hm
    · exact .of_head (by simp [setupRow]) (hkeyword _ _) (chained_statements h.setup)
        (head_inBraces _)
    · obtain ⟨t, ht, rfl⟩ := List.mem_map.mp hm
      have htest : Steady (testRow t) := hkeyword _ _
      have hattribute : Steady attributeRow := by
        intro u hu
        cases hu
        exact Token.steady_mark .openBracket _ rfl
      have hrest := (chained_statements (h.tests t ht)).cons
        (r := testRow t) fun next hnext _ _ b hb => head_inBraces _ next hnext b hb _
      exact .of_head (by simp [attributeRow]) hattribute hrest
        (htest.head_filter (by simp [testRow]))

/-- **The rows of a sheet may stand one below the other.** -/
theorem Fluent.chained {s : Sheet} (h : s.Fluent) : Chained s.rows := by
  have hkeyword : ∀ (k : Keyword) (ts : List Token), Steady (Token.keyword k :: ts) := by
    intro k ts t ht
    cases ht
    exact Token.steady_keyword k _ rfl
  obtain ⟨hmembers, hhead⟩ := chained_spacedRows h.members
  have hclass : MemberRows s.classRows :=
    .of_head (by simp [classRow]) (hkeyword _ _) (hmembers.inBraces hhead) (head_inBraces _)
  have hnamespace : MemberRows (namespaceRow s.namespaceName :: CSharp.inBraces s.classRows) := by
    obtain ⟨hchained, row, rest, heq, hne, hsteady⟩ := hclass
    refine .of_head (by simp [namespaceRow]) (hkeyword _ _) (hchained.inBraces ?_) (head_inBraces _)
    rw [heq]
    exact hsteady.head_filter hne
  have husings : Chained (s.usings ++ (if s.usings.isEmpty then [] else [[]])) := by
    refine chained_of_steady fun row hrow => ?_
    rcases List.mem_append.mp hrow with hrow | hrow
    · exact h.usings row hrow
    · split at hrow
      · cases hrow
      · rw [List.mem_singleton.mp hrow]
        exact fun t ht => by cases ht
  exact husings.append hnamespace.chained ((hkeyword _ _).head_filter (by simp))

end Sheet

end TestScaffold.CSharp
