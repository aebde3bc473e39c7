/-
  TestScaffold/Proofs/CSharp/Lines.lean
  =====================================
  **Lines of plain tokens are read back, however they are indented.**

  A line is empty, or it is a row of plain tokens behind some blanks.  The tokens
  of lines that are joined are those of the rows; only the blanks before the first
  token of a row depend on what is laid out around it.
-/
import TestScaffold.Fixture.Layout
import TestScaffold.Proofs.CSharp.Spelling

namespace TestScaffold.CSharp

open TestScaffold.Text

/-- A line: nothing, or the text of some tokens behind some blanks. -/
inductive Line : String → List Token → Prop where
  | empty : Line "" []
  | row {s : String} {g cs : List Char} {ts : List Token} (nonempty : ts ≠ [])
      (text : s.toList = g ++ cs) (blank : ∀ c ∈ g, isPlainBlank c = true)
      (spelt : Spelt cs ts) : Line s ts

/-- Rows one behind the other, each with other blanks before its first token. -/
inductive Laid : List (List Token) → List Token → Prop where
  | nil : Laid [] []
  | empty {rows : List (List Token)} {ts : List Token} (rest : Laid rows ts) : Laid ([] :: rows) ts
  | row {row : List Token} {rows : List (List Token)} {ts : List Token} (blanks : List Char)
      (nonempty : row ≠ []) (rest : Laid rows ts) :
      Laid (row :: rows) (Token.allBehind blanks row ++ ts)

/-- The first token of each row is read in its role behind the last one of the row before. -/
def Chained (rows : List (List Token)) : Prop :=
  (rows.filter (!·.isEmpty)).IsChain fun row next =>
    ∀ a ∈ row.getLast?, ∀ b ∈ next.head?, b.Named a.role

/-! ### Indenting -/

theorem Line.indent {s : String} {ts : List Token} (h : Line s ts) {unit : String}
    (hunit : ∀ c ∈ unit.toList, isPlainBlank c = true) :
    Line (if s = "" then "" else unit ++ s) ts := by
  cases h with
  | empty => exact .empty
  | @row _ blanks cs _ nonempty text blank spelt =>
    split
    · rename_i hs
      -- a row has at least one character
      rw [hs] at text
      obtain ⟨_, hcs⟩ := List.append_eq_nil_iff.mp text.symm
      cases ts with
      | nil => exact absurd rfl nonempty
      | cons t ts =>
        obtain ⟨c, rest, hc, _⟩ := (spelt.plain t List.mem_cons_self).begins
        have hchars := spelt.chars
        rw [hcs] at hchars
        simp [Token.chars, hc] at hchars
    · refine .row (g := unit.toList ++ blanks) nonempty ?_ ?_ spelt
      · rw [String.toList_append, text, List.append_assoc]
      · intro c hc
        rcases List.mem_append.mp hc with hc | hc
        · exact hunit c hc
        · exact blank c hc

theorem lines_indented {ls : List String} {rows : List (List Token)}
    (h : List.Forall₂ Line ls rows) {unit : String}
    (hunit : ∀ c ∈ unit.toList, isPlainBlank c = true) :
    List.Forall₂ Line (Layout.indented unit ls) rows := by
  induction h with
  | nil => exact .nil
  | cons hline _ ih => exact .cons (hline.indent hunit) ih

/-! ### Joining -/

theorem joinWith_append (sep : String) {ls : List String} (hls : ls ≠ []) :
    (joinWith sep ls ++ sep).toList = ls.flatMap fun l => l.toList ++ sep.toList := by
  induction ls with
  | nil => exact absurd rfl hls
  | cons l ls ih =>
    cases ls with
    | nil => simp [joinWith]
    | cons m ls =>
      have hrest := ih (List.cons_ne_nil _ _)
      simp only [String.toList_append] at hrest
      simp only [joinWith, String.toList_append, List.append_assoc, List.flatMap_cons] at hrest ⊢
      rw [hrest]

/-- **The text of lines is spelled by the tokens of their rows.** -/
theorem spelt_lines {sep : List Char} (hsep : sep ≠ [])
    (hblank : ∀ c ∈ sep, isPlainBlank c = true) {ls : List String} {rows : List (List Token)}
    (h : List.Forall₂ Line ls rows) (hchained : Chained rows) :
    ∀ {w : List Char}, (∀ c ∈ w, isPlainBlank c = true) →
      ∃ ts trail, w ++ (ls.flatMap fun l => l.toList ++ sep) =
          ts.flatMap Token.chars ++ trail ∧ (∀ c ∈ trail, isPlainBlank c = true) ∧ Laid rows ts ∧
        (∀ t ∈ ts, t.Plain) ∧ ts.IsChain Token.Before ∧
        ∀ b ∈ ts.head?, ∃ row ∈ (rows.filter (!·.isEmpty)).head?, ∃ t ∈ row.head?,
          ∃ g, w <+: g ∧ (∀ c ∈ g, isPlainBlank c = true) ∧ b = t.behind g := by
  induction h with
  | nil =>
    intro before hbefore
    exact ⟨[], before, by simp, hbefore, .nil, by simp, .nil, by simp⟩
  | @cons l row ls rows hline hlines ih =>
    intro before hbefore
    cases hline with
    | empty =>
      have hbefore' : ∀ c ∈ before ++ sep, isPlainBlank c = true := by
        intro c hc
        rcases List.mem_append.mp hc with hc | hc
        · exact hbefore c hc
        · exact hblank c hc
      obtain ⟨ts, trail, htext, htrail, hlaid, hplain, hchain, hhead⟩ := ih hchained hbefore'
      refine ⟨ts, trail, ?_, htrail, .empty hlaid, hplain, hchain, ?_⟩
      · rw [← htext]
        simp
      · intro b hb
        obtain ⟨row, hrow, t, ht, g, hg, hgblank, hbt⟩ := hhead b hb
        exact ⟨row, hrow, t, ht, g, (List.prefix_append _ _).trans hg, hgblank, hbt⟩
    | @row _ blanks cs _ nonempty text blank spelt =>
      have hfilter : (row :: rows).filter (!·.isEmpty) = row :: rows.filter (!·.isEmpty) := by
        rw [List.filter_cons_of_pos]
        simpa using nonempty
      unfold Chained at hchained
      rw [hfilter, List.isChain_cons] at hchained
      obtain ⟨ts, trail, htext, htrail, hlaid, hplain, hchain, hhead⟩ := ih hchained.2 hblank
      have hgap : ∀ c ∈ before ++ blanks, isPlainBlank c = true := by
        intro c hc
        rcases List.mem_append.mp hc with hc | hc
        · exact hbefore c hc
        · exact blank c hc
      refine ⟨Token.allBehind (before ++ blanks) row ++ ts, trail, ?_, htrail,
        .row _ nonempty hlaid, ?_, ?_, ?_⟩
      · rw [List.flatMap_append, Spelt.flatMap_allBehind nonempty spelt.flush, spelt.chars,
          List.append_assoc _ _ trail, ← htext, List.flatMap_cons, text]
        simp
      · intro t ht
        rcases List.mem_append.mp ht with ht | ht
        · exact Spelt.plain_allBehind spelt.plain hgap t ht
        · exact hplain t ht
      · refine List.isChain_append.mpr ⟨Spelt.chain_allBehind spelt.chain _, hchain, ?_⟩
        intro a ha b hb
        obtain ⟨next, hnext, t, ht, g, ⟨more, hmore⟩, hgblank, rfl⟩ := hhead b hb
        obtain ⟨u, hu, _, hrole⟩ := Spelt.mem_getLast?_allBehind ha
        refine Token.before_behind ?_ ?_ hgblank ?_
        · exact Spelt.plain_allBehind spelt.plain hgap a (List.mem_of_getLast? ha)
        · rw [← hmore]
          exact List.append_ne_nil_of_left_ne_nil hsep _
        · rw [hrole]
          exact hchained.1 next hnext u hu t ht
      · intro b hb
        cases row with
        | nil => exact absurd rfl nonempty
        | cons t row =>
          cases hb
          exact ⟨t :: row, by rw [hfilter]; rfl, t, rfl, before ++ blanks,
            List.prefix_append _ _, hgap, rfl⟩

end TestScaffold.CSharp
