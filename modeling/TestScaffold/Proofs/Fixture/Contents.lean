/-
  TestScaffold/Proofs/Fixture/Contents.lean
  =========================================
  **The members of a rendered test class are read as they were written.**

  Fields come first, then the constructor, then the tests, each as a declaration of
  its own, in their order.
-/
import TestScaffold.Proofs.CSharp.Signatures
import TestScaffold.Proofs.Fixture.Rendering

namespace TestScaffold

open TestScaffold.CSharp
open Grammar (many)

/-! ### Rows of members -/

theorem isMemberRole_of_isBodyRole {role : Terminal} (h : isBodyRole role = true) :
    isMemberRole role = true := by
  cases role <;> simp [isMemberRole, h]

theorem isMemberRole_name (cs : List Char) : isMemberRole (Token.name cs).role = true :=
  Token.holds_name (by decide) (by decide) cs

namespace Fixture.Written

variable {x : Fixture} {s : Sheet}

theorem rows_statements {body : List Stmt} {rows : List (List Token)}
    (h : List.Forall₂ StmtRow body rows) : RowsOf isMemberRole rows :=
  forall_of_forall₂ h fun _ _ hs t ht => isMemberRole_of_isBodyRole (hs.roles t ht)

/-- The members of a test class are read as members are. -/
theorem rows_members (h : x.Written s) : ∀ m ∈ s.members, RowsOf isMemberRole m := by
  intro m hm
  unfold Sheet.members at hm
  rcases List.mem_append.mp hm with hm | hm
  · split at hm
    · cases hm
    · rw [List.mem_singleton.mp hm]
      exact forall_of_forall₂ h.fields fun _ _ hf t ht => isMemberRole_of_isBodyRole (hf.roles t ht)
  · rcases List.mem_cons.mp hm with rfl | hm
    · refine .cons ?_ ((rows_statements h.setup).inBraces (by decide) (by decide))
      simp [setupRow, isMemberRole_name]
      decide
    · obtain ⟨r, hr, rfl⟩ := List.mem_map.mp hm
      have hbody : RowsOf isMemberRole r.body := forall_of_forall₂ h.tests
        (P := fun r => RowsOf isMemberRole r.body) (fun _ _ ht => rows_statements ht.body) r hr
      refine .cons ?_ (.cons ?_ (hbody.inBraces (by decide) (by decide)))
      · simp [attributeRow, isMemberRole_name]
        decide
      · unfold testRow
        split <;> simp [isMemberRole_name] <;> decide

end Fixture.Written

/-! ### Tokens of members -/

/-- The row of a field is that of a member. -/
theorem FieldRow.exists_tokens {f : Field} {row : List Token} (h : FieldRow f row) (g : List Char) :
    ∃ head o, Token.allBehind g row = head ++ [o] ∧ FieldTokens head o := by
  have hphrase : Phrase .fieldDeclaration (Token.allBehind g row) :=
    (h.code.elim fun _ hc => hc.2.phrase).allBehind g
  have hroles : ∀ t ∈ Token.allBehind g row, t.role ≠ .mark .openBrace := by
    intro t ht e
    obtain ⟨u, hu, hrole⟩ := Token.exists_of_mem_allBehind ht
    have hbody := h.roles u hu
    rw [← hrole, e] at hbody
    exact absurd hbody (by decide)
  obtain ⟨us, n, hrow, hn⟩ : ∃ us n, Token.allBehind g row = us ++ [n] ++ [Token.mark .semicolon] ∧
      n.role ≠ .mark .closeParen := by
    have hname : (Token.name f.name.text.toList).spaced.role ≠ .mark .closeParen := by
      rcases Token.role_name f.name.text.toList with hrole | ⟨k, hrole⟩ <;> simp [hrole]
    obtain ⟨us, rfl⟩ := h.ends
    cases us with
    | nil => exact ⟨[], _, rfl, hname⟩
    | cons u us => exact ⟨u.behind g :: us, _, by simp, hname⟩
  obtain ⟨rhs, hrule, trees, hreads⟩ := hphrase
  rw [eq_front_back .fieldDeclaration (by decide), List.mem_singleton] at hrule
  subst hrule
  obtain ⟨head, us₁, ts₂, us₂, hts, rfl, hfront, hback⟩ := hreads.of_append
  obtain ⟨o, ts₃, us₃, rfl, rfl, ho, hnil⟩ := hback.of_cons_token
  obtain ⟨rfl, rfl⟩ := hnil.of_nil
  obtain ⟨hbalanced, hsemicolon⟩ := hfront.front_semicolon (d := .fieldDeclaration) (by decide)
  obtain ⟨rfl, _⟩ : us ++ [n] = head ∧ [Token.mark .semicolon] = [o] :=
    List.append_inj' (hrow.symm.trans hts) rfl
  refine ⟨us ++ [n], o, hts, by simp, hbalanced, fun t ht => ⟨hsemicolon t ht, ?_⟩, ?_,
    beq_iff_eq.mp ho⟩
  · exact hroles t (hts ▸ List.mem_append_left _ (Nest.mem_outer ht))
  · intro t ht
    rw [List.getLast?_concat] at ht
    cases ht
    exact hn

namespace CSharp

/-- Statements in braces are balanced. -/
theorem Laid.exists_block {body : List (List Token)} {ts : List Token}
    (h : Laid (inBraces body) ts) (hbody : ∀ row ∈ body, Phrase .statement row) :
    ∃ o inner c, ts = o :: (inner ++ [c]) ∧ o.role = .mark .openBrace ∧
      c.role = .mark .closeBrace ∧ Nest.brackets.Balanced inner := by
  obtain ⟨g, inner, g', rfl, hinner⟩ := h.of_braces
  obtain ⟨ps, rfl, hps⟩ := hinner.phrases fun row hrow _ => hbody row hrow
  refine ⟨_, ps.flatten, _, rfl, rfl, rfl, Nest.Balanced.flatten fun p hp => ?_⟩
  obtain ⟨rhs, hrule, us, hreads⟩ := hps p hp
  exact hreads.balanced Nest.fits_brackets hrule

/-- The tokens of a constructor. -/
theorem Laid.exists_setup {name : List Char} {body : List (List Token)} {ts : List Token}
    (h : Laid (setupRow name :: inBraces body) ts) (hname : IsName name)
    (hbody : ∀ row ∈ body, Phrase .statement row) :
    ∃ g o inner c, ts = Token.allBehind g (setupRow name) ++ o :: (inner ++ [c]) ∧
      FunctionTokens (Token.allBehind g (setupRow name)) o inner c := by
  obtain ⟨g, us, rfl, hblock⟩ := h.of_cons (by simp [setupRow])
  obtain ⟨o, inner, c, rfl, ho, hc, hinner⟩ := hblock.exists_block hbody
  refine ⟨g, o, inner, c, rfl, by simp [setupRow], ?_, fun t ht => ?_, ?_, ho, hc, hinner⟩
  · simp [Nest.Balanced, setupRow, Reads.role_name hname]
    decide
  · have hall : ∀ t ∈ Token.allBehind g (setupRow name),
        t.role ≠ .mark .semicolon ∧ t.role ≠ .mark .openBrace := by
      simp [setupRow, Reads.role_name hname]
      decide
    exact hall t (Nest.mem_outer ht)
  · intro t ht
    simp [setupRow] at ht
    exact ht ▸ rfl

/-- The tokens of a test. -/
theorem Laid.exists_test {t : TestSheet} {ts : List Token} (h : Laid t.rows ts)
    (hname : IsName t.name) (hbody : ∀ row ∈ t.body, Phrase .statement row) :
    ∃ g g' o inner c,
      ts = Token.allBehind g attributeRow ++ Token.allBehind g' (testRow t) ++
        o :: (inner ++ [c]) ∧
      FunctionTokens (Token.allBehind g attributeRow ++ Token.allBehind g' (testRow t)) o inner c := by
  obtain ⟨g, us, rfl, hrest⟩ := h.of_cons (by simp [attributeRow])
  obtain ⟨g', vs, rfl, hblock⟩ := hrest.of_cons (by simp [testRow])
  obtain ⟨o, inner, c, rfl, ho, hc, hinner⟩ := hblock.exists_block hbody
  obtain ⟨hbalanced, hroles, hlast⟩ :
      Nest.brackets.Balanced (Token.allBehind g attributeRow ++ Token.allBehind g' (testRow t)) ∧
      (∀ u ∈ Token.allBehind g attributeRow ++ Token.allBehind g' (testRow t),
        u.role ≠ .mark .semicolon ∧ u.role ≠ .mark .openBrace) ∧
      ∀ u ∈ (Token.allBehind g attributeRow ++ Token.allBehind g' (testRow t)).getLast?,
        u.role = .mark .closeParen := by
    cases hasync : t.isAsync
    all_goals
      simp [Nest.Balanced, attributeRow, testRow, hasync, Reads.role_name hname]
      decide
  exact ⟨g, g', o, inner, c, by simp, by simp [attributeRow], hbalanced,
    fun u hu => hroles u (Nest.mem_outer hu), hlast, ho, hc, hinner⟩

/-- Members with empty rows between them are laid out one by one. -/
theorem Laid.of_spacedRows {ms : List (List (List Token))} {ts : List Token}
    (h : Laid (spacedRows ms) ts) : ∃ tss, ts = tss.flatten ∧ List.Forall₂ Laid ms tss := by
  induction ms generalizing ts with
  | nil => exact ⟨[], h.of_nil, .nil⟩
  | cons m rest ih =>
    cases rest with
    | nil => exact ⟨[ts], by simp, .cons h .nil⟩
    | cons n rest =>
      obtain ⟨us, vs, rfl, hm, hrest⟩ := Laid.of_append h
      obtain ⟨tss, rfl, htss⟩ := ih hrest.of_empty
      exact ⟨us :: tss, rfl, .cons hm htss⟩

end CSharp

/-! ### Reading members -/

/-- A list of members. -/
abbrev CSharp.memberParts : List Part := [many .memberItem]

/-- Fields that stand first are read as fields. -/
theorem CSharp.Laid.read_fields {rows : List (List Token)} {ts rest : List Token}
    {us : List CSharp.Tree} (h : Laid rows ts) (hrows : ∀ row ∈ rows, ∃ f, FieldRow f row)
    (hreads : Reads memberParts (ts ++ rest) us)
    (hstrangers : ∀ t ∈ ts ++ rest, t.role ∉ memberStrangers) :
    ∃ fs us', us = fs ++ us' ∧ (∀ u ∈ fs, u.isOf .fieldDeclaration = true) ∧
      Reads memberParts rest us' := by
  induction h generalizing us with
  | nil => exact ⟨[], us, rfl, fun u hu => absurd hu List.not_mem_nil, hreads⟩
  | empty _ ih => exact ih (fun row hrow => hrows row (List.mem_cons_of_mem _ hrow)) hreads hstrangers
  | @row row rows ts blanks _ _ ih =>
    obtain ⟨f, hrow⟩ := hrows row List.mem_cons_self
    obtain ⟨head, o, htokens, hfield⟩ := hrow.exists_tokens blanks
    rw [htokens] at hreads hstrangers
    simp only [List.append_assoc, List.singleton_append] at hreads hstrangers
    obtain ⟨cs, us', rfl, hmore⟩ := hfield.first hreads hstrangers
    obtain ⟨fs, us'', rfl, hfs, hrest⟩ := ih
      (fun row hrow => hrows row (List.mem_cons_of_mem _ hrow)) hmore fun t ht =>
        hstrangers t (List.mem_append_right _ (List.mem_cons_of_mem _ ht))
    exact ⟨_ :: fs, us'', rfl, List.forall_mem_cons.mpr ⟨rfl, hfs⟩, hrest⟩

/-- The tokens of a test with a name and statements. -/
structure CSharp.TestSheet.Tokens (t : TestSheet) (ts : List Token) : Prop where
  laid : Laid t.rows ts
  name : IsName t.name
  body : ∀ row ∈ t.body, Phrase .statement row

/-- The tree of a test. -/
def CSharp.TestSheet.Stands (t : TestSheet) (u : CSharp.Tree) : Prop :=
  u.isOf .methodDeclaration = true ∧ u.method = .ok t.method

/-- No test ends with a semicolon. -/
theorem CSharp.outer_tests {tests : List TestSheet} {tss : List (List Token)}
    (h : List.Forall₂ TestSheet.Tokens tests tss) :
    ∀ u ∈ Nest.brackets.outer 0 tss.flatten, u.role ≠ .mark .semicolon := by
  induction h with
  | nil => exact fun u hu => absurd hu List.not_mem_nil
  | cons ht _ ih =>
    obtain ⟨g, g', o, inner, c, rfl, htokens⟩ := ht.laid.exists_test ht.name ht.body
    have houter := htokens.outer_semicolon ih
    simpa using houter

/-- **Tests are read as methods**, one by one. -/
theorem CSharp.read_tests {tests : List TestSheet} {tss : List (List Token)}
    (h : List.Forall₂ TestSheet.Tokens tests tss) {us : List CSharp.Tree}
    (hreads : Reads memberParts tss.flatten us)
    (hstrangers : ∀ t ∈ tss.flatten, t.role ∉ memberStrangers) :
    List.Forall₂ TestSheet.Stands tests us := by
  induction h generalizing us with
  | nil =>
    rw [hreads.trees_eq_nil (by decide)]
    exact .nil
  | @cons t ts tests tss ht hrest ih =>
    obtain ⟨g, g', o, inner, c, rfl, htokens⟩ := ht.laid.exists_test ht.name ht.body
    simp only [List.flatten_cons, List.append_assoc, List.cons_append] at hreads hstrangers
    rw [← List.append_assoc] at hreads hstrangers
    obtain ⟨d, hd, us₁, bs, us', rfl, hfront, hmore⟩ :=
      htokens.first hreads hstrangers (outer_tests hrest)
    simp only [List.mem_cons, List.not_mem_nil, or_false] at hd
    rcases hd with rfl | rfl
    · refine .cons ⟨rfl, hfront.method_testRow ht.name bs⟩ (ih hmore fun t ht => ?_)
      exact hstrangers t (by simp [ht])
    · exact (hfront.false_testRow ht.name).elim

/-- The trees of the members of a sheet: fields, a public constructor without parameters, and the
tests. -/
def CSharp.Sheet.Members (s : Sheet) (us : List CSharp.Tree) : Prop :=
  ∃ fields c tests, us = fields ++ c :: tests ∧ (∀ u ∈ fields, u.isOf .fieldDeclaration = true) ∧
    (c.isOf .constructorDeclaration = true ∧ c.constructor = .ok { access := .publicAccess }) ∧
    List.Forall₂ TestSheet.Stands s.tests tests

namespace Fixture.Written

variable {x : Fixture} {s : Sheet}

/-- The tests of a test class have names and statements. -/
theorem isName_tests (h : x.Written s) (hlegible : x.Legible) :
    ∀ t ∈ s.tests, IsName t.name := by
  have htests : List.Forall₂ (fun a b => a ∈ x.tests ∧ Test.Written a b) x.tests s.tests :=
    (List.forall₂_and_left _ _).mpr ⟨fun _ ht => ht, h.tests⟩
  exact forall_of_forall₂ htests fun a b hab => hab.2.name ▸ (hlegible.tests a hab.1).name.name

/-- **The members of a rendered test class are read as they were written.** -/
theorem read_members (h : x.Written s) (hlegible : x.Legible) {ts : List Token}
    {us : List CSharp.Tree} (hts : Laid (spacedRows s.members) ts) (hreads : Reads memberParts ts us) :
    s.Members us := by
  have hstrangers : ∀ t ∈ ts, t.role ∉ memberStrangers := by
    have hall : ∀ r ∈ memberStrangers, isMemberRole r = false := by decide
    intro t ht hmem
    have hrole := (RowsOf.spacedRows h.rows_members).of_laid hts t ht
    rw [hall _ hmem] at hrole
    cases hrole
  obtain ⟨tss, rfl, htss⟩ := hts.of_spacedRows
  obtain ⟨fs, setup, tests, hflat, hfields, hsetup, htests⟩ : ∃ fs setup tests,
      tss.flatten = fs ++ setup ++ tests.flatten ∧ Laid s.fields fs ∧
      Laid (setupRow s.className :: inBraces s.setup) setup ∧
      List.Forall₂ Laid (s.tests.map TestSheet.rows) tests := by
    unfold Sheet.members at htss
    split at htss
    · rename_i hnone
      cases htss with
      | cons hsetup htests =>
        exact ⟨[], _, _, rfl, (List.isEmpty_iff.mp hnone) ▸ .nil, hsetup, htests⟩
    · cases htss with
      | cons hfields hrest =>
        cases hrest with
        | cons hsetup htests => exact ⟨_, _, _, by simp, hfields, hsetup, htests⟩
  have hname : IsName s.className := h.className ▸ hlegible.className.name
  have htokens : List.Forall₂ TestSheet.Tokens s.tests tests :=
    ((List.forall₂_and_left _ _).mpr ⟨fun _ ht => ht, List.forall₂_map_left_iff.mp htests⟩).imp
      fun t _ ht => ⟨ht.2, h.isName_tests hlegible t ht.1, h.good.tests t ht.1⟩
  rw [hflat, List.append_assoc] at hreads hstrangers
  obtain ⟨fields, us', rfl, hfs, hmore⟩ := hfields.read_fields
    (forall_of_forall₂ h.fields fun f _ hf => ⟨f, hf⟩) hreads hstrangers
  obtain ⟨g, o, inner, c, rfl, hfunction⟩ := hsetup.exists_setup hname h.good.setup
  simp only [List.append_assoc, List.cons_append] at hmore hstrangers
  obtain ⟨d, hd, us₁, bs, us'', rfl, hfront, hrest⟩ := hfunction.first hmore
    (fun t ht => hstrangers t (List.mem_append_right _ ht)) (outer_tests htokens)
  simp only [List.mem_cons, List.not_mem_nil, or_false] at hd
  rcases hd with rfl | rfl
  · exact (hfront.false_setupRow hname).elim
  · refine ⟨fields, _, us'', rfl, hfs, ⟨rfl, hfront.constructor_setupRow hname bs⟩,
      read_tests htokens hrest fun t ht => hstrangers t ?_⟩
    simp [ht]

end Fixture.Written

end TestScaffold
