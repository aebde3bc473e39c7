/-
  TestScaffold/Proofs/Fixture/Synthesis.lean
  ==========================================
  **The test class for a legible class is legible.**

  A class is legible if the names and types that its test class takes over are
  read there as what they are: names as names, types as types, directives as
  directives.
-/
import TestScaffold.Fixture.Assembly
import TestScaffold.Proofs.Fixture.Bodies
import TestScaffold.Proofs.Fixture.Parts
import TestScaffold.Proofs.Fixture.Words

namespace TestScaffold

open TestScaffold.Text
open TestScaffold.CSharp

/-! ### Legible parts of a source file -/

namespace Source

/-- A parameter that a test declares a local for and hands over. -/
structure Parameter.Legible (p : Parameter) : Prop where
  name : p.name.Clear
  type : ∃ ts, TypeText .type p.typeName.toList ts ∧
    ∀ a ∈ ts.getLast?, (Token.name p.name.text.toList).Named a.role
  argument : ∀ a ∈ [Terminal.mark .openParen, .mark .comma],
    (Token.name p.name.text.toList).Named a

/-- A constructor parameter that a test class has a field for. An object of its type, or of a mock
of it, is created. -/
structure Parameter.LegibleField (p : Parameter) : Prop where
  name : p.name.Clear
  noKeyword : Keyword.ofChars? (Naming.fieldName p.name.text).text.toList = none
  type : ∃ ts, TypeText (if Naming.isMockable p.typeName then .type else .plainType)
    p.typeName.toList ts

/-- A method that gets a test. -/
structure Method.Legible (m : Method) : Prop where
  name : m.name.Clear
  member : Keyword.ofChars? m.name.text.toList ≠ some .this_ ∧
    Keyword.ofChars? m.name.text.toList ≠ some .operator_
  parameters : ∀ p ∈ m.parameters, p.Legible
  result : m.shape.hasResult = true →
    ∃ typeName ts, m.shape.resultType = some typeName ∧ TypeText .type typeName.toList ts

/-- A class of a file. -/
structure Class.Legible (f : File) (c : Class) : Prop where
  name : c.name.Clear
  type : ∃ ts, TypeText .plainType c.name.text.toList ts
  receiver : (Naming.receiverName c.name.text).Legible
  dependencies : ∀ p ∈ c.dependencies, p.LegibleField
  methods : ∀ m ∈ c.methods, m.isTestable = true → m.Legible
  namespaceName : (Naming.testNamespace (Fixture.governing c f)).LegibleNamespace
  ownUsing : ∀ n, (Fixture.governing c f).bind Name.ofString? = some n →
    ∃ row, UsingRow (.plain n) row
  usings : ∀ u ∈ f.usings, ∃ row, UsingRow u row

end Source

open Source (Parameter Method)

/-! ### Types -/

/-- A type that is not empty has a name. -/
theorem exists_name {c : Category} (hc : c ≠ .compilationUnit) {s : String} {ts : List Token}
    (h : TypeText c s.toList ts) : ∃ n : Name, n.text = s := by
  refine ⟨⟨s, ?_⟩, rfl⟩
  rintro rfl
  have hblank := not_isBlankText hc h.code
  cases hblank

theorem TypeUse.exists_plain {c : Category} (hc : c ≠ .compilationUnit) {s : String}
    {ts : List Token} (h : TypeText c s.toList ts) :
    ∃ t, TypeUse.plain? s = .ok t ∧ t.Reads c s ts := by
  obtain ⟨n, rfl⟩ := exists_name hc h
  refine ⟨⟨n, false⟩, ?_, TypeUse.reads_plain hc h⟩
  rw [TypeUse.plain?, n.ofString?_text]

/-! ### Wiring -/

/-- A field that a new object can be assigned to. -/
structure Field.Legible (f : Field) : Prop where
  name : f.name.Legible
  type : ∃ s ts, f.type.Reads .plainType s ts

theorem Field.Legible.exists_row {f : Field} (h : f.Legible) : ∃ row, FieldRow f row := by
  obtain ⟨s, ts, hreads⟩ := h.type
  exact ⟨_, .of_reads ⟨hreads.text, hreads.type.widen⟩ h.name⟩

theorem Field.Legible.exists_fill {f : Field} (h : f.Legible) {es : List Expr}
    (hes : ∀ e ∈ es, ∃ a, ArgumentCode e a) : ∃ row, StmtRow (Wiring.fill f es) row := by
  obtain ⟨s, ts, hreads⟩ := h.type
  obtain ⟨as, has⟩ := exists_forall₂_iff.mpr hes
  obtain ⟨s', hcreate⟩ := ExprCode.create hreads has
  exact ⟨_, .assign h.name.name hcreate.widen fun t ht a => by
    cases ht
    exact Token.steady_keyword _ _ rfl a⟩

theorem exists_dependency {p : Parameter} (h : p.LegibleField) :
    ∃ d, Wiring.dependency p = .ok d ∧ d.field.Legible := by
  obtain ⟨ts, htype⟩ := h.type
  have hname : (Naming.fieldName p.name.text).Legible :=
    ⟨h.name.fieldName.identifier, h.name.fieldName.plain, h.noKeyword⟩
  unfold Wiring.dependency
  split at htype
  · rename_i hmock
    obtain ⟨n, hn⟩ := exists_name (by decide) htype
    rw [← hn] at htype hmock ⊢
    refine ⟨⟨⟨Naming.fieldName p.name.text, ⟨n, true⟩⟩⟩, ?_, hname, _, _, TypeUse.reads_mock htype⟩
    rw [if_pos hmock, TypeUse.mock?, n.ofString?_text]
    rfl
  · rename_i hmock
    obtain ⟨t, ht, hreads⟩ := TypeUse.exists_plain (by decide) htype
    refine ⟨⟨⟨Naming.fieldName p.name.text, t⟩⟩, ?_, hname, _, _, hreads⟩
    rw [if_neg hmock, ht]
    rfl

theorem exists_argument {d : Wiring.Dependency} (h : d.field.Legible) :
    ∃ a, ArgumentCode d.argument a := by
  have hobject : IsName Wiring.mockObject.text.toList := ⟨by decide, by decide⟩
  have hsteady := h.name.name.steady
  unfold Wiring.Dependency.argument
  split
  · exact ⟨_, .of_steady (ExprCode.member h.name.name.plain hobject.plain
      (hobject.steady _ rfl _)).widen (hsteady.append (List.cons_ne_nil _ _))⟩
  · exact ⟨_, .of_steady (ExprCode.identifier h.name.name.plain).widen hsteady⟩

/-- The wiring of a legible class. -/
theorem exists_wiring {f : Source.File} {c : Source.Class} (h : c.Legible f) :
    ∃ w, Wiring.ofClass c = .ok w ∧ w.receiver = Naming.receiverName c.name.text ∧
      w.setup.name = Naming.testClassName c.name.text ∧ (∀ g ∈ w.fields, g.Legible) ∧
      ∀ s ∈ w.setup.body, ∃ row, StmtRow s row := by
  obtain ⟨ds, hds, hlegible⟩ := mapM_of_forall fun p hp => exists_dependency (h.dependencies p hp)
  obtain ⟨ts, htype⟩ := h.type
  have hreceiver : Field.Legible ⟨Naming.receiverName c.name.text, ⟨c.name, false⟩⟩ :=
    ⟨h.receiver, _, _, TypeUse.reads_plain (by decide) htype⟩
  refine ⟨⟨ds.map (·.field) ++ [⟨Naming.receiverName c.name.text, ⟨c.name, false⟩⟩],
    ⟨c.name.append Naming.testsSuffix, ds.map (fun d => Wiring.fill d.field []) ++
      [Wiring.fill ⟨Naming.receiverName c.name.text, ⟨c.name, false⟩⟩
        (ds.map Wiring.Dependency.argument)]⟩, Naming.receiverName c.name.text⟩, ?_, rfl, rfl, ?_, ?_⟩
  · unfold Source.Class.dependencies at hds
    simp only [Wiring.ofClass, hds]
    rfl
  · intro g hg
    rcases List.mem_append.mp hg with hg | hg
    · obtain ⟨d, hd, rfl⟩ := List.mem_map.mp hg
      exact hlegible d hd
    · exact List.mem_singleton.mp hg ▸ hreceiver
  · intro s hs
    rcases List.mem_append.mp hs with hs | hs
    · obtain ⟨d, hd, rfl⟩ := List.mem_map.mp hs
      exact (hlegible d hd).exists_fill fun _ he => absurd he List.not_mem_nil
    · rw [List.mem_singleton.mp hs]
      refine hreceiver.exists_fill fun e he => ?_
      obtain ⟨d, hd, rfl⟩ := List.mem_map.mp he
      exact exists_argument (hlegible d hd)

/-! ### Tests -/

theorem exists_arranged {m : Method} (h : m.Legible) :
    ∃ stmts, TestBody.arrange m = .ok stmts ∧ ∀ s ∈ stmts, ∃ row, StmtRow s row := by
  refine mapM_of_forall fun p hp => ?_
  obtain ⟨hname, ⟨ts, htype, hnamed⟩, _⟩ := h.parameters p hp
  obtain ⟨t, ht, hreads⟩ := TypeUse.exists_plain (by decide) htype
  have hrow := StmtRow.declare hreads hname.identifier hname.plain hnamed
    (ExprCode.default hreads).widen fun u hu a => by cases hu; exact Token.steady_keyword _ _ rfl a
  refine ⟨.declare t p.name (.default t), ?_, _, hrow⟩
  rw [ht]
  rfl

/-- The call of the method under test. -/
theorem exists_call {m : Method} (h : m.Legible) {receiver : Name} (hreceiver : receiver.Legible) :
    ∃ as, List.Forall₂ ArgumentCode (m.parameters.map fun p => Expr.identifier p.name) as ∧
      ∃ s ts, ExprCode .primary (.member (.identifier receiver) m.name) s ts ∧ Steady ts := by
  have harguments : ∀ e ∈ m.parameters.map fun p => Expr.identifier p.name,
      ∃ a, ArgumentCode e a := by
    intro e he
    obtain ⟨p, hp, rfl⟩ := List.mem_map.mp he
    obtain ⟨hname, _, hargument⟩ := h.parameters p hp
    refine ⟨(p.name.text.toList, _), ⟨_, (ExprCode.identifier hname.plain).widen, rfl⟩, ?_, ?_⟩
    · exact fun t ht => by cases ht; exact hargument _ (by decide)
    · exact fun t ht => by cases ht; exact hargument _ (by decide)
  obtain ⟨as, has⟩ := exists_forall₂_iff.mpr harguments
  exact ⟨as, has, _, _, ExprCode.member hreceiver.name.plain h.name.plain
    (Token.named_dot h.name.plain h.member), hreceiver.name.steady.append (List.cons_ne_nil _ _)⟩

theorem isName_actual : IsName TestBody.actual.text.toList := ⟨by decide, by decide⟩

theorem isName_expected : IsName TestBody.expected.text.toList :=
  ⟨by decide, by decide⟩

theorem exists_resultUse {m : Method} (h : m.Legible) (hresult : m.shape.hasResult = true) :
    ∃ t s ts, TestBody.resultUse m.shape = .ok t ∧ t.Reads .type s ts := by
  obtain ⟨typeName, ts, hname, htype⟩ := h.result hresult
  obtain ⟨t, ht, hreads⟩ := TypeUse.exists_plain (by decide) htype
  refine ⟨t, typeName, ts, ?_, hreads⟩
  rw [TestBody.resultUse, hname]
  exact ht

theorem exists_act {m : Method} (h : m.Legible) {receiver : Name} (hreceiver : receiver.Legible) :
    ∃ s, TestBody.act receiver.text m = .ok s ∧ ∃ row, StmtRow s row := by
  obtain ⟨as, has, s, ts, hmember, hsteady⟩ := exists_call h hreceiver
  obtain ⟨s', hcall, _⟩ := hmember.call has
  have hsteady' := hsteady.append (u := Arguments.tokens as) (hmember.code.ne_nil (by decide))
  unfold TestBody.act
  rw [receiver.ofString?_text]
  cases hresult : m.shape.hasResult with
  | true =>
    obtain ⟨t, u, us, ht, hreads⟩ := exists_resultUse h hresult
    have hvalue : ∀ {e : Expr} {v : String} {vs : List Token}, ExprCode .expression e v vs →
        Steady vs → ∃ row, StmtRow (.declare t TestBody.actual e) row := fun he hvs =>
      ⟨_, .declare hreads (by decide) isName_actual.plain
        (fun a _ => isName_actual.steady _ rfl _) he hvs⟩
    cases hawaited : m.shape.isAwaited with
    | true =>
      refine ⟨_, ?_, hvalue (hcall.await hsteady') fun t ht a => ?_⟩
      · simp only [ht, hresult, hawaited]
        rfl
      · cases ht
        exact Token.steady_keyword _ _ rfl a
    | false =>
      refine ⟨_, ?_, hvalue hcall.widen hsteady'⟩
      simp only [ht, hresult, hawaited]
      rfl
  | false =>
    cases hawaited : m.shape.isAwaited with
    | true =>
      refine ⟨_, ?_, _, .await hcall hsteady'⟩
      simp only [hresult, hawaited]
      rfl
    | false =>
      refine ⟨_, ?_, _, .call hmember hsteady has⟩
      simp only [hresult, hawaited]
      rfl

/-- A call of an assertion. -/
theorem exists_assertion {member : Name} (hmember : IsName member.text.toList) {es : List Expr}
    (hes : ∀ e ∈ es, ∃ a, ArgumentCode e a) :
    ∃ row, StmtRow (.evaluate (TestBody.assertion member es)) row := by
  have hassert : IsName "Assert".toList := ⟨by decide, by decide⟩
  obtain ⟨as, has⟩ := exists_forall₂_iff.mpr hes
  exact ⟨_, .call (ExprCode.member (n := ⟨"Assert", by decide⟩) hassert.plain hmember.plain
    (hmember.steady _ rfl _)) (hassert.steady.append (List.cons_ne_nil _ _)) has⟩

/-- The arguments of the assertion that fails. -/
theorem exists_failing_argument :
    ∀ e ∈ [Expr.literal (.bool false), .literal (.text TestBody.placeholder)],
      ∃ a, ArgumentCode e a := by
  have hfalse : ExprCode .expression (.literal (.bool false)) "false" [Token.keyword .false_] :=
    ⟨rfl, .expression_of_primary (.primary_of_literal Code.literal_false), .cons (by decide) .nil⟩
  have htext : Code .literal "\"error\"".toList [Token.text "error".toList] := by
    have hcode := Code.literal_text (b := "error".toList) (by decide)
      (List.all_eq_true.mp (by decide))
    rwa [show '"' :: "error".toList ++ ['"'] = "\"error\"".toList by decide] at hcode
  have herror : ExprCode .expression (.literal (.text TestBody.placeholder)) "\"error\""
      [Token.text "error".toList] :=
    ⟨by decide, .expression_of_primary (.primary_of_literal htext), .cons (by decide) .nil⟩
  refine List.forall_mem_cons.mpr ⟨?_, List.forall_mem_cons.mpr ⟨?_, fun _ h => ?_⟩⟩
  · exact ⟨_, .of_steady hfalse (Token.steady_keyword _)⟩
  · exact ⟨_, .of_steady herror (Token.steady_of_role fun e => by cases e)⟩
  · cases h

theorem exists_argument_of_isName {n : Name} (h : IsName n.text.toList) :
    ∃ a, ArgumentCode (.identifier n) a :=
  ⟨_, .of_steady (ExprCode.identifier h.plain).widen h.steady⟩

theorem exists_asserted {m : Method} (h : m.Legible) :
    ∃ stmts, TestBody.assertResult m = .ok stmts ∧ ∀ s ∈ stmts, ∃ row, StmtRow s row := by
  unfold TestBody.assertResult
  cases hresult : m.shape.hasResult with
  | true =>
    obtain ⟨t, u, us, ht, hreads⟩ := exists_resultUse h hresult
    have hexpected := StmtRow.declare hreads (n := TestBody.expected) (by decide)
      isName_expected.plain (fun a _ => isName_expected.steady _ rfl _)
      (ExprCode.default hreads).widen fun t ht a => by cases ht; exact Token.steady_keyword _ _ rfl a
    have hequal : ∃ row, StmtRow (.evaluate (TestBody.assertion ⟨"Equal", by decide⟩
        [.identifier TestBody.expected, .identifier TestBody.actual])) row := by
      refine exists_assertion ⟨by decide, by decide⟩ ?_
      exact List.forall_mem_cons.mpr ⟨exists_argument_of_isName isName_expected,
        List.forall_mem_cons.mpr ⟨exists_argument_of_isName isName_actual, by simp⟩⟩
    refine ⟨[.declare t TestBody.expected (.default t), .evaluate (TestBody.assertion
      ⟨"Equal", by decide⟩ [.identifier TestBody.expected, .identifier TestBody.actual])], ?_, ?_⟩
    · simp only [ht, hresult]
      rfl
    · exact List.forall_mem_cons.mpr ⟨⟨_, hexpected⟩, List.forall_mem_cons.mpr ⟨hequal, by simp⟩⟩
  | false =>
    refine ⟨[.evaluate (TestBody.assertion ⟨"True", by decide⟩
      [.literal (.bool false), .literal (.text TestBody.placeholder)])], ?_, ?_⟩
    · simp only [hresult]
      rfl
    · refine List.forall_mem_cons.mpr ⟨?_, by simp⟩
      exact exists_assertion ⟨by decide, by decide⟩ exists_failing_argument

/-- **The test of a legible method is legible.** -/
theorem exists_test {m : Method} (h : m.Legible) {receiver : Name} (hreceiver : receiver.Legible)
    (k : Nat) :
    ∃ t, Test.ofMethod receiver.text m (Naming.candidate m.name.text k).text = .ok t ∧ t.Legible ∧
      t.name = Naming.candidate m.name.text k ∧ t.isAsync = m.isAsync := by
  obtain ⟨arranged, harranged, harrangedRows⟩ := exists_arranged h
  obtain ⟨act, hact, hactRow⟩ := exists_act h hreceiver
  obtain ⟨asserted, hasserted, hassertedRows⟩ := exists_asserted h
  refine ⟨⟨Naming.candidate m.name.text k, m.isAsync, TestBody.attributeText,
    arranged ++ act :: asserted⟩, ?_, ⟨h.name.legible_candidate k, rfl, ?_⟩, rfl, rfl⟩
  · simp only [Test.ofMethod, harranged, hact, hasserted, Name.ofString?_text]
    rfl
  · intro s hs
    rcases List.mem_append.mp hs with hs | hs
    · exact harrangedRows s hs
    · rcases List.mem_cons.mp hs with rfl | hs
      · exact hactRow
      · exact hassertedRows s hs

/-- **The tests of a class**: one for each testable method, in order. -/
theorem exists_tests {methods : List Method}
    (h : ∀ m ∈ methods, m.isTestable = true → m.Legible) {receiver : Name}
    (hreceiver : receiver.Legible) :
    ∃ tests, Fixture.testsOf receiver methods = .ok tests ∧ (∀ t ∈ tests, t.Legible) ∧
      (tests.map fun t => t.name.text).Nodup ∧
      tests.map (·.isAsync) = (methods.filter (·.isTestable)).map (·.isAsync) := by
  have hcandidates := Naming.resolveAll_candidates []
    ((methods.filter (·.isTestable)).map (·.name.text))
  have hnodup := (Naming.nodup_resolveAll [] ((methods.filter (·.isTestable)).map (·.name.text))).1
  generalize hresolve : Naming.resolveAll []
    ((methods.filter (·.isTestable)).map (·.name.text)) = names at hcandidates hnodup
  rw [List.forall₂_map_left_iff] at hcandidates
  have hlength := hcandidates.length_eq
  have heach : List.Forall₂ (fun (p q : Method × Name) =>
      ∃ t, Test.ofMethod receiver.text p.1 p.2.text = .ok t ∧
        (t.Legible ∧ t.name = q.2 ∧ t.isAsync = q.1.isAsync))
      ((methods.filter (·.isTestable)).zip names) ((methods.filter (·.isTestable)).zip names) := by
    refine List.forall₂_same.mpr fun p hp => ?_
    obtain ⟨m, name⟩ := p
    obtain ⟨k, hk⟩ := (List.forall₂_iff_zip.mp hcandidates).2 hp
    obtain ⟨hm, htestable⟩ := List.mem_filter.mp (List.of_mem_zip hp).1
    subst hk
    exact exists_test (h m hm htestable) hreceiver k
  obtain ⟨tests, htests, hall⟩ := mapM_of_forall₂ (f := fun (p : Method × Name) =>
    Test.ofMethod receiver.text p.1 p.2.text) heach
  have hnames : tests.map (·.name) = names := by
    rw [map_eq_of_forall₂ hall (g := Prod.snd) fun _ _ ht => ht.2.1]
    exact List.map_snd_zip (by omega)
  refine ⟨tests, ?_, ?_, ?_, ?_⟩
  · unfold Fixture.testsOf
    simp only [hresolve]
    exact htests
  · exact forall_of_forall₂ (List.Forall₂.flip hall) fun _ _ ht => ht.1
  · rw [show (tests.map fun t => t.name.text) = (tests.map (·.name)).map Name.text by simp, hnames]
    exact hnodup.map Name.text_injective
  · rw [map_eq_of_forall₂ hall (g := fun p => p.1.isAsync) fun _ _ ht => ht.2.2]
    rw [show (fun p : Method × Name => p.1.isAsync) = (·.isAsync) ∘ Prod.fst from rfl,
      ← List.map_map, List.map_fst_zip (by omega)]

/-! ### Directives -/

theorem mem_addAll {s : UsingSet} {ds : List Source.Using} {u : Source.Using}
    (h : u ∈ (s.addAll ds).directives) : u ∈ s.directives ∨ u ∈ ds := by
  induction ds generalizing s with
  | nil => exact Or.inl h
  | cons d ds ih =>
    rcases ih h with h | h
    · dsimp only [UsingSet.add] at h
      split at h
      · exact Or.inl h
      · rcases List.mem_append.mp h with h | h
        · exact Or.inl h
        · exact Or.inr (List.mem_singleton.mp h ▸ List.mem_cons_self)
    · exact Or.inr (List.mem_cons_of_mem _ h)

/-- The last of some names with points between them is a name. -/
theorem exists_last_dotted (p : List Char) (ps : List (List Char)) :
    ∃ us q, dotted (p :: ps) = us ++ [Token.name q] := by
  rcases List.eq_nil_or_concat ps with rfl | ⟨qs, q, rfl⟩
  · exact ⟨[], p, rfl⟩
  · exact ⟨Token.name p :: qs.flatMap (fun q => [Token.mark .dot, Token.name q]) ++
      [Token.mark .dot], q, by simp [dotted]⟩

theorem isUsingRole_dotted (ps : List (List Char)) :
    ∀ t ∈ dotted ps, isUsingRole t.role = true := by
  have hname : ∀ q, isUsingRole (Token.name q).role = true := by
    have hall : ∀ k ∈ Keyword.contextual, isUsingRole (.keyword k) = true := by decide
    intro q
    unfold Token.name
    cases Keyword.ofChars? q with
    | none => rfl
    | some k =>
      dsimp only
      split
      · rename_i hk
        exact hall k hk
      · rfl
  intro t ht
  cases ps with
  | nil => cases ht
  | cons p ps =>
    rcases List.mem_cons.mp ht with rfl | ht
    · exact hname p
    · obtain ⟨q, _, hq⟩ := List.mem_flatMap.mp ht
      simp only [List.mem_cons, List.not_mem_nil, or_false] at hq
      rcases hq with rfl | rfl
      · decide
      · exact hname q

/-- A directive that imports a namespace of plain names. -/
theorem exists_usingRow {n : Name} (h : ∀ q ∈ splitChars '.' n.text.toList, IsName q) :
    ∃ row, UsingRow (.plain n) row := by
  have htext := dottedChars_splitChars n.text.toList
  cases hpieces : splitChars '.' n.text.toList with
  | nil => exact absurd hpieces (splitChars_ne_nil _ _)
  | cons p ps =>
    rw [hpieces] at h htext
    have hspelt := spelt_dotted (fun q hq => (h q hq).plain) fun q hq =>
      (h q (List.mem_cons_of_mem _ hq)).steady _ rfl _
    have hphrase : Phrase .name (dotted (p :: ps)) := .dotted
    have hends : Ends (dotted (p :: ps)) := by
      obtain ⟨us, q, hlast⟩ := exists_last_dotted p ps
      rw [hlast]
      exact (Ends.word (Token.role_name q)).append (List.cons_ne_nil _ _)
    have hline : (Layout.usingLine (.plain n)).toList = "using ".toList ++ n.text.toList ++ [';'] := by
      simp [Layout.usingLine, Source.Using.plain, joinWith]
    refine ⟨[Token.keyword .using_] ++ Token.allBehind [' '] (dotted (p :: ps)) ++
      [Token.mark .semicolon], ⟨?_, ?_, .shut (by decide)⟩, ?_⟩
    · have husing := (Spelt.keyword .using_).blank (List.cons_ne_nil _ _) hspelt
        (hphrase.ne_nil (by decide)) fun _ _ b hb => by
          cases hb
          exact (h p List.mem_cons_self).steady _ rfl _
      have hall := husing.sign (m := .semicolon) (by simp) (by decide) fun a ha =>
        (hends.allBehind [' ']).append (Token.allBehind_ne_nil (hphrase.ne_nil (by decide)))
          a ha _ (by decide)
      rw [hline, ← htext]
      simpa [show Mark.chars .semicolon = [';'] by decide,
        show Keyword.chars .using_ = "using".toList by decide] using hall
    · have hparses := Parses.skip_opt (s := .token (.keyword .global_)) (Parses.token
        (t := Token.keyword .using_) (x := .keyword .using_) rfl
          (Parses.skip_opt (s := .token (.keyword .static_)) (Parses.skip_opt
            (s := .token (.keyword .unsafe_)) (Parses.category (hphrase.allBehind [' '])
              (Parses.token (t := Token.mark .semicolon) (x := .mark .semicolon) rfl .nil)))))
      exact .of_rule (List.mem_cons_of_mem _ List.mem_cons_self) hparses
    · intro t ht
      rcases List.mem_append.mp ht with ht | ht
      · rcases List.mem_cons.mp ht with rfl | ht
        · decide
        · obtain ⟨u, hu, hrole⟩ := Token.exists_of_mem_allBehind ht
          exact hrole ▸ isUsingRole_dotted _ u hu
      · rw [List.mem_singleton.mp ht]
        decide

theorem exists_defaultUsing {n : Name} (h : n ∈ defaultUsings) :
    ∃ row, UsingRow (.plain n) row := by
  have hall : (defaultUsings.all fun n => (splitChars '.' n.text.toList).all fun q =>
      isPlainWord q && Keyword.ofChars? q == none) = true := by decide
  refine exists_usingRow fun q hq => ?_
  have hone := List.all_eq_true.mp (List.all_eq_true.mp hall n h) q hq
  rw [Bool.and_eq_true, beq_iff_eq] at hone
  exact ⟨hone.1, hone.2⟩

/-! ### Test classes -/

/-- **The test class for a legible class is legible**, and has the name of the class with the
suffix. -/
theorem Source.Class.Legible.exists_fixture {f : Source.File} {c : Source.Class}
    (h : c.Legible f) :
    ∃ x, Fixture.ofClass f c = .ok x ∧ x.Legible ∧
      x.className = Naming.testClassName c.name.text := by
  obtain ⟨w, hw, hreceiver, hsetup, hfields, hbody⟩ := exists_wiring h
  obtain ⟨tests, htests, hlegible, hnodup, _⟩ := exists_tests h.methods h.receiver
  refine ⟨⟨Naming.testNamespace (Fixture.governing c f),
    mergeUsings (Fixture.governing c f) f.usings, Naming.testClassName c.name.text, w.fields,
    w.setup, tests, hnodup⟩, ?_, ?_, rfl⟩
  · rw [← hreceiver] at htests
    simp only [Fixture.ofClass, hw, bind, Except.bind, htests]
    exact dif_pos hnodup
  · refine ⟨h.name.legible_testClassName, h.namespaceName, hsetup, ?_, ?_, hbody, hlegible⟩
    · intro u hu
      rcases mem_addAll hu with hu | hu
      · cases hu
      · rcases List.mem_append.mp hu with hu | hu
        · rcases List.mem_append.mp hu with hu | hu
          · obtain ⟨n, hn, rfl⟩ := List.mem_map.mp hu
            exact h.ownUsing n (Option.mem_toList.mp hn)
          · obtain ⟨n, hn, rfl⟩ := List.mem_map.mp hu
            exact exists_defaultUsing hn
        · exact h.usings u hu
    · exact fun g hg => (hfields g hg).exists_row

end TestScaffold
