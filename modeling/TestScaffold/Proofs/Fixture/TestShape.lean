/-
  TestScaffold/Proofs/Fixture/TestShape.lean
  ==========================================
  **The shape of every test.**

  The body of a test declares a default for every parameter, calls the method once
  with all of them, and asserts something.  Its parts are put together one by one,
  each from the kind of the method's type and from whether the method is async;
  that they fit together is stated here of the whole body, in terms of the method
  alone (`Test.ofMethod_covers`).

  A method is silent if a test has nothing to compare: its type is void, or it is
  awaited and delivers a bare task.  Of a silent method the call stands alone and
  a failing assertion follows; of any other the two locals for the result have one
  type.
-/
import TestScaffold.Fixture.Layout
import TestScaffold.Proofs.Fixture.FanOut
import TestScaffold.Proofs.Fixture.Scope

namespace TestScaffold

open Source (Method Parameter)

/-! ### What a method delivers -/

namespace Source.Method

/-- A method whose result no test looks at. -/
def Silent (m : Method) : Prop :=
  m.returnType.kind = .void ∨ m.isAsync = true ∧ m.returnType.kind = .task

/-- The type of the result as text: what is wrapped where the method awaits a task of one result,
and what is declared elsewhere. -/
def resultText? (m : Method) : Option String :=
  if m.isAsync = true ∧ m.returnType.kind = .taskOf then m.returnType.wrapped
  else some m.returnType.typeName

/-- A call of the method is awaited. -/
def Awaited (m : Method) : Prop := m.isAsync = true ∧ m.returnType.kind ≠ .void

instance (m : Method) : Decidable m.Awaited := inferInstanceAs (Decidable (_ ∧ _))

theorem shape_hasResult_iff (m : Method) : m.shape.hasResult = true ↔ ¬ m.Silent := by
  rcases m with ⟨_, _, ⟨kind, _, _⟩, isAsync, _, _⟩
  cases kind <;> cases isAsync <;> simp [shape, Silent]

theorem shape_isAwaited_iff (m : Method) : m.shape.isAwaited = true ↔ m.Awaited := by
  rcases m with ⟨_, _, ⟨kind, _, _⟩, isAsync, _, _⟩
  cases kind <;> cases isAsync <;> simp [shape, Awaited]

theorem shape_resultType {m : Method} (h : ¬ m.Silent) : m.shape.resultType = m.resultText? := by
  rcases m with ⟨_, _, ⟨kind, _, _⟩, isAsync, _, _⟩
  cases kind <;> cases isAsync <;> simp_all [shape, resultText?, Silent]

/-- A method whose types have texts: those of its parameters, and that of the result if a test looks
at it. -/
structure HasTypes (m : Method) : Prop where
  parameters : ∀ p ∈ m.parameters, p.typeName ≠ ""
  result : ¬ m.Silent → ∃ typeName ∈ m.resultText?, typeName ≠ ""

theorem HasTypes.typed {m : Method} (h : m.HasTypes) : m.Typed := by
  refine ⟨h.parameters, ?_⟩
  intro hresult
  have hloud := m.shape_hasResult_iff.mp hresult
  rw [shape_resultType hloud]
  exact h.result hloud

end Source.Method

/-! ### Awaited values -/

mutual

/-- Whether a value is awaited somewhere in an expression. -/
def Expr.awaits : Expr → Bool
  | .identifier _ => false
  | .literal _ => false
  | .default _ => false
  | .member target _ => target.awaits
  | .call callee arguments => callee.awaits || awaitsAny arguments
  | .create _ arguments => awaitsAny arguments
  | .await _ => true
  | .assign target value => target.awaits || value.awaits

/-- Whether a value is awaited somewhere in some expressions. -/
def Expr.awaitsAny : List Expr → Bool
  | [] => false
  | e :: rest => e.awaits || awaitsAny rest

end

/-- Whether a value is awaited somewhere in a statement. -/
def Stmt.awaits : Stmt → Bool
  | .declare _ _ initializer => initializer.awaits
  | .evaluate expression => expression.awaits

theorem Expr.awaitsAny_identifier {α : Type} (f : α → Name) (as : List α) :
    awaitsAny (as.map fun a => .identifier (f a)) = false := by
  induction as with
  | nil => rfl
  | cons a as ih => rw [List.map_cons, awaitsAny, ih]; rfl

/-! ### Parts of a body -/

/-- The statement declares a local of a type, with the default of that type. -/
def Stmt.Defaults (typeName : String) (name : Name) (s : Stmt) : Prop :=
  ∃ type : TypeUse, type.name.text = typeName ∧ type.isMock = false ∧
    s = .declare type name (.default type)

/-- The statement calls an assertion. -/
def Stmt.Asserts (member : String) (arguments : List Expr) (s : Stmt) : Prop :=
  ∃ assert name : Name, assert.text = "Assert" ∧ name.text = member ∧
    s = .evaluate (.call (.member (.identifier assert) name) arguments)

namespace TestBody

/-- The call of a method on the receiver, with its parameters in order. -/
def call (receiver : Name) (m : Method) : Expr :=
  .call (.member (.identifier receiver) m.name) (m.parameters.map fun p => .identifier p.name)

/-- The call as a test performs it. -/
def performed (receiver : Name) (m : Method) : Expr :=
  if m.Awaited then .await (call receiver m) else call receiver m

/-- One assertion, which fails. -/
def Fails (asserted : List Stmt) : Prop :=
  ∃ s : Stmt, asserted = [s] ∧ s.Asserts "True" [.literal (.bool false), .literal (.text "error")]

/-- A local for the result wanted, and the assertion that it is the actual one. -/
def Compares (type : TypeUse) (asserted : List Stmt) : Prop :=
  ∃ s : Stmt, asserted = [.declare type expected (.default type), s] ∧
    s.Asserts "Equal" [.identifier expected, .identifier actual]

/-- The call and the assertion of a test fit the method: a silent one is called and fails, and of
any other the result is compared. -/
structure Checks (receiver : Name) (m : Method) (act : Stmt) (asserted : List Stmt) : Prop where
  silent : m.Silent ↔ act = .evaluate (performed receiver m) ∧ Fails asserted
  compared : ¬ m.Silent → ∃ type : TypeUse, m.resultText? = some type.name.text ∧
    type.isMock = false ∧ act = .declare type actual (performed receiver m) ∧
    Compares type asserted

variable {m : Method} {receiver : String}

theorem defaults_of_arrange {stmts : List Stmt} (h : arrange m = .ok stmts) :
    List.Forall₂ (fun p s => s.Defaults p.typeName p.name) m.parameters stmts := by
  apply (forall₂_of_mapM_eq_ok h).imp
  intro p s hs
  obtain ⟨type, htype, hs⟩ := exists_of_bind_eq_ok hs
  cases hs
  obtain ⟨htext, hplain⟩ := TypeUse.of_plain? htype
  exact ⟨type, htext, hplain, rfl⟩

theorem of_resultUse {type : TypeUse} (hloud : ¬ m.Silent) (h : resultUse m.shape = .ok type) :
    m.resultText? = some type.name.text ∧ type.isMock = false := by
  unfold resultUse at h
  rw [Method.shape_resultType hloud] at h
  split at h
  · rename_i typeName htypeName
    obtain ⟨htext, hplain⟩ := TypeUse.of_plain? h
    exact ⟨by rw [htypeName, htext], hplain⟩
  · cases h

/-- The call of a test: alone for a silent method, and with a local for the result of another. -/
theorem cases_of_act {acted : Stmt} (h : act receiver m = .ok acted) :
    ∃ f : Name, f.text = receiver ∧
      ((m.Silent ∧ acted = .evaluate (performed f m)) ∨
        ¬ m.Silent ∧ ∃ type, resultUse m.shape = .ok type ∧
          acted = .declare type actual (performed f m)) := by
  unfold act at h
  rcases hreceiver : Name.ofString? receiver with _ | f
  · rw [hreceiver] at h
    cases h
  · rw [hreceiver] at h
    refine ⟨f, Name.text_of_ofString? hreceiver, ?_⟩
    have hperformed : (if m.shape.isAwaited = true then Expr.await (call f m) else call f m) =
        performed f m := by
      simp only [performed, m.shape_isAwaited_iff]
    dsimp only at h
    change (if m.shape.hasResult = true then _ else _) = _ at h
    split at h
    · rename_i hresult
      right
      obtain ⟨type, htype, h⟩ := exists_of_bind_eq_ok h
      refine ⟨m.shape_hasResult_iff.mp hresult, type, htype, ?_⟩
      rw [← hperformed]
      cases h
      rfl
    · rename_i hresult
      left
      refine ⟨not_not.mp fun hloud => hresult (m.shape_hasResult_iff.mpr hloud), ?_⟩
      rw [← hperformed]
      cases h
      rfl

theorem cases_of_assertResult {asserted : List Stmt} (h : assertResult m = .ok asserted) :
    (m.Silent ∧ Fails asserted) ∨
      ¬ m.Silent ∧ ∃ type, resultUse m.shape = .ok type ∧ Compares type asserted := by
  unfold assertResult at h
  dsimp only at h
  split at h
  · rename_i hresult
    right
    obtain ⟨type, htype, h⟩ := exists_of_bind_eq_ok h
    cases h
    refine ⟨m.shape_hasResult_iff.mp hresult, type, htype, ?_⟩
    exact ⟨_, rfl, _, _, rfl, rfl, rfl⟩
  · rename_i hresult
    left
    cases h
    refine ⟨not_not.mp fun hloud => hresult (m.shape_hasResult_iff.mpr hloud), ?_⟩
    exact ⟨_, rfl, _, _, rfl, rfl, rfl⟩

/-- Call and assertion are made apart, and still have one type for the result. -/
theorem exists_checks {acted : Stmt} {asserted : List Stmt} (hact : act receiver m = .ok acted)
    (hasserted : assertResult m = .ok asserted) :
    ∃ f : Name, f.text = receiver ∧ Checks f m acted asserted := by
  obtain ⟨f, hf, hact⟩ := cases_of_act hact
  refine ⟨f, hf, ?_⟩
  rcases hact with ⟨hsilent, rfl⟩ | ⟨hloud, type, htype, rfl⟩
  · rcases cases_of_assertResult hasserted with ⟨_, hfails⟩ | ⟨hloud, _⟩
    · exact ⟨⟨fun _ => ⟨rfl, hfails⟩, fun _ => hsilent⟩, fun hloud => absurd hsilent hloud⟩
    · exact absurd hsilent hloud
  · rcases cases_of_assertResult hasserted with ⟨hsilent, _⟩ | ⟨_, type', htype', hcompares⟩
    · exact absurd hsilent hloud
    · rw [htype] at htype'
      cases htype'
      obtain ⟨htext, hplain⟩ := of_resultUse hloud htype
      refine ⟨⟨fun hsilent => absurd hsilent hloud, ?_⟩, ?_⟩
      · rintro ⟨hact, _⟩
        cases hact
      · exact fun _ => ⟨type, htext, hplain, rfl, hcompares⟩

/-! ### Where values are awaited -/

theorem awaits_performed (f : Name) (m : Method) : (performed f m).awaits = true ↔ m.Awaited := by
  have hcall : (call f m).awaits = false := by
    rw [call, Expr.awaits, Expr.awaitsAny_identifier]
    rfl
  unfold performed
  split
  · rename_i hawaited
    exact ⟨fun _ => hawaited, fun _ => rfl⟩
  · rename_i hnot
    rw [hcall]
    exact ⟨fun h => absurd h Bool.false_ne_true, fun h => absurd h hnot⟩

/-- Nothing is awaited but the call. -/
theorem exists_awaits_iff {f : Name} {arranged asserted : List Stmt} {acted : Stmt}
    (harranged : List.Forall₂ (fun (p : Parameter) s => Stmt.Defaults p.typeName p.name s)
      m.parameters arranged)
    (hchecks : Checks f m acted asserted) :
    (∃ s ∈ arranged ++ acted :: asserted, s.awaits = true) ↔ m.Awaited := by
  have harranged' : ∀ s ∈ arranged, s.awaits = false := by
    apply forall_of_forall₂ (P := fun s => s.awaits = false) harranged
    rintro p s ⟨type, _, _, rfl⟩
    rfl
  have hrest : (acted.awaits = true ↔ m.Awaited) ∧ ∀ s ∈ asserted, s.awaits = false := by
    by_cases hsilent : m.Silent
    · obtain ⟨rfl, s, rfl, _, _, _, _, rfl⟩ := hchecks.silent.mp hsilent
      exact ⟨awaits_performed f m, by simp [Stmt.awaits, Expr.awaits, Expr.awaitsAny]⟩
    · obtain ⟨type, _, _, rfl, s, rfl, _, _, _, _, rfl⟩ := hchecks.compared hsilent
      exact ⟨awaits_performed f m, by simp [Stmt.awaits, Expr.awaits, Expr.awaitsAny]⟩
  rw [← hrest.1]
  constructor
  · rintro ⟨s, hs, hawaits⟩
    rcases List.mem_append.mp hs with hs | hs
    · rw [harranged' s hs] at hawaits
      cases hawaits
    · rcases List.mem_cons.mp hs with rfl | hs
      · exact hawaits
      · rw [hrest.2 s hs] at hawaits
        cases hawaits
  · intro hawaits
    exact ⟨acted, List.mem_append_right _ List.mem_cons_self, hawaits⟩

end TestBody

/-! ### Whole tests -/

/-- A test of a method on a receiver: a default for each parameter in order, one call, and the
assertion. The call is awaited where the method can be awaited, and nothing else is; so a test that
is not async awaits nothing. -/
structure Test.Covers (t : Test) (receiver : Name) (m : Method) : Prop where
  isAsync : t.isAsync = m.isAsync
  body : ∃ arranged act asserted, t.body = arranged ++ act :: asserted ∧
    List.Forall₂ (fun p s => Stmt.Defaults p.typeName p.name s) m.parameters arranged ∧
    TestBody.Checks receiver m act asserted
  awaits : (∃ s ∈ t.body, s.awaits = true) ↔ t.isAsync = true ∧ m.returnType.kind ≠ .void

/-- **Every test has one shape.** There is a test exactly where the field under test and the test
have names and the types of the method have texts; and then the test covers the method. -/
theorem Test.ofMethod_covers (receiver testName : String) (m : Method) :
    ((∃ t, Test.ofMethod receiver m testName = .ok t) ↔
      receiver ≠ "" ∧ testName ≠ "" ∧ m.HasTypes) ∧
    ∀ t, Test.ofMethod receiver m testName = .ok t →
      t.name.text = testName ∧ ∃ f : Name, f.text = receiver ∧ t.Covers f m := by
  have hcovers : ∀ t, Test.ofMethod receiver m testName = .ok t →
      t.name.text = testName ∧ ∃ f : Name, f.text = receiver ∧ t.Covers f m := by
    intro t ht
    obtain ⟨arranged, act, asserted, harranged, hact, hasserted, hbody, hasync⟩ :=
      Test.of_ofMethod ht
    obtain ⟨f, hf, hchecks⟩ := TestBody.exists_checks hact hasserted
    have hdefaults := TestBody.defaults_of_arrange harranged
    refine ⟨name_of_ofMethod ht, f, hf, hasync, ?_, ?_⟩
    · exact ⟨arranged, act, asserted, hbody, hdefaults, hchecks⟩
    rw [hbody, hasync]
    exact TestBody.exists_awaits_iff hdefaults hchecks
  refine ⟨?_, hcovers⟩
  constructor
  · rintro ⟨t, ht⟩
    obtain ⟨hname, f, hf, hcover⟩ := hcovers t ht
    obtain ⟨arranged, act, asserted, _, hdefaults, hchecks⟩ := hcover.body
    refine ⟨hf ▸ f.nonempty, hname ▸ t.name.nonempty, ?_, ?_⟩
    · intro p hp
      obtain ⟨i, hi⟩ := List.mem_iff_getElem?.mp hp
      obtain ⟨s, _, type, htype, _⟩ := exists_getElem?_of_forall₂ hdefaults hi
      exact htype ▸ type.name.nonempty
    · intro hloud
      obtain ⟨type, htext, _⟩ := hchecks.compared hloud
      exact ⟨type.name.text, htext, type.name.nonempty⟩
  · rintro ⟨hreceiver, hname, htypes⟩
    exact Test.exists_ofMethod htypes.typed ⟨receiver, hreceiver⟩ ⟨testName, hname⟩

example : (do
      let t ← (Test.ofMethod "_orders" {
        name := ⟨"FindAsync", by decide⟩
        parameters := [⟨⟨"@event", by decide⟩, "Guid"⟩]
        returnType := ⟨.taskOf, "Task<Order>", some "Order"⟩
        isAsync := true } "FindAsyncTest").toOption
      (t.body.mapM Layout.stmtText).toOption) =
    some ["Guid @event = default(Guid);",
      "Order actual = await _orders.FindAsync(@event);",
      "Order expected = default(Order);",
      "Assert.Equal(expected, actual);"] := by
  decide +kernel

end TestScaffold
