/-
  TestScaffold/Proofs/Fixture/Scope.lean
  ======================================
  **What the names in the body of a test stand for.**

  A body declares a local for every parameter of the method under test, and two
  more where the method has a result.  Whatever a statement uses has been declared
  before it.  The names of the parameters are those of the source, though, and the
  others are fixed: so a parameter may take a name that is needed for something
  else (`Test.wellScoped_iff`).
-/
import TestScaffold.Proofs.Fixture.Parts

namespace TestScaffold

open Source (Method Parameter)

/-! ### Names in statements -/

mutual

/-- The identifiers that an expression uses. What stands behind a point is looked up in what stands
    before it, and is none of them. -/
def Expr.identifiers : Expr → List Name
  | .identifier name => [name]
  | .literal _ => []
  | .default _ => []
  | .member target _ => target.identifiers
  | .call callee arguments => callee.identifiers ++ identifiersOfAll arguments
  | .create _ arguments => identifiersOfAll arguments
  | .await operand => operand.identifiers
  | .assign target value => target.identifiers ++ value.identifiers

/-- The identifiers that some expressions use. -/
def Expr.identifiersOfAll : List Expr → List Name
  | [] => []
  | e :: rest => e.identifiers ++ identifiersOfAll rest

end

/-- The identifiers that a statement uses. -/
def Stmt.identifiers : Stmt → List Name
  | .declare _ _ initializer => initializer.identifiers
  | .evaluate expression => expression.identifiers

/-- The local that a statement declares. -/
def Stmt.local? : Stmt → Option Name
  | .declare _ name _ => some name
  | .evaluate _ => none

theorem Expr.identifiersOfAll_identifier {α : Type} (f : α → Name) (as : List α) :
    identifiersOfAll (as.map fun a => .identifier (f a)) = as.map f := by
  induction as with
  | nil => rfl
  | cons a as ih => rw [List.map_cons, identifiersOfAll, ih]; rfl

namespace TestBody

/-- The locals that statements declare, in order. -/
def locals (body : List Stmt) : List Name := body.filterMap Stmt.local?

/-- Whether every statement uses only names from around the body and locals that were declared
    before it. -/
def Scoped (scope : List Name) : List Stmt → Prop
  | [] => True
  | s :: rest => (∀ n ∈ s.identifiers, n ∈ scope) ∧ Scoped (scope ++ s.local?.toList) rest

/-- What a test body has to satisfy for its names to stand for what they are meant to. -/
structure WellScoped (receiver : Name) (body : List Stmt) : Prop where
  distinct : ((locals body).map fun n => Naming.bare n.text).Nodup
  /-- No local hides the field under test or the class of assertions. -/
  visible : ∀ n ∈ locals body, Naming.bare n.text ≠ receiver.text ∧ Naming.bare n.text ≠ "Assert"
  declared : Scoped [receiver, ⟨"Assert", by decide⟩] body

theorem locals_cons (s : Stmt) (rest : List Stmt) :
    locals (s :: rest) = s.local?.toList ++ locals rest := by
  cases hs : s.local? <;> simp [locals, hs]

theorem locals_append (first second : List Stmt) :
    locals (first ++ second) = locals first ++ locals second :=
  List.filterMap_append

/-- Statements one after the other: the later ones may use the locals of the earlier. -/
theorem scoped_append_iff {scope : List Name} {first second : List Stmt} :
    Scoped scope (first ++ second) ↔
      Scoped scope first ∧ Scoped (scope ++ locals first) second := by
  induction first generalizing scope with
  | nil => simp [Scoped, locals]
  | cons s rest ih =>
    rw [List.cons_append, Scoped, ih, Scoped, locals_cons, List.append_assoc, and_assoc]

/-! ### Parts of a body -/

/-- The part that stands for parameters declares them and uses nothing. -/
theorem of_arrange {m : Method} {body : List Stmt} (h : arrange m = .ok body) :
    locals body = m.parameters.map (·.name) ∧ ∀ scope, Scoped scope body := by
  unfold arrange at h
  have hall := forall₂_of_mapM_eq_ok h
  clear h
  generalize m.parameters = ps at hall ⊢
  induction hall with
  | nil => exact ⟨rfl, fun _ => trivial⟩
  | cons hs _ ih =>
    obtain ⟨type, _, hs⟩ := exists_of_bind_eq_ok hs
    cases hs
    obtain ⟨hlocals, hscoped⟩ := ih
    refine ⟨congrArg (_ :: ·) hlocals, ?_⟩
    intro scope
    refine ⟨?_, hscoped _⟩
    intro n hn
    cases hn

/-- The call uses the receiver and the parameters. -/
theorem of_act {receiver : Name} {m : Method} {s : Stmt} (h : act receiver m = .ok s) :
    s.local? = (if m.shape.hasResult then some actual else none) ∧
      s.identifiers = receiver :: m.parameters.map (·.name) := by
  have hreceiver : Name.ofString? receiver.text = some receiver := by
    rw [Name.ofString?, dif_neg receiver.nonempty]
  have hcall : (Expr.call (.member (.identifier receiver) m.name)
      (m.parameters.map fun p => .identifier p.name)).identifiers =
        receiver :: m.parameters.map (·.name) := by
    rw [Expr.identifiers, Expr.identifiersOfAll_identifier]
    rfl
  have hawaited (e : Expr) :
      (if m.shape.isAwaited then Expr.await e else e).identifiers = e.identifiers := by
    split
    · rw [Expr.identifiers]
    · rfl
  unfold act at h
  simp only [hreceiver] at h
  split at h
  · rename_i hresult
    obtain ⟨type, _, h⟩ := exists_of_bind_eq_ok h
    cases h
    exact ⟨(if_pos hresult).symm, (hawaited _).trans hcall⟩
  · rename_i hresult
    cases h
    exact ⟨(if_neg hresult).symm, (hawaited _).trans hcall⟩

/-- The assertion declares the result wanted and compares it, if there is a result. -/
theorem of_assertResult {m : Method} {body : List Stmt} (h : assertResult m = .ok body) :
    locals body = (if m.shape.hasResult then [expected] else []) ∧
      ∀ scope, ⟨"Assert", by decide⟩ ∈ scope → (m.shape.hasResult → actual ∈ scope) →
        Scoped scope body := by
  unfold assertResult at h
  dsimp only at h
  split at h
  · rename_i hresult
    obtain ⟨type, _, h⟩ := exists_of_bind_eq_ok h
    cases h
    refine ⟨(if_pos hresult).symm, ?_⟩
    intro scope hassert hactual
    have hactual := hactual hresult
    simp [Scoped, Stmt.identifiers, Stmt.local?, assertion, Expr.identifiers,
      Expr.identifiersOfAll, hassert, hactual]
  · rename_i hresult
    cases h
    refine ⟨(if_neg hresult).symm, ?_⟩
    intro scope hassert _
    simp [Scoped, Stmt.identifiers, assertion, Expr.identifiers, Expr.identifiersOfAll, hassert]

end TestBody

/-! ### Whole bodies -/

theorem Test.of_ofMethod {receiver testName : String} {m : Method} {t : Test}
    (h : Test.ofMethod receiver m testName = .ok t) :
    ∃ arranged call asserted, TestBody.arrange m = .ok arranged ∧
      TestBody.act receiver m = .ok call ∧ TestBody.assertResult m = .ok asserted ∧
      t.body = arranged ++ call :: asserted ∧ t.isAsync = m.isAsync := by
  unfold Test.ofMethod at h
  obtain ⟨arranged, harranged, h⟩ := exists_of_bind_eq_ok h
  obtain ⟨call, hcall, h⟩ := exists_of_bind_eq_ok h
  obtain ⟨asserted, hasserted, h⟩ := exists_of_bind_eq_ok h
  refine ⟨arranged, call, asserted, harranged, hcall, hasserted, ?_⟩
  cases hname : Name.ofString? testName with
  | none =>
    rw [hname] at h
    cases h
  | some name =>
    rw [hname] at h
    cases h
    exact ⟨rfl, rfl⟩

/-- The locals that a test has for the result of its method. -/
def TestBody.resultLocals (m : Method) : List Name :=
  if m.shape.hasResult then [actual, expected] else []

/-- The locals are those of the parameters and those for the result, and every name is declared
    before it is used. -/
theorem Test.body_of_ofMethod {receiver : Name} {testName : String} {m : Method} {t : Test}
    (h : Test.ofMethod receiver m testName = .ok t) :
    TestBody.locals t.body = m.parameters.map (·.name) ++ TestBody.resultLocals m ∧
      TestBody.Scoped [receiver, ⟨"Assert", by decide⟩] t.body := by
  obtain ⟨arranged, call, asserted, harranged, hcall, hasserted, hbody, _⟩ :=
    Test.of_ofMethod h
  obtain ⟨hparameters, hfirst⟩ := TestBody.of_arrange harranged
  obtain ⟨hresult, hused⟩ := TestBody.of_act hcall
  obtain ⟨hwanted, hlast⟩ := TestBody.of_assertResult hasserted
  rw [hbody, TestBody.locals_append, TestBody.scoped_append_iff, hparameters]
  refine ⟨?_, hfirst _, ?_, ?_⟩
  · congr 1
    rw [TestBody.locals_cons, hresult, hwanted, TestBody.resultLocals]
    by_cases hshape : m.shape.hasResult <;> simp [hshape]
  · intro n hn
    rw [hused, List.mem_cons] at hn
    rcases hn with rfl | hn
    · exact List.mem_append_left _ List.mem_cons_self
    · exact List.mem_append_right _ hn
  · apply hlast
    · simp
    · intro hshape
      rw [hresult, if_pos hshape]
      simp

/-- The name of the field under test begins with an underscore. -/
theorem Source.Class.receiver_ne (c : Source.Class) {s : String}
    (h : s.toList.head? ≠ some '_') : s ≠ c.receiver.text := by
  rintro rfl
  exact h (by simp [receiver, Naming.receiverName])

theorem TestBody.mem_resultLocals_iff {m : Method} {n : Name} :
    n ∈ resultLocals m ↔ m.shape.hasResult = true ∧ (n = actual ∨ n = expected) := by
  unfold resultLocals
  split <;> simp [*]

/-- The locals for the result have no at sign in front, and names of their own. -/
theorem TestBody.of_mem_resultLocals {m : Method} {n : Name} (h : n ∈ resultLocals m)
    (c : Source.Class) :
    Naming.bare n.text = n.text ∧ n.text ≠ c.receiver.text ∧ n.text ≠ "Assert" := by
  rcases (mem_resultLocals_iff.mp h).2 with rfl | rfl
  · exact ⟨by decide, c.receiver_ne (by decide), by decide⟩
  · exact ⟨by decide, c.receiver_ne (by decide), by decide⟩

/-- **Every name in the body of a test is declared before it is used; and the names stand for what
    they are meant to if and only if** no parameter is named as the field under test, as the class
    of assertions, or as a local for the result. -/
theorem Test.wellScoped_iff {c : Source.Class} {m : Method} {testName : String} {t : Test}
    (hparameters : (m.parameters.map fun p => Naming.bare p.name.text).Nodup)
    (ht : Test.ofMethod c.receiver m testName = .ok t) :
    TestBody.Scoped [c.receiver, ⟨"Assert", by decide⟩] t.body ∧
      (TestBody.WellScoped c.receiver t.body ↔
        ∀ p ∈ m.parameters, Naming.bare p.name.text ≠ c.receiver.text ∧
          Naming.bare p.name.text ≠ "Assert" ∧
          ∀ n ∈ TestBody.resultLocals m, Naming.bare p.name.text ≠ n.text) := by
  obtain ⟨hlocals, hdeclared⟩ := Test.body_of_ofMethod ht
  have hnodup : ((TestBody.resultLocals m).map fun n => Naming.bare n.text).Nodup := by
    unfold TestBody.resultLocals
    split <;> decide
  refine ⟨hdeclared, ?_⟩
  constructor
  · intro hwell p hp
    have hp' : p.name ∈ TestBody.locals t.body := by
      rw [hlocals]
      exact List.mem_append_left _ (List.mem_map_of_mem hp)
    refine ⟨(hwell.visible _ hp').1, (hwell.visible _ hp').2, ?_⟩
    intro n hn hsame
    have hdistinct := hwell.distinct
    rw [hlocals, List.map_append, List.nodup_append] at hdistinct
    have hparameter := List.mem_map_of_mem (f := fun n => Naming.bare n.text)
      (List.mem_map_of_mem (f := (·.name)) hp)
    refine hdistinct.2.2 _ hparameter _ (List.mem_map_of_mem hn) ?_
    exact hsame.trans (TestBody.of_mem_resultLocals hn c).1.symm
  · intro hfree
    refine ⟨?_, ?_, hdeclared⟩
    · rw [hlocals, List.map_append, List.nodup_append, List.map_map]
      refine ⟨hparameters, hnodup, ?_⟩
      intro a ha b hb hsame
      obtain ⟨p, hp, rfl⟩ := List.mem_map.mp ha
      obtain ⟨n, hn, rfl⟩ := List.mem_map.mp hb
      exact (hfree p hp).2.2 n hn (hsame.trans (TestBody.of_mem_resultLocals hn c).1)
    · intro n hn
      rw [hlocals, List.mem_append] at hn
      rcases hn with hn | hn
      · obtain ⟨p, hp, rfl⟩ := List.mem_map.mp hn
        exact ⟨(hfree p hp).1, (hfree p hp).2.1⟩
      · obtain ⟨hbare, hvisible⟩ := TestBody.of_mem_resultLocals hn c
        rwa [hbare]

/-- A class whose method is tested. -/
def calculator : Source.Class where
  name := ⟨"Calculator", by decide⟩

/-- A method with two parameters and a result. -/
def scaleMethod : Method where
  name := ⟨"Scale", by decide⟩
  parameters := [⟨⟨"@base", by decide⟩, "int"⟩, ⟨⟨"factor", by decide⟩, "int"⟩]
  returnType := ⟨.value, "int", none⟩
  access := .publicAccess

theorem wellScoped_scaleMethod :
    ∃ t, Test.ofMethod calculator.receiver scaleMethod "ScaleTest0" = .ok t ∧
      TestBody.WellScoped calculator.receiver t.body := by
  obtain ⟨t, ht⟩ : ∃ t, Test.ofMethod calculator.receiver scaleMethod "ScaleTest0" = .ok t :=
    ⟨_, rfl⟩
  exact ⟨t, ht, (Test.wellScoped_iff (by decide +kernel) ht).2.mpr (by decide +kernel)⟩

/-- A method with a parameter that is named as the local for the result wanted. -/
def matchesMethod : Method where
  name := ⟨"Matches", by decide⟩
  parameters := [⟨TestBody.expected, "int"⟩]
  returnType := ⟨.value, "bool", none⟩
  access := .publicAccess

/-- Its test declares one local twice. -/
theorem repeated_locals_matchesMethod :
    matchesMethod.isTestable = true ∧
      (matchesMethod.parameters.map fun p => Naming.bare p.name.text).Nodup ∧
      ∃ t, Test.ofMethod calculator.receiver matchesMethod "MatchesTest0" = .ok t ∧
        ¬ TestBody.WellScoped calculator.receiver t.body := by
  refine ⟨rfl, by decide +kernel, _, rfl, ?_⟩
  intro hwell
  have hdistinct := hwell.distinct
  revert hdistinct
  decide +kernel

end TestScaffold
