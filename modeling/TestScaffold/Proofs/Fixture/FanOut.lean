/-
  TestScaffold/Proofs/Fixture/FanOut.lean
  =======================================
  **Every class of a file has its test class.**

  A test class takes over the types of a class, and an empty type is all that can
  keep it from being put together.  Where no type is empty there is one test class
  for each class, in order, and in it one test for each testable method, in order
  (`Fixture.ofFile_fansOut`).  The number in the name of a test is the number of
  testable methods of that name before it, even where a method is itself named
  like a test; so the check that no two tests have one name always passes.
-/
import TestScaffold.Proofs.Fixture.Members
import TestScaffold.Proofs.Fixture.Numbering
import TestScaffold.Proofs.Fixture.Synthesis

namespace TestScaffold

open Source (File Method Parameter)

/-! ### Numbers of tests -/

/-- The name of the test for the method at a place among the testable ones. -/
theorem Source.Class.getElem?_testNames (c : Source.Class) {i : Nat} {m : Method}
    (h : c.testable[i]? = some m) : c.testNames[i]? =
      some (Naming.candidate m.name.text
        ((c.testable.take i).countP fun earlier => earlier.name = m.name)) := by
  have hsame : ∀ earlier : Method,
      (earlier.name.text == m.name.text) = decide (earlier.name = m.name) := by
    intro earlier
    rw [beq_eq_decide, decide_eq_decide]
    exact ⟨fun heq => Name.text_injective heq, fun heq => by rw [heq]⟩
  have hcount : ((c.testable.take i).map fun m => m.name.text).count m.name.text =
      (c.testable.take i).countP fun earlier => earlier.name = m.name := by
    rw [List.count_eq_countP, List.countP_map]
    simp only [Function.comp_def, hsame]
  rw [testNames, Naming.getElem?_resolveAll Naming.numbered_nil, List.getElem?_map, h,
    List.nil_append, ← List.map_take, Option.map_some, Option.map_some, hcount]

/-! ### Types that are not empty -/

/-- A method whose types have a text: those of its parameters, and that of its result if there is
one. -/
structure Source.Method.Typed (m : Method) : Prop where
  parameters : ∀ p ∈ m.parameters, p.typeName ≠ ""
  result : m.shape.hasResult = true →
    ∃ typeName ∈ m.shape.resultType, typeName ≠ ""

/-- A class whose types have a text. -/
structure Source.Class.Typed (c : Source.Class) : Prop where
  constructors : ∀ k ∈ c.constructors, ∀ p ∈ k.parameters, p.typeName ≠ ""
  methods : ∀ m ∈ c.methods, m.Typed

/-- A file whose types have a text. -/
def Source.File.Typed (f : File) : Prop := ∀ c ∈ f.classes, c.Typed

theorem Name.exists_ofString? {s : String} (h : s ≠ "") : ∃ n, Name.ofString? s = some n :=
  ⟨⟨s, h⟩, dif_neg h⟩

theorem TypeUse.plain?_of_ne_empty {s : String} (h : s ≠ "") : ∃ t, TypeUse.plain? s = .ok t := by
  obtain ⟨n, hn⟩ := Name.exists_ofString? h
  exact ⟨⟨n, false⟩, by rw [TypeUse.plain?, hn]⟩

theorem TypeUse.mock?_of_ne_empty {s : String} (h : s ≠ "") : ∃ t, TypeUse.mock? s = .ok t := by
  obtain ⟨n, hn⟩ := Name.exists_ofString? h
  exact ⟨⟨n, true⟩, by rw [TypeUse.mock?, hn]⟩

theorem TypeUse.of_plain? {s : String} {t : TypeUse} (h : plain? s = .ok t) :
    t.name.text = s ∧ t.isMock = false := by
  unfold plain? at h
  split at h
  · rename_i n hn
    cases h
    exact ⟨Name.text_of_ofString? hn, rfl⟩
  · cases h

theorem TypeUse.of_mock? {s : String} {t : TypeUse} (h : mock? s = .ok t) :
    t.name.text = s ∧ t.isMock = true := by
  unfold mock? at h
  split at h
  · rename_i n hn
    cases h
    exact ⟨Name.text_of_ofString? hn, rfl⟩
  · cases h

/-! ### Parts that are put together -/

theorem Wiring.exists_dependency_of_ne_empty {p : Parameter} (h : p.typeName ≠ "") :
    ∃ d, dependency p = .ok d := by
  unfold dependency
  split
  · obtain ⟨t, ht⟩ := TypeUse.mock?_of_ne_empty h
    exact ⟨_, by rw [ht]; rfl⟩
  · obtain ⟨t, ht⟩ := TypeUse.plain?_of_ne_empty h
    exact ⟨_, by rw [ht]; rfl⟩

/-- A class has its wiring if the dependencies have types. -/
theorem Wiring.exists_ofClass {c : Source.Class} (h : ∀ p ∈ c.dependencies, p.typeName ≠ "")
    (suffix : String) : ∃ w, ofClass c suffix = .ok w := by
  obtain ⟨ds, hds⟩ := exists_mapM_eq_ok fun p hp => exists_dependency_of_ne_empty (h p hp)
  unfold Source.Class.dependencies at hds
  exact ⟨_, by simp only [ofClass, hds]; rfl⟩

/-- The constructor of the wiring has the name of the class with the suffix. -/
theorem Wiring.setupName_of_ofClass {c : Source.Class} {suffix : String} {w : Wiring}
    (h : ofClass c suffix = .ok w) : w.setup.name = c.name.append suffix := by
  unfold ofClass at h
  obtain ⟨ds, _, h⟩ := exists_of_bind_eq_ok h
  cases h
  rfl

theorem TestBody.exists_resultUse_of_typed {m : Method} (h : m.Typed)
    (hresult : m.shape.hasResult = true) : ∃ t, resultUse m.shape = .ok t := by
  obtain ⟨typeName, htype, hne⟩ := h.result hresult
  rw [resultUse, Option.mem_def.mp htype]
  exact TypeUse.plain?_of_ne_empty hne

/-- A method has its locals if its parameters have types. -/
theorem TestBody.exists_arrange {m : Method} (h : ∀ p ∈ m.parameters, p.typeName ≠ "") :
    ∃ stmts, arrange m = .ok stmts := by
  refine exists_mapM_eq_ok fun p hp => ?_
  obtain ⟨t, ht⟩ := TypeUse.plain?_of_ne_empty (h p hp)
  exact ⟨_, by rw [ht]; rfl⟩

/-- A method has its test if its types have texts. -/
theorem Test.exists_ofMethod {m : Method} (h : m.Typed) (receiver testName : Name) :
    ∃ t, Test.ofMethod receiver.text m testName.text = .ok t := by
  obtain ⟨arranged, harranged⟩ := TestBody.exists_arrange h.parameters
  obtain ⟨call, hcall⟩ : ∃ s, TestBody.act receiver.text m = .ok s := by
    unfold TestBody.act
    rw [receiver.ofString?_text]
    by_cases hresult : m.shape.hasResult = true
    · obtain ⟨t, ht⟩ := TestBody.exists_resultUse_of_typed h hresult
      exact ⟨_, by simp only [hresult, ht, if_true]; rfl⟩
    · exact ⟨_, by simp only [hresult]; rfl⟩
  obtain ⟨asserted, hasserted⟩ : ∃ stmts, TestBody.assertResult m = .ok stmts := by
    unfold TestBody.assertResult
    by_cases hresult : m.shape.hasResult = true
    · obtain ⟨t, ht⟩ := TestBody.exists_resultUse_of_typed h hresult
      exact ⟨_, by simp only [hresult, ht, if_true]; rfl⟩
    · exact ⟨_, by simp only [hresult]; rfl⟩
  exact ⟨_, by simp only [Test.ofMethod, harranged, hcall, hasserted, testName.ofString?_text]; rfl⟩

theorem Fixture.exists_testsOf {c : Source.Class} (h : ∀ m ∈ c.testable, m.Typed)
    (receiver : Name) : ∃ tests, testsOf receiver c.methods = .ok tests := by
  refine exists_mapM_eq_ok fun p hp => ?_
  exact Test.exists_ofMethod (h p.1 (List.of_mem_zip hp).1) receiver p.2

/-! ### The check of test names -/

/-- **The tests of a class pass the check of their names.** -/
theorem Fixture.nodup_of_testsOf {c : Source.Class} {receiver : Name} {tests : List Test}
    (h : testsOf receiver c.methods = .ok tests) : (tests.map fun t => t.name.text).Nodup := by
  have hnames : (c.testNames.map Name.text).Nodup :=
    (Naming.nodup_resolveAll [] _).1.map Name.text_injective
  have hmade : tests.map (·.name) = c.testNames :=
    Source.Class.names_of_tests (forall₂_of_mapM_eq_ok h)
  rw [← hmade, List.map_map] at hnames
  exact hnames

theorem Fixture.checked_of_nodup {namespaceName className : Name} {usings : List Source.Using}
    {fields : List Field} {setup : Setup} {tests : List Test}
    (h : (tests.map fun t => t.name.text).Nodup) :
    checked namespaceName className usings fields setup tests =
      .ok { namespaceName, usings, className, fields, setup, tests, distinct := h } := by
  rw [checked, dif_pos h]

/-! ### Errors of the parts

No part of a test class is refused for its test names; only the check at the end could do it. -/

theorem TypeUse.plain?_ne_repeated (s : String) : plain? s ≠ .error .repeatedTestNames := by
  unfold plain?
  split <;> exact fun h => by cases h

theorem TypeUse.mock?_ne_repeated (s : String) : mock? s ≠ .error .repeatedTestNames := by
  unfold mock?
  split <;> exact fun h => by cases h

theorem Wiring.ofClass_ne_repeated (c : Source.Class) (suffix : String) :
    ofClass c suffix ≠ .error .repeatedTestNames := by
  refine bind_ne_error (mapM_ne_error fun p _ => ?_) fun ds _ h => by cases h
  unfold dependency
  split
  · exact bind_ne_error (TypeUse.mock?_ne_repeated _) fun _ _ h => by cases h
  · exact bind_ne_error (TypeUse.plain?_ne_repeated _) fun _ _ h => by cases h

theorem TestBody.resultUse_ne_repeated (shape : MethodShape) :
    resultUse shape ≠ .error .repeatedTestNames := by
  unfold resultUse
  split
  · exact TypeUse.plain?_ne_repeated _
  · exact fun h => by cases h

theorem Test.ofMethod_ne_repeated (receiver : String) (m : Method) (testName : String) :
    ofMethod receiver m testName ≠ .error .repeatedTestNames := by
  refine bind_ne_error (mapM_ne_error fun p _ => ?_) fun arranged _ =>
    bind_ne_error ?_ fun call _ => bind_ne_error ?_ fun asserted _ => ?_
  · exact bind_ne_error (TypeUse.plain?_ne_repeated _) fun _ _ h => by cases h
  · unfold TestBody.act
    split
    · dsimp only
      split
      · exact bind_ne_error (TestBody.resultUse_ne_repeated _) fun _ _ h => by cases h
      · exact fun h => by cases h
    · exact fun h => by cases h
  · unfold TestBody.assertResult
    dsimp only
    split
    · exact bind_ne_error (TestBody.resultUse_ne_repeated _) fun _ _ h => by cases h
    · exact fun h => by cases h
  · split <;> exact fun h => by cases h

/-- **No test class is refused for the names of its tests.** -/
theorem Fixture.ofClass_ne_repeated (f : File) (c : Source.Class) (suffix : String) :
    ofClass f c suffix ≠ .error .repeatedTestNames := by
  refine bind_ne_error (Wiring.ofClass_ne_repeated c suffix) fun wiring _ =>
    bind_ne_error (mapM_ne_error fun p _ => Test.ofMethod_ne_repeated _ _ _) fun tests htests => ?_
  rw [checked_of_nodup (nodup_of_testsOf htests)]
  exact fun h => by cases h

/-! ### The test class for a class -/

/-- The namespace of a class: its own, or else that of the file. An empty one is none. -/
def Source.Class.declaredIn (c : Source.Class) (f : File) : Option String :=
  (c.inNamespace?.filter (· ≠ "")).or (f.inNamespace?.filter (· ≠ ""))

theorem Fixture.text_testNamespace_governing (f : File) (c : Source.Class) :
    (Naming.testNamespace (governing c f)).text =
      (c.declaredIn f).elim "Tests" (· ++ ".Tests") := by
  have happend : ∀ ns : String, ns ++ "." ++ "Tests" = ns ++ ".Tests" := by
    intro ns
    rw [String.append_assoc]
    rfl
  unfold governing Naming.testNamespace Source.Class.declaredIn Naming.testsSuffix
  cases c.inNamespace? <;> cases f.inNamespace? <;> grind

/-- What the test class for a class of a file is: its names, and a test for every testable method.
The number in the name of a test is the number of testable methods of that name before it. -/
structure Fixture.IsFor (f : File) (c : Source.Class) (x : Fixture) : Prop where
  className : x.className.text = c.name.text ++ "Tests"
  setupName : x.setup.name = x.className
  namespaceName : x.namespaceName.text = (c.declaredIn f).elim "Tests" (· ++ ".Tests")
  length_tests : x.tests.length = c.testable.length
  tests : ∀ i m, c.testable[i]? = some m → ∃ t, x.tests[i]? = some t ∧
    Test.ofMethod c.receiver m t.name = .ok t ∧
    t.name.text = m.name.text ++ "Test" ++
      toString ((c.testable.take i).countP fun earlier => earlier.name = m.name)

/-- A class whose types have texts has its test class. -/
theorem Fixture.exists_ofClass {c : Source.Class} (h : c.Typed) (f : File) :
    ∃ x, ofClass f c = .ok x := by
  have hdependencies : ∀ p ∈ c.dependencies, p.typeName ≠ "" := by
    intro p hp
    unfold Source.Class.dependencies at hp
    cases hlargest : Source.Constructor.largest? c.constructors with
    | none =>
      rw [hlargest] at hp
      exact absurd hp List.not_mem_nil
    | some k =>
      rw [hlargest] at hp
      exact h.constructors k (Source.Constructor.mem_of_largest? hlargest) p hp
  obtain ⟨wiring, hwiring⟩ := Wiring.exists_ofClass hdependencies Naming.testsSuffix
  obtain ⟨tests, htests⟩ := exists_testsOf
    (fun m hm => h.methods m (List.mem_of_mem_filter hm)) wiring.receiver
  have hchecked : ofClass f c = checked (Naming.testNamespace (governing c f))
      (Naming.testClassName c.name) (mergeUsings (governing c f) f.usings) wiring.fields
      wiring.setup tests := by
    simp only [ofClass, hwiring, htests, bind, Except.bind]
  rw [checked_of_nodup (nodup_of_testsOf htests)] at hchecked
  exact ⟨_, hchecked⟩

theorem Fixture.isFor_of_ofClass {f : File} {c : Source.Class} {x : Fixture}
    (h : ofClass f c = .ok x) : x.IsFor f c := by
  have hmade := madeOf_of_ofClass h
  unfold ofClass at h
  obtain ⟨wiring, hwiring, h⟩ := exists_of_bind_eq_ok h
  obtain ⟨tests, htests, h⟩ := exists_of_bind_eq_ok h
  rw [checked_of_nodup (nodup_of_testsOf htests)] at h
  cases h
  refine ⟨rfl, Wiring.setupName_of_ofClass hwiring, text_testNamespace_governing f c, ?_, ?_⟩
  · rw [← hmade.tests.length_eq, List.length_zip, c.length_testNames, Nat.min_self]
  · intro i m hm
    have hname := c.getElem?_testNames hm
    have hpair : (c.testable.zip c.testNames)[i]? = some (m, _) :=
      List.getElem?_zip_eq_some.mpr ⟨hm, hname⟩
    obtain ⟨t, ht, hmethod⟩ := exists_getElem?_of_forall₂ hmade.tests hpair
    have htext := Test.name_of_ofMethod hmethod
    exact ⟨t, ht, by rw [htext]; exact hmethod, htext⟩

/-! ### The test classes for a file -/

/-- **Every class of a file has its test class.** The check that no two tests of a class have one
name never fails. Where the types of the file have texts, there is one test class for each class,
in order. -/
theorem Fixture.ofFile_fansOut (f : File) :
    ofFile f ≠ .error .repeatedTestNames ∧
      (f.Typed → ∃ xs, ofFile f = .ok xs ∧ List.Forall₂ (fun c x => x.IsFor f c) f.classes xs) := by
  refine ⟨mapM_ne_error fun c _ => ofClass_ne_repeated f c _, fun htyped => ?_⟩
  obtain ⟨xs, hxs⟩ := exists_mapM_eq_ok (f := fun c => ofClass f c) fun c hc =>
    exists_ofClass (htyped c hc) f
  exact ⟨xs, hxs, (forall₂_of_mapM_eq_ok hxs).imp fun c x => isFor_of_ofClass⟩

/-- A desk with overloads, a method named like their tests, and methods that get no test, beside a
class with a namespace of its own. -/
def orderDesk : File :=
  let plain : Source.ReturnType := ⟨.void, "void", none⟩
  let number : Parameter := ⟨⟨"number", by decide⟩, "Guid"⟩
  let order : Parameter := ⟨⟨"order", by decide⟩, "Order"⟩
  { inNamespace? := some "Shop"
    classes := [
      { name := ⟨"Desk", by decide⟩
        inNamespace? := some ""
        constructors := [{ parameters := [⟨⟨"store", by decide⟩, "IStore"⟩] }]
        methods := [
          { name := ⟨"Close", by decide⟩, parameters := [number], returnType := plain,
            access := .publicAccess },
          { name := ⟨"Audit", by decide⟩, returnType := plain },
          { name := ⟨"CloseTest", by decide⟩, returnType := plain, access := .publicAccess },
          { name := ⟨"Close", by decide⟩, parameters := [order],
            returnType := ⟨.taskOf, "Task<bool>", some "bool"⟩, isAsync := true,
            access := .publicAccess },
          { name := ⟨"Open", by decide⟩, returnType := ⟨.value, "Desk", none⟩,
            access := .publicAccess, isStatic := true }] },
      { name := ⟨"Order", by decide⟩, inNamespace? := some "Shop.Model" }] }

/-- The test classes of the desk. -/
theorem Fixture.fansOut_orderDesk : orderDesk.Typed ∧ ∃ xs, ofFile orderDesk = .ok xs ∧
    List.Forall₂ (fun c x => x.IsFor orderDesk c) orderDesk.classes xs ∧
    xs.map (fun x => (x.namespaceName.text, x.tests.map (·.name.text))) =
      [("Shop.Tests", ["CloseTest0", "CloseTestTest0", "CloseTest1"]),
        ("Shop.Model.Tests", [])] := by
  have hconstructors : ∀ c ∈ orderDesk.classes, ∀ k ∈ c.constructors, ∀ p ∈ k.parameters,
      p.typeName ≠ "" := by decide
  have hparameters : ∀ c ∈ orderDesk.classes, ∀ m ∈ c.methods, ∀ p ∈ m.parameters,
      p.typeName ≠ "" := by decide
  have hresults : ∀ c ∈ orderDesk.classes, ∀ m ∈ c.methods, m.shape.hasResult = true →
      ∃ typeName ∈ m.shape.resultType, typeName ≠ "" := by decide
  have htyped : orderDesk.Typed := fun c hc =>
    ⟨hconstructors c hc, fun m hm => ⟨hparameters c hc m hm, hresults c hc m hm⟩⟩
  obtain ⟨xs, hxs, hall⟩ := (ofFile_fansOut orderDesk).2 htyped
  have hnames : (ofFile orderDesk).map (fun xs => xs.map fun x =>
      (x.namespaceName.text, x.tests.map (·.name.text))) =
        .ok [("Shop.Tests", ["CloseTest0", "CloseTestTest0", "CloseTest1"]),
          ("Shop.Model.Tests", [])] := by
    rfl
  rw [hxs] at hnames
  exact ⟨htyped, xs, hxs, hall, Except.ok.inj hnames⟩

end TestScaffold
