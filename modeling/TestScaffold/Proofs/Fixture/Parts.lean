/-
  TestScaffold/Proofs/Fixture/Parts.lean
  ======================================
  **What the test class for a class is made of.**

  A test class that is put together has a field for every dependency and one for
  the object under test, and one test for every testable method, in order.  This
  module reads that off the functions that put it together, once for all that is
  proved of test classes.
-/
import TestScaffold.Fixture.Assembly
import TestScaffold.Proofs.Lists

namespace TestScaffold

open Source (Method Parameter)

theorem Name.text_injective : Function.Injective Name.text := by
  rintro ⟨s, hs⟩ ⟨t, ht⟩ h
  cases h
  rfl

theorem Name.text_of_ofString? {s : String} {n : Name} (h : Name.ofString? s = some n) :
    n.text = s := by
  unfold Name.ofString? at h
  split at h
  · cases h
  · cases h
    rfl

theorem Name.ofString?_text (n : Name) : Name.ofString? n.text = some n := by
  simp [Name.ofString?, n.nonempty]

/-! ### Parts of a class -/

namespace Source.Class

/-- The parameters that a test class has fields for. -/
def dependencies (c : Class) : List Parameter :=
  (Constructor.largest? c.constructors).elim [] (·.parameters)

/-- The methods that get a test. -/
def testable (c : Class) : List Method := c.methods.filter (·.isTestable)

/-- The field that holds the object under test. -/
def receiver (c : Class) : Name := Naming.receiverName c.name.text

/-- The names of the fields of the test class. -/
def fieldNames (c : Class) : List Name :=
  c.dependencies.map (fun p => Naming.fieldName p.name.text) ++ [c.receiver]

/-- The names of the tests of the test class. -/
def testNames (c : Class) : List Name := Naming.resolveAll [] (c.testable.map (·.name.text))

end Source.Class

/-! ### Parts of the test class -/

theorem Wiring.name_of_dependency {p : Parameter} {d : Wiring.Dependency}
    (h : Wiring.dependency p = .ok d) : d.field.name = Naming.fieldName p.name.text := by
  unfold Wiring.dependency at h
  dsimp only at h
  split at h
  · obtain ⟨type, _, h⟩ := exists_of_bind_eq_ok h
    cases h
    rfl
  · obtain ⟨type, _, h⟩ := exists_of_bind_eq_ok h
    cases h
    rfl

theorem Wiring.of_ofClass {c : Source.Class} {suffix : String} {w : Wiring}
    (h : Wiring.ofClass c suffix = .ok w) :
    w.fields.map (·.name) = c.fieldNames ∧ w.receiver = c.receiver := by
  unfold Wiring.ofClass at h
  obtain ⟨ds, hds, h⟩ := exists_of_bind_eq_ok h
  have hnames : ds.map (·.field.name) =
      c.dependencies.map fun p => Naming.fieldName p.name.text := by
    have hall : List.Forall₂ (fun p d => Wiring.dependency p = .ok d) c.dependencies ds :=
      forall₂_of_mapM_eq_ok hds
    exact (map_eq_of_forall₂ hall fun p d hd => (name_of_dependency hd).symm).symm
  cases h
  refine ⟨?_, rfl⟩
  rw [List.map_append, List.map_map]
  exact congrArg (· ++ [c.receiver]) hnames

theorem Test.name_of_ofMethod {receiver testName : String} {m : Method} {t : Test}
    (h : Test.ofMethod receiver m testName = .ok t) : t.name.text = testName := by
  unfold Test.ofMethod at h
  obtain ⟨arranged, _, h⟩ := exists_of_bind_eq_ok h
  obtain ⟨call, _, h⟩ := exists_of_bind_eq_ok h
  obtain ⟨asserted, _, h⟩ := exists_of_bind_eq_ok h
  cases hname : Name.ofString? testName with
  | none =>
    rw [hname] at h
    cases h
  | some name =>
    rw [hname] at h
    cases h
    exact Name.text_of_ofString? hname

/-- What a test class is made of: fields and tests. -/
structure Fixture.MadeOf (c : Source.Class) (x : Fixture) : Prop where
  fields : x.fields.map (·.name) = c.fieldNames
  tests : List.Forall₂ (fun (p : Method × Name) t =>
    Test.ofMethod c.receiver p.1 p.2 = .ok t) (c.testable.zip c.testNames) x.tests

theorem Fixture.madeOf_of_ofClass {f : Source.File} {c : Source.Class} {suffix : String}
    {x : Fixture} (h : Fixture.ofClass f c suffix = .ok x) : x.MadeOf c := by
  unfold Fixture.ofClass at h
  obtain ⟨w, hw, h⟩ := exists_of_bind_eq_ok h
  obtain ⟨tests, htests, h⟩ := exists_of_bind_eq_ok h
  obtain ⟨hfields, hreceiver⟩ := Wiring.of_ofClass hw
  unfold checked at h
  split at h
  · cases h
    refine ⟨hfields, ?_⟩
    rw [hreceiver] at htests
    exact forall₂_of_mapM_eq_ok htests
  · cases h

end TestScaffold
