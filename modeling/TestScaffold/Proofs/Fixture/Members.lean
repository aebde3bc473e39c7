/-
  TestScaffold/Proofs/Fixture/Members.lean
  ========================================
  **When the members of a test class have different names.**

  Three rules name the members: one for the fields of dependencies, one for the
  field under test, one for the tests.  Names made by one rule are different, and
  none of the rules looks at what the others have made.  So a dependency may have
  the name of the field under test, and a field the name of a test.
-/
import Mathlib.Data.List.Nodup
import TestScaffold.Proofs.Fixture.Naming
import TestScaffold.Proofs.Fixture.Parts

namespace TestScaffold

open Source (Constructor Parameter Method)

/-! ### Fields -/

theorem Naming.fieldName_eq_iff {s t : String} : fieldName s = fieldName t ↔ bare s = bare t := by
  constructor
  · intro h
    have htext : "_" ++ bare s = "_" ++ bare t := congrArg Name.text h
    have hlist := congrArg String.toList htext
    rw [String.toList_append, String.toList_append] at hlist
    exact String.toList_inj.mp (List.append_cancel_left hlist)
  · intro h
    unfold fieldName
    congr 1
    rw [h]

/-- The largest constructor is one of them. -/
theorem Source.Constructor.mem_of_largest? {ks : List Constructor} {k : Constructor}
    (h : largest? ks = some k) : k ∈ ks := by
  cases ks with
  | nil => cases h
  | cons first rest =>
    -- what the fold has kept so far is the first one or one of those passed
    have hfold : ∀ (passed : List Constructor) (best : Constructor),
        passed.foldl (fun best c =>
          if best.parameters.length < c.parameters.length then c else best) best ∈
            best :: passed := by
      intro passed
      induction passed with
      | nil =>
        intro best
        exact List.mem_cons_self
      | cons c passed ih =>
        intro best
        have hkept := ih (if best.parameters.length < c.parameters.length then c else best)
        rw [List.foldl_cons]
        rcases List.mem_cons.mp hkept with heq | hmem
        · rw [heq]
          split
          · exact List.mem_cons_of_mem _ List.mem_cons_self
          · exact List.mem_cons_self
        · exact List.mem_cons_of_mem _ (List.mem_cons_of_mem _ hmem)
    rw [← Option.some.inj h]
    exact hfold rest first

namespace Source.Class

variable {c : Class}

/-- Dependencies whose parameters differ have different fields. -/
theorem nodup_fieldNames_iff
    (h : ∀ k ∈ c.constructors, (k.parameters.map fun p => Naming.bare p.name.text).Nodup) :
    c.fieldNames.Nodup ↔ ∀ p ∈ c.dependencies, Naming.fieldName p.name.text ≠ c.receiver := by
  have hbare : (c.dependencies.map fun p => Naming.bare p.name.text).Nodup := by
    unfold dependencies
    cases hlargest : Constructor.largest? c.constructors with
    | none => exact List.nodup_nil
    | some k => exact h k (Constructor.mem_of_largest? hlargest)
  have hdependencies : (c.dependencies.map fun p => Naming.fieldName p.name.text).Nodup := by
    rw [List.Nodup, List.pairwise_map] at hbare ⊢
    apply hbare.imp
    intro p q hne hsame
    exact hne (Naming.fieldName_eq_iff.mp hsame)
  unfold fieldNames
  rw [List.nodup_append]
  constructor
  · rintro ⟨_, _, hdisjoint⟩ p hp
    exact hdisjoint _ (List.mem_map_of_mem hp) _ (List.mem_singleton.mpr rfl)
  · intro hreceiver
    refine ⟨hdependencies, List.nodup_singleton _, ?_⟩
    intro n hn n' hn'
    obtain ⟨p, hp, rfl⟩ := List.mem_map.mp hn
    rw [List.mem_singleton.mp hn']
    exact hreceiver p hp

/-! ### Tests -/

theorem length_testNames (c : Class) : c.testNames.length = c.testable.length := by
  rw [testNames, Naming.length_resolveAll, List.length_map]

/-- Tests that are made one for each testable method have the names that were found for them. -/
theorem names_of_tests {receiver : String} {tests : List Test}
    (h : List.Forall₂ (fun (p : Method × Name) t => Test.ofMethod receiver p.1 p.2 = .ok t)
      (c.testable.zip c.testNames) tests) : tests.map (·.name) = c.testNames := by
  have hnames := map_eq_of_forall₂ (f := Prod.snd) (g := fun t : Test => t.name) h
    fun p t ht => Name.text_injective (Test.name_of_ofMethod ht).symm
  rw [← hnames, List.map_snd_zip (Nat.le_of_eq c.length_testNames)]

/-- The tests for the methods of one name are numbered from zero on. -/
theorem mem_testNames_iff {n : Name} : n ∈ c.testNames ↔
    ∃ m ∈ c.testable, ∃ k < (c.testable.map (·.name.text)).count m.name.text,
      n = Naming.candidate m.name.text k := by
  have hnumbered : Naming.Numbered c.testNames (c.testable.map (·.name.text)) := by
    simpa [testNames] using
      Naming.numbered_resolveAll Naming.numbered_nil (c.testable.map (·.name.text))
  constructor
  · intro hn
    have hcandidates := Naming.resolveAll_candidates [] (c.testable.map (·.name.text))
    obtain ⟨base, hbase, k, rfl⟩ : ∃ base ∈ c.testable.map (·.name.text), ∃ k,
        n = Naming.candidate base k := by
      have hzip := List.forall₂_iff_zip.mp hcandidates
      obtain ⟨i, hi, rfl⟩ := List.mem_iff_getElem.mp hn
      have hi' : i < (c.testable.map (·.name.text)).length := by rw [hzip.1]; exact hi
      refine ⟨_, List.getElem_mem hi', hzip.2 ?_⟩
      rw [List.mem_iff_getElem]
      exact ⟨i, by rw [List.length_zip]; exact Nat.lt_min.mpr ⟨hi', hi⟩, List.getElem_zip⟩
    obtain ⟨m, hm, rfl⟩ := List.mem_map.mp hbase
    exact ⟨m, hm, k, (hnumbered _ k).mp hn, rfl⟩
  · rintro ⟨m, hm, k, hk, rfl⟩
    exact (hnumbered _ k).mpr hk

end Source.Class

/-- The names of the members of a test class: of its fields, then of its tests. -/
def Fixture.memberNames (x : Fixture) : List Name := x.fields.map (·.name) ++ x.tests.map (·.name)

theorem Fixture.MadeOf.memberNames_eq {c : Source.Class} {x : Fixture} (h : x.MadeOf c) :
    x.memberNames = c.fieldNames ++ c.testNames := by
  rw [memberNames, h.fields, Source.Class.names_of_tests h.tests]

/-! ### All members -/

/-- **The members of a test class have different names if and only if** no dependency has the name
    of the field under test and no field has the name of a test. -/
theorem Fixture.nodup_memberNames_iff {f : Source.File} {c : Source.Class} {suffix : String}
    {x : Fixture}
    (hparameters : ∀ k ∈ c.constructors,
      (k.parameters.map fun p => Naming.bare p.name.text).Nodup)
    (hx : Fixture.ofClass f c suffix = .ok x) :
    x.memberNames.Nodup ↔
      (∀ p ∈ c.dependencies, Naming.fieldName p.name.text ≠ c.receiver) ∧
        ∀ m ∈ c.testable, ∀ k < (c.testable.map (·.name.text)).count m.name.text,
          Naming.candidate m.name.text k ∉ c.fieldNames := by
  rw [(madeOf_of_ofClass hx).memberNames_eq, List.nodup_append,
    Source.Class.nodup_fieldNames_iff hparameters]
  have htests : c.testNames.Nodup := (Naming.nodup_resolveAll [] _).1
  constructor
  · rintro ⟨hfields, _, hdisjoint⟩
    refine ⟨hfields, ?_⟩
    intro m hm k hk hfield
    exact hdisjoint _ hfield _ (Source.Class.mem_testNames_iff.mpr ⟨m, hm, k, hk, rfl⟩) rfl
  · rintro ⟨hfields, hfree⟩
    refine ⟨hfields, htests, ?_⟩
    intro n hn n' hn' hsame
    obtain ⟨m, hm, k, hk, rfl⟩ := Source.Class.mem_testNames_iff.mp hn'
    rw [hsame] at hn
    exact hfree m hm k hk hn

/-- A class with two dependencies and a method that is overloaded. -/
def orderService : Source.Class where
  name := ⟨"OrderService", by decide⟩
  constructors := [{ parameters := [⟨⟨"clock", by decide⟩, "Clock"⟩, ⟨⟨"@lock", by decide⟩, "ILock"⟩] }]
  methods := [
    { name := ⟨"Cancel", by decide⟩, returnType := ⟨.void, "void", none⟩, access := .publicAccess },
    { name := ⟨"Cancel", by decide⟩, parameters := [⟨⟨"id", by decide⟩, "int"⟩],
      returnType := ⟨.value, "bool", none⟩, access := .publicAccess }]

set_option maxRecDepth 10000 in
theorem nodup_memberNames_orderService :
    ∃ x, Fixture.ofClass {} orderService "Tests" = .ok x ∧ x.memberNames.Nodup := by
  obtain ⟨x, hx⟩ : ∃ x, Fixture.ofClass {} orderService "Tests" = .ok x := by
    have hok : (Fixture.ofClass {} orderService "Tests").toOption.isSome = true := by
      decide +kernel
    cases h : Fixture.ofClass {} orderService "Tests" with
    | error e =>
      rw [h] at hok
      cases hok
    | ok x => exact ⟨x, rfl⟩
  exact ⟨x, hx, (Fixture.nodup_memberNames_iff (by decide +kernel) hx).mpr (by decide +kernel)⟩

/-- A class with a parameter that is named like the class. -/
def selfNamed : Source.Class where
  name := ⟨"Foo", by decide⟩
  constructors := [{ parameters := [⟨⟨"foo", by decide⟩, "int"⟩] }]

/-- Its dependency has the name of the field under test. -/
theorem repeated_memberNames_selfNamed :
    (∀ k ∈ selfNamed.constructors, (k.parameters.map fun p => Naming.bare p.name.text).Nodup) ∧
      ∃ x, Fixture.ofClass {} selfNamed = .ok x ∧ ¬ x.memberNames.Nodup := by
  refine ⟨by decide +kernel, _, rfl, ?_⟩
  decide +kernel

end TestScaffold
