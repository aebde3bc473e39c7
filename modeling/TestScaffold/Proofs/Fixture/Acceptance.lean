/-
  TestScaffold/Proofs/Fixture/Acceptance.lean
  ===========================================
  **The test class for a legible class is accepted as a source file.**

  It is put together and rendered, its text has a tree, and the first class of the
  text is the class with the suffix of test classes.
-/
import TestScaffold.Proofs.Fixture.Structure
import TestScaffold.Proofs.Fixture.Synthesis

namespace TestScaffold

open TestScaffold.Text
open TestScaffold.CSharp

/-- The first class of the text of a legible test class is the test class. -/
theorem Fixture.Legible.firstClassName {x : Fixture} (h : x.Legible) (layout : Layout)
    (hindent : ∀ c ∈ layout.indent.toList, isPlainBlank c = true) :
    ∃ out, layout.render x = .ok out ∧ (Tree.ofText? out).isSome = true ∧
      Source.firstClassName out = .ok x.className := by
  obtain ⟨s, ts, us, out, hwritten, hlaid, hrender, htree, rhs, hrule, hreads⟩ :=
    h.exists_tree layout hindent
  refine ⟨out, hrender, by rw [htree]; rfl, ?_⟩
  have hname : (wordOf s.className).name = x.className := by
    apply Name.text_injective
    change String.ofList (wordOf s.className).chars = x.className.text
    rw [wordOf_chars (hwritten.className ▸ h.className.name.plain), hwritten.className,
      String.ofList_toList]
  unfold Source.firstClassName
  simp only [htree, hwritten.firstClass h hlaid hrule hreads, hname]

/-- **The test class for a legible class is put together and rendered, its text is accepted, and
    the first class of the text has the name of the class with the suffix.** -/
theorem Source.Class.Legible.accepted {f : Source.File} {c : Source.Class} (h : c.Legible f)
    (layout : Layout) (hindent : ∀ c ∈ layout.indent.toList, isPlainBlank c = true) :
    ∃ x out, Fixture.ofClass f c = .ok x ∧ layout.render x = .ok out ∧
      (Tree.ofText? out).isSome = true ∧
      Source.firstClassName out = .ok (Naming.testClassName c.name.text) := by
  obtain ⟨x, hx, hlegible, hname⟩ := h.exists_fixture
  obtain ⟨out, hrender, htree, hfirst⟩ := hlegible.firstClassName layout hindent
  exact ⟨x, out, hx, hrender, htree, hname ▸ hfirst⟩

/-- A name is a type. -/
theorem typeText_of_isName {cs : List Char} (h : IsName cs) :
    TypeText .plainType cs [Token.name cs] where
  spelt := h.spelt
  phrase := TypeText.plainType_of_name
    (.of_category (d := .simpleName) (by decide) (.of_category (d := .identifier) (by decide)
      (Token.phrase_name cs)))
  roles := by
    intro t ht
    rw [List.mem_singleton.mp ht]
    unfold Token.name
    rw [h.noKeyword]
    rfl
  named := by
    intro t ht a _
    exact h.steady t ht a

/-- The namespace of test classes without one. -/
theorem legibleNamespace_tests : (Naming.testNamespace none).LegibleNamespace := by
  have hpieces : splitChars '.' (Naming.testNamespace none).text.toList = ["Tests".toList] := by
    decide +kernel
  constructor
  · intro p hp
    rw [hpieces, List.mem_singleton] at hp
    subst hp
    exact ⟨by decide +kernel, by decide +kernel⟩
  · intro p hp
    rw [hpieces, List.mem_singleton] at hp
    subst hp
    exact ⟨by decide +kernel, by decide +kernel⟩

/-- A class without members is as legible as its name, in a file without namespace and
directives. -/
theorem Source.Class.legible_bare {f : Source.File} {n : Name} (hname : n.Legible)
    (hreceiver : (Naming.receiverName n.text).Legible) (hnamespace : f.inNamespace? = none)
    (husings : f.usings = []) : ({ name := n } : Source.Class).Legible f where
  name := ⟨hname.identifier, hname.name.plain⟩
  type := ⟨_, typeText_of_isName hname.name⟩
  receiver := hreceiver
  dependencies := fun p hp => by cases hp
  methods := fun m hm => by cases hm
  namespaceName := by
    rw [show Fixture.governing { name := n } f = none from hnamespace]
    exact legibleNamespace_tests
  ownUsing := fun m hm => by
    rw [show Fixture.governing { name := n } f = none from hnamespace] at hm
    cases hm
  usings := fun u hu => by
    rw [husings] at hu
    cases hu

/-- A class with a dependency and an asynchronous method with a result. -/
def archiveClass : Source.Class where
  name := ⟨"Archive", by decide⟩
  constructors := [{ parameters := [⟨⟨"index", by decide⟩, "IIndex"⟩] }]
  methods := [
    { name := ⟨"Find", by decide⟩
      parameters := [⟨⟨"key", by decide⟩, "Key"⟩]
      returnType := ⟨.taskOf, "Task<Uri>", some "Uri"⟩
      isAsync := true
      access := .publicAccess }]

theorem legible_archiveClass : archiveClass.Legible {} where
  name := ⟨by decide +kernel, by decide +kernel⟩
  type := ⟨_, typeText_of_isName ⟨by decide +kernel, by decide +kernel⟩⟩
  receiver := ⟨by decide +kernel, by decide +kernel, by decide +kernel⟩
  dependencies := by
    intro p hp
    rw [List.mem_singleton.mp hp]
    exact ⟨⟨by decide +kernel, by decide +kernel⟩, by decide +kernel, _,
      (typeText_of_isName ⟨by decide +kernel, by decide +kernel⟩).widen⟩
  methods := by
    intro m hm _
    rw [List.mem_singleton.mp hm]
    have hkey : IsName "key".toList := ⟨by decide +kernel, by decide +kernel⟩
    refine ⟨⟨by decide +kernel, by decide +kernel⟩, by decide +kernel, ?_, ?_⟩
    · intro p hp
      rw [List.mem_singleton.mp hp]
      refine ⟨⟨by decide +kernel, by decide +kernel⟩, ⟨_, (typeText_of_isName
        ⟨by decide +kernel, by decide +kernel⟩).widen, ?_⟩, ?_⟩
      · exact fun a _ => hkey.steady _ rfl _
      · exact fun a _ => hkey.steady _ rfl _
    · intro _
      exact ⟨"Uri", _, rfl, (typeText_of_isName ⟨by decide +kernel, by decide +kernel⟩).widen⟩
  namespaceName := legibleNamespace_tests
  ownUsing := by
    intro n hn
    cases hn
  usings := by
    intro u hu
    cases hu

theorem accepted_archiveClass :
    ∃ x out, Fixture.ofClass {} archiveClass = .ok x ∧ ({} : Layout).render x = .ok out ∧
      (Tree.ofText? out).isSome = true ∧
      Source.firstClassName out = .ok ⟨"ArchiveTests", by decide⟩ :=
  legible_archiveClass.accepted {} (List.all_eq_true.mp (by decide))

/-- The name of a class may be written with an escape. Then its test class has no text. -/
theorem escaped_className :
    ∃ f c x, Source.File.ofText "class \\u0041{}" = .ok f ∧ c ∈ f.classes ∧
      Fixture.ofClass f c = .ok x ∧
      ({} : Layout).render x = .error (.invalidName .className "\\u0041Tests") := by
  refine ⟨{ classes := [{ name := ⟨"\\u0041", by decide⟩ }] }, { name := ⟨"\\u0041", by decide⟩ }, _,
    by decide +kernel, List.mem_singleton.mpr rfl, rfl, by decide +kernel⟩

end TestScaffold
