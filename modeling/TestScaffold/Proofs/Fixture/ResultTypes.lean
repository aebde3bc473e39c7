/-
  TestScaffold/Proofs/Fixture/ResultTypes.lean
  ============================================
  **Which methods have a test, by the text of their type.**

  The type of a result is the text of the type of the method, or what a task wraps
  that is awaited.  The text is never empty where the source has one.  What a task
  wraps is empty for a task of two blank arguments (`Source.OpenTask`): its only
  piece is the empty one before the comma, since an empty piece at the end does not
  count.  An async method of such a type is the only one without a test.
-/
import TestScaffold.Proofs.Fixture.FanOut
import TestScaffold.Proofs.Source.ReturnType
import TestScaffold.Proofs.Text.Words

namespace TestScaffold

open Source (Method OpenTask ReturnType)
open TestScaffold.Text

theorem Text.squeeze_ne_empty {s : String} (h : isBlankText s = false) : squeeze s ≠ "" := by
  intro hnone
  have hfilter := filter_squeeze s
  rw [hnone, String.toList_empty, List.filter_nil, eq_comm, List.filter_eq_nil_iff] at hfilter
  have hblank : isBlankText s = true := List.all_eq_true.mpr fun c hc => by simpa using hfilter c hc
  rw [h] at hblank
  cases hblank

variable {m : Method} {text : String}

/-- The types of a method are not empty, unless it awaits a task that wraps nothing. -/
theorem Source.Method.typed_of_ofText (htext : isBlankText text = false)
    (hm : m.returnType = .ofText text) (hparameters : ∀ p ∈ m.parameters, p.typeName ≠ "")
    (hopen : ¬ (m.isAsync = true ∧ OpenTask text)) : m.Typed := by
  refine ⟨hparameters, fun hresult => ?_⟩
  have hname : m.returnType.typeName ≠ "" := by
    rw [hm, ReturnType.typeName_ofText]
    exact squeeze_ne_empty htext
  unfold Method.shape at hresult ⊢
  split at hresult
  · cases hresult
  · cases hresult
  · -- an awaited task has what it wraps
    rename_i hkind hasync
    rw [hm] at hkind ⊢
    obtain ⟨_, _, only, _, _, _, hwrapped⟩ := ReturnType.exists_of_taskOf hkind
    refine ⟨String.ofList only, hwrapped, fun hempty => hopen ⟨hasync, ?_⟩⟩
    exact ReturnType.wrapped_eq_empty_iff.mp ⟨hkind, by rw [hwrapped, hempty]⟩
  · exact ⟨_, rfl, hname⟩

/-- A method that awaits a task of an empty type has no test. -/
theorem Test.ofMethod_of_openTask (hasync : m.isAsync = true) (hopen : OpenTask text)
    (hm : m.returnType = .ofText text) (hparameters : ∀ p ∈ m.parameters, p.typeName ≠ "")
    (receiver testName : Name) :
    Test.ofMethod receiver.text m testName.text = .error .emptyType := by
  obtain ⟨hkind, hwrapped⟩ := ReturnType.wrapped_eq_empty_iff.mpr hopen
  have hshape : m.shape = ⟨true, true, some "", true⟩ := by
    rw [Method.shape, hm, hkind, hasync, hwrapped]
  obtain ⟨arranged, harranged⟩ := TestBody.exists_arrange hparameters
  have hact : TestBody.act receiver.text m = .error .emptyType := by
    unfold TestBody.act
    rw [hshape, receiver.ofString?_text]
    rfl
  rw [Test.ofMethod, harranged, hact]
  rfl

/-- **A method has a test if and only if it does not await a task of two blank arguments**;
otherwise the type of its result is refused as empty. -/
theorem Test.ofMethod_ofText (htext : isBlankText text = false)
    (hm : m.returnType = .ofText text) (hparameters : ∀ p ∈ m.parameters, p.typeName ≠ "")
    (receiver testName : Name) :
    ((∃ t, Test.ofMethod receiver.text m testName.text = .ok t) ↔
      ¬ (m.isAsync = true ∧ OpenTask text)) ∧
    (m.isAsync = true ∧ OpenTask text →
      Test.ofMethod receiver.text m testName.text = .error .emptyType) := by
  have herror : m.isAsync = true ∧ OpenTask text →
      Test.ofMethod receiver.text m testName.text = .error .emptyType :=
    fun h => ofMethod_of_openTask h.1 h.2 hm hparameters receiver testName
  refine ⟨⟨?_, fun hopen => ?_⟩, herror⟩
  · rintro ⟨t, ht⟩ hopen
    rw [herror hopen] at ht
    cases ht
  · exact Test.exists_ofMethod (Method.typed_of_ofText htext hm hparameters hopen) receiver testName

/-- An awaited task of a pair has a test. -/
theorem Test.ofMethod_ofText_pair :
    ∃ t, Test.ofMethod "_a"
      { name := ⟨"M", by decide⟩, parameters := [⟨⟨"n", by decide⟩, "int"⟩],
        returnType := .ofText "Task<(int, bool)>", isAsync := true } "MTest0" = .ok t :=
  have htext : isBlankText "Task<(int, bool)>" = false := by decide
  (ofMethod_ofText htext rfl (by decide) ⟨"_a", by decide⟩ ⟨"MTest0", by decide⟩).1.mpr (by decide)

/-- An awaited task of two blank arguments has none, though its type has a text. -/
theorem Test.ofMethod_ofText_open :
    isBlankText "Task<,>" = false ∧
      ReturnType.ofText "Task<,>" = ⟨.taskOf, "Task<,>", some ""⟩ ∧
      ∀ t, Test.ofMethod "_a"
        { name := ⟨"M", by decide⟩, returnType := .ofText "Task<,>", isAsync := true } "MTest0" ≠
          .ok t := by
  refine ⟨by decide, by decide, fun t h => ?_⟩
  cases h

end TestScaffold
