/-
  TestScaffold/Proofs/Fixture/Wiring.lean
  =======================================
  **The constructor of a test class wires every dependency once.**

  Fields, statements and arguments are three lists made from one list of
  parameters, and they stay in step: the field, the statement and the argument at
  a place all belong to the parameter at that place.  Behind them stand the field
  for the object under test and the statement that fills it
  (`Wiring.ofClass_wires`).

  The parameters are those of the first constructor with the most of them.  This
  is said of the list of constructors alone (`Constructor.Widest`): all before it
  have fewer parameters, and none behind it has more.
-/
import Mathlib.Data.List.Induction
import TestScaffold.Proofs.Fixture.FanOut

namespace TestScaffold

open Source (Constructor Parameter)

/-! ### The constructor with the most parameters -/

namespace Source.Constructor

/-- The parameters of the first constructor with the most of them; none where there is no
constructor. -/
inductive Widest : List Constructor → List Parameter → Prop where
  | none : Widest [] []
  | first {before after : List Constructor} {k : Constructor}
      (fewer : ∀ c ∈ before, c.parameters.length < k.parameters.length)
      (noMore : ∀ c ∈ after, c.parameters.length ≤ k.parameters.length) :
      Widest (before ++ k :: after) k.parameters

/-- The better of two constructors, of which the first was seen first. -/
def wider (best c : Constructor) : Constructor :=
  if best.parameters.length < c.parameters.length then c else best

/-- What is kept while constructors are passed is the first with the most parameters so far. -/
theorem exists_split_foldl_wider (best : Constructor) (passed : List Constructor) :
    ∃ before after, best :: passed = before ++ passed.foldl wider best :: after ∧
      (∀ c ∈ before, c.parameters.length < (passed.foldl wider best).parameters.length) ∧
      ∀ c ∈ after, c.parameters.length ≤ (passed.foldl wider best).parameters.length := by
  induction passed using List.reverseRecOn with
  | nil => exact ⟨[], [], rfl, by simp, by simp⟩
  | append_singleton passed c ih =>
    obtain ⟨before, after, hsplit, hfewer, hnoMore⟩ := ih
    rw [List.foldl_concat]
    generalize passed.foldl wider best = kept at hsplit hfewer hnoMore
    unfold wider
    split
    · -- the new one has more than all before
      rename_i hmore
      refine ⟨best :: passed, [], rfl, ?_, by simp⟩
      intro c' hc'
      rw [hsplit] at hc'
      rcases List.mem_append.mp hc' with hc' | hc'
      · exact (hfewer c' hc').trans hmore
      · rcases List.mem_cons.mp hc' with rfl | hc'
        · exact hmore
        · exact (hnoMore c' hc').trans_lt hmore
    · rename_i hnot
      refine ⟨before, after ++ [c], ?_, hfewer, ?_⟩
      · rw [← List.cons_append, hsplit, List.append_assoc, List.cons_append]
      · intro c' hc'
        rcases List.mem_append.mp hc' with hc' | hc'
        · exact hnoMore c' hc'
        · rw [List.mem_singleton.mp hc']
          exact Nat.not_lt.mp hnot

theorem widest_largest? (ks : List Constructor) :
    Widest ks ((largest? ks).elim [] (·.parameters)) := by
  rcases ks with _ | ⟨k, ks⟩
  · exact .none
  · obtain ⟨before, after, hsplit, hfewer, hnoMore⟩ := exists_split_foldl_wider k ks
    have hlargest : largest? (k :: ks) = some (ks.foldl wider k) := rfl
    rw [hlargest, hsplit]
    exact .first hfewer hnoMore

end Source.Constructor

/-! ### The field for a parameter -/

/-- A field that holds the dependency of a parameter. -/
structure Field.Holds (f : Field) (p : Parameter) : Prop where
  name : f.name.text.toList = '_' :: p.name.text.toList.dropWhile (· = '@')
  type : f.type.name.text = p.typeName
  isMock : f.type.isMock = true ↔
    ∃ u rest, p.typeName.toList = 'I' :: u :: rest ∧ 'A' ≤ u ∧ u ≤ 'Z'

theorem Naming.toList_fieldName (parameter : String) :
    (fieldName parameter).text.toList = '_' :: parameter.toList.dropWhile (· = '@') := by
  have hsame : (fun c : Char => c == '@') = fun c => decide (c = '@') := by
    funext c
    exact beq_eq_decide c '@'
  simp [fieldName, bare, hsame]

theorem Naming.isMockable_iff {typeName : String} : isMockable typeName = true ↔
    ∃ u rest, typeName.toList = 'I' :: u :: rest ∧ 'A' ≤ u ∧ u ≤ 'Z' := by
  unfold isMockable
  split
  · rename_i u rest htext
    rw [Text.isAsciiUpper, Bool.and_eq_true, decide_eq_true_eq, decide_eq_true_eq]
    constructor
    · intro hupper
      exact ⟨u, rest, htext, hupper⟩
    · rintro ⟨u', rest', htext', hupper⟩
      rw [htext] at htext'
      cases htext'
      exact hupper
  · rename_i hother
    constructor
    · intro h
      cases h
    · rintro ⟨u, rest, htext, _⟩
      exact absurd htext (hother u rest)

namespace Wiring

theorem holds_of_dependency {p : Parameter} {d : Dependency} (h : dependency p = .ok d) :
    d.field.Holds p := by
  have hname : d.field.name = Naming.fieldName p.name.text := name_of_dependency h
  have htype : d.field.type.name.text = p.typeName ∧
      d.field.type.isMock = Naming.isMockable p.typeName := by
    unfold dependency at h
    dsimp only at h
    split at h
    · rename_i hmock
      obtain ⟨type, htype, h⟩ := exists_of_bind_eq_ok h
      cases h
      obtain ⟨htext, hisMock⟩ := TypeUse.of_mock? htype
      exact ⟨htext, hisMock.trans hmock.symm⟩
    · rename_i hmock
      obtain ⟨type, htype, h⟩ := exists_of_bind_eq_ok h
      cases h
      obtain ⟨htext, hisMock⟩ := TypeUse.of_plain? htype
      exact ⟨htext, hisMock.trans (Bool.eq_false_iff.mpr hmock).symm⟩
  refine ⟨?_, htype.1, ?_⟩
  · rw [hname, Naming.toList_fieldName]
  · rw [htype.2, Naming.isMockable_iff]

/-- A parameter whose type has no text has no dependency. -/
theorem typeName_ne_empty_of_dependency {p : Parameter} {d : Dependency}
    (h : dependency p = .ok d) : p.typeName ≠ "" := by
  rw [← (holds_of_dependency h).type]
  exact d.field.type.name.nonempty

/-- The wiring is made of one dependency for each parameter. -/
theorem exists_dependencies {c : Source.Class} {suffix : String} {w : Wiring}
    (h : ofClass c suffix = .ok w) :
    ∃ ds, List.Forall₂ (fun p d => dependency p = .ok d) c.dependencies ds ∧
      w.fields = ds.map (·.field) ++ [⟨w.receiver, ⟨c.name, false⟩⟩] ∧
      w.setup.body = ds.map (fun d => fill d.field []) ++
        [fill ⟨w.receiver, ⟨c.name, false⟩⟩ (ds.map Dependency.argument)] := by
  unfold ofClass at h
  obtain ⟨ds, hds, h⟩ := exists_of_bind_eq_ok h
  cases h
  exact ⟨ds, forall₂_of_mapM_eq_ok hds, rfl, rfl⟩

/-! ### Lists in step -/

/-- A wiring of parameters: the field, the statement and the argument at each place are those of
the parameter at that place. The last field and the last statement are those of the object under
test, which gets the arguments. -/
structure Wires (w : Wiring) (c : Source.Class) (suffix : String) (ps : List Parameter)
    (arguments : List Expr) : Prop where
  setupName : w.setup.name.text = c.name.text ++ suffix
  length_fields : w.fields.length = ps.length + 1
  length_body : w.setup.body.length = ps.length + 1
  length_arguments : arguments.length = ps.length
  dependency : ∀ (i : Nat) p, ps[i]? = some p → ∃ f : Field, w.fields[i]? = some f ∧ f.Holds p ∧
    w.setup.body[i]? = some (Stmt.evaluate (.assign (.identifier f.name) (.create f.type []))) ∧
    arguments[i]? = some (if f.type.isMock then
      Expr.member (.identifier f.name) ⟨"Object", by decide⟩ else Expr.identifier f.name)
  receiver : w.fields[ps.length]? = some ⟨w.receiver, ⟨c.name, false⟩⟩ ∧
    w.setup.body[ps.length]? = some (Stmt.evaluate (.assign (.identifier w.receiver)
      (.create ⟨c.name, false⟩ arguments)))

theorem exists_wires_of_ofClass {c : Source.Class} {suffix : String} {w : Wiring}
    (h : ofClass c suffix = .ok w) : ∃ arguments, w.Wires c suffix c.dependencies arguments := by
  obtain ⟨ds, hds, hfields, hbody⟩ := exists_dependencies h
  have hlength : ds.length = c.dependencies.length := hds.length_eq.symm
  refine ⟨ds.map Dependency.argument, ?_, ?_, ?_, ?_, ?_, ?_, ?_⟩
  · rw [setupName_of_ofClass h]
    rfl
  · simp [hfields, hlength]
  · simp [hbody, hlength]
  · simp [hlength]
  · intro i p hp
    obtain ⟨d, hd, hdependency⟩ := exists_getElem?_of_forall₂ hds hp
    have hi : i < ds.length := (List.getElem?_eq_some_iff.mp hd).1
    refine ⟨d.field, ?_, holds_of_dependency hdependency, ?_, ?_⟩
    · rw [hfields, List.getElem?_append_left (by simpa using hi), List.getElem?_map, hd]
      rfl
    · rw [hbody, List.getElem?_append_left (by simpa using hi), List.getElem?_map, hd]
      rfl
    · rw [List.getElem?_map, hd]
      rfl
  · rw [hfields, List.getElem?_append_right (by simp [hlength])]
    simp [hlength]
  · rw [hbody, List.getElem?_append_right (by simp [hlength])]
    simp [hlength, fill]

/-- **Every dependency is wired once.** Wired are the parameters of the first constructor with the
most of them. If and only if their types have texts there is a wiring, and in it the fields, the
statements and the arguments are in step with the parameters. -/
theorem ofClass_wires (c : Source.Class) (suffix : String) :
    ∃ ps, Constructor.Widest c.constructors ps ∧
      ((∃ w, ofClass c suffix = .ok w) ↔ ∀ p ∈ ps, p.typeName ≠ "") ∧
      ∀ w, ofClass c suffix = .ok w → ∃ arguments, w.Wires c suffix ps arguments := by
  refine ⟨c.dependencies, Constructor.widest_largest? c.constructors, ?_, ?_⟩
  · constructor
    · rintro ⟨w, hw⟩ p hp
      obtain ⟨ds, hds, _⟩ := exists_dependencies hw
      obtain ⟨i, hi⟩ := List.mem_iff_getElem?.mp hp
      obtain ⟨d, _, hdependency⟩ := exists_getElem?_of_forall₂ hds hi
      exact typeName_ne_empty_of_dependency hdependency
    · intro htypes
      exact exists_ofClass htypes suffix
  · intro w hw
    exact exists_wires_of_ofClass hw

-- of two constructors with two parameters the first is wired; at signs are left out of the names
example : (ofClass
    { name := ⟨"Ledger", by decide⟩
      constructors := [{ parameters := [⟨⟨"clock", by decide⟩, "Clock"⟩] },
        { parameters := [⟨⟨"@lock", by decide⟩, "ILock"⟩, ⟨⟨"clock", by decide⟩, "Clock"⟩] },
        { parameters := [⟨⟨"store", by decide⟩, "IStore"⟩, ⟨⟨"item", by decide⟩, "Item"⟩] }] }).map
      (fun w => w.fields.map fun f => (f.name.text, f.type.name.text, f.type.isMock)) =
    .ok [("_lock", "ILock", true), ("_clock", "Clock", false), ("_ledger", "Ledger", false)] := by
  rfl

end Wiring

end TestScaffold
