/-
  TestScaffold/Proofs/Run/Inputs.lean
  ===================================
  **What becomes of the input files of a run.**

  `Yields` says, without running anything, what one input yields: the drafts of
  its classes up to the first one that has none, and the one error that ended
  them.  `Yield.ofInput` computes just that.

  With one reader the inputs that are taken up are a front part of the list.  It
  is the whole list unless one of them failed, and an input that could not be read
  is the last one taken up.
-/
import Mathlib.Data.List.Forall2
import TestScaffold.Run.Reading

namespace TestScaffold

/-! ### One input -/

/-- The drafts of these classes, one each, in order. -/
def Drafted (layout : Layout) (input : String) (file : Source.File) :
    List Source.Class → List Draft → Prop :=
  List.Forall₂ fun c draft => Draft.ofClass layout input file c = .ok draft

/-- What an input yields on a disk: the drafts that go on, and the error that ended them. -/
inductive Yields (layout : Layout) (d : Disk) (input : String) :
    List Draft → Option RunError → Prop where
  | unread (cause : ReadError) (unreadable : d.readText (.ofString input) = .error cause) :
      Yields layout d input [] (some (.read cause))
  | unparsed (text : String) (cause : SourceError)
      (read : d.readText (.ofString input) = .ok text)
      (refused : Source.File.ofText text = .error cause) :
      Yields layout d input [] (some (.draft (.source input cause)))
  | whole (text : String) (file : Source.File) (drafts : List Draft)
      (read : d.readText (.ofString input) = .ok text)
      (parsed : Source.File.ofText text = .ok file)
      (drafted : Drafted layout input file file.classes drafts) :
      Yields layout d input drafts none
  | cut (text : String) (file : Source.File) (good : List Source.Class) (bad : Source.Class)
      (rest : List Source.Class) (drafts : List Draft) (cause : DraftError)
      (read : d.readText (.ofString input) = .ok text)
      (parsed : Source.File.ofText text = .ok file)
      (classes : file.classes = good ++ bad :: rest)
      (drafted : Drafted layout input file good drafts)
      (undrafted : Draft.ofClass layout input file bad = .error cause) :
      Yields layout d input drafts (some (.draft cause))

namespace Draft

/-- Either all classes have drafts, or the drafts are those of the classes before the first one
    without. -/
theorem ofClasses_cases (layout : Layout) (origin : String) (file : Source.File)
    (classes : List Source.Class) :
    (∃ drafts, ofClasses layout origin file classes = (drafts, none) ∧
        Drafted layout origin file classes drafts) ∨
      ∃ good bad rest drafts cause, classes = good ++ bad :: rest ∧
        ofClasses layout origin file classes = (drafts, some cause) ∧
        Drafted layout origin file good drafts ∧
        ofClass layout origin file bad = .error cause := by
  induction classes with
  | nil => exact Or.inl ⟨[], rfl, List.Forall₂.nil⟩
  | cons c rest ih =>
    cases hc : ofClass layout origin file c with
    | error cause =>
      refine Or.inr ⟨[], c, rest, [], cause, rfl, ?_, List.Forall₂.nil, hc⟩
      simp only [ofClasses, hc]
    | ok draft =>
      rcases ih with ⟨drafts, heq, hdrafted⟩ |
        ⟨good, bad, more, drafts, cause, hsplit, heq, hdrafted, hbad⟩
      · refine Or.inl ⟨draft :: drafts, ?_, List.Forall₂.cons hc hdrafted⟩
        simp only [ofClasses, hc, heq]
      · refine Or.inr ⟨c :: good, bad, more, draft :: drafts, cause, ?_, ?_,
          List.Forall₂.cons hc hdrafted, hbad⟩
        · rw [hsplit, List.cons_append]
        · simp only [ofClasses, hc, heq]

end Draft

theorem Yield.yields_ofInput (layout : Layout) (d : Disk) (input : String) :
    Yields layout d input (Yield.ofInput layout d input).drafts
      (Yield.ofInput layout d input).error? := by
  cases hread : d.readText (.ofString input) with
  | error cause =>
    simp only [Yield.ofInput, hread]
    exact .unread cause hread
  | ok text =>
    cases hparse : Source.File.ofText text with
    | error cause =>
      simp only [Yield.ofInput, hread, Draft.ofSource, hparse]
      exact .unparsed text cause hread hparse
    | ok file =>
      rcases Draft.ofClasses_cases layout input file file.classes with
        ⟨drafts, heq, hdrafted⟩ | ⟨good, bad, rest, drafts, cause, hsplit, heq, hdrafted, hbad⟩
      · simp only [Yield.ofInput, hread, Draft.ofSource, hparse, heq]
        exact .whole text file drafts hread hparse hdrafted
      · simp only [Yield.ofInput, hread, Draft.ofSource, hparse, heq]
        exact .cut text file good bad rest drafts cause hread hparse hsplit hdrafted hbad

/-! ### The inputs taken up by one reader -/

namespace Yield

/-- Whether an input could not be read. -/
def isUnread (y : Yield) : Prop := ∃ cause, y.error? = some (.read cause)

/-- With no more than one further input allowed, at most that one is taken up. -/
theorem started_one (ys : List Yield) : started 1 (some 1) ys = ys.take 1 := by
  cases ys with
  | nil => rfl
  | cons y rest =>
    have hstop : started 1 (tighter (some 0) (y.slack? 1)) rest = [] := by
      cases hs : y.slack? 1 with
      | none => cases rest <;> rfl
      | some n => cases rest <;> simp [tighter, started]
    simp only [started, Option.map_some, Option.some.injEq, Nat.one_ne_zero, if_false,
      List.take_succ_cons, List.take_zero]
    rw [hstop]

theorem started_cons_whole {y : Yield} (ys : List Yield) (h : y.error? = none) :
    started 1 none (y :: ys) = y :: started 1 none ys := by
  simp [started, slack?, h, tighter]

theorem started_cons_unread {y : Yield} (ys : List Yield) (h : y.isUnread) :
    started 1 none (y :: ys) = [y] := by
  obtain ⟨cause, hcause⟩ := h
  cases ys <;> simp [started, slack?, hcause, tighter]

/-- Inputs without failures are all taken up, and those behind them as if they stood first. -/
theorem started_append {ys : List Yield} (h : ∀ y ∈ ys, y.error? = none) (more : List Yield) :
    started 1 none (ys ++ more) = ys ++ started 1 none more := by
  induction ys with
  | nil => rfl
  | cons y ys ih =>
    rw [List.cons_append, started_cons_whole _ (h y List.mem_cons_self),
      ih fun z hz => h z (List.mem_cons_of_mem y hz), List.cons_append]

/-- **The reader stops only after a failure.** The inputs taken up are a front part of the list;
    an input left out means that one taken up failed, and one that could not be read is the last. -/
theorem started_split (ys : List Yield) :
    ∃ rest, ys = started 1 none ys ++ rest ∧
      (rest ≠ [] → ∃ y ∈ started 1 none ys, y.error?.isSome = true) ∧
      ∀ front y back, started 1 none ys = front ++ y :: back → y.isUnread → back = [] := by
  induction ys with
  | nil => exact ⟨[], rfl, fun h => absurd rfl h, fun front y back h => by simp [started] at h⟩
  | cons y ys ih =>
    cases herror : y.error? with
    | none =>
      have hstarted := started_cons_whole ys herror
      obtain ⟨rest, hsplit, hfailed, hlast⟩ := ih
      rw [hstarted]
      refine ⟨rest, ?_, ?_, ?_⟩
      · rw [List.cons_append, ← hsplit]
      · intro hrest
        obtain ⟨z, hz, hz'⟩ := hfailed hrest
        exact ⟨z, List.mem_cons_of_mem _ hz, hz'⟩
      · intro front z back hfront hunread
        cases front with
        | nil =>
          obtain ⟨cause, hcause⟩ := hunread
          rw [List.nil_append] at hfront
          rw [← (List.cons.inj hfront).1, herror] at hcause
          cases hcause
        | cons w front => exact hlast front z back (List.cons.inj hfront).2 hunread
    | some e =>
      by_cases hread : y.isUnread
      · have hstarted := started_cons_unread ys hread
        rw [hstarted]
        refine ⟨ys, rfl, fun _ => ⟨y, List.mem_singleton.mpr rfl, by rw [herror]; rfl⟩, ?_⟩
        intro front z back hfront _
        cases front with
        | nil => exact (List.cons.inj hfront).2.symm
        | cons w front => simp at hfront
      · have hslack : y.slack? 1 = some 1 := by
          cases e with
          | read cause => exact absurd ⟨cause, herror⟩ hread
          | draft cause => simp [slack?, herror]
          | unreadable cause => simp [slack?, herror]
          | write cause => simp [slack?, herror]
        have hstarted : started 1 none (y :: ys) = y :: ys.take 1 := by
          simp [started, hslack, tighter, started_one]
        rw [hstarted]
        refine ⟨ys.drop 1, by rw [List.cons_append, List.take_append_drop],
          fun _ => ⟨y, List.mem_cons_self, by rw [herror]; rfl⟩, ?_⟩
        intro front z back hfront hunread
        cases front with
        | nil =>
          rw [List.nil_append] at hfront
          exact absurd ((List.cons.inj hfront).1 ▸ hunread) hread
        | cons w front =>
          have hback : ys.take 1 = front ++ z :: back := (List.cons.inj hfront).2
          have hlength := congrArg List.length hback
          simp only [List.length_take, List.length_append, List.length_cons] at hlength
          exact List.eq_nil_of_length_eq_zero (by omega)

end Yield

end TestScaffold
