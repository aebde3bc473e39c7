/-
  TestScaffold/Proofs/Logging/Levels.lean
  =======================================
  **Which levels a request for quiet leaves.**

  Setting levels touches the root and the modules that are named with it, and it
  sets each of them whatever it was before, so what it leaves does not depend on
  the steps before it.

  Quiet is asked for with the request or in the environment.  The level of the
  root is then at warning, also where the user wants to see more.  The level of
  the modules looks at that wish alone: quiet does not reach them, nor the root
  where it is among them.  So a request for quiet is kept just if nobody asks for
  more, or if no modules are named (`State.levels_of_quiet`).
-/
import TestScaffold.Logging

namespace TestScaffold.Logging

open TestScaffold.Text

/-! ### Quiet -/

/-- The environment asks for quiet: the variable has one of three values, in letters of any case. -/
def AsksQuiet (env : Environment) : Prop :=
  ∃ value, env.get? "SHARPSCAFFOLD_QUIET" = some value ∧ lower value ∈ ["1", "true", "yes"]

theorem isQuietIn_iff {env : Environment} : isQuietIn env = true ↔ AsksQuiet env := by
  have hname : Environment.lead ++ Environment.quietKey = "SHARPSCAFFOLD_QUIET" := by decide
  unfold isQuietIn AsksQuiet
  rw [hname, List.contains_iff_mem]
  constructor
  · intro h
    cases hvalue : env.get? "SHARPSCAFFOLD_QUIET" with
    | none =>
      rw [hvalue] at h
      exact absurd h (by decide)
    | some value =>
      rw [hvalue] at h
      exact ⟨value, rfl, h⟩
  · rintro ⟨value, hvalue, hmem⟩
    rw [hvalue]
    exact hmem

namespace State

/-! ### Levels of modules -/

/-- The module that a name stands for: the root has several names. -/
def moduleOf (name : String) : String := if isRoot name then "" else name

theorem moduleOf_eq_root_iff {name : String} : moduleOf name = "" ↔ isRoot name = true := by
  unfold moduleOf
  by_cases hroot : isRoot name = true
  · rw [if_pos hroot]
    exact iff_of_true rfl hroot
  · rw [if_neg hroot]
    refine iff_of_false ?_ hroot
    rintro rfl
    exact hroot (by decide)

theorem moduleOf_of_not_root {name : String} (h : ¬ isRoot name = true) : moduleOf name = name :=
  if_neg h

theorem levelOf_root (s : State) {name : String} (h : isRoot name = true) :
    s.levelOf name = s.rootLevel := by
  rw [levelOf, if_pos h]

/-- The level that a module is given is its level, and that of no other. -/
theorem levelOf_give (s : State) (m name : String) (level : Int) :
    (s.give m level).levelOf name =
      if moduleOf m = moduleOf name then level else s.levelOf name := by
  unfold give
  by_cases hm : isRoot m = true
  · have hsame : "" = moduleOf name ↔ isRoot name = true := eq_comm.trans moduleOf_eq_root_iff
    simp only [if_pos hm, moduleOf_eq_root_iff.mpr hm, hsame]
    by_cases hname : isRoot name = true
    · rw [if_pos hname, levelOf_root _ hname]
    · rw [if_neg hname, levelOf, if_neg hname, levelOf, if_neg hname]
  · rw [if_neg hm, moduleOf_of_not_root hm]
    by_cases hname : isRoot name = true
    · have hother : m ≠ moduleOf name := by
        rw [moduleOf_eq_root_iff.mpr hname]
        rintro rfl
        exact hm (by decide)
      rw [if_neg hother, levelOf_root _ hname, levelOf_root _ hname]
    · rw [moduleOf_of_not_root hname, levelOf, if_neg hname, levelOf, if_neg hname]
      by_cases hsame : m = name
      · rw [if_pos hsame, List.find?_cons_of_pos (by simpa using hsame)]
        rfl
      · rw [if_neg hsame, List.find?_cons_of_neg (by simpa using hsame)]

theorem levelOf_keep (level : Level) (s : State) (m name : String) :
    (s.keep level m).levelOf name =
      if moduleOf m = moduleOf name then level.number else s.levelOf name := by
  rw [← levelOf_give]
  rfl

/-- The induction is on the modules: each sets its own level, so the order does not matter. -/
theorem levelOf_keepAll (level : Level) (name : String) (modules : List String) (s : State) :
    (modules.foldl (keep level) s).levelOf name =
      if moduleOf name ∈ modules.map moduleOf then level.number else s.levelOf name := by
  induction modules generalizing s with
  | nil => rfl
  | cons m rest ih =>
    rw [List.foldl_cons, ih, levelOf_keep, List.map_cons]
    by_cases hrest : moduleOf name ∈ rest.map moduleOf
    · rw [if_pos hrest, if_pos (List.mem_cons_of_mem _ hrest)]
    · rw [if_neg hrest]
      by_cases hm : moduleOf m = moduleOf name
      · rw [if_pos hm, if_pos (hm ▸ List.mem_cons_self)]
      · rw [if_neg hm, if_neg]
        intro hmem
        rcases List.mem_cons.mp hmem with h | h
        · exact hm h.symm
        · exact hrest h

/-- Setting levels gives the modules theirs, whatever it was before. -/
theorem levelOf_setLevel (s : State) (v : Verbosity) {modules : List String} {m : String}
    (hm : m ∈ modules) : (s.setLevel v modules).levelOf m = v.moduleLevel.number := by
  rw [setLevel, levelOf_keepAll, if_pos (List.mem_map_of_mem hm)]

/-- The root gets the level for modules if it is among them. -/
theorem rootLevel_setLevel (s : State) (v : Verbosity) (modules : List String) :
    (s.setLevel v modules).rootLevel =
      if modules.any isRoot = true then v.moduleLevel.number else v.level.number := by
  have hroot : isRoot "" = true := by decide
  have hamong : moduleOf "" ∈ modules.map moduleOf ↔ modules.any isRoot = true := by
    rw [moduleOf_eq_root_iff.mpr hroot, List.mem_map, List.any_eq_true]
    simp only [moduleOf_eq_root_iff]
  rw [← levelOf_root (s.setLevel v modules) hroot, setLevel, levelOf_keepAll]
  simp only [hamong, levelOf_root _ hroot]

/-! ### Levels after any steps -/

/-- A step of a sequence is taken in the state that the steps before it have left. -/
theorem exists_of_getElem?_steps (env : Environment) {steps : List Step} {i : Nat} {step : Step}
    (h : steps[i]? = some step) (s : State) :
    ∃ before : State, (s.steps env steps)[i]? = some (before.step env step) := by
  induction steps generalizing s i with
  | nil => cases h
  | cons first rest ih =>
    cases i with
    | zero =>
      rw [List.getElem?_cons_zero, Option.some.injEq] at h
      subst h
      exact ⟨s, rfl⟩
    | succ i =>
      rw [List.getElem?_cons_succ] at h
      exact ih h (s.step env first).1

/-- The root and these modules show nothing below a warning. -/
structure Hushed (s : State) (modules : List String) : Prop where
  root : Level.warning.number ≤ s.rootLevel
  named : ∀ m ∈ modules, Level.warning.number ≤ s.levelOf m

/-- A request for quiet sets the root to warning and the modules as without it. -/
theorem exists_of_requested {env : Environment} {steps : List Step} {i : Nat} {v : Verbosity}
    {modules : List String} (requested : steps[i]? = some (.setLevel v modules))
    (quiet : v.isQuiet = true ∨ AsksQuiet env) :
    ∃ s : State, (State.steps env {} steps)[i]? = some (s, .level .warning) ∧
      (s.rootLevel =
        if modules.any isRoot = true then v.moduleLevel.number else Level.warning.number) ∧
      ∀ m ∈ modules, s.levelOf m = v.moduleLevel.number := by
  obtain ⟨before, hstep⟩ := exists_of_getElem?_steps env requested {}
  have heffect : (v.isQuiet || isQuietIn env) = true := by
    rw [Bool.or_eq_true, isQuietIn_iff]
    exact quiet
  simp only [step, heffect] at hstep
  exact ⟨_, hstep, rootLevel_setLevel before { v with isQuiet := true } modules,
    fun m hm => levelOf_setLevel before { v with isQuiet := true } hm⟩

/-- **A request for quiet, after any steps.** The root and the modules are hushed if and only if
    the user does not want to see more, or no modules are named; then all of them are at warning.
    Otherwise the modules are at debug, and so is the root if it is among them. -/
theorem levels_of_quiet {env : Environment} {steps : List Step} {i : Nat} {v : Verbosity}
    {modules : List String} (requested : steps[i]? = some (.setLevel v modules))
    (quiet : v.isQuiet = true ∨ AsksQuiet env) :
    ∃ s : State, (State.steps env {} steps)[i]? = some (s, .level .warning) ∧
      (s.Hushed modules ↔ v.isVerbose = false ∨ modules = []) ∧
      (s.rootLevel = if v.isVerbose = true ∧ modules.any isRoot = true
        then Level.debug.number else Level.warning.number) ∧
      ∀ m ∈ modules, s.levelOf m =
        if v.isVerbose = true then Level.debug.number else Level.warning.number := by
  obtain ⟨s, hs, hroot, hnamed⟩ := exists_of_requested requested quiet
  refine ⟨s, hs, ?_, ?_, ?_⟩
  · constructor
    · intro hushed
      cases modules with
      | nil => exact Or.inr rfl
      | cons m rest =>
        left
        have hm := hushed.named m List.mem_cons_self
        rw [hnamed m List.mem_cons_self, Verbosity.moduleLevel] at hm
        cases hverbose : v.isVerbose with
        | false => rfl
        | true =>
          rw [hverbose] at hm
          exact absurd hm (by decide)
    · rintro (hverbose | rfl)
      · have hwarning : v.moduleLevel = .warning := by rw [Verbosity.moduleLevel, hverbose]; rfl
        rw [hwarning, ite_self] at hroot
        rw [hwarning] at hnamed
        exact ⟨Int.le_of_eq hroot.symm, fun m hm => Int.le_of_eq (hnamed m hm).symm⟩
      · exact ⟨Int.le_of_eq hroot.symm, fun m hm => absurd hm List.not_mem_nil⟩
  · rw [hroot, Verbosity.moduleLevel]
    cases v.isVerbose <;> simp
  · intro m hm
    rw [hnamed m hm, Verbosity.moduleLevel]
    cases v.isVerbose <;> rfl

/-- Quiet is asked for in the environment, once a module had been let show all. -/
theorem levels_of_quiet_environment :
    ∃ s : State, (State.steps [("SHARPSCAFFOLD_QUIET", "Yes")] {}
        [.setLevel { isVerbose := true } ["asyncio"], .setUp 10, .setLevel {} ["asyncio"]])[2]? =
          some (s, .level .warning) ∧ s.Hushed ["asyncio"] := by
  obtain ⟨s, hs, hushed, _⟩ := @levels_of_quiet [("SHARPSCAFFOLD_QUIET", "Yes")]
    [.setLevel { isVerbose := true } ["asyncio"], .setUp 10, .setLevel {} ["asyncio"]] 2 {}
    ["asyncio"] rfl (Or.inr ⟨"Yes", by decide, by decide⟩)
  exact ⟨s, hs, hushed.mpr (Or.inl rfl)⟩

/-- Who asks for quiet and to see more lets a module show all, though the root shows warnings
    only. -/
theorem levels_verbose_and_quiet :
    ∃ s : State, State.steps [] {} [.setLevel { isVerbose := true, isQuiet := true } ["asyncio"]] =
        [(s, .level .warning)] ∧ s.rootLevel = 30 ∧ s.levelOf "asyncio" = 10 :=
  ⟨_, rfl, by decide, by decide⟩

end State

end TestScaffold.Logging
