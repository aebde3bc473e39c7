/-
  TestScaffold/Proofs/Logging/Handlers.lean
  =========================================
  **How many handlers write to the console, and at which level the root is.**

  Both are told by the steps so far.  The handler of the program is there if it was
  set up and not reset since (`IsInstalled`).  A set-up that finds it there sets a
  level and nothing else; one that finds it missing takes all other handlers away,
  so of those that were added only the ones since then count (`Since`).  A reset
  takes away the program's own handler alone.  The root has the level that was set
  last, whoever set it.

  Every step keeps what the steps so far tell of the state (`Told.step`), so it holds
  after each of any steps (`State.handlers_of_steps`).  The level is told this way only
  as long as the root is not named among the modules.
-/
import Mathlib.Data.List.Induction
import TestScaffold.Proofs.Lists
import TestScaffold.Proofs.Logging.Levels

namespace TestScaffold.Logging

/-! ### The handler of the program -/

/-- The handler of the program has been set up, and nothing was reset since. -/
def IsInstalled (steps : List Step) : Prop :=
  ∃ before level after, steps = before ++ .setUp level :: after ∧ .reset ∉ after

/-- Behind these steps, the step sets up the handler that is missing. -/
def Step.Installs (steps : List Step) (step : Step) : Prop :=
  (∃ level, step = .setUp level) ∧ ¬ IsInstalled steps

theorem not_isInstalled_nil : ¬ IsInstalled [] := by
  rintro ⟨before, level, after, hsplit, _⟩
  simp at hsplit

theorem isInstalled_concat_iff {steps : List Step} {step : Step} :
    IsInstalled (steps ++ [step]) ↔
      (∃ level, step = .setUp level) ∨ step ≠ .reset ∧ IsInstalled steps := by
  constructor
  · rintro ⟨before, level, after, hsplit, hkept⟩
    rcases concat_eq_append_cons hsplit with ⟨_, _, rfl⟩ | ⟨rest, rfl, rfl⟩
    · exact Or.inl ⟨level, rfl⟩
    · rw [List.mem_append, List.mem_singleton, not_or] at hkept
      exact Or.inr ⟨Ne.symm hkept.2, before, level, rest, rfl, hkept.1⟩
  · rintro (⟨level, rfl⟩ | ⟨hstep, before, level, after, rfl, hkept⟩)
    · exact ⟨steps, level, [], rfl, List.not_mem_nil⟩
    · refine ⟨before, level, after ++ [step], by simp, ?_⟩
      rw [List.mem_append, List.mem_singleton, not_or]
      exact ⟨hkept, Ne.symm hstep⟩

/-! ### The other handlers -/

/-- The steps since the last one that installed the handler, or since the start if none has. -/
inductive Since (steps : List Step) : List Step → Prop where
  | start (kept : ∀ before step after, steps = before ++ step :: after → ¬ step.Installs before) :
      Since steps steps
  | installed {before after : List Step} {step : Step} (split : steps = before ++ step :: after)
      (installs : step.Installs before)
      (kept : ∀ between later rest, after = between ++ later :: rest →
        ¬ later.Installs (before ++ step :: between)) :
      Since steps after

theorem since_nil : Since [] [] := .start fun before step after h => by simp at h

/-- A step that installs the handler starts anew, and any other one comes behind those since then. -/
theorem since_concat_iff {steps recent : List Step} {step : Step} :
    Since (steps ++ [step]) recent ↔
      (step.Installs steps ∧ recent = []) ∨
        ¬ step.Installs steps ∧ ∃ earlier, Since steps earlier ∧ recent = earlier ++ [step] := by
  constructor
  · intro h
    cases h with
    | start kept =>
      refine Or.inr ⟨kept steps step [] rfl, steps, .start fun before later after hsplit => ?_, rfl⟩
      exact kept before later (after ++ [step]) (by simp [hsplit])
    | @installed before after later hsplit installs kept =>
      rcases concat_eq_append_cons hsplit with ⟨rfl, rfl, rfl⟩ | ⟨rest, rfl, rfl⟩
      · exact Or.inl ⟨installs, rfl⟩
      · refine Or.inr ⟨kept rest step [] rfl, rest, .installed rfl installs ?_, rfl⟩
        intro between last tail hrest
        exact kept between last (tail ++ [step]) (by simp [hrest])
  · rintro (⟨installs, rfl⟩ | ⟨hstep, earlier, hearlier, rfl⟩)
    · exact .installed rfl installs fun between later rest h => by simp at h
    · cases hearlier with
      | start kept =>
        refine .start fun before later after hsplit => ?_
        rcases concat_eq_append_cons hsplit with ⟨_, rfl, rfl⟩ | ⟨rest, _, hrest⟩
        · exact hstep
        · exact kept before later rest hrest
      | @installed before _ later hsplit installs kept =>
        subst hsplit
        refine .installed (by simp) installs fun between last rest hrest => ?_
        rcases concat_eq_append_cons hrest with ⟨_, rfl, rfl⟩ | ⟨tail, _, htail⟩
        · exact hstep
        · exact kept between last tail htail

theorem exists_since (steps : List Step) : ∃ recent, Since steps recent := by
  induction steps using List.reverseRecOn with
  | nil => exact ⟨[], since_nil⟩
  | append_singleton steps step ih =>
    obtain ⟨earlier, hearlier⟩ := ih
    by_cases hstep : step.Installs steps
    · exact ⟨[], since_concat_iff.mpr (Or.inl ⟨hstep, rfl⟩)⟩
    · exact ⟨earlier ++ [step], since_concat_iff.mpr (Or.inr ⟨hstep, earlier, hearlier, rfl⟩)⟩

/-! ### The level of the root -/

/-- The level that a step sets for the root: a set-up its own, and a request by its verbosity, quiet
    first. -/
def Step.rootLevel? (env : Environment) : Step → Option Int
  | .setUp level => some level
  | .setLevel v _ =>
    some (if v.isQuiet || isQuietIn env then 30 else if v.isVerbose then 10 else 20)
  | _ => none

/-- The level that was set last; a warning before any. -/
def latestLevel (env : Environment) (steps : List Step) : Int :=
  (steps.filterMap (Step.rootLevel? env)).getLast?.getD 30

theorem latestLevel_concat (env : Environment) (steps : List Step) (step : Step) :
    latestLevel env (steps ++ [step]) =
      (step.rootLevel? env).getD (latestLevel env steps) := by
  unfold latestLevel
  rw [List.filterMap_append]
  cases hlevel : step.rootLevel? env with
  | none => simp [hlevel]
  | some level => simp [hlevel]

def Step.namesRoot : Step → Bool
  | .setLevel _ modules => modules.any State.isRoot
  | _ => false

/-! ### One step -/

namespace State

theorem handlers_keepAll (level : Level) (modules : List String) (s : State) :
    (modules.foldl (keep level) s).hasOwn = s.hasOwn ∧
      (modules.foldl (keep level) s).others = s.others := by
  induction modules generalizing s with
  | nil => exact ⟨rfl, rfl⟩
  | cons m rest ih =>
    have hkeep : (s.keep level m).hasOwn = s.hasOwn ∧ (s.keep level m).others = s.others := by
      unfold keep give
      split <;> exact ⟨rfl, rfl⟩
    obtain ⟨hown, hothers⟩ := ih (s.keep level m)
    exact ⟨hown.trans hkeep.1, hothers.trans hkeep.2⟩

end State

/-- What the steps so far tell of the state that they have left. -/
structure Told (env : Environment) (steps : List Step) (s : State) : Prop where
  own : s.hasOwn = true ↔ IsInstalled steps
  others : ∀ recent, Since steps recent → s.others = recent.count .addHandler
  level : s.rootLevel = latestLevel env steps

theorem told_nil (env : Environment) : Told env [] {} where
  own := iff_of_false (by decide) not_isInstalled_nil
  others := by
    intro recent h
    cases h with
    | start => rfl
    | installed split => simp at split
  level := rfl

namespace Told

variable {env : Environment} {past : List Step} {s : State} {last : Step}

/-- A step that installs nothing and adds nothing leaves the count of the others. -/
theorem others_concat (h : Told env past s) (hinstalls : ¬ last.Installs past)
    (hadd : last ≠ .addHandler) {recent : List Step} (hrecent : Since (past ++ [last]) recent) :
    s.others = recent.count .addHandler := by
  rcases since_concat_iff.mp hrecent with ⟨hyes, _⟩ | ⟨_, earlier, hearlier, rfl⟩
  · exact absurd hyes hinstalls
  · rw [h.others earlier hearlier, List.count_append, List.count_singleton]
    simp [hadd]

theorem of_handlers_eq (h : Told env past s) {s' : State} (hown : s'.hasOwn = s.hasOwn)
    (hothers : s'.others = s.others) (hlevel : s'.rootLevel = latestLevel env (past ++ [last]))
    (hsetUp : ¬ ∃ level, last = .setUp level) (hreset : last ≠ .reset)
    (hadd : last ≠ .addHandler) : Told env (past ++ [last]) s' := by
  refine ⟨?_, fun recent hrecent => ?_, hlevel⟩
  · rw [hown, h.own, isInstalled_concat_iff]
    exact ⟨fun installed => Or.inr ⟨hreset, installed⟩, fun hor => (hor.resolve_left hsetUp).2⟩
  · rw [hothers]
    exact h.others_concat (fun installs => hsetUp installs.1) hadd hrecent

theorem setUp (h : Told env past s) (level : Int) :
    Told env (past ++ [.setUp level]) (s.setUp level) := by
  have hown : IsInstalled (past ++ [.setUp level]) := isInstalled_concat_iff.mpr (Or.inl ⟨_, rfl⟩)
  have hlevel : latestLevel env (past ++ [.setUp level]) = level := latestLevel_concat ..
  unfold State.setUp
  by_cases hthere : s.hasOwn = true
  · rw [if_pos hthere]
    refine ⟨iff_of_true hthere hown, fun recent hrecent => ?_, hlevel.symm⟩
    exact h.others_concat (fun installs => installs.2 (h.own.mp hthere)) (by simp) hrecent
  · -- The missing handler is installed, and the count of the others starts anew.
    rw [if_neg hthere]
    refine ⟨iff_of_true rfl hown, fun recent hrecent => ?_, hlevel.symm⟩
    rcases since_concat_iff.mp hrecent with ⟨_, rfl⟩ | ⟨hkept, _⟩
    · rfl
    · exact absurd ⟨⟨level, rfl⟩, fun installed => hthere (h.own.mpr installed)⟩ hkept

theorem setLevel (h : Told env past s) (v : Verbosity) {modules : List String}
    (spared : modules.any State.isRoot = false) :
    Told env (past ++ [.setLevel v modules]) (s.step env (.setLevel v modules)).1 := by
  obtain ⟨hown, hothers⟩ := State.handlers_keepAll
    (Verbosity.moduleLevel { v with isQuiet := v.isQuiet || isQuietIn env }) modules
    { s with rootLevel := (Verbosity.level { v with isQuiet := v.isQuiet || isQuietIn env }).number }
  refine h.of_handlers_eq hown hothers ?_ (by simp) (by simp) (by simp)
  rw [latestLevel_concat]
  simp only [State.step, State.rootLevel_setLevel, spared, Step.rootLevel?, Verbosity.level]
  cases v.isQuiet || isQuietIn env <;> cases v.isVerbose <;> rfl

theorem addHandler (h : Told env past s) : Told env (past ++ [.addHandler]) s.addOther := by
  have hsetUp : ¬ Step.Installs past .addHandler := fun installs => by simpa using installs.1
  refine ⟨h.own.trans (by simp [isInstalled_concat_iff]), fun recent hrecent => ?_, ?_⟩
  · rcases since_concat_iff.mp hrecent with ⟨hyes, _⟩ | ⟨_, earlier, hearlier, rfl⟩
    · exact absurd hyes hsetUp
    · rw [List.count_append, ← h.others earlier hearlier]
      rfl
  · rw [latestLevel_concat]
    exact h.level

theorem reset (h : Told env past s) : Told env (past ++ [.reset]) s.reset := by
  have hsetUp : ¬ Step.Installs past .reset := fun installs => by simpa using installs.1
  refine ⟨iff_of_false (by simp [State.reset]) (by simp [isInstalled_concat_iff]), ?_, ?_⟩
  · exact fun recent hrecent => h.others_concat hsetUp (by simp) hrecent
  · rw [latestLevel_concat]
    exact h.level

/-- **Every step keeps what the steps so far tell of the state**, unless it names the root. -/
theorem step (h : Told env past s) (spared : last.namesRoot = false) :
    Told env (past ++ [last]) (s.step env last).1 := by
  cases last with
  | setUp level => exact h.setUp level
  | setLevel v modules => exact h.setLevel v spared
  | addHandler => exact h.addHandler
  | operationLogger operation =>
    refine h.of_handlers_eq rfl rfl ?_ (by simp) (by simp) (by simp)
    rw [latestLevel_concat]
    exact h.level
  | reset => exact h.reset

/-- The induction is on the steps still to be taken, behind those that were. -/
theorem steps (h : Told env past s) {steps : List Step}
    (spared : ∀ step ∈ steps, step.namesRoot = false) {i : Nat} (hi : i < steps.length) :
    ∃ s' reply, (s.steps env steps)[i]? = some (s', reply) ∧
      Told env (past ++ steps.take (i + 1)) s' := by
  induction steps generalizing s past i with
  | nil => exact absurd hi (Nat.not_lt_zero i)
  | cons first rest ih =>
    obtain ⟨hfirst, hrest⟩ := List.forall_mem_cons.mp spared
    have hstep := h.step hfirst
    cases i with
    | zero => exact ⟨_, _, rfl, hstep⟩
    | succ i =>
      obtain ⟨s', reply, hget, htold⟩ := ih hstep hrest (Nat.lt_of_succ_lt_succ hi)
      rw [List.append_assoc, List.singleton_append, ← List.take_succ_cons] at htold
      exact ⟨s', reply, hget, htold⟩

end Told

/-! ### Any steps -/

namespace State

/-- **The handlers and the level of the root, after each of any steps.** The handler of the program
    counts if it was set up and not reset since, and of the others count those that were added since
    the last set-up that found it missing. The root has the level that was set last. -/
theorem handlers_of_steps (env : Environment) {steps : List Step}
    (spared : ∀ step ∈ steps, step.namesRoot = false) {i : Nat} (hi : i < steps.length) :
    ∃ s reply, (State.steps env {} steps)[i]? = some (s, reply) ∧
      (∃ recent, Since (steps.take (i + 1)) recent) ∧
      (∀ recent, Since (steps.take (i + 1)) recent →
        (IsInstalled (steps.take (i + 1)) → s.handlers = 1 + recent.count .addHandler) ∧
        (¬ IsInstalled (steps.take (i + 1)) → s.handlers = recent.count .addHandler)) ∧
      s.rootLevel = latestLevel env (steps.take (i + 1)) := by
  obtain ⟨s, reply, hget, htold⟩ := (told_nil env).steps spared hi
  rw [List.nil_append] at htold
  refine ⟨s, reply, hget, exists_since _, fun recent hrecent => ⟨fun hthere => ?_, fun hgone => ?_⟩,
    htold.level⟩
  · rw [handlers, if_pos (htold.own.mpr hthere), htold.others recent hrecent]
  · rw [handlers, if_neg (fun hown => hgone (htold.own.mp hown)), htold.others recent hrecent,
      Nat.zero_add]

def mixedSteps : List Step :=
  [.addHandler, .setUp 20, .addHandler, .operationLogger "generate", .reset]

/-- The set-up takes the first of them away, and the reset none but the program's own. -/
theorem handlers_of_mixedSteps :
    (∀ step ∈ mixedSteps, step.namesRoot = false) ∧
      ∃ s reply, (State.steps [] {} mixedSteps)[4]? = some (s, reply) ∧
        s.handlers = 1 ∧ s.rootLevel = 20 := by
  have hspared : ∀ step ∈ mixedSteps, step.namesRoot = false := by decide
  obtain ⟨s, reply, hget, _, hhandlers, hlevel⟩ := handlers_of_steps [] hspared (i := 4) (by decide)
  have hmissing : ¬ IsInstalled [.addHandler] := by
    rw [← List.nil_append [Step.addHandler], isInstalled_concat_iff]
    simp [not_isInstalled_nil]
  have hgone : ¬ IsInstalled mixedSteps := by
    rw [mixedSteps, ← List.dropLast_concat_getLast (List.cons_ne_nil _ _), isInstalled_concat_iff]
    simp
  have hsince : Since mixedSteps [.addHandler, .operationLogger "generate", .reset] := by
    have hsplit : mixedSteps = [.addHandler] ++ .setUp 20 ::
        [.addHandler, .operationLogger "generate", .reset] := rfl
    refine .installed hsplit ⟨⟨20, rfl⟩, hmissing⟩ ?_
    rintro between later rest hlater ⟨⟨level, rfl⟩, _⟩
    have hmem : Step.setUp level ∈ between ++ Step.setUp level :: rest := by simp
    rw [← hlater] at hmem
    simp at hmem
  exact ⟨hspared, s, reply, hget, (hhandlers _ hsince).2 hgone, hlevel⟩

end State

end TestScaffold.Logging
