/-
  TestScaffold/Proofs/Settings/Plans.lean
  =======================================
  **Which settings make a plan.**

  Settings and plans are checked by rules of their own.  Whatever a setting comes
  from, the settings that pass have at least one worker for each stage and an
  extension that is one (`Settings.InBounds`), and so a plan can be made of them
  for any inputs, with one exception: an empty save path is a text like any other
  for the settings, and none for a plan (`Settings.plan?_of_load`).
-/
import TestScaffold.Proofs.Settings.PlainText

namespace TestScaffold

/-! ### Checks that pass -/

namespace Schema

namespace Checked

variable {α β : Type}

theorem map_eq_ok_iff {f : α → β} {x : Checked α} {b : β} :
    x.map f = .ok b ↔ ∃ a, x = .ok a ∧ f a = b := by
  cases x with
  | ok a => simp [map]
  | bad fs => simp [map]

/-- A function meets a value only where both pass. -/
theorem seq_eq_ok_iff {f : Checked (α → β)} {x : Checked α} {b : β} :
    f <*> x = .ok b ↔ ∃ g a, f = .ok g ∧ x = .ok a ∧ g a = b := by
  cases f with
  | ok g => cases x <;> simp [Seq.seq, seq]
  | bad fs => cases x <;> simp [Seq.seq, seq]

theorem under_eq_ok_iff {step : Step} {x : Checked α} {a : α} :
    x.under step = .ok a ↔ x = .ok a := by
  cases x <;> simp [under]

theorem andThen_eq_ok_iff {x : Checked α} {f : α → Checked β} {b : β} :
    x.andThen f = .ok b ↔ ∃ a, x = .ok a ∧ f a = .ok b := by
  cases x <;> simp [andThen]

end Checked

variable {α : Type}

/-- A field that passes has its default or a value that passes. -/
theorem of_maybe_eq_ok {es : Entries} {key : String} {default a : α} {check : Datum → Checked α}
    {P : α → Prop} (h : maybe es key default check = .ok a) (hdefault : P default)
    (hcheck : ∀ d b, check d = .ok b → P b) : P a := by
  unfold maybe at h
  cases hvalue : Datum.lookup? key es with
  | none =>
    rw [hvalue] at h
    cases h
    exact hdefault
  | some d =>
    rw [hvalue] at h
    exact hcheck d a (Checked.under_eq_ok_iff.mp h)

/-- A field that is there has what comes of its value. -/
theorem need_of_lookup? (check : Datum → Checked α) {es : Entries} {key : String} {d : Datum}
    {x : Checked α} (hkey : Datum.lookup? key es = some d) (hcheck : check d = x) :
    need es key check = x.under (.key key) := by
  simp only [need, hkey, hcheck]

theorem maybe_of_lookup? (check : Datum → Checked α) {es : Entries} {key : String} {default : α}
    {d : Datum} {x : Checked α} (hkey : Datum.lookup? key es = some d) (hcheck : check d = x) :
    maybe es key default check = x.under (.key key) := by
  simp only [maybe, hkey, hcheck]

/-- Only a mapping passes as a record. -/
theorem exists_of_record_eq_ok {label : String} {read : Entries → Checked α} {d : Datum} {a : α}
    (h : record label read d = .ok a) : ∃ es, d = .dict es := by
  cases d with
  | dict es => exact ⟨es, rfl⟩
  | _ => cases h

theorem of_outputSettings_eq_ok {es : Entries} {o : OutputSettings}
    (h : outputSettings (.dict es) = .ok o) :
    maybe es "save_path" "./tests" text = .ok o.savePath ∧
      maybe es "file_extension" ".cs" (fun d => obeying extensionRule (text d)) =
        .ok o.extension := by
  obtain ⟨f₃, _, hf₃, _, rfl⟩ := Checked.seq_eq_ok_iff.mp h
  obtain ⟨f₂, _, hf₂, _, rfl⟩ := Checked.seq_eq_ok_iff.mp hf₃
  obtain ⟨f₁, _, hf₁, hextension, rfl⟩ := Checked.seq_eq_ok_iff.mp hf₂
  obtain ⟨_, hsavePath, rfl⟩ := Checked.map_eq_ok_iff.mp hf₁
  exact ⟨hsavePath, hextension⟩

theorem of_settings_eq_ok {es : Entries} {s : Settings} (h : settings (.dict es) = .ok s) :
    maybe es "pipeline" {} limits = .ok s.limits ∧
      maybe es "output" {} outputSettings = .ok s.output := by
  obtain ⟨f₃, _, hf₃, _, rfl⟩ := Checked.seq_eq_ok_iff.mp h
  obtain ⟨f₂, _, hf₂, _, rfl⟩ := Checked.seq_eq_ok_iff.mp hf₃
  obtain ⟨f₁, _, hf₁, houtput, rfl⟩ := Checked.seq_eq_ok_iff.mp hf₂
  obtain ⟨_, hlimits, rfl⟩ := Checked.map_eq_ok_iff.mp hf₁
  exact ⟨hlimits, houtput⟩

theorem le_of_settingWorkers {d : Datum} {n : Nat} (h : settingWorkers d = .ok n) :
    1 ≤ n ∧ n ≤ maxWorkers.toNat := by
  obtain ⟨i, hi, rfl⟩ := Checked.map_eq_ok_iff.mp h
  obtain ⟨j, _, hbounds⟩ := Checked.andThen_eq_ok_iff.mp hi
  dsimp only at hbounds
  split at hbounds
  · cases hbounds
  · split at hbounds
    · cases hbounds
    · cases hbounds
      simp only [maxWorkers] at *
      omega

theorem extensionRule_of_obeying {x : Checked String} {s : String}
    (h : obeying extensionRule x = .ok s) : extensionRule s = none := by
  obtain ⟨t, _, ht⟩ := Checked.andThen_eq_ok_iff.mp h
  cases hrule : extensionRule t with
  | some broken => simp [hrule, Checked.fail] at ht
  | none =>
    simp only [hrule, Checked.ok.injEq] at ht
    exact ht ▸ hrule

end Schema

/-! ### Settings that pass -/

/-- As many workers as settings may ask for. -/
def Limits.InBounds (l : Limits) : Prop :=
  ∀ n ∈ [l.reading, l.generating, l.writing], 1 ≤ n ∧ n ≤ Schema.maxWorkers.toNat

instance (l : Limits) : Decidable l.InBounds :=
  inferInstanceAs (Decidable (∀ n ∈ [l.reading, l.generating, l.writing],
    1 ≤ n ∧ n ≤ Schema.maxWorkers.toNat))

/-- Settings that keep to the rules for their values. -/
structure Settings.InBounds (s : Settings) : Prop where
  limits : s.limits.InBounds
  extension : Schema.extensionRule s.output.extension = none

namespace Schema

theorem inBounds_of_limits {d : Datum} {l : Limits} (h : limits d = .ok l) : l.InBounds := by
  obtain ⟨es, rfl⟩ := exists_of_record_eq_ok h
  obtain ⟨g, writing, hg, hwriting, rfl⟩ := Checked.seq_eq_ok_iff.mp h
  obtain ⟨f, generating, hf, hgenerating, rfl⟩ := Checked.seq_eq_ok_iff.mp hg
  obtain ⟨reading, hreading, rfl⟩ := Checked.map_eq_ok_iff.mp hf
  have hworkers : ∀ {key : String} {default n : Nat}, 1 ≤ default ∧ default ≤ maxWorkers.toNat →
      maybe es key default settingWorkers = .ok n → 1 ≤ n ∧ n ≤ maxWorkers.toNat :=
    fun hdefault h => of_maybe_eq_ok (P := fun n => 1 ≤ n ∧ n ≤ maxWorkers.toNat) h hdefault
      fun _ _ => le_of_settingWorkers
  intro n hn
  simp only [List.mem_cons, List.not_mem_nil, or_false] at hn
  rcases hn with rfl | rfl | rfl
  · exact hworkers (by decide) hreading
  · exact hworkers (by decide) hgenerating
  · exact hworkers (by decide) hwriting

theorem extensionRule_of_outputSettings {d : Datum} {o : OutputSettings}
    (h : outputSettings d = .ok o) : extensionRule o.extension = none := by
  obtain ⟨es, rfl⟩ := exists_of_record_eq_ok h
  obtain ⟨_, hextension⟩ := of_outputSettings_eq_ok h
  exact of_maybe_eq_ok (P := fun e => extensionRule e = none) hextension (by decide)
    fun _ _ => extensionRule_of_obeying

theorem inBounds_of_settings {d : Datum} {s : Settings} (h : settings d = .ok s) : s.InBounds := by
  obtain ⟨es, rfl⟩ := exists_of_record_eq_ok h
  obtain ⟨hlimits, houtput⟩ := of_settings_eq_ok h
  constructor
  · exact of_maybe_eq_ok (P := Limits.InBounds) hlimits (by decide) fun _ _ => inBounds_of_limits
  · exact of_maybe_eq_ok (P := fun o : OutputSettings => extensionRule o.extension = none) houtput
      (by decide) fun _ _ => extensionRule_of_outputSettings

end Schema

namespace Settings

open Schema (describeTexts)

/-- Entries describe the settings that come of them where nothing is wrong. -/
theorem settings_of_ofEntries {es : Entries} {s : Settings} (h : ofEntries es = .ok s) :
    Schema.settings (.dict es) = .ok s := by
  unfold ofEntries at h
  cases hcheck : Schema.settings (.dict es) with
  | ok t =>
    rw [hcheck] at h
    cases h
    rfl
  | bad fs =>
    rw [hcheck] at h
    cases h

/-- Settings that load keep to the rules, whatever layers they come from. -/
theorem inBounds_of_load {d : Disk} {env : Environment} {request? : Option String}
    {overrides : Entries} {s : Settings} (h : load d env request? overrides = .ok s) :
    s.InBounds := by
  rw [load_eq_bind] at h
  cases hlower : lowerLayers d env request? with
  | error e =>
    rw [hlower] at h
    cases h
  | ok lower =>
    rw [hlower] at h
    exact Schema.inBounds_of_settings (settings_of_ofEntries h)

/-! ### Plans -/

theorem planWorkers_of_pos {n : Nat} (h : 1 ≤ n) : Schema.planWorkers (.int n) = .ok n := by
  have hpos : ¬ (n : Int) < 1 := by omega
  simp [Schema.planWorkers, Schema.intWithin, Schema.int, Schema.Checked.andThen, hpos]

theorem tuple_describeTexts (ss : List String) :
    Schema.tuple Schema.text (describeTexts ss) = .ok ss :=
  Datum.itemsFrom_text ss 0

theorem oneOf_label (issue : List String → Schema.Issue) (p : CollisionPolicy) :
    Schema.oneOf issue CollisionPolicy.names (.str p.label) = .ok p := by
  cases p <;> rfl

/-- All fields of a plan but the save path pass, so that the plan stands and falls with it. -/
theorem plan?_eq {s : Settings} (h : s.InBounds) (inputs : List String) (isDryRun : Bool) :
    s.plan? (describeTexts inputs) none isDryRun =
      (((Schema.name (.str s.output.savePath)).under (.key "save_path")).map fun savePath =>
        { limits := s.limits, inputs, savePath, extension := s.output.extension,
          onCollision := s.output.onCollision, isDryRun : Plan }).toExcept "PipelineConfig" := by
  have hreading := (h.limits s.limits.reading (by simp)).1
  have hgenerating := (h.limits s.limits.generating (by simp)).1
  have hwriting := (h.limits s.limits.writing (by simp)).1
  simp only [plan?, Schema.plan, Schema.record]
  rw [Schema.need_of_lookup? Schema.planWorkers rfl (planWorkers_of_pos hreading),
    Schema.need_of_lookup? Schema.planWorkers rfl (planWorkers_of_pos hwriting),
    Schema.need_of_lookup? Schema.planWorkers rfl (planWorkers_of_pos hgenerating),
    Schema.maybe_of_lookup? (Schema.tuple Schema.text) rfl (tuple_describeTexts inputs),
    Schema.need_of_lookup? Schema.name rfl rfl,
    Schema.maybe_of_lookup? Schema.text rfl rfl,
    Schema.maybe_of_lookup? _ rfl (oneOf_label _ s.output.onCollision),
    Schema.maybe_of_lookup? Schema.bool rfl rfl]
  simp only [Schema.text, Schema.bool, Schema.Checked.under, Schema.Checked.map_eq_map,
    Schema.Checked.map_ok, Schema.Checked.seq_ok, Schema.Checked.ok_seq, Schema.Checked.map_map]
  rfl

theorem plan?_eq_ok {s : Settings} (h : s.InBounds) (hpath : s.output.savePath ≠ "")
    (inputs : List String) (isDryRun : Bool) :
    s.plan? (describeTexts inputs) none isDryRun =
      .ok { limits := s.limits, inputs, savePath := ⟨s.output.savePath, hpath⟩,
            extension := s.output.extension, onCollision := s.output.onCollision, isDryRun } := by
  rw [plan?_eq h]
  simp only [Schema.name, Schema.text, Schema.Checked.andThen, Name.ofString?, hpath, dif_neg,
    not_false_eq_true]
  rfl

theorem plan?_eq_error {s : Settings} (h : s.InBounds) (hpath : s.output.savePath = "")
    (inputs : List String) (isDryRun : Bool) :
    s.plan? (describeTexts inputs) none isDryRun =
      .error ⟨"PipelineConfig", [⟨[.key "save_path"], .textEmpty⟩]⟩ := by
  rw [plan?_eq h, hpath]
  rfl

/-- **Settings that load make a plan for any inputs, unless their save path is empty.** The plan has
the limits, the save path, the extension and the policy of the settings, and the inputs in order.
An empty save path is what the plan is refused for, and nothing else is. -/
theorem plan?_of_load {d : Disk} {env : Environment} {request? : Option String}
    {overrides : Entries} {s : Settings} (h : load d env request? overrides = .ok s)
    (inputs : List String) (isDryRun : Bool) :
    (∀ hpath : s.output.savePath ≠ "", s.plan? (describeTexts inputs) none isDryRun =
      .ok { limits := s.limits, inputs, savePath := ⟨s.output.savePath, hpath⟩,
            extension := s.output.extension, onCollision := s.output.onCollision, isDryRun }) ∧
    (s.output.savePath = "" → s.plan? (describeTexts inputs) none isDryRun =
      .error ⟨"PipelineConfig", [⟨[.key "save_path"], .textEmpty⟩]⟩) := by
  have hbounds := inBounds_of_load h
  constructor
  · intro hpath
    exact plan?_eq_ok hbounds hpath inputs isDryRun
  · intro hpath
    exact plan?_eq_error hbounds hpath inputs isDryRun

/-- A variable for the number of writers, and inputs of which one stands twice. -/
theorem plan?_of_load_writers :
    load Disk.empty [("SHARPSCAFFOLD_PIPELINE__MAX_FILES_WRITING_PARALLEL", "256")] none [] =
        .ok { limits := { writing := 256 } } ∧
      ({ limits := { writing := 256 } } : Settings).plan? (describeTexts ["b.cs", "a.cs", "b.cs"])
          none true =
        .ok { limits := { writing := 256 }, inputs := ["b.cs", "a.cs", "b.cs"],
              savePath := ⟨"./tests", by decide⟩, isDryRun := true } := by
  have hway : Environment.wayOf? "SHARPSCAFFOLD_PIPELINE__MAX_FILES_WRITING_PARALLEL" =
      some (["pipeline"], "max_files_writing_parallel") := by rfl
  have hload : load Disk.empty [("SHARPSCAFFOLD_PIPELINE__MAX_FILES_WRITING_PARALLEL", "256")] none
      [] = .ok { limits := { writing := 256 } } := by
    rw [load_variable file?_empty hway]
    rfl
  exact ⟨hload, (plan?_of_load hload ["b.cs", "a.cs", "b.cs"] true).1 (by decide)⟩

/-- An empty variable makes settings of which there is no plan. -/
theorem plan?_blankSavePath :
    load Disk.empty [(savePathVariable, "")] none [] = .ok { output := { savePath := "" } } ∧
      ({ output := { savePath := "" } } : Settings).plan? (describeTexts ["a.cs"]) =
        .error ⟨"PipelineConfig", [⟨[.key "save_path"], .textEmpty⟩]⟩ := by
  refine ⟨?_, by rfl⟩
  rw [load_variable file?_empty wayOf?_savePathVariable]
  rfl

end Settings

end TestScaffold
