/-
  TestScaffold/Proofs/Settings/Description.lean
  =============================================
  **Settings are read back from their description.**

  A description has every field of every section, so no default matters, and each
  field is a value of the kind that its check wants.  What is left are the rules for
  values: settings that keep to them come back as they were
  (`Settings.ofEntries_describeSections`), and these are all that a load can give
  (`Settings.ofEntries_describeSections_of_load`).
-/
import TestScaffold.Proofs.Settings.Plans

namespace TestScaffold

namespace Schema

/-! ### Values -/

theorem settingWorkers_of_inBounds {n : Nat} (h : 1 ≤ n ∧ n ≤ maxWorkers.toNat) :
    settingWorkers (.int n) = .ok n := by
  have hleast : ¬ (n : Int) < 1 := by omega
  have hgreatest : ¬ maxWorkers < (n : Int) := by
    have hle := h.2
    unfold maxWorkers at hle ⊢
    omega
  simp [settingWorkers, intWithin, int, Checked.andThen, hleast, hgreatest]

theorem obeying_text {rule : String → Option String} {s : String} (h : rule s = none) :
    obeying rule (text (.str s)) = .ok s := by
  simp [text, obeying, Checked.andThen, h]

theorem list_describeTexts (ss : List String) : list text (describeTexts ss) = .ok ss :=
  Datum.itemsFrom_text ss 0

theorem oneOf_newlineLabel (issue : List String → Issue) (n : Newline) :
    oneOf issue newlineNames (.str n.label) = .ok n := by
  cases n <;> rfl

/-! ### Sections -/

theorem limits_describeLimits {l : Limits} (h : l.InBounds) :
    limits (describeLimits l) = .ok l := by
  simp only [limits, record, describeLimits]
  rw [maybe_of_lookup? settingWorkers rfl (settingWorkers_of_inBounds (h l.reading (by simp))),
    maybe_of_lookup? settingWorkers rfl (settingWorkers_of_inBounds (h l.generating (by simp))),
    maybe_of_lookup? settingWorkers rfl (settingWorkers_of_inBounds (h l.writing (by simp)))]
  rfl

theorem outputSettings_describeOutput {o : OutputSettings} (h : extensionRule o.extension = none) :
    outputSettings (describeOutput o) = .ok o := by
  simp only [outputSettings, record, describeOutput]
  rw [maybe_of_lookup? text rfl rfl, maybe_of_lookup? _ rfl (obeying_text h),
    maybe_of_lookup? _ rfl (Settings.oneOf_label _ o.onCollision),
    maybe_of_lookup? _ rfl (oneOf_newlineLabel _ o.newline)]
  rfl

theorem discoverySettings_describeDiscovery (d : DiscoverySettings) :
    discoverySettings (describeDiscovery d) = .ok d := by
  simp only [discoverySettings, record, describeDiscovery]
  rw [maybe_of_lookup? _ rfl (list_describeTexts d.patterns),
    maybe_of_lookup? _ rfl (list_describeTexts d.excluded)]
  rfl

theorem loggingSettings_describeLogging (l : LoggingSettings) :
    loggingSettings (describeLogging l) = .ok l := by
  simp only [loggingSettings, record, describeLogging]
  rw [maybe_of_lookup? _ rfl (list_describeTexts l.suppressed)]
  rfl

theorem settings_describeSettings {s : Settings} (h : s.InBounds) :
    settings (describeSettings s) = .ok s := by
  simp only [settings, record, describeSettings, describeSections]
  rw [maybe_of_lookup? _ rfl (limits_describeLimits h.limits),
    maybe_of_lookup? _ rfl (outputSettings_describeOutput h.extension),
    maybe_of_lookup? _ rfl (discoverySettings_describeDiscovery s.discovery),
    maybe_of_lookup? _ rfl (loggingSettings_describeLogging s.logging)]
  rfl

end Schema

/-! ### Settings -/

namespace Settings

/-- **Settings that keep to the rules are those that their sections describe.** -/
theorem ofEntries_describeSections {s : Settings} (h : s.InBounds) :
    ofEntries (Schema.describeSections s) = .ok s := by
  have hsettings := Schema.settings_describeSettings h
  simp only [Schema.describeSettings] at hsettings
  simp only [ofEntries, hsettings]
  rfl

/-- Whatever layers settings were loaded from, their description alone gives them again. -/
theorem ofEntries_describeSections_of_load {d : Disk} {env : Environment} {request? : Option String}
    {overrides : Entries} {s : Settings} (h : load d env request? overrides = .ok s) :
    ofEntries (Schema.describeSections s) = .ok s :=
  ofEntries_describeSections (inBounds_of_load h)

end Settings

end TestScaffold
