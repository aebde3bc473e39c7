/-
  TestScaffold/Proofs/Settings/Fields.lean
  ========================================
  **Settings are read field by field.**

  The check of a record looks at the fields it knows, each by itself.  What comes
  of a mapping is determined by what each field makes alone, and the faults told
  at a field are those that its value has alone (`Schema.Fieldwise`).  This is so
  for every section of the settings and for the settings as a record of their
  sections.

  A section that is missing counts as an empty mapping, and no field takes a
  mapping for its value, whatever the mapping holds (`Schema.IsSection`).
-/
import Mathlib.Data.List.Basic
import TestScaffold.Proofs.Settings.Merging
import TestScaffold.Schema.Settings

namespace TestScaffold

/-! ### Outcomes of checks -/

namespace Schema.Checked

variable {α β γ : Type}

/-- What is told to be wrong. -/
def faults : Checked α → List Fault
  | ok _ => []
  | bad faults => faults

@[simp] theorem faults_ok (a : α) : (ok a).faults = [] := rfl

@[simp] theorem faults_bad (fs : List Fault) : (bad fs : Checked α).faults = fs := rfl

@[simp] theorem map_eq_map (f : α → β) (x : Checked α) : f <$> x = x.map f := rfl

@[simp] theorem map_ok (f : α → β) (a : α) : (ok a).map f = ok (f a) := rfl

@[simp] theorem map_map (f : α → β) (g : β → γ) (x : Checked α) :
    (x.map f).map g = x.map (g ∘ f) := by
  cases x <;> rfl

@[simp] theorem seq_ok (f : Checked (α → β)) (a : α) : f <*> ok a = f.map (· a) := by
  cases f <;> rfl

@[simp] theorem ok_seq (f : α → β) (x : Checked α) : ok f <*> x = x.map f := by
  cases x <;> rfl

@[simp] theorem faults_map (f : α → β) (x : Checked α) : (x.map f).faults = x.faults := by
  cases x <;> rfl

@[simp] theorem faults_seq (f : Checked (α → β)) (x : Checked α) :
    (f <*> x).faults = f.faults ++ x.faults := by
  cases f <;> cases x <;> simp [Seq.seq, seq]

@[simp] theorem faults_under (step : Step) (x : Checked α) :
    (x.under step).faults = x.faults.map fun f => { f with place := step :: f.place } := by
  cases x <;> rfl

theorem map_injective {f : α → β} (hf : f.Injective) : (map f).Injective := by
  intro x y h
  cases x with
  | ok a =>
    cases y with
    | ok b =>
      simp only [map, ok.injEq] at h
      rw [hf h]
    | bad fs => cases h
  | bad fs =>
    cases y with
    | ok b => cases h
    | bad gs =>
      simp only [map, bad.injEq] at h
      rw [h]

/-- Faults that are seen from a step further out can still be told apart. -/
theorem map_under_injective (step : Step) :
    (List.map fun f : Fault => { f with place := step :: f.place }).Injective := by
  refine List.map_injective_iff.mpr ?_
  rintro ⟨p, i⟩ ⟨q, j⟩ h
  simpa using h

theorem under_injective (step : Step) : (under step : Checked α → Checked α).Injective := by
  intro x y h
  cases x with
  | ok a =>
    cases y with
    | ok b => simpa [under] using h
    | bad fs => cases h
  | bad fs =>
    cases y with
    | ok b => cases h
    | bad gs =>
      simp only [under, bad.injEq] at h
      rw [map_under_injective step h]

/-- Two outcomes side by side before anything is made of them. -/
theorem map_seq (f : α → β → γ) (x : Checked α) (y : Checked β) :
    x.map f <*> y = (x.map Prod.mk <*> y).map fun p => f p.1 p.2 := by
  cases x <;> cases y <;> rfl

/-- Faults that are told leave no value. -/
theorem eq_of_faults_eq {x y : Checked α} (h : x.faults = y.faults) (hne : y.faults ≠ []) :
    x = y := by
  cases x with
  | ok a => exact absurd h.symm hne
  | bad fs =>
    cases y with
    | ok b => exact absurd rfl hne
    | bad gs => exact congrArg bad h

end Schema.Checked

/-! ### One field by itself -/

/-- The entries of a mapping with one key, or with none if there is no value. -/
def Datum.lone (key : String) (value? : Option Datum) : Entries := (value?.map (key, ·)).toList

namespace Datum

@[simp] theorem lone_none (key : String) : lone key none = [] := rfl

@[simp] theorem lone_some (key : String) (value : Datum) : lone key (some value) = [(key, value)] :=
  rfl

theorem lookup?_lone (key name : String) (value? : Option Datum) :
    lookup? name (lone key value?) = if key = name then value? else none := by
  cases value? with
  | none => simp [lookup?]
  | some value => rfl

end Datum

namespace Schema

open Datum

variable {α : Type}

@[simp] theorem maybe_nil (key : String) (default : α) (check : Datum → Checked α) :
    maybe [] key default check = .ok default := rfl

@[simp] theorem maybe_lone_self (es : Entries) (key : String) (default : α)
    (check : Datum → Checked α) :
    maybe (lone key (lookup? key es)) key default check = maybe es key default check := by
  simp [maybe, lookup?_lone]

theorem maybe_lone_of_ne {key name : String} (h : key ≠ name) (value? : Option Datum) (default : α)
    (check : Datum → Checked α) : maybe (lone key value?) name default check = .ok default := by
  simp [maybe, lookup?_lone, h]

/-- Whether a fault concerns a field of a record. -/
def Fault.isAt (key : String) (f : Fault) : Bool := f.place.head? == some (.key key)

theorem isAt_of_mem_faults_maybe {es : Entries} {key : String} {default : α}
    {check : Datum → Checked α} {f : Fault} (h : f ∈ (maybe es key default check).faults) :
    f.isAt key = true := by
  unfold maybe at h
  cases hvalue : lookup? key es with
  | none => simp [hvalue] at h
  | some value =>
    rw [hvalue, Checked.faults_under, List.mem_map] at h
    obtain ⟨g, _, rfl⟩ := h
    simp [Fault.isAt]

@[simp] theorem filter_isAt_faults_maybe_self (es : Entries) (key : String) (default : α)
    (check : Datum → Checked α) :
    (maybe es key default check).faults.filter (·.isAt key) = (maybe es key default check).faults :=
  List.filter_eq_self.mpr fun _ h => isAt_of_mem_faults_maybe h

theorem filter_isAt_faults_maybe_of_ne {key name : String} (h : key ≠ name) (es : Entries)
    (default : α) (check : Datum → Checked α) :
    (maybe es name default check).faults.filter (·.isAt key) = [] := by
  refine List.filter_eq_nil_iff.mpr fun f hf hkey => h ?_
  have hname := isAt_of_mem_faults_maybe hf
  simp only [Fault.isAt, beq_iff_eq] at hkey hname
  simpa using hkey.symm.trans hname

/-! ### Records -/

/-- Reading entries by looking at some fields, each by itself. -/
structure Fieldwise (fields : List String) (read : Entries → Checked α) : Prop where
  /-- There is nothing wrong with missing fields. -/
  empty : ∃ a, read [] = .ok a
  /-- Other keys do not count. -/
  ignores : ∀ {key : String}, key ∉ fields → ∀ value?, read (lone key value?) = read []
  /-- The outcome is determined by the outcomes of the fields alone. -/
  ext : ∀ {es es' : Entries}, (∀ key ∈ fields,
    read (lone key (lookup? key es)) = read (lone key (lookup? key es'))) → read es = read es'
  /-- Every fault is at a field. -/
  placed : ∀ {es : Entries}, ∀ f ∈ (read es).faults, ∃ key ∈ fields, f.isAt key = true
  /-- The faults at a field are those that the field has alone. -/
  faults_at : ∀ (es : Entries), ∀ key ∈ fields,
    (read es).faults.filter (·.isAt key) = (read (lone key (lookup? key es))).faults

namespace Fieldwise

variable {β γ : Type} {fields : List String} {read : Entries → Checked α}

/-- One field. -/
theorem single (key : String) (default : α) (check : Datum → Checked α) :
    Fieldwise [key] fun es => maybe es key default check where
  empty := ⟨default, rfl⟩
  ignores := fun h value? => maybe_lone_of_ne (by simpa using h) value? default check
  ext := by
    intro es es' h
    simpa using h
  placed := fun f hf => ⟨key, by simp, isAt_of_mem_faults_maybe hf⟩
  faults_at := by simp

/-- One field more. -/
theorem and (h : Fieldwise fields read) (key : String) (hkey : key ∉ fields) (default : β)
    (check : Datum → Checked β) :
    Fieldwise (fields ++ [key]) fun es => Prod.mk <$> read es <*> maybe es key default check where
  empty := by
    obtain ⟨a, ha⟩ := h.empty
    exact ⟨(a, default), by simp [ha]⟩
  ignores := by
    intro name hname value?
    rw [List.mem_append, List.mem_singleton, not_or] at hname
    simp [h.ignores hname.1, maybe_lone_of_ne hname.2]
  ext := by
    intro es es' hall
    have hread : read es = read es' := h.ext fun name hname => by
      have hne : name ≠ key := fun e => hkey (e ▸ hname)
      have hname := hall name (List.mem_append_left _ hname)
      simp only [maybe_lone_of_ne hne, Checked.map_eq_map, Checked.seq_ok, Checked.map_map] at hname
      exact Checked.map_injective (fun a b hab => congrArg Prod.fst hab) hname
    have hfield : maybe es key default check = maybe es' key default check := by
      obtain ⟨a, ha⟩ := h.empty
      have hlast := hall key List.mem_concat_self
      simp only [h.ignores hkey, ha, maybe_lone_self, Checked.map_eq_map, Checked.map_ok,
        Checked.ok_seq] at hlast
      exact Checked.map_injective (fun a b hab => congrArg Prod.snd hab) hlast
    rw [hread, hfield]
  placed := by
    intro es f hf
    rw [Checked.faults_seq, Checked.map_eq_map, Checked.faults_map, List.mem_append] at hf
    rcases hf with hf | hf
    · obtain ⟨name, hname, hat⟩ := h.placed f hf
      exact ⟨name, List.mem_append_left _ hname, hat⟩
    · exact ⟨key, List.mem_concat_self, isAt_of_mem_faults_maybe hf⟩
  faults_at := by
    intro es name hname
    rcases List.mem_append.mp hname with hname | hname
    · have hne : name ≠ key := fun e => hkey (e ▸ hname)
      simp [h.faults_at es name hname, filter_isAt_faults_maybe_of_ne hne, maybe_lone_of_ne hne]
    · rw [List.mem_singleton.mp hname]
      obtain ⟨a, ha⟩ := h.empty
      have hnone : (read es).faults.filter (·.isAt key) = [] := by
        refine List.filter_eq_nil_iff.mpr fun f hf hat => ?_
        obtain ⟨other, hother, hat'⟩ := h.placed f hf
        simp only [Fault.isAt, beq_iff_eq] at hat hat'
        have hsame : key = other := by simpa using hat.symm.trans hat'
        exact hkey (hsame ▸ hother)
      simp [hnone, h.ignores hkey, ha]

/-- The values may be put together, as long as they can be told apart. -/
theorem map (h : Fieldwise fields read) {f : α → β} (hf : f.Injective) :
    Fieldwise fields fun es => (read es).map f where
  empty := by
    obtain ⟨a, ha⟩ := h.empty
    exact ⟨f a, by simp [ha]⟩
  ignores := fun hkey value? => by rw [h.ignores hkey]
  ext := by
    intro es es' hall
    have hread : read es = read es' :=
      h.ext fun key hkey => Checked.map_injective hf (hall key hkey)
    rw [hread]
  placed := by
    intro es f hf
    rw [Checked.faults_map] at hf
    exact h.placed f hf
  faults_at := by
    intro es key hkey
    simp [h.faults_at es key hkey]

end Fieldwise

/-! ### The records of the settings -/

theorem fieldwise_limits :
    Fieldwise ["max_files_reading_parallel", "max_test_classes_generating_parallel",
      "max_files_writing_parallel"] fun es => limits (.dict es) := by
  have hfields := ((Fieldwise.single "max_files_reading_parallel" 3 settingWorkers).and
    "max_test_classes_generating_parallel" (by decide) 3 settingWorkers).and
    "max_files_writing_parallel" (by decide) 6 settingWorkers
  have hinjective : (fun p : (Nat × Nat) × Nat => Limits.mk p.1.1 p.1.2 p.2).Injective := by
    rintro ⟨⟨_, _⟩, _⟩ ⟨⟨_, _⟩, _⟩ h
    cases h
    rfl
  simp only [limits, record, Checked.map_eq_map, Checked.map_seq Limits.mk,
    Checked.map_seq fun p : Nat × Nat => Limits.mk p.1 p.2]
  exact hfields.map hinjective

theorem fieldwise_outputSettings :
    Fieldwise ["save_path", "file_extension", "collision_policy", "newline"]
      fun es => outputSettings (.dict es) := by
  have hfields := (((Fieldwise.single "save_path" "./tests" text).and
    "file_extension" (by decide) ".cs" fun d => obeying extensionRule (text d)).and
    "collision_policy" (by decide) .overwrite (oneOf .notALiteral CollisionPolicy.names)).and
    "newline" (by decide) .lf (oneOf .notALiteral newlineNames)
  have hinjective : (fun p : ((String × String) × CollisionPolicy) × Newline =>
      OutputSettings.mk p.1.1.1 p.1.1.2 p.1.2 p.2).Injective := by
    rintro ⟨⟨⟨_, _⟩, _⟩, _⟩ ⟨⟨⟨_, _⟩, _⟩, _⟩ h
    cases h
    rfl
  simp only [outputSettings, record, Checked.map_eq_map, Checked.map_seq OutputSettings.mk,
    Checked.map_seq fun p : String × String => OutputSettings.mk p.1 p.2,
    Checked.map_seq fun p : (String × String) × CollisionPolicy =>
      OutputSettings.mk p.1.1 p.1.2 p.2]
  exact hfields.map hinjective

theorem fieldwise_discoverySettings :
    Fieldwise ["patterns", "exclude_dirs"] fun es => discoverySettings (.dict es) := by
  have hfields := (Fieldwise.single "patterns" ["**/*.cs"] (list text)).and
    "exclude_dirs" (by decide) ["bin", "obj", ".git", ".vs", "node_modules"] (list text)
  have hinjective : (fun p : List String × List String =>
      DiscoverySettings.mk p.1 p.2).Injective := by
    rintro ⟨_, _⟩ ⟨_, _⟩ h
    cases h
    rfl
  simp only [discoverySettings, record, Checked.map_eq_map, Checked.map_seq DiscoverySettings.mk]
  exact hfields.map hinjective

theorem fieldwise_loggingSettings :
    Fieldwise ["suppress_modules"] fun es => loggingSettings (.dict es) := by
  have hfields := Fieldwise.single "suppress_modules" ["asyncio"] (list text)
  have hinjective : LoggingSettings.mk.Injective := by
    intro _ _ h
    cases h
    rfl
  exact hfields.map hinjective

theorem fieldwise_settings :
    Fieldwise ["pipeline", "output", "discovery", "logging"] fun es => settings (.dict es) := by
  have hfields := (((Fieldwise.single "pipeline" {} limits).and
    "output" (by decide) {} outputSettings).and
    "discovery" (by decide) {} discoverySettings).and
    "logging" (by decide) {} loggingSettings
  have hinjective : (fun p : ((Limits × OutputSettings) × DiscoverySettings) × LoggingSettings =>
      Settings.mk p.1.1.1 p.1.1.2 p.1.2 p.2).Injective := by
    rintro ⟨⟨⟨_, _⟩, _⟩, _⟩ ⟨⟨⟨_, _⟩, _⟩, _⟩ h
    cases h
    rfl
  simp only [settings, record, Checked.map_eq_map, Checked.map_seq Settings.mk,
    Checked.map_seq fun p : Limits × OutputSettings => Settings.mk p.1 p.2,
    Checked.map_seq fun p : (Limits × OutputSettings) × DiscoverySettings =>
      Settings.mk p.1.1 p.1.2 p.2]
  exact hfields.map hinjective

/-! ### Sections -/

theorem record_of_not_isMapping {label : String} {read : Entries → Checked α} {d : Datum}
    (h : d.isMapping = false) : record label read d = .fail (.recordExpected label) := by
  cases d with
  | dict es => cases h
  | _ => rfl

/-- The sections of the settings with their fields. -/
def sections : List (String × List String) :=
  [("pipeline", ["max_files_reading_parallel", "max_test_classes_generating_parallel",
      "max_files_writing_parallel"]),
   ("output", ["save_path", "file_extension", "collision_policy", "newline"]),
   ("discovery", ["patterns", "exclude_dirs"]),
   ("logging", ["suppress_modules"])]

/-- What the settings make of a section, and what its fields have in common. -/
structure IsSection (name : String) (fields : List String) (check : Datum → Checked α)
    (put : α → Settings) : Prop where
  alone : ∀ d, settings (.dict [(name, d)]) = ((check d).under (.key name)).map put
  injective : put.Injective
  fieldwise : Fieldwise fields fun es => check (.dict es)
  /-- Anything but a mapping is refused as such. -/
  refuses : ∃ label, ∀ d : Datum, d.isMapping = false → check d = .fail (.recordExpected label)
  /-- A section that is missing counts as an empty one. -/
  missing : (check (.dict [])).map put = .ok {}
  /-- A field that is missing counts as its default. -/
  default : ∀ key ∈ fields, ∃ d, (Datum.dict (describeSections {})).at? [name, key] = some d ∧
    check (.dict [(key, d)]) = check (.dict [])
  /-- No field takes a mapping, and all mappings are refused alike. -/
  noMapping : ∀ key ∈ fields, ∃ faults, faults ≠ [] ∧
    ∀ es, check (.dict [(key, .dict es)]) = .bad faults

theorem isSection_limits :
    IsSection "pipeline" ["max_files_reading_parallel", "max_test_classes_generating_parallel",
      "max_files_writing_parallel"]
      limits fun l => { limits := l } where
  alone := by
    intro d
    simp only [settings, record, maybe, lookup?, String.reduceEq, if_true, if_false,
      Checked.map_eq_map, Checked.map_map, Checked.seq_ok]
    rfl
  injective := by
    intro _ _ h
    cases h
    rfl
  fieldwise := fieldwise_limits
  refuses := ⟨"ConcurrencyConfig", fun _ => record_of_not_isMapping⟩
  missing := rfl
  default := by
    intro key hkey
    simp only [List.mem_cons, List.not_mem_nil, or_false] at hkey
    rcases hkey with rfl | rfl | rfl <;> exact ⟨_, rfl, rfl⟩
  noMapping := by
    intro key hkey
    simp only [List.mem_cons, List.not_mem_nil, or_false] at hkey
    rcases hkey with rfl | rfl | rfl <;> exact ⟨_, by simp, fun _ => rfl⟩

theorem isSection_outputSettings :
    IsSection "output" ["save_path", "file_extension", "collision_policy", "newline"]
      outputSettings fun o => { output := o } where
  alone := by
    intro d
    simp only [settings, record, maybe, lookup?, String.reduceEq, if_true, if_false,
      Checked.map_eq_map, Checked.map_map, Checked.map_ok, Checked.seq_ok, Checked.ok_seq]
    rfl
  injective := by
    intro _ _ h
    cases h
    rfl
  fieldwise := fieldwise_outputSettings
  refuses := ⟨"OutputConfig", fun _ => record_of_not_isMapping⟩
  missing := rfl
  default := by
    intro key hkey
    simp only [List.mem_cons, List.not_mem_nil, or_false] at hkey
    rcases hkey with rfl | rfl | rfl | rfl <;> exact ⟨_, rfl, rfl⟩
  noMapping := by
    intro key hkey
    simp only [List.mem_cons, List.not_mem_nil, or_false] at hkey
    rcases hkey with rfl | rfl | rfl | rfl <;> exact ⟨_, by simp, fun _ => rfl⟩

theorem isSection_discoverySettings :
    IsSection "discovery" ["patterns", "exclude_dirs"]
      discoverySettings fun s => { discovery := s } where
  alone := by
    intro d
    simp only [settings, record, maybe, lookup?, String.reduceEq, if_true, if_false,
      Checked.map_eq_map, Checked.map_map, Checked.map_ok, Checked.seq_ok, Checked.ok_seq]
    rfl
  injective := by
    intro _ _ h
    cases h
    rfl
  fieldwise := fieldwise_discoverySettings
  refuses := ⟨"DiscoveryConfig", fun _ => record_of_not_isMapping⟩
  missing := rfl
  default := by
    intro key hkey
    simp only [List.mem_cons, List.not_mem_nil, or_false] at hkey
    rcases hkey with rfl | rfl <;> exact ⟨_, rfl, rfl⟩
  noMapping := by
    intro key hkey
    simp only [List.mem_cons, List.not_mem_nil, or_false] at hkey
    rcases hkey with rfl | rfl <;> exact ⟨_, by simp, fun _ => rfl⟩

theorem isSection_loggingSettings :
    IsSection "logging" ["suppress_modules"]
      loggingSettings fun s => { logging := s } where
  alone := by
    intro d
    simp only [settings, record, maybe, lookup?, String.reduceEq, if_true, if_false,
      Checked.map_eq_map, Checked.map_ok, Checked.seq_ok, Checked.ok_seq]
  injective := by
    intro _ _ h
    cases h
    rfl
  fieldwise := fieldwise_loggingSettings
  refuses := ⟨"LoggingConfig", fun _ => record_of_not_isMapping⟩
  missing := rfl
  default := by
    intro key hkey
    rw [List.mem_singleton.mp hkey]
    exact ⟨_, rfl, rfl⟩
  noMapping := by
    intro key hkey
    rw [List.mem_singleton.mp hkey]
    exact ⟨_, by simp, fun _ => rfl⟩

/-- Every section of the settings is one. -/
theorem exists_isSection {name : String} {fields : List String} (h : (name, fields) ∈ sections) :
    ∃ (α : Type) (check : Datum → Checked α) (put : α → Settings),
      IsSection name fields check put := by
  simp only [sections, List.mem_cons, Prod.mk.injEq, List.not_mem_nil, or_false] at h
  rcases h with ⟨rfl, rfl⟩ | ⟨rfl, rfl⟩ | ⟨rfl, rfl⟩ | ⟨rfl, rfl⟩
  · exact ⟨_, _, _, isSection_limits⟩
  · exact ⟨_, _, _, isSection_outputSettings⟩
  · exact ⟨_, _, _, isSection_discoverySettings⟩
  · exact ⟨_, _, _, isSection_loggingSettings⟩

/-- What comes of one field alone. -/
def ofField (section_ field : String) (value? : Option Datum) : Checked Settings :=
  settings (.dict [(section_, .dict (lone field value?))])

namespace IsSection

variable {name : String} {fields : List String} {check : Datum → Checked α} {put : α → Settings}

theorem ofField_eq_iff (h : IsSection name fields check put) {key : String} {a b : Option Datum} :
    ofField name key a = ofField name key b ↔
      check (.dict (lone key a)) = check (.dict (lone key b)) := by
  unfold ofField
  rw [h.alone, h.alone, (Checked.map_injective h.injective).eq_iff,
    (Checked.under_injective _).eq_iff]

/-- A section that may be missing. -/
theorem settings_lone (h : IsSection name fields check put) {value? : Option Datum}
    (hvalue : value?.all isMapping = true) :
    settings (.dict (lone name value?)) =
      ((check (.dict (entriesOf value?))).under (.key name)).map put := by
  cases value? with
  | none =>
    have hmissing := h.missing
    cases hcheck : check (.dict []) with
    | ok a =>
      rw [hcheck] at hmissing
      rw [show entriesOf none = [] from rfl, hcheck]
      exact hmissing.symm
    | bad faults =>
      rw [hcheck] at hmissing
      cases hmissing
  | some d =>
    obtain ⟨es, rfl⟩ := isMapping_iff.mp (Option.all_some ▸ hvalue)
    exact h.alone _

/-- What comes of a section is determined by what comes of its fields. -/
theorem congr (h : IsSection name fields check put) {a b : Option Datum}
    (ha : a.all isMapping = true) (hb : b.all isMapping = true)
    (hfields : ∀ key ∈ fields, ofField name key (lookup? key (entriesOf a)) =
      ofField name key (lookup? key (entriesOf b))) :
    settings (.dict (lone name a)) = settings (.dict (lone name b)) := by
  have hcheck : check (.dict (entriesOf a)) = check (.dict (entriesOf b)) :=
    h.fieldwise.ext fun key hkey => h.ofField_eq_iff.mp (hfields key hkey)
  rw [h.settings_lone ha, h.settings_lone hb, hcheck]

/-- It does not matter which mapping stands where a field wants a value. -/
theorem ofField_dict (h : IsSection name fields check put) {key : String} (hkey : key ∈ fields)
    (es es' : Entries) :
    ofField name key (some (.dict es)) = ofField name key (some (.dict es')) := by
  obtain ⟨faults, _, hall⟩ := h.noMapping key hkey
  rw [h.ofField_eq_iff, lone_some, lone_some, hall, hall]

end IsSection

/-- **Settings are determined by what comes of each field alone**, where nothing but mappings stand
for the sections. -/
theorem settings_congr {es es' : Entries}
    (hes : ∀ s ∈ sections, (lookup? s.1 es).all isMapping = true)
    (hes' : ∀ s ∈ sections, (lookup? s.1 es').all isMapping = true)
    (hfields : ∀ s ∈ sections, ∀ key ∈ s.2, ofField s.1 key ((Datum.dict es).at? [s.1, key]) =
      ofField s.1 key ((Datum.dict es').at? [s.1, key])) :
    settings (.dict es) = settings (.dict es') := by
  refine fieldwise_settings.ext fun name hname => ?_
  obtain ⟨⟨_, fields⟩, hmem, rfl⟩ : ∃ s ∈ sections, s.1 = name := List.mem_map.mp hname
  obtain ⟨α, check, put, hsection⟩ := exists_isSection hmem
  refine hsection.congr (hes _ hmem) (hes' _ hmem) fun key hkey => ?_
  rw [← at?_pair, ← at?_pair]
  exact hfields _ hmem key hkey

end Schema

end TestScaffold
