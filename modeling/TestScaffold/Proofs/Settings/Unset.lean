/-
  TestScaffold/Proofs/Settings/Unset.lean
  =======================================
  **When options that are not given leave the settings alone.**

  An option that is not given is a null in its section.  The nulls are taken out
  of the command line, but the sections are not: they are laid as empty mappings
  over what stands below.  Over a mapping this changes nothing, and over nothing
  neither, for a missing section counts as an empty one.  Over anything else it
  takes the place of a value that would have been refused
  (`Settings.load_bareDisk`, where the file has a section with nothing in it).

  `Schema.LeavesAlone` says when the outcome stays the same, and it is exact
  (`Settings.load_unset_iff`).  For the options of the command that generates
  tests only the two sections that they are in can make a difference
  (`Settings.load_noOptions_iff`).
-/
import TestScaffold.Command.Session
import TestScaffold.Proofs.Settings.Layers

namespace TestScaffold

/-! ### Data that choose nothing -/

namespace Datum

mutual

/-- Whether a datum chooses nothing: a null, or a mapping of nothing but such. -/
def isUnset : Datum → Bool
  | null => true
  | dict es => areUnset es
  | _ => false

/-- Whether no entry chooses anything. -/
def areUnset : Entries → Bool
  | [] => true
  | (_, value) :: rest => isUnset value && areUnset rest

end

theorem isUnset_of_lookup? {key : String} {value : Datum} {es : Entries} (h : areUnset es = true)
    (hvalue : lookup? key es = some value) : value.isUnset = true := by
  induction es with
  | nil => cases hvalue
  | cons head rest ih =>
    obtain ⟨name, first⟩ := head
    obtain ⟨hfirst, hrest⟩ := Bool.and_eq_true_iff.mp h
    simp only [lookup?] at hvalue
    split at hvalue
    · cases hvalue
      exact hfirst
    · exact ih hrest hvalue

/-- What is left of a datum that chooses nothing is a mapping, if anything. -/
theorem isMapping_of_isUnset {d : Datum} (h : d.isUnset = true) (hnull : d.isNull = false) :
    d.isMapping = true := by
  cases d with
  | dict es => rfl
  | null => cases hnull
  | _ => cases h

/-- A key of entries that choose nothing either adds nothing to what stands below it, or lays a
mapping over it that chooses nothing itself. -/
theorem lookup?_merge_unset {overrides : Entries} (hkeyed : areKeyed overrides = true)
    (hunset : areUnset overrides = true) (lower : Entries) (key : String) :
    ((lookup? key overrides).any isMapping = false ∧
        lookup? key (merge lower (withoutNulls overrides)) = lookup? key lower) ∨
      ∃ es, lookup? key overrides = some (dict es) ∧ areUnset es = true ∧ areKeyed es = true ∧
        lookup? key (merge lower (withoutNulls overrides)) =
          some (layered (lookup? key lower) (dict (withoutNulls es))) := by
  rw [lookup?_merge (areKeyed_withoutNulls hkeyed), lookup?_withoutNulls hkeyed]
  cases hvalue : lookup? key overrides with
  | none => exact .inl ⟨rfl, rfl⟩
  | some value =>
    have hthis := isUnset_of_lookup? hunset hvalue
    cases hnull : value.isNull with
    | true =>
      cases value with
      | null => exact .inl ⟨rfl, rfl⟩
      | _ => cases hnull
    | false =>
      obtain ⟨es, rfl⟩ := isMapping_iff.mp (isMapping_of_isUnset hthis hnull)
      exact .inr ⟨es, rfl, hthis, isKeyed_of_lookup? hkeyed hvalue, rfl⟩

end Datum

/-! ### What such data change -/

namespace Schema

open Datum

variable {α : Type} {name : String} {fields : List String} {check : Datum → Checked α}
  {put : α → Settings} {below? : Option Datum} {es : Entries}

/-- A mapping that chooses nothing leaves a section alone: it lies over a mapping or over nothing,
and where it has a mapping for a field itself, the value of the field is refused as that one is. -/
structure LeavesAlone (section_ : String) (fields : List String) (below? : Option Datum)
    (es : Entries) : Prop where
  isMapping : below?.all Datum.isMapping = true
  refused : ∀ key ∈ fields, (lookup? key es).any Datum.isMapping = true →
    ofField section_ key (lookup? key (entriesOf below?)) = ofField section_ key (some (.dict []))

namespace IsSection

/-- What comes of a section that is left alone stays the same. -/
theorem settings_layered_unset (h : IsSection name fields check put) (hkeyed : areKeyed es = true)
    (hunset : areUnset es = true) (halone : LeavesAlone name fields below? es) :
    settings (.dict (lone name (some (layered below? (.dict (withoutNulls es)))))) =
      settings (.dict (lone name below?)) := by
  refine h.congr (by rw [Option.all_some, isMapping_layered]; rfl) halone.isMapping
    fun key hkey => ?_
  rw [lookup?_layered (areKeyed_withoutNulls hkeyed) halone.isMapping, lookup?_withoutNulls hkeyed]
  cases hvalue : lookup? key es with
  | none => rfl
  | some value =>
    cases hnull : value.isNull with
    | true => simp [Option.filter_some, hnull]
    | false =>
      have hmapping := isMapping_of_isUnset (isUnset_of_lookup? hunset hvalue) hnull
      obtain ⟨inside, rfl⟩ := isMapping_iff.mp hmapping
      rw [halone.refused key hkey (by rw [hvalue]; rfl)]
      calc ofField name key (some (layered _ (.dict (withoutNulls inside))))
          = ofField name key (some (.dict (withoutNulls inside))) :=
            Settings.ofField_layered h hkey _ _
        _ = ofField name key (some (.dict [])) := h.ofField_dict hkey _ _

/-- A section that is refused like a mapping is one. -/
theorem isMapping_of_faults_eq (h : IsSection name fields check put) {d : Datum}
    (hfaults : (settings (.dict [(name, d)])).faults =
      (settings (.dict [(name, .dict es)])).faults) : d.isMapping = true := by
  rw [h.alone, h.alone, Checked.faults_map, Checked.faults_map, Checked.faults_under,
    Checked.faults_under] at hfaults
  have hcheck : (check d).faults = (check (.dict es)).faults :=
    Checked.map_under_injective _ hfaults
  cases hd : d.isMapping with
  | true => rfl
  | false =>
    obtain ⟨label, hlabel⟩ := h.refuses
    have hmem : (⟨[], .recordExpected label⟩ : Fault) ∈ (check (.dict es)).faults := by
      rw [← hcheck, hlabel d hd]
      exact List.mem_singleton_self _
    obtain ⟨key, _, hat⟩ := h.fieldwise.placed _ hmem
    cases hat

/-- A field is refused like a mapping if its section is refused like one with a mapping there. -/
theorem ofField_of_faults_eq (h : IsSection name fields check put) {a b : Option Datum}
    (ha : a.all isMapping = true) (hb : b.all isMapping = true)
    (hfaults : (settings (.dict (lone name a))).faults = (settings (.dict (lone name b))).faults)
    {key : String} (hkey : key ∈ fields) {inside : Entries}
    (hmapping : lookup? key (entriesOf b) = some (.dict inside)) :
    ofField name key (lookup? key (entriesOf a)) = ofField name key (some (.dict [])) := by
  rw [h.settings_lone ha, h.settings_lone hb, Checked.faults_map, Checked.faults_map,
    Checked.faults_under, Checked.faults_under] at hfaults
  have hcheck : (check (.dict (entriesOf a))).faults = (check (.dict (entriesOf b))).faults :=
    Checked.map_under_injective _ hfaults
  have hfield := congrArg (List.filter (·.isAt key)) hcheck
  rw [h.fieldwise.faults_at _ key hkey, h.fieldwise.faults_at _ key hkey, hmapping] at hfield
  obtain ⟨faults, hne, hall⟩ := h.noMapping key hkey
  rw [← h.ofField_dict hkey inside []]
  refine h.ofField_eq_iff.mpr (Checked.eq_of_faults_eq hfield ?_)
  rw [lone_some, hall]
  exact hne

/-- A section about which the same is told has been left alone. -/
theorem leavesAlone_of_faults_eq (h : IsSection name fields check put)
    (hkeyed : areKeyed es = true) (hfaults : (settings (.dict (lone name below?))).faults =
      (settings (.dict (lone name (some (layered below? (.dict (withoutNulls es))))))).faults) :
    LeavesAlone name fields below? es := by
  have hlaid : (layered below? (.dict (withoutNulls es))).isMapping = true :=
    isMapping_layered below? _
  have hbelow : below?.all isMapping = true := by
    cases below? with
    | none => rfl
    | some d =>
      obtain ⟨inside, hinside⟩ := isMapping_iff.mp hlaid
      rw [hinside] at hfaults
      exact h.isMapping_of_faults_eq hfaults
  refine ⟨hbelow, fun key hkey hany => ?_⟩
  obtain ⟨value, hvalue, hmapping⟩ := (Option.any_eq_true _ _).mp hany
  obtain ⟨inside, rfl⟩ := isMapping_iff.mp hmapping
  have hinside : ∃ gs, lookup? key (entriesOf
      (some (layered below? (.dict (withoutNulls es))))) = some (.dict gs) := by
    rw [lookup?_layered (areKeyed_withoutNulls hkeyed) hbelow, lookup?_withoutNulls hkeyed, hvalue]
    obtain ⟨gs, hgs⟩ := isMapping_iff.mp
      (isMapping_layered (lookup? key (entriesOf below?)) (.dict (withoutNulls inside)))
    exact ⟨gs, congrArg some hgs⟩
  obtain ⟨gs, hgs⟩ := hinside
  exact h.ofField_of_faults_eq hbelow (by rw [Option.all_some]; exact hlaid) hfaults hkey hgs

end IsSection

/-- **Entries that choose nothing change nothing if and only if their mappings leave alone the
sections that they lie over.** -/
theorem settings_merge_unset_iff {lower overrides : Entries} (hkeyed : areKeyed overrides = true)
    (hunset : areUnset overrides = true) :
    settings (.dict (merge lower (withoutNulls overrides))) = settings (.dict lower) ↔
      ∀ s ∈ sections, ∀ es, lookup? s.1 overrides = some (.dict es) →
        LeavesAlone s.1 s.2 (lookup? s.1 lower) es := by
  have hlookup := lookup?_merge_unset hkeyed hunset lower
  constructor
  · intro heq s hs es hover
    obtain ⟨α, check, put, hsection⟩ := exists_isSection hs
    rcases hlookup s.1 with ⟨hnone, _⟩ | ⟨es', hover', _, heskeyed, hlaid⟩
    · rw [hover] at hnone
      cases hnone
    · cases hover.symm.trans hover'
      have hname : s.1 ∈ ["pipeline", "output", "discovery", "logging"] := List.mem_map_of_mem hs
      refine hsection.leavesAlone_of_faults_eq heskeyed ?_
      rw [← hlaid, ← fieldwise_settings.faults_at _ _ hname,
        ← fieldwise_settings.faults_at _ _ hname, heq]
  · intro h
    refine fieldwise_settings.ext fun name hname => ?_
    obtain ⟨s, hs, rfl⟩ : ∃ s ∈ sections, s.1 = name := List.mem_map.mp hname
    obtain ⟨α, check, put, hsection⟩ := exists_isSection hs
    rcases hlookup s.1 with ⟨_, hsame⟩ | ⟨es, hover, hes, heskeyed, hlaid⟩
    · rw [hsame]
    · rw [hlaid]
      exact hsection.settings_layered_unset heskeyed hes (h s hs es hover)

end Schema

/-! ### Loading -/

namespace Settings

open Datum
open Schema (LeavesAlone sections)

variable {d : Disk} {env : Environment} {request? : Option String}

theorem ofEntries_eq_iff {es es' : Entries} :
    ofEntries es = ofEntries es' ↔ Schema.settings (.dict es) = Schema.settings (.dict es') := by
  unfold ofEntries
  cases Schema.settings (.dict es) <;> cases Schema.settings (.dict es') <;>
    simp [Schema.Checked.toExcept, Except.mapError]

/-- Two command lines lead to the same if and only if the settings that they leave are the same. -/
theorem load_eq_iff {overrides overrides' : Entries} :
    load d env request? overrides = load d env request? overrides' ↔
      ∀ lower, lowerLayers d env request? = .ok lower →
        Schema.settings (.dict (merge lower (withoutNulls overrides))) =
          Schema.settings (.dict (merge lower (withoutNulls overrides'))) := by
  rw [load_eq_bind, load_eq_bind]
  cases lowerLayers d env request? with
  | error e => simp [Except.bind]
  | ok lower => simp [Except.bind, ofEntries_eq_iff]

/-- **A command line that chooses nothing leads where no command line leads if and only if it leaves
alone what the lower layers hold.** -/
theorem load_unset_iff {overrides : Entries} (hkeyed : areKeyed overrides = true)
    (hunset : areUnset overrides = true) :
    load d env request? overrides = load d env request? [] ↔
      ∀ lower, lowerLayers d env request? = .ok lower →
        ∀ s ∈ sections, ∀ es, lookup? s.1 overrides = some (.dict es) →
          LeavesAlone s.1 s.2 (lookup? s.1 lower) es := by
  rw [load_eq_iff]
  exact forall₂_congr fun lower _ => Schema.settings_merge_unset_iff hkeyed hunset

/-- A command line with the sections of the options and none of the options given. -/
def noOptions : Entries := ({ paths := [] } : Command.GenerateRequest).overrides

/-- There are nothing but nulls in the sections of the options. -/
theorem leavesAlone_noOptions {s : String × List String} (hs : s ∈ sections) {below? : Option Datum}
    {es : Entries} (hes : lookup? s.1 noOptions = some (.dict es)) :
    LeavesAlone s.1 s.2 below? es ↔ below?.all isMapping = true := by
  have hnulls : ∀ key ∈ s.2, (lookup? key es).any isMapping = false := by
    simp only [sections, List.mem_cons, List.not_mem_nil, or_false] at hs
    rcases hs with rfl | rfl | rfl | rfl <;> cases hes <;> decide
  refine ⟨LeavesAlone.isMapping, fun h => ⟨h, fun key hkey hany => ?_⟩⟩
  rw [hnulls key hkey] at hany
  cases hany

/-- Over the file and the variables of `layeredDisk` the sections of the options change nothing. -/
theorem load_unset_iff_layeredDisk :
    areKeyed noOptions = true ∧ areUnset noOptions = true ∧
      load layeredDisk layeredVariables none noOptions =
        load layeredDisk layeredVariables none [] := by
  have hkeyed : areKeyed noOptions = true := by decide
  have hunset : areUnset noOptions = true := by decide
  refine ⟨hkeyed, hunset, (load_unset_iff hkeyed hunset).mpr fun lower hlower s hs es hes => ?_⟩
  cases lowerLayers_layeredDisk.symm.trans hlower
  have hsectioned : Sectioned (merge layeredFile
      [("output", .dict [("newline", .str "crlf"), ("save_path", .int 2024)])]) := by
    decide +kernel
  exact (leavesAlone_noOptions hs hes).mpr (hsectioned s hs)

/-- A disk with a settings file that has a section with nothing in it. -/
def bareDisk : Disk :=
  Disk.empty.put ".sharpscaffold.yml" [] (.file "pipeline:\n".toUTF8) Disk.empty.here_isDirectory
    (by decide)

/-- The section with nothing in it is refused, unless a command line that chooses nothing lies over
it. -/
theorem load_bareDisk :
    areUnset noOptions = true ∧ load bareDisk [] none noOptions = .ok {} ∧
      load bareDisk [] none [] = .error (.settings (.invalid
        ⟨"SharpScaffoldConfig", [⟨[.key "pipeline"], .recordExpected "ConcurrencyConfig"⟩]⟩)) := by
  decide +kernel

/-- **Without an option the command that generates tests has the settings of the lower layers if and
only if these have mappings for the sections of the options.** -/
theorem load_noOptions_iff : load d env request? noOptions = load d env request? [] ↔
    ∀ lower, lowerLayers d env request? = .ok lower →
      (lookup? "pipeline" lower).all isMapping = true ∧
        (lookup? "output" lower).all isMapping = true := by
  rw [load_eq_iff]
  refine forall₂_congr fun lower _ => ?_
  rw [show withoutNulls [] = [] from rfl, merge_nil,
    Schema.settings_merge_unset_iff (by decide) (by decide)]
  constructor
  · intro h
    have hpipeline := h _ (List.mem_cons_self) _ rfl
    have houtput := h _ (List.mem_cons_of_mem _ List.mem_cons_self) _ rfl
    exact ⟨hpipeline.isMapping, houtput.isMapping⟩
  · rintro ⟨hpipeline, houtput⟩ s hs es hes
    rw [leavesAlone_noOptions hs hes]
    simp only [sections, List.mem_cons, List.not_mem_nil, or_false] at hs
    rcases hs with rfl | rfl | rfl | rfl
    · exact hpipeline
    · exact houtput
    · cases hes
    · cases hes

end Settings

end TestScaffold
