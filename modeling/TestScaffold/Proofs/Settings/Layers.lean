/-
  TestScaffold/Proofs/Settings/Layers.lean
  ========================================
  **Which layer a setting comes from.**

  Settings are laid over one another in three layers: the file, the environment
  and the command line.  Where every layer has mappings for the sections, each
  field is decided by itself: it has the value of the highest layer that gives it
  one, where a null on the command line gives none, and the default otherwise.
  What comes of loading is what comes of these values, each under its field
  (`Settings.load_by_priority`).  So nothing that a lower layer holds in a field
  counts once a higher one sets it (`Settings.load_congr_of_overridden`), be it
  valid or not.

  Of the disk only the paths of the settings file count (`Settings.load_congr`).
  Layers are merged all the way down, but no field takes a mapping, so what is
  merged below the fields is refused whichever layer it comes from.
-/
import TestScaffold.Datum.Equality
import TestScaffold.Proofs.Settings.Fields
import TestScaffold.Proofs.Settings.Variables
import TestScaffold.Settings.Load

namespace TestScaffold.Settings

open Datum Environment
open Schema (sections ofField exists_isSection)

variable {d : Disk} {env : Environment} {request? : Option String}

/-! ### Loading in two parts -/

/-- What the file and the environment hold, before the command line is laid over it. -/
def lowerLayers (d : Disk) (env : Environment) (request? : Option String) :
    Except LoadError Entries :=
  match fileLayer d request? with
  | .error e => .error e
  | .ok (file, hasOtherKeys) =>
    match environmentLayer env with
    | .error e => .error e
    | .ok environment =>
      if hasOtherKeys then .error (.fault .keyNotText) else .ok (merge file environment)

/-- The command line only counts once the lower layers are there. -/
theorem load_eq_bind (overrides : Entries) : load d env request? overrides =
    (lowerLayers d env request?).bind fun lower =>
      ofEntries (merge lower (withoutNulls overrides)) := by
  unfold load lowerLayers
  cases fileLayer d request? with
  | error e => rfl
  | ok layer =>
    obtain ⟨file, hasOtherKeys⟩ := layer
    cases environmentLayer env with
    | error e => rfl
    | ok environment => cases hasOtherKeys <;> rfl

theorem lowerLayers_eq_ok {file environment : Entries} (hfile : fileLayer d request? = .ok (file, false))
    (henv : env.settings = .ok environment) :
    lowerLayers d env request? = .ok (merge file environment) := by
  simp [lowerLayers, hfile, environmentLayer, henv, Except.mapError]

/-! ### Another disk -/

section Again

variable {d' : Disk}

/-- The paths at which a settings file is looked for. -/
def lookedAt (request? : Option String) : List String :=
  match request?.filter (· ≠ "") with
  | none => searchPaths
  | some s => [s]

theorem exists_of_firstStanding? {p : Path} {ss : List String}
    (h : firstStanding? d ss = .ok (some p)) : ∃ s ∈ ss, p = .ofString s := by
  induction ss with
  | nil => cases h
  | cons s rest ih =>
    unfold firstStanding? at h
    split at h
    · cases h
      exact ⟨s, List.mem_cons_self, rfl⟩
    · obtain ⟨t, ht, hp⟩ := ih h
      exact ⟨t, List.mem_cons_of_mem _ ht, hp⟩
    · cases h

theorem exists_of_file? {p : Path} (h : file? d request? = .ok (some p)) :
    ∃ s ∈ lookedAt request?, p = .ofString s := by
  unfold file? at h
  unfold lookedAt
  cases hrequest : request?.filter (· ≠ "") with
  | none =>
    simp only [hrequest] at h
    exact exists_of_firstStanding? h
  | some s =>
    simp only [hrequest] at h
    split at h <;> cases h
    exact ⟨s, List.mem_singleton_self s, rfl⟩

theorem firstStanding?_congr {ss : List String}
    (h : ∀ s ∈ ss, d'.hasEntry (.ofString s) = d.hasEntry (.ofString s)) :
    firstStanding? d' ss = firstStanding? d ss := by
  induction ss with
  | nil => rfl
  | cons s rest ih =>
    obtain ⟨hs, hrest⟩ := List.forall_mem_cons.mp h
    simp only [firstStanding?, stands, hs, ih hrest]

/-- **Settings stay as they are where nothing has changed at the paths that are looked at.** -/
theorem load_congr {env : Environment} {overrides : Entries}
    (hentry : ∀ s ∈ lookedAt request?, d'.hasEntry (.ofString s) = d.hasEntry (.ofString s))
    (hread : ∀ s ∈ lookedAt request?, d'.read (.ofString s) = d.read (.ofString s)) :
    load d' env request? overrides = load d env request? overrides := by
  have hfile : file? d' request? = file? d request? := by
    unfold lookedAt at hentry
    unfold file?
    split
    · rename_i hnone
      rw [hnone] at hentry
      exact firstStanding?_congr hentry
    · rename_i s hsome
      rw [hsome] at hentry
      simp only [stands, hentry s (List.mem_singleton_self s)]
  have hlayer : fileLayer d' request? = fileLayer d request? := by
    unfold fileLayer
    rw [hfile]
    cases hfound : file? d request? with
    | error e => rfl
    | ok p? =>
      cases p? with
      | none => rfl
      | some p =>
        obtain ⟨s, hs, rfl⟩ := exists_of_file? hfound
        simp only [readFile, hread s hs]
  simp only [load, hlayer]

end Again

/-! ### Sections in every layer -/

/-- Entries with nothing but mappings for the sections that they have. -/
def Sectioned (es : Entries) : Prop := ∀ s ∈ sections, (lookup? s.1 es).all isMapping = true

instance (es : Entries) : Decidable (Sectioned es) :=
  inferInstanceAs (Decidable (∀ s ∈ sections, (lookup? s.1 es).all isMapping = true))

theorem Sectioned.merge {base updates : Entries} (hbase : Sectioned base)
    (hupdates : Sectioned updates) (hkeyed : areKeyed updates = true) :
    Sectioned (merge base updates) := by
  intro s hs
  have hlower := hbase s hs
  have hupper := hupdates s hs
  rw [lookup?_merge hkeyed]
  cases hvalue : lookup? s.1 updates with
  | none => exact hlower
  | some value =>
    rw [hvalue, Option.all_some] at hupper
    rw [Option.all_some, isMapping_layered]
    exact hupper

theorem Sectioned.withoutNulls {es : Entries} (h : Sectioned es) (hkeyed : areKeyed es = true) :
    Sectioned (withoutNulls es) := by
  intro s hs
  have hvalue := h s hs
  rw [lookup?_withoutNulls hkeyed]
  cases hlookup : lookup? s.1 es with
  | none => rfl
  | some value =>
    rw [hlookup, Option.all_some] at hvalue
    obtain ⟨inside, rfl⟩ := isMapping_iff.mp hvalue
    rfl

/-- Variables make mappings of the sections unless one of them is named like a section. -/
theorem sectioned_of_holds {environment : Entries} (h : env.Holds (.dict environment))
    (hways : ∀ s ∈ sections, [s.1] ∉ env.ways) : Sectioned environment := by
  intro s hs
  rw [← at?_singleton_dict]
  by_cases hbelow : ∃ way ∈ env.ways, [s.1] <+: way
  · obtain ⟨way, hmem, hlead⟩ := hbelow
    have hne : [s.1] ≠ way := fun e => hways s hs (e ▸ hmem)
    obtain ⟨es, hes⟩ := h.before way hmem ⟨hlead, hne⟩
    rw [hes]
    rfl
  · have hnone : at? [s.1] (.dict environment) = none := by
      refine h.only (by simp) fun other hmem => ⟨fun hlead => ?_, fun hlead => ?_⟩
      · obtain ⟨_, _, sections, leaf, _, rfl⟩ := mem_ways_iff.mp hmem
        have hwhole : sections ++ [leaf] = [s.1] := by
          refine hlead.eq_of_length_le ?_
          simp
        exact hways s hs (hwhole ▸ hmem)
      · exact hbelow ⟨other, hmem, hlead⟩
    rw [hnone]
    rfl

/-! ### The values that count -/

/-- The value of a field that counts: that of the command line unless it is null, else that of the
environment, else that of the file, else the default. -/
def valueOf (file environment overrides : Entries) (section_ field : String) (default : Datum) :
    Datum :=
  let given? (es : Entries) := (Datum.dict es).at? [section_, field]
  (((given? overrides).filter (!·.isNull)).or ((given? environment).or (given? file))).getD default

/-- Entries with other values under the same keys. -/
def mapValues (f : String → Datum → Datum) (es : Entries) : Entries :=
  es.map fun e => (e.1, f e.1 e.2)

/-- The fields of the settings under their sections, each with the value that counts. -/
def valuesOf (file environment overrides : Entries) : Entries :=
  mapValues (fun section_ d =>
    .dict (mapValues (valueOf file environment overrides section_) (entriesOf (some d))))
    (Schema.describeSections {})

theorem lookup?_mapValues (f : String → Datum → Datum) (key : String) (es : Entries) :
    lookup? key (mapValues f es) = (lookup? key es).map (f key) := by
  induction es with
  | nil => rfl
  | cons head rest ih =>
    obtain ⟨name, value⟩ := head
    have hcons : mapValues f ((name, value) :: rest) = (name, f name value) :: mapValues f rest :=
      rfl
    by_cases hname : name = key
    · subst hname
      simp [hcons, lookup?]
    · simp [hcons, lookup?, hname, ih]

/-- A field holds the value that counts. -/
theorem at?_valuesOf (file environment overrides : Entries) (section_ field : String) :
    (Datum.dict (valuesOf file environment overrides)).at? [section_, field] =
      ((Datum.dict (Schema.describeSections {})).at? [section_, field]).map
        (valueOf file environment overrides section_ field) := by
  rw [at?_pair, at?_pair, valuesOf, lookup?_mapValues]
  cases lookup? section_ (Schema.describeSections {}) with
  | none => rfl
  | some d => exact lookup?_mapValues _ field _

theorem sectioned_valuesOf (file environment overrides : Entries) :
    Sectioned (valuesOf file environment overrides) := by
  intro s _
  rw [valuesOf, lookup?_mapValues]
  cases lookup? s.1 (Schema.describeSections {}) <;> rfl

/-! ### Field by field -/

variable {α : Type} {name key : String} {fields : List String} {check : Datum → Schema.Checked α}
  {put : α → Settings}

/-- What a value is laid over does not count for a field. -/
theorem ofField_layered (h : Schema.IsSection name fields check put) (hkey : key ∈ fields)
    (below? : Option Datum) (value : Datum) :
    ofField name key (some (layered below? value)) = ofField name key (some value) := by
  cases hmapping : value.isMapping with
  | false => rw [layered_of_not_isMapping hmapping]
  | true =>
    obtain ⟨es, rfl⟩ := isMapping_iff.mp hmapping
    obtain ⟨es', hes'⟩ := isMapping_iff.mp ((isMapping_layered below? (.dict es)).trans hmapping)
    rw [hes']
    exact h.ofField_dict hkey _ _

/-- Nor do the nulls inside it. -/
theorem ofField_stripped (h : Schema.IsSection name fields check put) (hkey : key ∈ fields)
    (value : Datum) : ofField name key (some value.stripped) = ofField name key (some value) := by
  cases value with
  | dict es => exact h.ofField_dict hkey _ _
  | _ => rfl

/-- **What comes of a field after merging is what comes of the value that counts.** -/
theorem ofField_merge (h : Schema.IsSection name fields check put) (hkey : key ∈ fields)
    (hname : (name, fields) ∈ sections) {file environment overrides : Entries}
    (hfile : Sectioned file) (henvironment : Sectioned environment)
    (henvironment' : areKeyed environment = true) (hoverrides : Sectioned overrides)
    (hoverrides' : areKeyed overrides = true) :
    ofField name key ((Datum.dict (merge (merge file environment) (withoutNulls overrides))).at?
        [name, key]) =
      ofField name key ((Datum.dict (valuesOf file environment overrides)).at? [name, key]) := by
  obtain ⟨default, hdefault, hcheck⟩ := h.default key hkey
  have hlower := hfile.merge henvironment henvironment'
  have hupper := hoverrides.withoutNulls hoverrides'
  rw [at?_merge (areKeyed_withoutNulls hoverrides') (hlower _ hname) (hupper _ hname),
    at?_withoutNulls hoverrides' (hoverrides _ hname), at?_valuesOf, hdefault, Option.map_some,
    valueOf, at?_merge henvironment' (hfile _ hname) (henvironment _ hname)]
  cases ((Datum.dict overrides).at? [name, key]).filter (!·.isNull) with
  | some value =>
    simp only [Option.map_some, Option.some_or, Option.getD_some]
    rw [ofField_layered h hkey, ofField_stripped h hkey]
  | none =>
    simp only [Option.map_none, Option.none_or]
    cases (Datum.dict environment).at? [name, key] with
    | some value =>
      simp only [Option.some_or, Option.getD_some]
      exact ofField_layered h hkey _ _
    | none =>
      simp only [Option.none_or]
      cases (Datum.dict file).at? [name, key] with
      | some value => rfl
      | none => exact h.ofField_eq_iff.mpr hcheck.symm

/-- Where every layer has mappings for the sections, the fields are decided one by one. -/
theorem ofLayers_eq {file environment overrides : Entries}
    (hfile : Sectioned file) (henvironment : Sectioned environment)
    (henvironment' : areKeyed environment = true) (hoverrides : Sectioned overrides)
    (hoverrides' : areKeyed overrides = true) :
    ofLayers file environment overrides = ofEntries (valuesOf file environment overrides) := by
  have hmerged := (hfile.merge henvironment henvironment').merge
    (hoverrides.withoutNulls hoverrides') (areKeyed_withoutNulls hoverrides')
  have hsettings : Schema.settings
      (.dict (merge (merge file environment) (withoutNulls overrides))) =
        Schema.settings (.dict (valuesOf file environment overrides)) := by
    refine Schema.settings_congr hmerged (sectioned_valuesOf _ _ _) fun s hs key hkey => ?_
    obtain ⟨α, check, put, hsection⟩ := exists_isSection hs
    exact ofField_merge hsection hkey hs hfile henvironment henvironment' hoverrides hoverrides'
  unfold ofLayers ofEntries
  rw [hsettings]

/-- **Each field is decided by the highest layer that gives it a value.** The environment holds at
the way of each variable the meaning of its text, and nothing apart from the ways of variables. -/
theorem load_by_priority {file overrides : Entries} (hfile : fileLayer d request? = .ok (file, false))
    (hfile' : Sectioned file) (hapart : env.ways.Pairwise Apart)
    (hways : ∀ s ∈ sections, [s.1] ∉ env.ways) (hoverrides : Sectioned overrides)
    (hkeyed : areKeyed overrides = true) :
    ∃ environment, env.Holds (.dict environment) ∧
      load d env request? overrides = ofEntries (valuesOf file environment overrides) := by
  obtain ⟨environment, henv, hholds⟩ := exists_holds hapart
  refine ⟨environment, hholds, ?_⟩
  rw [load_eq_bind, lowerLayers_eq_ok hfile henv]
  exact ofLayers_eq hfile' (sectioned_of_holds hholds hways) hholds.isKeyed hoverrides hkeyed

/-- A disk with a settings file in which some values are none that a field takes. -/
def layeredDisk : Disk :=
  Disk.empty.put ".sharpscaffold.toml" []
    (.file ("[output]\nnewline = 3\nfile_extension = '.g.cs'\nsave_path = 'gen'\n" ++
      "[pipeline]\nmax_files_reading_parallel = 0\n").toUTF8)
    Disk.empty.here_isDirectory (by decide)

/-- What stands in its settings file. -/
def layeredFile : Entries :=
  [("output", .dict [("newline", .int 3), ("file_extension", .str ".g.cs"),
      ("save_path", .str "gen")]),
   ("pipeline", .dict [("max_files_reading_parallel", .int 0)])]

theorem fileLayer_layeredDisk : fileLayer layeredDisk none = .ok (layeredFile, false) := by
  decide +kernel

/-- Two variables, one with a value that its field does not take. -/
def layeredVariables : Environment :=
  [("SHARPSCAFFOLD_OUTPUT__NEWLINE", "crlf"), ("SHARPSCAFFOLD_OUTPUT__SAVE_PATH", "2024")]

/-- A command line that sets what is left without a value. -/
def layeredOverrides : Entries :=
  [("pipeline", .dict [("max_files_reading_parallel", .int 2)]),
   ("output", .dict [("save_path", .str "out"), ("collision_policy", .null)])]

theorem lowerLayers_layeredDisk : lowerLayers layeredDisk layeredVariables none =
    .ok (merge layeredFile [("output", .dict [("newline", .str "crlf"), ("save_path", .int 2024)])]) :=
  lowerLayers_eq_ok fileLayer_layeredDisk (by decide +kernel)

/-- The values that no field takes do no harm: for each of them a higher layer has a better one. -/
theorem load_by_priority_layeredDisk :
    ∃ environment, layeredVariables.Holds (.dict environment) ∧
      load layeredDisk layeredVariables none layeredOverrides =
        ofEntries (valuesOf layeredFile environment layeredOverrides) ∧
      load layeredDisk layeredVariables none layeredOverrides =
        .ok { limits := { reading := 2 }
              output := { savePath := "out", extension := ".g.cs", newline := .crlf } } := by
  obtain ⟨environment, hholds, hload⟩ := load_by_priority fileLayer_layeredDisk
    (by decide +kernel) (by decide +kernel : layeredVariables.ways.Pairwise Apart)
    (by decide +kernel) (by decide +kernel : Sectioned layeredOverrides) (by decide +kernel)
  refine ⟨environment, hholds, hload, ?_⟩
  rw [load_eq_bind, lowerLayers_layeredDisk]
  decide +kernel

/-- **What the file holds in a field does not count once a variable or the command line sets it**:
two files that differ in nothing but such fields lead to the same settings, or to the same
failure. -/
theorem load_congr_of_overridden {d' : Disk} {request'? : Option String}
    {file file' overrides : Entries} (hfile : fileLayer d request? = .ok (file, false))
    (hfile' : fileLayer d' request'? = .ok (file', false)) (hsectioned : Sectioned file)
    (hsectioned' : Sectioned file') (hapart : env.ways.Pairwise Apart)
    (hways : ∀ s ∈ sections, [s.1] ∉ env.ways) (hoverrides : Sectioned overrides)
    (hkeyed : areKeyed overrides = true)
    (hsame : ∀ s ∈ sections, ∀ key ∈ s.2, [s.1, key] ∈ env.ways ∨
      (((Datum.dict overrides).at? [s.1, key]).filter (!·.isNull)).isSome = true ∨
        (Datum.dict file).at? [s.1, key] = (Datum.dict file').at? [s.1, key]) :
    load d env request? overrides = load d' env request'? overrides := by
  obtain ⟨environment, henv, hholds⟩ := exists_holds hapart
  have hvariables := sectioned_of_holds hholds hways
  have hvalues : Schema.settings (.dict (valuesOf file environment overrides)) =
      Schema.settings (.dict (valuesOf file' environment overrides)) := by
    refine Schema.settings_congr (sectioned_valuesOf _ _ _) (sectioned_valuesOf _ _ _)
      fun s hs key hkey => ?_
    have hvalue : valueOf file environment overrides s.1 key =
        valueOf file' environment overrides s.1 key := by
      funext default
      unfold valueOf
      rcases hsame s hs key hkey with hway | hgiven | heq
      · obtain ⟨variable_, hmem, sections, leaf, hway, hsplit⟩ := mem_ways_iff.mp hway
        have hnamed := hholds.named variable_ hmem hway
        rw [← hsplit] at hnamed
        simp [hnamed]
      · obtain ⟨value, hvalue⟩ := Option.isSome_iff_exists.mp hgiven
        simp [hvalue]
      · simp [heq]
    rw [at?_valuesOf, at?_valuesOf, hvalue]
  have hentries : ofEntries (valuesOf file environment overrides) =
      ofEntries (valuesOf file' environment overrides) := by
    unfold ofEntries
    rw [hvalues]
  rw [load_eq_bind, load_eq_bind, lowerLayers_eq_ok hfile henv, lowerLayers_eq_ok hfile' henv]
  calc ofLayers file environment overrides
      = ofEntries (valuesOf file environment overrides) :=
        ofLayers_eq hsectioned hvariables hholds.isKeyed hoverrides hkeyed
    _ = ofEntries (valuesOf file' environment overrides) := hentries
    _ = ofLayers file' environment overrides :=
        (ofLayers_eq hsectioned' hvariables hholds.isKeyed hoverrides hkeyed).symm

end TestScaffold.Settings
