/-
  TestScaffold/Proofs/Settings/Sample.lean
  ========================================
  **A sample is loaded back as the defaults wherever it can be loaded.**

  The writer of samples goes by one rule for names and the reader of settings by
  another: TOML has its extension, and for the writer everything else is YAML, while
  the reader takes two extensions for YAML and refuses the rest.  Where the reader
  has a format, it is the one the sample was written in (`sampleFor_eq`), and in
  either format the sample describes the defaults (`parse_sampleIn`).  A sample under
  any other name is written all the same and then refused (`load_writeSample`).
-/
import TestScaffold.Datum.Equality
import TestScaffold.Proofs.Files.Reading
import TestScaffold.Proofs.Files.SameDirectories
import TestScaffold.Proofs.Settings.Description
import TestScaffold.Proofs.Toml.Printing
import TestScaffold.Settings.Sample

namespace TestScaffold

open TestScaffold.Text

/-! ### Samples as data -/

namespace Yaml

deriving instance DecidableEq for Document

/-- The document of a stream of characters. -/
def documentOfChars (cs : List Char) : Except FormatError Document := do
  match ← Composer.document? (← tokens (unifyLineEnds cs)) with
  | none => return {}
  | some (.mapping .dict entries) =>
    let m ← Node.mappingOf {} entries
    return { value := .dict m.entries, hasOtherKeys := m.hasOtherKeys }
  | some n => return { value := ← n.datum }

/-- A document is read from its characters, whatever text they come from. -/
theorem document_of_chars {text : String} {cs : List Char} {doc : Document}
    (hchars : text.toList = cs) (hdoc : documentOfChars cs = .ok doc) :
    document text = .ok doc := by
  subst hchars
  exact hdoc

end Yaml

namespace Settings

open Schema (describeSections)

/-- The data of a sample: the defaults, and nothing that is no setting. -/
def sampleDocument : Yaml.Document := { value := .dict (describeSections {}) }

theorem toList_yamlSample :
    yamlSample.toList = sampleLines.flatMap fun l => l.toList ++ ['\n'] := by
  simp [yamlSample, List.flatMap_map]

set_option maxRecDepth 20000 in
/-- The sample in YAML, with the comments gone, describes the defaults. -/
theorem document_yamlSample : Yaml.document yamlSample = .ok sampleDocument := by
  apply Yaml.document_of_chars
  -- The characters of the lines are put in place one by one, without decoding any of them.
  · rewrite [toList_yamlSample, sampleLines]
    simp only [List.flatMap_cons, List.flatMap_nil]
    repeat rewrite [String.toList_ofList]
    rfl
  · decide +kernel

/-- The sections of settings with their entries. -/
def tables (s : Settings) : List (String × Entries) :=
  (describeSections s).map fun e => (e.1, Datum.entriesOf (some e.2))

theorem map_asTable_tables (s : Settings) : (tables s).map Toml.asTable = describeSections s := rfl

open Schema in
/-- No section has another one in it. -/
theorem isTable_of_mem_tables (s : Settings) :
    ∀ t ∈ tables s, ∀ e ∈ t.2, Toml.isTable e.2 = false := by
  simp only [tables, describeSections, describeLimits, describeOutput, describeDiscovery,
    describeLogging, describeTexts, Datum.entriesOf, Toml.isTable, List.map_cons, List.map_nil,
    List.forall_mem_cons]
  simp

/-- The characters of settings in TOML. -/
theorem toList_render_describeSections (s : Settings) :
    (Toml.render (describeSections s)).toList =
      List.intercalate ['\n'] ((tables s).map Toml.tableChars) := by
  rw [← map_asTable_tables, Toml.toList_render (isTable_of_mem_tables s)]

open Schema Toml in
set_option maxRecDepth 20000 in
/-- The sample in TOML describes the defaults. -/
theorem document_tomlSample : document tomlSample = .ok (describeSections {}) := by
  apply document_of_chars
  · rewrite [tomlSample, toList_render_describeSections]
    simp only [tables, describeSections, describeLimits, describeOutput, describeDiscovery,
      describeLogging, describeTexts, Datum.entriesOf, List.map_cons, List.map_nil, tableChars,
      entryLine, valueText, itemTexts, margin, CollisionPolicy.label, Newline.label,
      String.toList_append, toList_keyText, toList_quotedText, List.flatMap_cons, List.flatMap_nil]
    repeat rewrite [String.toList_ofList]
    rfl
  · decide +kernel

/-! ### Names and formats -/

/-- The extensions of settings files in small letters. -/
def fileExtensions : List String := [".toml", ".yml", ".yaml"]

theorem ofPath?_isSome_iff {p : Path} :
    (FileFormat.ofPath? p).isSome = true ↔ lower p.extension ∈ fileExtensions := by
  simp only [FileFormat.ofPath?, fileExtensions, List.mem_cons, List.not_mem_nil, or_false]
  split
  · simp [*]
  · split <;> simp [*]

example : FileFormat.ofPath? (.ofString "conf.d/Settings.YAML") = some .yaml := by decide +kernel

/-- The sample in a format. -/
def sampleIn : FileFormat → String
  | .toml => tomlSample
  | .yaml => yamlSample

/-- **The writer's rule for names agrees with the reader's** wherever the reader has a format. -/
theorem sampleFor_eq {p : Path} {format : FileFormat} (h : FileFormat.ofPath? p = some format) :
    sampleFor p = sampleIn format := by
  simp only [FileFormat.ofPath?] at h
  split at h
  · cases h
    simp [sampleFor, sampleIn, *]
  · split at h
    · cases h
      simp [sampleFor, sampleIn, *]
    · cases h

/-- **In either format the sample describes the defaults.** -/
theorem parse_sampleIn (format : FileFormat) :
    parse format (sampleIn format) = .ok sampleDocument := by
  cases format with
  | toml =>
    simp only [parse, sampleIn, document_tomlSample]
    rfl
  | yaml => exact document_yamlSample

/-! ### Files -/

variable {d d' : Disk} {p : Path} {s : String} {env : Environment}

/-- A file with the sample of its format has the defaults. -/
theorem readFile_sampleFor {format : FileFormat} (hformat : FileFormat.ofPath? p = some format)
    (hread : d.read p = .ok (sampleFor p).toUTF8) :
    readFile d p = .ok (describeSections {}, false) := by
  simp only [readFile, hformat, hread, Disk.fromUTF8?_toUTF8, sampleFor_eq hformat, parse_sampleIn]
  rfl

/-- A file that was just written is the one that is loaded. -/
theorem fileLayer_of_writeFile {bytes : ByteArray}
    (h : d.writeFile (.ofString s) bytes = .ok d') :
    fileLayer d' (some s) = readFile d' (.ofString s) := by
  have hname : s ≠ "" := by
    rintro rfl
    exact Disk.names_ne_nil_of_writeFile h rfl
  have hrequest : (some s).filter (· ≠ "") = some s := by simp [Option.filter_some, hname]
  have hentry := Disk.hasEntry_of_read (Disk.read_of_writeFile h)
  have hstands : stands d' (.ofString s) = .ok true := by
    rw [stands, hentry]
    rfl
  simp only [fileLayer, file?, hrequest, hstands]

/-- A file without a format is refused, whatever else there is. -/
theorem load_of_unknownFormat (hlayer : fileLayer d (some s) = readFile d (.ofString s))
    (h : FileFormat.ofPath? (.ofString s) = none) (overrides : Entries) :
    load d env (some s) overrides = .error (.settings (.formatUnknown (.ofString s))) := by
  simp only [load, hlayer, readFile, h]

/-- On the empty disk every name of its own can be written to. -/
theorem exists_writeSample_empty {name : String} (hfits : Disk.unfit? (.ofString name) = none)
    (hpath : Path.ofString name = ⟨.here, [name]⟩) (hproper : name ≠ "..")
    (hshort : name.utf8ByteSize ≤ Disk.maxName) :
    ∃ d', writeSample Disk.empty (.ofString name) = .ok d' := by
  have hseat : Disk.Seat Disk.empty (.ofString name) [] name :=
    ⟨hfits, by rw [hpath]; rfl, rfl, by rw [hpath]; rfl, hproper, hshort⟩
  exact hseat.putFile _ _ rfl

/-- **A sample that was written is loaded back as the defaults, as long as its name is one of a
settings file**; under any other name it is refused. -/
theorem load_writeSample (hwrite : writeSample d (.ofString s) = .ok d')
    (henv : ∀ v ∈ env, startsWith Environment.lead v.1 = false) :
    load d' env (some s) [] =
      if lower (Path.ofString s).extension ∈ fileExtensions then .ok {}
      else .error (.settings (.formatUnknown (.ofString s))) := by
  have hlayer := fileLayer_of_writeFile hwrite
  have hknown := ofPath?_isSome_iff (p := .ofString s)
  cases hformat : FileFormat.ofPath? (.ofString s) with
  | none =>
    rw [hformat] at hknown
    rw [if_neg (hknown.not.mp (by decide)), load_of_unknownFormat hlayer hformat]
  | some format =>
    rw [hformat] at hknown
    rw [if_pos (hknown.mp rfl)]
    have hfile : fileLayer d' (some s) = .ok (describeSections {}, false) :=
      hlayer.trans (readFile_sampleFor hformat (Disk.read_of_writeFile hwrite))
    have hlower := lowerLayers_eq_ok hfile (Environment.settings_eq_nil henv)
    have hdefaults : ofEntries (describeSections {}) = .ok {} :=
      ofEntries_describeSections ⟨by decide, by decide⟩
    rw [load_eq_bind, hlower]
    exact hdefaults

theorem load_writeSample_toml :
    ∃ d', writeSample Disk.empty (.ofString "settings.toml") = .ok d' ∧
      load d' [("HOME", "/root")] (some "settings.toml") [] = .ok {} := by
  have hfits : Disk.unfit? (.ofString "settings.toml") = none := by decide +kernel
  have henv : ∀ v ∈ [("HOME", "/root")], startsWith Environment.lead v.1 = false := by
    decide +kernel
  obtain ⟨d', hwrite⟩ := exists_writeSample_empty hfits (by decide +kernel) (by decide)
    (by decide +kernel)
  exact ⟨d', hwrite, (load_writeSample hwrite henv).trans (if_pos (by decide +kernel))⟩

/-- A sample in a text file is written, and then it is no settings file. -/
theorem load_writeSample_text :
    ∃ d', writeSample Disk.empty (.ofString "config.txt") = .ok d' ∧
      load d' [] (some "config.txt") [] =
        .error (.settings (.formatUnknown (.ofString "config.txt"))) := by
  have hfits : Disk.unfit? (.ofString "config.txt") = none := by decide +kernel
  obtain ⟨d', hwrite⟩ := exists_writeSample_empty hfits (by decide +kernel) (by decide)
    (by decide +kernel)
  have hlayer := fileLayer_of_writeFile hwrite
  exact ⟨d', hwrite, load_of_unknownFormat hlayer (by decide +kernel) []⟩

end Settings

end TestScaffold
