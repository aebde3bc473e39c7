/-
  TestScaffold/Proofs/Settings/PlainText.lean
  ===========================================
  **What a setting has of the text of its variable.**

  The text of a variable is read before it is known which setting it is for.  A
  switch word becomes a boolean, a number a number and a text with a comma a list,
  and only what is none of these stays a text (`Datum.IsItself`).  So

  * a setting that is a text has the text of its variable if and only if it stays
    one (`Settings.load_savePath`), and is refused otherwise;
  * a setting that is a list has the items of its variable if and only if there
    is a comma, so that two items or more come back as they were and a single one
    never does (`Settings.load_excluded`).
-/
import TestScaffold.Proofs.Number.Notation
import TestScaffold.Proofs.Settings.Layers
import TestScaffold.Proofs.Text.Pieces

namespace TestScaffold

namespace Text

/-- A character that is no capital letter stays in small letters. -/
theorem mem_lowerFrom {c : Char} (hsmall : toSmall c = [c]) (hsigma : c ≠ 'Σ') {cs : List Char} :
    ∀ {before : List Char}, c ∈ cs → c ∈ lowerFrom before cs := by
  induction cs with
  | nil => simp
  | cons d rest ih =>
    intro before hc
    rw [lowerFrom, List.mem_append]
    rcases List.mem_cons.mp hc with rfl | hc
    · refine .inl ?_
      simp [hsigma, hsmall]
    · exact .inr (ih hc)

end Text

/-! ### Readings -/

namespace Datum

open TestScaffold.Text

/-- The words for booleans. -/
def switchWords : List String := ["true", "yes", "on", "false", "no", "off"]

theorem switchOf?_eq_none_iff {s : String} : switchOf? s = none ↔ lower s ∉ switchWords := by
  have hwords : switchWords = ["true", "yes", "on"] ++ ["false", "no", "off"] := rfl
  rw [hwords, List.mem_append, not_or]
  simp only [switchOf?]
  split
  · simp_all
  · split <;> simp_all

/-- A text with a point is read as a decimal, one without as an integer. -/
theorem numberOf?_eq_none_iff {s : String} :
    numberOf? s = none ↔ ¬ Numeral.IsNumeral (Numeral.bare s) := by
  have hpoint : '.' ∈ Numeral.bare s ↔ '.' ∈ s.toList :=
    Numeral.mem_bare_iff (by decide) (by decide) (by decide)
  by_cases h : '.' ∈ s.toList
  · rw [← Numeral.decimal?_isSome_iff (hpoint.mpr h)]
    simp [numberOf?, hasChar, h]
  · rw [← Numeral.integer?_isSome_iff (hpoint.not.mpr h)]
    simp [numberOf?, hasChar, h]

/-- A text that stands for nothing but itself. -/
structure IsItself (s : String) : Prop where
  noSwitch : lower s ∉ switchWords
  noNumeral : ¬ Numeral.IsNumeral (Numeral.bare s)
  noComma : ',' ∉ s.toList

theorem ofPlain_of_isItself {s : String} (h : IsItself s) : ofPlain s = str s := by
  have hswitch := switchOf?_eq_none_iff.mpr h.noSwitch
  have hnumber := numberOf?_eq_none_iff.mpr h.noNumeral
  simp [ofPlain, hswitch, hnumber, hasChar, h.noComma]

/-- A text with a comma is a list, for neither a switch word nor a number has one. -/
theorem ofPlain_of_comma {s : String} (h : ',' ∈ s.toList) :
    ofPlain s = list ((itemsOf s).map str) := by
  have hswitch : switchOf? s = none := by
    rw [switchOf?_eq_none_iff]
    intro hword
    have hcomma : ',' ∈ (lower s).toList := by
      rw [lower, String.toList_ofList]
      exact mem_lowerFrom (by decide) (by decide) h
    have hwords : ∀ word ∈ switchWords, ',' ∉ word.toList := by decide
    exact hwords _ hword hcomma
  have hnumber : numberOf? s = none := by
    rw [numberOf?_eq_none_iff]
    intro hnumeral
    have hcomma : ',' ∈ Numeral.bare s :=
      (Numeral.mem_bare_iff (by decide) (by decide) (by decide)).mpr h
    cases hnumeral.isNumeralChar ',' hcomma
  simp [ofPlain, hswitch, hnumber, hasChar, h]

example : ofPlain "bin, obj" = list [str "bin", str "obj"] := by decide +kernel

theorem exists_of_numberOf?_eq_some {s : String} {d : Datum} (h : numberOf? s = some d) :
    (∃ n, d = int n) ∨ ∃ x, d = float x := by
  unfold numberOf? at h
  split at h
  · obtain ⟨x, _, rfl⟩ := Option.map_eq_some_iff.mp h
    exact .inr ⟨x, rfl⟩
  · obtain ⟨n, _, rfl⟩ := Option.map_eq_some_iff.mp h
    exact .inl ⟨n, rfl⟩

/-- What a text can be read as. -/
theorem ofPlain_cases (s : String) :
    (IsItself s ∧ ofPlain s = str s) ∨
      (',' ∈ s.toList ∧ ofPlain s = list ((itemsOf s).map str)) ∨
        (¬ IsItself s ∧ ',' ∉ s.toList ∧
          ((∃ b, ofPlain s = bool b) ∨ (∃ n, ofPlain s = int n) ∨ ∃ x, ofPlain s = float x)) := by
  by_cases hitself : IsItself s
  · exact .inl ⟨hitself, ofPlain_of_isItself hitself⟩
  · by_cases hcomma : ',' ∈ s.toList
    · exact .inr (.inl ⟨hcomma, ofPlain_of_comma hcomma⟩)
    · refine .inr (.inr ⟨hitself, hcomma, ?_⟩)
      cases hswitch : switchOf? s with
      | some b => exact .inl ⟨b, by simp only [ofPlain, hswitch]⟩
      | none =>
        cases hnumber : numberOf? s with
        | some d =>
          have hd : ofPlain s = d := by simp only [ofPlain, hswitch, hnumber]
          rw [hd]
          exact .inr (exists_of_numberOf?_eq_some hnumber)
        | none =>
          exact absurd ⟨switchOf?_eq_none_iff.mp hswitch, numberOf?_eq_none_iff.mp hnumber, hcomma⟩
            hitself

/-- A text is taken for a text if and only if it stands for nothing else. -/
theorem text_ofPlain (s : String) :
    (IsItself s → Schema.text (ofPlain s) = .ok s) ∧
      (¬ IsItself s → Schema.text (ofPlain s) = .fail .textExpected) := by
  rcases ofPlain_cases s with ⟨hitself, h⟩ | ⟨hcomma, h⟩ | ⟨hother, _, h⟩
  · exact ⟨fun _ => by rw [h]; rfl, fun hother => absurd hitself hother⟩
  · exact ⟨fun hitself => absurd hcomma hitself.noComma, fun _ => by rw [h]; rfl⟩
  · refine ⟨fun hitself => absurd hitself hother, fun _ => ?_⟩
    rcases h with ⟨b, h⟩ | ⟨n, h⟩ | ⟨x, h⟩ <;> rw [h] <;> rfl

theorem itemsFrom_text (items : List String) :
    ∀ position, Schema.itemsFrom Schema.text position (items.map str) = .ok items := by
  induction items with
  | nil => exact fun _ => rfl
  | cons item rest ih =>
    intro position
    rw [List.map_cons, Schema.itemsFrom, ih]
    rfl

/-- A text is taken for a list if and only if it has a comma. -/
theorem list_ofPlain (s : String) :
    (',' ∈ s.toList → Schema.list Schema.text (ofPlain s) = .ok (itemsOf s)) ∧
      (',' ∉ s.toList → Schema.list Schema.text (ofPlain s) = .fail .listExpected) := by
  rcases ofPlain_cases s with ⟨hitself, h⟩ | ⟨hcomma, h⟩ | ⟨_, hnone, h⟩
  · exact ⟨fun hcomma => absurd hcomma hitself.noComma, fun _ => by rw [h]; rfl⟩
  · exact ⟨fun _ => by rw [h]; exact itemsFrom_text _ 0, fun hnone => absurd hcomma hnone⟩
  · refine ⟨fun hcomma => absurd hcomma hnone, fun _ => ?_⟩
    rcases h with ⟨b, h⟩ | ⟨n, h⟩ | ⟨x, h⟩ <;> rw [h] <;> rfl

/-! ### Items -/

/-- A text that can be an item between commas: it has none, and no blank at its ends. -/
structure IsItem (s : String) : Prop where
  noComma : ',' ∉ s.toList
  head : ∀ c ∈ s.toList.head?, isBlank c = false
  last : ∀ c ∈ s.toList.getLast?, isBlank c = false

theorem isItem_iff {s : String} : IsItem s ↔
    ',' ∉ s.toList ∧ s.toList.head?.any isBlank = false ∧ s.toList.getLast?.any isBlank = false := by
  have hend : ∀ c? : Option Char, c?.any isBlank = false ↔ ∀ c ∈ c?, isBlank c = false := by
    intro c?
    cases c? <;> simp
  rw [hend, hend]
  exact ⟨fun ⟨hcomma, hhead, hlast⟩ => ⟨hcomma, hhead, hlast⟩,
    fun ⟨hcomma, hhead, hlast⟩ => ⟨hcomma, hhead, hlast⟩⟩

instance (s : String) : Decidable (IsItem s) := decidable_of_iff _ isItem_iff.symm

theorem IsItem.trim {s : String} (h : IsItem s) : trim s = s := by
  rw [Text.trim, trimChars_of_ends h.head h.last, String.ofList_toList]

/-- **Items come back from the text that joins them.** -/
theorem itemsOf_joinWith {items : List String} (hne : items ≠ []) (h : ∀ item ∈ items, IsItem item) :
    itemsOf (joinWith "," items) = items := by
  have hsplit : splitOn ',' (joinWith "," items) = items :=
    splitOn_joinWith hne fun item hitem => (h item hitem).noComma
  rw [itemsOf, hsplit]
  exact (List.map_congr_left fun item hitem => (h item hitem).trim).trans (List.map_id' _)

/-- There is a comma between items. -/
theorem comma_mem_joinWith_iff {items : List String} (h : ∀ item ∈ items, IsItem item) :
    ',' ∈ (joinWith "," items).toList ↔ 2 ≤ items.length := by
  cases items with
  | nil => simp [joinWith]
  | cons s rest =>
    cases rest with
    | nil => simp [joinWith, (h s List.mem_cons_self).noComma]
    | cons t rest => simp [joinWith]

end Datum

/-! ### Loading -/

namespace Settings

open Datum
open TestScaffold.Text

variable {d : Disk}

/-- One variable and nothing else is a field of a section. -/
theorem load_variable (hbare : file? d none = .ok none) {name value section_ field : String}
    (hway : Environment.wayOf? name = some ([section_], field)) :
    load d [(name, value)] none [] = ofEntries [(section_, .dict [(field, .ofPlain value)])] := by
  have hfile : fileLayer d none = .ok ([], false) := by simp only [fileLayer, hbare]
  have henv : Environment.settings [(name, value)] =
      .ok [(section_, .dict [(field, .ofPlain value)])] := by
    simp only [Environment.settings, List.foldlM, Environment.addVariable, hway, Environment.plant,
      lookup?, Option.getD_none]
    rfl
  rw [load_eq_bind, lowerLayers_eq_ok hfile henv]
  rfl

/-- The variable of the save path. -/
def savePathVariable : String := "SHARPSCAFFOLD_OUTPUT__SAVE_PATH"

/-- The variable of the directories that are left out. -/
def excludedVariable : String := "SHARPSCAFFOLD_DISCOVERY__EXCLUDE_DIRS"

theorem wayOf?_savePathVariable :
    Environment.wayOf? savePathVariable = some (["output"], "save_path") := by
  rfl

theorem wayOf?_excludedVariable :
    Environment.wayOf? excludedVariable = some (["discovery"], "exclude_dirs") := by
  rfl

theorem outputSettings_savePath (d : Datum) : Schema.outputSettings (.dict [("save_path", d)]) =
    ((Schema.text d).under (.key "save_path")).map fun s => { savePath := s } := by
  simp only [Schema.outputSettings, Schema.record, Schema.maybe, lookup?, String.reduceEq, if_true,
    if_false, Schema.Checked.map_eq_map, Schema.Checked.map_map, Schema.Checked.seq_ok]
  rfl

theorem discoverySettings_excluded (d : Datum) :
    Schema.discoverySettings (.dict [("exclude_dirs", d)]) =
      ((Schema.list Schema.text d).under (.key "exclude_dirs")).map fun names =>
        { excluded := names } := by
  simp only [Schema.discoverySettings, Schema.record, Schema.maybe, lookup?, String.reduceEq,
    if_true, if_false, Schema.Checked.map_eq_map, Schema.Checked.map_ok, Schema.Checked.ok_seq]

/-- **The save path is the text of its variable if and only if that stands for nothing else**; any
other text is refused where the save path stands. -/
theorem load_savePath (hbare : file? d none = .ok none) (text : String) :
    (IsItself text → load d [(savePathVariable, text)] none [] =
      .ok { output := { savePath := text } }) ∧
    (¬ IsItself text → load d [(savePathVariable, text)] none [] =
      .error (.settings (.invalid ⟨"SharpScaffoldConfig",
        [⟨[.key "output", .key "save_path"], .textExpected⟩]⟩))) := by
  rw [load_variable hbare wayOf?_savePathVariable, ofEntries,
    Schema.isSection_outputSettings.alone, outputSettings_savePath]
  constructor <;> intro h
  · rw [(text_ofPlain text).1 h]
    rfl
  · rw [(text_ofPlain text).2 h]
    rfl

theorem file?_empty : file? Disk.empty none = .ok none := by rfl

/-- A name with digits is no number, and a point alone does not make one. -/
theorem load_savePath_release :
    IsItself "v1.2_tests" ∧ load Disk.empty [(savePathVariable, "v1.2_tests")] none [] =
      .ok { output := { savePath := "v1.2_tests" } } := by
  have hitself : IsItself "v1.2_tests" :=
    ⟨by decide, numberOf?_eq_none_iff.mp (by decide), by decide⟩
  exact ⟨hitself, (load_savePath file?_empty "v1.2_tests").1 hitself⟩

/-- A year is a number and no save path. -/
theorem load_year : load Disk.empty [(savePathVariable, "2024")] none [] =
    .error (.settings (.invalid ⟨"SharpScaffoldConfig",
      [⟨[.key "output", .key "save_path"], .textExpected⟩]⟩)) := by
  rw [load_variable file?_empty wayOf?_savePathVariable]
  rfl

/-- **Two directories or more are left out as their variable lists them**; one alone is no list and
is refused. -/
theorem load_excluded (hbare : file? d none = .ok none) {items : List String}
    (hitems : ∀ item ∈ items, IsItem item) :
    (2 ≤ items.length → load d [(excludedVariable, joinWith "," items)] none [] =
      .ok { discovery := { excluded := items } }) ∧
    (items.length < 2 → load d [(excludedVariable, joinWith "," items)] none [] =
      .error (.settings (.invalid ⟨"SharpScaffoldConfig",
        [⟨[.key "discovery", .key "exclude_dirs"], .listExpected⟩]⟩))) := by
  rw [load_variable hbare wayOf?_excludedVariable, ofEntries,
    Schema.isSection_discoverySettings.alone, discoverySettings_excluded]
  constructor <;> intro h
  · have hne : items ≠ [] := by
      rintro rfl
      cases h
    rw [(list_ofPlain _).1 ((comma_mem_joinWith_iff hitems).mpr h), itemsOf_joinWith hne hitems]
    rfl
  · rw [(list_ofPlain _).2 ((comma_mem_joinWith_iff hitems).not.mpr (Nat.not_le.mpr h))]
    rfl

/-- Names that are numbers or switch words alone are none in a list. -/
theorem load_excluded_pair :
    (∀ item ∈ ["2024", "on"], IsItem item) ∧
      load Disk.empty [(excludedVariable, "2024,on")] none [] =
        .ok { discovery := { excluded := ["2024", "on"] } } := by
  have hitems : ∀ item ∈ ["2024", "on"], IsItem item := by
    intro item hitem
    rw [List.mem_cons, List.mem_singleton] at hitem
    rcases hitem with rfl | rfl
    all_goals
      refine ⟨by decide, ?_, ?_⟩
      all_goals
        intro c hc
        cases hc
        decide
  exact ⟨hitems, (load_excluded file?_empty hitems).1 (by decide)⟩

/-- One directory alone cannot be left out. -/
theorem load_singleDirectory : load Disk.empty [(excludedVariable, "bin")] none [] =
    .error (.settings (.invalid ⟨"SharpScaffoldConfig",
      [⟨[.key "discovery", .key "exclude_dirs"], .listExpected⟩]⟩)) := by
  rw [load_variable file?_empty wayOf?_excludedVariable]
  rfl

end Settings

end TestScaffold
