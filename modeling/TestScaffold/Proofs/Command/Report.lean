/-
  TestScaffold/Proofs/Command/Report.lean
  =======================================
  **What a call tells of the files that it has written.**

  Below the summary stands a table with one row for each written file, in order.
  A row names the class by the path without its extension, and it shows the path
  as markup.  The first goes wrong where the extension is not one point and a
  word: of `.g.cs` only the last part is taken off.  The second goes wrong where
  a bracket in the path begins a tag or stands behind a backslash.  Everywhere
  else a row holds the name of the class and the path as it is (`call_tells`),
  and it is one line where the console is wide enough.
-/
import TestScaffold.Proofs.Command.Repetition
import TestScaffold.Proofs.Command.Tables
import TestScaffold.Proofs.Run.Order

namespace TestScaffold

open TestScaffold.Text

/-! ### Names and extensions -/

namespace Path

/-- The extension is a point and a word without points. -/
def HasOnePoint (extension : String) : Prop :=
  ∃ word : List Char, word ≠ [] ∧ '.' ∉ word ∧ extension.toList = '.' :: word

/-- A name is put together again from its parts, and the second part is an extension with one
    point, if it is not empty. -/
theorem splitName_parts (name : String) :
    (splitName name).1 ++ (splitName name).2 = name ∧
      ((splitName name).2 = "" ∨ HasOnePoint (splitName name).2) := by
  unfold splitName
  dsimp only
  have hback := @List.takeWhile_append_dropWhile _ (· != '.') name.toList.reverse
  cases hdrop : name.toList.reverse.dropWhile (· != '.') with
  | nil => exact ⟨String.append_empty, Or.inl rfl⟩
  | cons c stem =>
    dsimp only
    split
    · exact ⟨String.append_empty, Or.inl rfl⟩
    · rename_i hends
      simp only [Bool.or_eq_true, List.isEmpty_iff, not_or] at hends
      -- the character that ends the last part is a point
      have hpoint : c = '.' := by
        have hhead := @List.head_dropWhile_not _ (· != '.') name.toList.reverse (by simp [hdrop])
        simpa [hdrop] using hhead
      rw [hdrop, hpoint] at hback
      constructor
      · have hname := congrArg List.reverse hback
        rw [List.reverse_reverse] at hname
        rw [← String.toList_inj]
        simpa using hname
      · refine Or.inr ⟨_, by simpa using hends.1, ?_, String.toList_ofList⟩
        rw [List.mem_reverse]
        intro hmem
        simpa using List.mem_takeWhile_imp hmem

/-- An extension with one point is taken off. -/
theorem splitName_of_hasOnePoint {name extension : String} (hname : name ≠ "")
    (h : HasOnePoint extension) : splitName (name ++ extension) = (name, extension) := by
  obtain ⟨word, hword, hpoint, hextension⟩ := h
  have hback : (name ++ extension).toList.reverse = word.reverse ++ '.' :: name.toList.reverse := by
    rw [String.toList_append, hextension]
    simp
  have hall : ∀ c ∈ word.reverse, (c != '.') = true := fun c hc => by
    simpa using fun e : c = '.' => hpoint (e ▸ List.mem_reverse.mp hc)
  have htail : (word.reverse ++ '.' :: name.toList.reverse).takeWhile (· != '.') = word.reverse := by
    rw [List.takeWhile_append_of_pos hall]
    simp
  have hstem : (word.reverse ++ '.' :: name.toList.reverse).dropWhile (· != '.') =
      '.' :: name.toList.reverse := by
    rw [List.dropWhile_append_of_pos hall]
    simp
  unfold splitName
  simp only [hback, htail, hstem]
  rw [if_neg (by simp [hword, hname]), List.reverse_reverse, List.reverse_reverse,
    String.ofList_toList, ← hextension, String.ofList_toList]

/-- Of any other extension something is left behind the name, with its point. -/
theorem exists_stem_of_not_hasOnePoint {name extension : String} {rest : List Char}
    (hextension : extension.toList = '.' :: rest) (h : ¬ HasOnePoint extension) :
    ∃ more, (splitName (name ++ extension)).1.toList = name.toList ++ '.' :: more := by
  obtain ⟨hparts, hlast⟩ := splitName_parts (name ++ extension)
  have hchars := congrArg String.toList hparts
  rw [String.toList_append, String.toList_append, hextension] at hchars
  rcases hlast with hnone | ⟨word, hword, hpoint, hlast⟩
  · rw [hnone, String.toList_empty, List.append_nil] at hchars
    exact ⟨rest, hchars⟩
  · rw [hlast] at hchars
    rcases List.append_eq_append_iff.mp hchars with ⟨between, hname, hmore⟩ | ⟨between, hstem, hmore⟩
    · -- the last part would begin in the name or with the extension
      cases between with
      | nil =>
        cases hmore
        exact absurd ⟨_, hword, hpoint, hextension⟩ h
      | cons b between =>
        cases hmore
        exact absurd (by simp) hpoint
    · cases between with
      | nil =>
        cases hmore
        exact absurd ⟨_, hword, hpoint, hextension⟩ h
      | cons b between =>
        cases hmore
        exact ⟨between, hstem⟩

theorem names_append (p q : Path) {n : String} (h : n ∈ (p ++ q).names) :
    n ∈ p.names ∨ n ∈ q.names := by
  have happend : p ++ q = p.append q := rfl
  rw [happend, append] at h
  split at h
  · exact List.mem_append.mp h
  · exact Or.inr h

end Path

/-! ### Files of classes -/

namespace Plan

variable {plan : Plan} {name : Name}

theorem ofString_text_outputPath (plan : Plan) (name : Name) :
    Path.ofString (plan.outputPath name).text = plan.outputPath name := by
  refine Path.ofString_text fun n hn => ?_
  rcases Path.names_append _ _ hn with hn | hn
  · exact Path.names_ofString _ n hn
  · exact Path.names_ofString _ n hn

theorem name_outputPath (hext : Schema.extensionRule plan.extension = none)
    (hslash : '/' ∉ name.text.toList) :
    (plan.outputPath name).name = name.text ++ plan.extension := by
  rw [outputPath_eq hext hslash, Path.name, List.getLastD_concat]

/-- The file of a class is named after it, so the path ends with its name and the extension. -/
theorem exists_text_outputPath (hext : Schema.extensionRule plan.extension = none)
    (hslash : '/' ∉ name.text.toList) :
    ∃ front, (plan.outputPath name).text = front ++ name.text ++ plan.extension := by
  rw [outputPath_eq hext hslash, Path.text, if_neg (by simp), joinWith_concat]
  refine ⟨Path.Anchor.text (Path.ofString plan.savePath).anchor ++
    (if (Path.ofString plan.savePath).names = [] then ""
      else joinWith "/" (Path.ofString plan.savePath).names ++ "/"), ?_⟩
  simp only [String.append_assoc]

/-- The files that a run reports are those of the classes that its drafts declare, in order and
    each of them once. -/
theorem exists_declared {layout : Layout} {d : Disk} {report : Report}
    (hext : Schema.extensionRule plan.extension = none)
    (hok : (plan.run layout d).result = .ok report) :
    ∃ declared, List.Forall₂ Draft.Declares (plan.drafts layout d) declared ∧
      report.writtenFiles =
        declared.eraseDups.map fun (name : Name) => (plan.outputPath name).text := by
  obtain ⟨hensured, hwhole, hclean⟩ := whole_of_run_ok hok
  obtain ⟨declared, haccepts, _⟩ := accepts_of_clean_after hclean
  have hdeclared := haccepts.imp fun _ _ h => h.declares
  have hwritten := @Progress.written_of_clean plan hext _ declared hdeclared
    { outlet := plan.outlet (plan.inputDisk d) } [] (fun _ h => by cases h) rfl hclean
  rw [run_eq_ofProgress layout hensured, Outcome.ofProgress_of_whole hwhole hclean] at hok
  rw [← Except.ok.inj hok]
  exact ⟨declared, hdeclared, hwritten⟩

end Plan

namespace Command

open TestScaffold.CSharp
open TestScaffold.Command.Markup

/-! ### Cells -/

theorem not_isControl_of_isWordChar {c : Char} (h : isWordChar c = true) :
    Screen.isControl c = false := by
  have hnone : ∀ n ∈ [7, 8, 11, 12, 13], isWordChar (Char.ofNat n) = false := by decide
  rw [← Bool.not_eq_true]
  intro hcontrol
  have hword := hnone c.toNat (List.contains_iff_mem.mp hcontrol)
  rw [Char.ofNat_toNat, h] at hword
  cases hword

theorem slash_notMem_of_isWordChar {cs : List Char} (h : ∀ c ∈ cs, isWordChar c = true) :
    '/' ∉ cs := by
  intro hmem
  have hword := h '/' hmem
  revert hword
  decide

theorem bracket_notMem_of_isWordChar {cs : List Char} (h : ∀ c ∈ cs, isWordChar c = true) :
    '[' ∉ cs := by
  intro hmem
  have hword := h '[' hmem
  revert hword
  decide

/-- The name of a class is shown as it is. -/
theorem shown_name {s : String} (h : ∀ c ∈ s.toList, isWordChar c = true) :
    Screen.shown s = .ok s.toList :=
  Screen.shown_eq_self_iff.mpr ⟨untagged_of_notMem (bracket_notMem_of_isWordChar h) false,
    fun c hc => not_isControl_of_isWordChar (h c hc)⟩

/-- What is left behind the name of a class, with its point, is not all taken off by markup. -/
theorem shown_ne_name {s : String} {name more : List Char}
    (hname : ∀ c ∈ name, isWordChar c = true) (hs : s.toList = name ++ '.' :: more) :
    Screen.shown s ≠ .ok name := by
  intro h
  have hparts := partsFrom_of_notMem (bracket_notMem_of_isWordChar hname) (c := '.') (by decide)
    (by decide) 0 more
  unfold Screen.shown render at h
  rw [hs, hparts] at h
  cases hrender : textOf [] (plain (List.replicate 0 '\\' ++ name ++ ['.']) ++
      partsFrom 0 0 more) with
  | error e =>
    rw [hrender] at h
    cases h
  | ok text =>
    obtain ⟨left, _, rfl⟩ := textOf_plain_eq_ok_iff.mp hrender
    rw [hrender] at h
    have hcells := Except.ok.inj h
    have hkept : name.filter (fun c => !Screen.isControl c) = name :=
      List.filter_eq_self.mpr fun c hc => by simp [not_isControl_of_isWordChar (hname c hc)]
    have hpoint : (!Screen.isControl '.') = true := by decide
    simp [hkept, hpoint] at hcells

theorem shownRow_eq_ok_iff {row : String × String} {cells : List Char × List Char} :
    Screen.shownRow row = .ok cells ↔
      Screen.shown row.1 = .ok cells.1 ∧ Screen.shown row.2 = .ok cells.2 := by
  unfold Screen.shownRow
  cases Screen.shown row.1 <;> cases Screen.shown row.2 <;> simp [Prod.ext_iff]

/-! ### Rows -/

/-- Two colons with no blank between them, which may stand for a picture. -/
def HoldsCode (cs : List Char) : Prop :=
  ∃ before code after, cs = before ++ ':' :: (code ++ ':' :: after) ∧ ∀ c ∈ code, isBlank c = false

theorem not_holdsCode_of_notMem {cs : List Char} (h : ':' ∉ cs) : ¬ HoldsCode cs := by
  rintro ⟨before, code, after, rfl, _⟩
  simp at h

/-- A text in which the console sees nothing but characters to be shown. -/
structure IsPlain (cs : List Char) : Prop where
  untagged : Untagged false cs
  still : ∀ c ∈ cs, Screen.isControl c = false
  uncoded : ¬ HoldsCode cs

/-- The cells in the row of a class. The first one is its name just if the extension has one
    point. The second one is the path of its file if that is plain, and only if the path holds no
    markup and no character that moves the cursor. -/
structure Row (plan : Plan) (name : Name) (cells : List Char × List Char) : Prop where
  shown : fileRow (plan.outputPath name).text = .ok cells
  named : cells.1 = name.text.toList ↔ Path.HasOnePoint plan.extension
  path : IsPlain (plan.outputPath name).text.toList →
    cells.2 = (plan.outputPath name).text.toList
  plain : cells.2 = (plan.outputPath name).text.toList →
    Untagged false (plan.outputPath name).text.toList ∧
      ∀ c ∈ (plan.outputPath name).text.toList, Screen.isControl c = false

theorem Row.of_shown {plan : Plan} {name : Name} {cells : List Char × List Char}
    (hext : Schema.extensionRule plan.extension = none)
    (hname : ∀ c ∈ name.text.toList, isWordChar c = true)
    (h : fileRow (plan.outputPath name).text = .ok cells) : Row plan name cells := by
  have hslash := slash_notMem_of_isWordChar hname
  obtain ⟨⟨rest, hrest⟩, _⟩ := Schema.of_extensionRule hext
  obtain ⟨hleft, hright⟩ := shownRow_eq_ok_iff.mp h
  simp only [Plan.ofString_text_outputPath] at hleft hright
  rw [Path.stem, Plan.name_outputPath hext hslash] at hleft
  have hverbatim := Screen.shown_eq_self_iff (s := (plan.outputPath name).text)
  refine ⟨h, ⟨fun hsame => ?_, fun hpoint => ?_⟩, fun hplain => ?_, fun hsame => ?_⟩
  · by_contra hpoint
    obtain ⟨more, hmore⟩ := Path.exists_stem_of_not_hasOnePoint hrest hpoint
    rw [hsame] at hleft
    exact shown_ne_name hname hmore hleft
  · rw [Path.splitName_of_hasOnePoint name.nonempty hpoint] at hleft
    exact Except.ok.inj (hleft.symm.trans (shown_name hname))
  · have hshown := And.intro hplain.untagged hplain.still
    rw [← hverbatim, hright] at hshown
    exact Except.ok.inj hshown
  · rw [hsame] at hright
    exact hverbatim.mp hright

/-! ### Tables of files -/

/-- The cells above the rows. -/
def heads : List Char × List Char := ("Test class".toList, "Path".toList)

/-- What the row of a class is to hold: its name and the path of its file. -/
def rowOf (plan : Plan) (name : Name) : List Char × List Char :=
  (name.text.toList, (plan.outputPath name).text.toList)

/-- The table of the files of classes: a row for each of them, in order. Rows that hold what they
    are to hold are one line each, where their characters can be seen and they fit. -/
structure Tabulated (plan : Plan) (names : List Name) (rows : List (List Char × List Char)) :
    Prop where
  inOrder : List.Forall₂ (Row plan) names rows
  lines : Path.HasOnePoint plan.extension →
    (∀ name ∈ names, IsPlain (plan.outputPath name).text.toList ∧
      ∀ c ∈ (plan.outputPath name).text.toList, isVisible c = true) →
    Screen.Fits (heads :: names.map (rowOf plan)) →
    Screen.linesOfRows false (heads :: rows) = "Test class Path" ::
      names.map fun (name : Name) => name.text ++ " " ++ (plan.outputPath name).text

theorem not_newline_of_isVisible {c : Char} (h : isVisible c = true) : c ≠ '\n' := by
  rintro rfl
  revert h
  decide

/-- The heads of the columns are each one line, with something to be seen. -/
theorem shows_heads : ('\n' ∉ heads.1 ∧ '\n' ∉ heads.2) ∧
    (∃ c ∈ heads.1, isBlank c = false) ∧ ∃ c ∈ heads.2, isBlank c = false :=
  ⟨by decide, ⟨'T', by decide, by decide⟩, 'P', by decide, by decide⟩

/-- The name of a class and the path of its file are each one line, with something to be seen. -/
theorem shows_rowOf {plan : Plan} {name : Name}
    (hext : Schema.extensionRule plan.extension = none)
    (hname : ∀ c ∈ name.text.toList, isWordChar c = true)
    (hvisible : ∀ c ∈ (plan.outputPath name).text.toList, isVisible c = true) :
    ('\n' ∉ name.text.toList ∧ '\n' ∉ (plan.outputPath name).text.toList) ∧
      (∃ c ∈ name.text.toList, isBlank c = false) ∧
        ∃ c ∈ (plan.outputPath name).text.toList, isBlank c = false := by
  have hword : ∀ c ∈ name.text.toList, isBlank c = false := fun c hc =>
    not_isBlank_of_isWordChar (hname c hc)
  obtain ⟨⟨rest, hrest⟩, _⟩ := Schema.of_extensionRule hext
  obtain ⟨front, hpath⟩ := Plan.exists_text_outputPath hext (slash_notMem_of_isWordChar hname)
  refine ⟨⟨fun hmem => ?_, fun hmem => not_newline_of_isVisible (hvisible _ hmem) rfl⟩, ?_, ?_⟩
  · exact absurd (hword '\n' hmem) (by decide)
  · obtain ⟨c, hc⟩ := List.exists_mem_of_ne_nil name.text.toList (by simpa using name.nonempty)
    exact ⟨c, hc, hword c hc⟩
  · have hpoint : '.' ∈ (plan.outputPath name).text.toList := by
      rw [hpath, String.toList_append, hrest]
      simp
    exact ⟨'.', hpoint, by decide⟩

theorem Tabulated.of_rows {plan : Plan} {names : List Name} {rows : List (List Char × List Char)}
    (hext : Schema.extensionRule plan.extension = none)
    (hnames : ∀ name ∈ names, ∀ c ∈ name.text.toList, isWordChar c = true)
    (h : List.Forall₂ (Row plan) names rows) : Tabulated plan names rows where
  inOrder := h
  lines := by
    intro hpoint hplain hfits
    have hrows : rows = names.map (rowOf plan) := by
      have hsame : List.Forall₂ (fun name cells => cells = rowOf plan name) names rows := by
        refine List.forall₂_iff_zip.mpr ⟨h.length_eq, fun {name cells} hmem => ?_⟩
        have hrow := List.forall₂_zip h hmem
        have hname := (List.of_mem_zip hmem).1
        simp only [rowOf, Prod.ext_iff]
        exact ⟨hrow.named.mpr hpoint, hrow.path (hplain name hname).1⟩
      rw [← List.map_id rows]
      exact (map_eq_of_forall₂ hsame fun _ _ e => e.symm).symm
    have hshows : ∀ row ∈ heads :: rows, ('\n' ∉ row.1 ∧ '\n' ∉ row.2) ∧
        (∃ c ∈ row.1, isBlank c = false) ∧ ∃ c ∈ row.2, isBlank c = false := by
      refine List.forall_mem_cons.mpr ⟨shows_heads, ?_⟩
      rw [hrows, List.forall_mem_map]
      intro name hname
      simp only [rowOf]
      exact shows_rowOf hext (hnames name hname) (hplain name hname).2
    rw [hrows] at hshows ⊢
    rw [Screen.lines_of_fits false (fun row hrow => (hshows row hrow).1)
      (fun row hrow => (hshows row hrow).2) hfits, List.map_cons, List.map_map]
    refine congrArg₂ List.cons (by decide) (List.map_congr_left fun name _ => ?_)
    simp [rowOf]

example : Screen.linesOfRows false [heads, ("ATests".toList, "out/ATests.cs".toList)] =
    ["Test class Path", "ATests out/ATests.cs"] := by
  decide +kernel

/-- A table of files has a row for each of them. -/
theorem exists_rows_of_fileTable {plan : Plan} {names : List Name} {table : List String}
    (hext : Schema.extensionRule plan.extension = none)
    (hnames : ∀ name ∈ names, ∀ c ∈ name.text.toList, isWordChar c = true) (hsome : names ≠ [])
    (h : fileTable (names.map fun (name : Name) => (plan.outputPath name).text) = .ok table) :
    ∃ rows, table = Screen.linesOfRows false (heads :: rows) ∧ Tabulated plan names rows := by
  unfold fileTable at h
  rw [if_neg (by simpa using hsome), Screen.Table.lines_eq_ok_iff] at h
  obtain ⟨all, hall, rfl⟩ := h
  cases hall with
  | @cons _ first _ rows hfirst hrows =>
    have hheads : Screen.shownRow ("Test class", "Path") = .ok heads := by decide +kernel
    dsimp only at hfirst hrows
    rw [hheads] at hfirst
    obtain rfl := Except.ok.inj hfirst
    rw [List.forall₂_map_left_iff, List.forall₂_map_left_iff] at hrows
    refine ⟨rows, List.nil_append _, Tabulated.of_rows hext hnames ?_⟩
    refine List.forall₂_iff_zip.mpr ⟨hrows.length_eq, fun {name cells} hmem => ?_⟩
    exact Row.of_shown hext (hnames name (List.of_mem_zip hmem).1) (List.forall₂_zip hrows hmem)

/-- A session after a run with a report tells the summary, and then the table. -/
theorem exists_lines_afterRun {o : Outcome} {report : Report} (hresult : o.result = .ok report)
    {table : List String} (htable : fileTable report.writtenFiles = .ok table) :
    ∃ panel, successPanel "Generation complete" (summary report) = .ok panel ∧
      (afterRun o).lines = panel ++ table := by
  obtain ⟨panel, hpanel⟩ := summaryPanel_isOk "Generation complete" report
  refine ⟨panel, hpanel, ?_⟩
  unfold afterRun
  rw [hresult]
  simp only [hpanel, htable]
  rfl

variable {env : Environment} {d : Disk} {words : List String} {g : Globals} {r : GenerateRequest}

/-- **What a call that ends well tells of the files that it has written.** They are the files of
    the classes that the drafts declare, and below the summary stands their table. -/
theorem call_tells (asked : Asks d words g r) (done : (call env d words).ending = .done) :
    ∃ s plan report declared, Stages env d g r s plan report ∧
      List.Forall₂ Draft.Declares (plan.drafts { newline := s.output.newline } d) declared ∧
      report.writtenFiles =
        declared.eraseDups.map (fun (name : Name) => (plan.outputPath name).text) ∧
      (report.writtenFiles ≠ [] → ∃ panel rows,
        successPanel "Generation complete" (summary report) = .ok panel ∧
        (call env d words).lines = (notice Disk.empty g.isDryRun).lines ++
          (panel ++ Screen.linesOfRows false (heads :: rows)) ∧
        Tabulated plan declared.eraseDups rows) := by
  rw [asked.call_eq] at done ⊢
  obtain ⟨s, plan, report, hstages⟩ := exists_stages_of_done done
  have hext := hstages.extensionRule_plan
  obtain ⟨declared, hdeclared, hwritten⟩ := Plan.exists_declared hext hstages.done
  refine ⟨s, plan, report, declared, hstages, hdeclared, hwritten, fun hsome => ?_⟩
  have hnames : ∀ name ∈ declared.eraseDups, ∀ c ∈ name.text.toList, isWordChar c = true := by
    intro name hname
    obtain ⟨draft, _, hdraft⟩ := exists_left_of_forall₂ hdeclared (List.mem_eraseDups.mp hname)
    exact Source.isWordChar_of_firstClassName hdraft
  obtain ⟨table, htable⟩ := hstages.shown
  obtain ⟨panel, hpanel, hlines⟩ := exists_lines_afterRun hstages.done htable
  rw [hwritten] at htable
  obtain ⟨rows, hrows, htabulated⟩ := exists_rows_of_fileTable hext hnames
    (fun hnone => hsome (by rw [hwritten, hnone, List.map_nil])) htable
  refine ⟨panel, rows, hpanel, ?_, htabulated⟩
  rw [hstages.generate_eq, notice_after, hlines, hrows]

theorem isPlain_sourcePath : IsPlain "out/ATests.cs".toList where
  untagged := untagged_of_notMem (by decide) false
  still := fun c hc => by
    have hall : "out/ATests.cs".toList.all (!Screen.isControl ·) = true := by decide
    simpa using List.all_eq_true.mp hall c hc
  uncoded := not_holdsCode_of_notMem (by decide)

/-- A class in a file of its own is told in one line. -/
theorem call_tells_sourceDisk :
    Asks sourceDisk sourceWords {} sourceRequest ∧
      (call [] sourceDisk sourceWords).ending = .done ∧
      ∃ front, (call [] sourceDisk sourceWords).lines =
        front ++ ["Test class Path", "ATests out/ATests.cs"] := by
  have hdone : (call [] sourceDisk sourceWords).ending = .done := by
    rw [asks_sourceDisk.call_eq]
    exact stages_sourceDisk.done_generate
  obtain ⟨s, plan, report, declared, hstages, hdeclared, hwritten, htold⟩ :=
    call_tells asks_sourceDisk hdone
  obtain ⟨rfl, rfl, rfl⟩ := stages_sourceDisk.unique hstages
  obtain ⟨panel, rows, _, hlines, htabulated⟩ := htold (by simp)
  -- one path is listed, and it is the path of one class only
  obtain ⟨name, hnames, hpath⟩ := List.map_eq_singleton_iff.mp hwritten.symm
  have hext := (Plan.sequential_sequentially ["A.cs"]).extension
  have hname : name = Naming.testClassName "A" := by
    have hmem : name ∈ declared := List.mem_eraseDups.mp (hnames ▸ List.mem_singleton_self name)
    obtain ⟨draft, _, hdraft⟩ := exists_left_of_forall₂ hdeclared hmem
    refine Plan.outputPath_text_injective hext (Source.slash_notMem_firstClassName hdraft)
      (by decide) (hpath.trans ?_)
    decide
  have htext : name.text = "ATests" := by
    rw [hname]
    decide
  have htable := htabulated.lines ⟨"cs".toList, by decide, by decide, by decide⟩
  rw [hnames] at htable
  simp only [List.forall_mem_singleton, List.map_cons, List.map_nil, rowOf, hpath] at htable
  rw [htext] at htable
  rw [hlines, htable ⟨isPlain_sourcePath, List.all_eq_true.mp (by decide)⟩
    ⟨20, 20, by decide, by decide⟩]
  exact ⟨asks_sourceDisk, hdone, _, (List.append_assoc ..).symm⟩

/-- Settings with an extension of two points. -/
def twoPointVariables : Environment := [("SHARPSCAFFOLD_OUTPUT__FILE_EXTENSION", ".g.cs")]

theorem stages_twoPoints : Stages twoPointVariables sourceDisk {} sourceRequest
    { limits := { reading := 1, generating := 1, writing := 1 }
      output := { savePath := "out", extension := ".g.cs" } }
    { Plan.sequentially ["A.cs"] with extension := ".g.cs" }
    { filesRead := 1, unitsGenerated := 1, writtenFiles := ["out/ATests.g.cs"] } where
  loaded := by decide +kernel
  found := by decide +kernel
  some := by decide
  planned := by decide +kernel
  done := by
    have hpath : ({ Plan.sequentially ["A.cs"] with extension := ".g.cs" } : Plan).outputPath
        (Naming.testClassName "A") = ⟨.here, ["out", "ATests.g.cs"]⟩ :=
      (by decide : Path.ofString "out" ++ Path.ofString "ATests.g.cs" =
        ⟨.here, ["out", "ATests.g.cs"]⟩)
    have hseat : Plan.outDisk.Seat ⟨.here, ["out", "ATests.g.cs"]⟩ ["out"] "ATests.g.cs" :=
      ⟨by decide +kernel, by decide +kernel, by decide +kernel, by decide, by decide, by decide⟩
    have hreport := Plan.report_of_sourceDisk rfl rfl rfl hpath hseat (by decide +kernel)
      (by decide +kernel)
    rw [hpath] at hreport
    exact hreport
  shown := ⟨_, rfl⟩

/-- Of an extension with two points only the last part is taken off, so that the table tells of a
    class that nobody has written. -/
theorem call_twoPoints :
    (call twoPointVariables sourceDisk sourceWords).ending = .done ∧
      ∃ front, (call twoPointVariables sourceDisk sourceWords).lines =
        front ++ ["Test class Path", "ATests.g out/ATests.g.cs"] := by
  have hasked : Asks sourceDisk sourceWords {} sourceRequest := asks_sourceDisk
  rw [hasked.call_eq]
  refine ⟨stages_twoPoints.done_generate, ?_⟩
  have htable : fileTable ["out/ATests.g.cs"] =
      .ok ["Test class Path", "ATests.g out/ATests.g.cs"] := by decide +kernel
  obtain ⟨panel, _, hlines⟩ := exists_lines_afterRun stages_twoPoints.done htable
  rw [stages_twoPoints.generate_eq, notice_after, hlines]
  exact ⟨_, (List.append_assoc ..).symm⟩

end Command

end TestScaffold
