/-
  TestScaffold/Proofs/Command/Screens.lean
  ========================================
  **What can be shown whatever it says, and what cannot.**

  Messages are made safe before they are shown, and the summary of a report holds
  numbers only, so panels and the table of errors are always shown
  (`failurePanel_isOk`, `noticePanel_isOk`, `summaryPanel_isOk`,
  `errorTable_isOk`).  The table of written files shows paths as they are: it
  breaks off at the first file whose name or path closes a tag that is not open
  (`fileTable_eq_error_iff`).
-/
import TestScaffold.Proofs.Command.Markup
import TestScaffold.Proofs.Files.Searching

namespace TestScaffold.Command

open TestScaffold.Command.Markup

namespace Screen

/-! ### Panels and tables -/

theorem shown_eq_error_iff {markup : String} {e : MarkupError} :
    shown markup = .error e ↔ render markup = .error e := by
  unfold shown
  cases render markup <;> simp [Except.map]

theorem shown_isOk {markup : String} (h : ∃ text, render markup = .ok text) :
    ∃ cs, shown markup = .ok cs := by
  obtain ⟨text, htext⟩ := h
  exact ⟨_, by rw [shown, htext]; rfl⟩

theorem panel_isOk {markup : String} (h : ∃ text, render markup = .ok text) (title : String) :
    ∃ lines, panel title markup = .ok lines := by
  obtain ⟨cs, hcs⟩ := shown_isOk h
  exact ⟨_, by rw [panel, hcs]⟩

theorem shownRow_isOk {row : String × String} (hleft : ∃ text, render row.1 = .ok text)
    (hright : ∃ text, render row.2 = .ok text) : ∃ cells, shownRow row = .ok cells := by
  obtain ⟨left, hleft⟩ := shown_isOk hleft
  obtain ⟨right, hright⟩ := shown_isOk hright
  exact ⟨(left, right), by rw [shownRow, hleft, hright]⟩

theorem render_isOk_of_notMem {s : String} (h : '[' ∉ s.toList) : ∃ text, render s = .ok text :=
  (readsPlain_of_notMem h []).render_isOk

theorem shownRow_isOk_of_notMem {row : String × String} (hleft : '[' ∉ row.1.toList)
    (hright : '[' ∉ row.2.toList) : ∃ cells, shownRow row = .ok cells :=
  shownRow_isOk (render_isOk_of_notMem hleft) (render_isOk_of_notMem hright)

/-- Items that are taken one after the other fail with the first one that does. -/
theorem mapM_eq_error_iff {α β ε : Type} {f : α → Except ε β} {as : List α} {e : ε} :
    as.mapM f = .error e ↔ ∃ a, Reached f as a ∧ f a = .error e := by
  induction as with
  | nil => simp [not_reached_nil, pure, Except.pure]
  | cons a rest ih =>
    rw [exists_reached_cons_iff, ← ih, List.mapM_cons]
    cases f a with
    | error e' => simp [bind, Except.bind]
    | ok b => cases rest.mapM f <;> simp [bind, Except.bind, pure, Except.pure]

/-- A table breaks off at the first row with a cell that cannot be shown. -/
theorem lines_eq_error_iff {t : Table} {e : MarkupError} :
    t.lines = .error e ↔
      ∃ row, Reached shownRow (t.heads :: t.rows) row ∧ shownRow row = .error e := by
  rw [← mapM_eq_error_iff]
  unfold Table.lines
  cases (t.heads :: t.rows).mapM shownRow <;> simp

theorem lines_isOk {t : Table} (h : ∀ row ∈ t.heads :: t.rows, ∃ cells, shownRow row = .ok cells) :
    ∃ lines, t.lines = .ok lines := by
  cases hlines : t.lines with
  | ok lines => exact ⟨lines, rfl⟩
  | error e =>
    obtain ⟨row, ⟨before, after, hsplit, _⟩, hrow⟩ := lines_eq_error_iff.mp hlines
    obtain ⟨cells, hcells⟩ := h row (by rw [hsplit]; simp)
    cases hrow.symm.trans hcells

end Screen

/-! ### Messages -/

theorem failurePanel_isOk (title message : String) :
    ∃ lines, failurePanel title message = .ok lines :=
  Screen.panel_isOk ((readsPlain_escape rfl message).render_framed_isOk
    "error".toList fun _ => rfl) title

theorem noticePanel_isOk (title message : String) :
    ∃ lines, noticePanel title message = .ok lines :=
  Screen.panel_isOk (readsPlain_escape rfl message).render_isOk title

/-- A number holds no brackets. -/
theorem notMem_toDigits (n : Nat) : '[' ∉ Nat.toDigits 10 n := fun h =>
  absurd (Nat.isDigit_of_mem_toDigits (by decide) (by decide) h) (by decide)

theorem notMem_summary (r : Report) : '[' ∉ (summary r).toList := by
  unfold summary
  cases r.isDryRun <;> simp [notMem_toDigits]

theorem summaryPanel_isOk (title : String) (r : Report) :
    ∃ lines, successPanel title (summary r) = .ok lines :=
  Screen.panel_isOk ((readsPlain_of_notMem (notMem_summary r) _).render_framed_isOk
    "success".toList fun _ => rfl) title

/-- The kinds of the errors of a run. -/
def errorKinds : List String :=
  ["ParseError", "ValidationError", "ValueError", "FileReadError", "WriteError", "RenderError"]

theorem kind_mem_errorKinds (e : RunError) : e.detail.line.kind ∈ errorKinds := by
  have hsource : ∀ path? (cause : SourceError), (cause.detail path?).line.kind ∈ errorKinds := by
    intro path? cause
    cases cause <;> simp [SourceError.detail, ErrorDetail.line, errorKinds]
  have hfault : ∀ kind message p (fault : DiskFault), kind ∈ errorKinds →
      (fault.detail kind message p).line.kind ∈ errorKinds := by
    intro kind message p fault hkind
    cases fault with
    | nulInPath => simp [DiskFault.detail, ErrorDetail.line, errorKinds]
    | _ => exact hkind
  cases e with
  | read cause =>
    cases cause with
    | refused p fault => exact hfault _ _ _ _ (by simp [errorKinds])
    | _ => simp [RunError.detail, ReadError.detail, ErrorDetail.line, errorKinds]
  | draft cause =>
    cases cause with
    | source origin cause => exact hsource _ _
    | fixture cause => simp [RunError.detail, DraftError.detail, ErrorDetail.line, errorKinds]
    | render cause =>
      simp [RunError.detail, DraftError.detail, RenderError.detail, ErrorDetail.line, errorKinds]
  | unreadable cause => exact hsource _ _
  | write cause =>
    cases cause with
    | noDirectory p fault => exact hfault _ _ _ _ (by simp [errorKinds])
    | refused p fault => exact hfault _ _ _ _ (by simp [errorKinds])
    | collision cause => simp [RunError.detail, WriteError.detail, ErrorDetail.line, errorKinds]

/-- The errors of a run are always shown. -/
theorem errorTable_isOk (errors : List RunError) : ∃ lines, errorTable errors = .ok lines := by
  have hkinds : ∀ kind ∈ errorKinds, '[' ∉ kind.toList := by decide
  have hheads : ∃ cells, Screen.shownRow ("Error", "Details") = .ok cells :=
    Screen.shownRow_isOk_of_notMem (by decide) (by decide)
  refine Screen.lines_isOk fun row hrow => ?_
  rcases List.mem_cons.mp hrow with rfl | hrow
  · exact hheads
  · obtain ⟨e, _, rfl⟩ := List.mem_map.mp hrow
    exact Screen.shownRow_isOk (Screen.render_isOk_of_notMem (hkinds _ (kind_mem_errorKinds e)))
      (readsPlain_escape rfl _).render_isOk

/-! ### Written files -/

/-- The cells for a written file, as they are shown. -/
def fileRow (file : String) : Except MarkupError (List Char × List Char) :=
  Screen.shownRow ((Path.ofString file).stem, (Path.ofString file).text)

/-- **The table of the written files breaks off at the first file that cannot be shown.** -/
theorem fileTable_eq_error_iff {files : List String} {e : MarkupError} :
    fileTable files = .error e ↔ ∃ file, Reached fileRow files file ∧ fileRow file = .error e := by
  unfold fileTable
  by_cases hempty : files = []
  · subst hempty
    simp [not_reached_nil]
  · have hheads : ∃ cells, Screen.shownRow ("Test class", "Path") = .ok cells :=
      Screen.shownRow_isOk_of_notMem (by decide) (by decide)
    obtain ⟨cells, hcells⟩ := hheads
    rw [if_neg (by simpa using hempty), Screen.lines_eq_error_iff, exists_reached_cons_iff]
    simp only [hcells, reduceCtorEq, Except.ok.injEq, exists_eq', true_and, false_or]
    exact exists_reached_map_iff

end TestScaffold.Command
