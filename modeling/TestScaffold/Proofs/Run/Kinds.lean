/-
  TestScaffold/Proofs/Run/Kinds.lean
  ==================================
  **The kinds of the errors of a run.**

  An input that cannot be read, a text that is not read back and a file that
  cannot be written each have a kind of error of their own, which names the path.
  There is one exception.  A path with the character NUL is no path at all, and
  its fault is shown as it is, whatever the request was.
-/
import TestScaffold.Run.Failure

namespace TestScaffold

open TestScaffold.Text

/-! ### Paths with the character NUL -/

/-- Whether a name of the path holds the character NUL. -/
def Path.hasNul (p : Path) : Bool := p.names.any (hasChar (Char.ofNat 0))

namespace Disk

theorem unfit?_eq_nulInPath_iff {p : Path} : unfit? p = some .nulInPath ↔ p.hasNul = true := by
  unfold unfit? Path.hasNul
  by_cases h : p.names.any (hasChar (Char.ofNat 0)) = true
  · simp [h]
  · by_cases hlong : maxPath ≤ p.text.utf8ByteSize <;> simp [h, hlong]

theorem step_ne_nulInPath (d : Disk) (place : Place) (name : String) :
    d.step place name ≠ .error .nulInPath := by
  intro h
  unfold step at h
  split at h
  · cases h
  · split at h
    · cases h
    · split at h
      · cases h
      · split at h <;> cases h

/-- No step of a walk meets the fault of a path as such. -/
theorem walk_ne_nulInPath (d : Disk) (names : List String) :
    ∀ place, d.walk place names ≠ .error .nulInPath := by
  induction names with
  | nil => exact fun _ h => by cases h
  | cons name rest ih =>
    intro place h
    cases hstep : d.step place name with
    | error fault =>
      simp only [walk, hstep, Except.error.injEq] at h
      exact d.step_ne_nulInPath place name (h ▸ hstep)
    | ok next =>
      simp only [walk, hstep] at h
      exact ih next h

theorem read_eq_nulInPath_iff {d : Disk} {p : Path} :
    d.read p = .error .nulInPath ↔ p.hasNul = true := by
  rw [← unfit?_eq_nulInPath_iff]
  unfold read locate
  cases hfit : unfit? p with
  | some fault => simp
  | none =>
    refine iff_of_false ?_ (by simp)
    intro h
    cases hwalk : d.walk (d.start p) p.names with
    | error fault =>
      simp only [hwalk, Except.error.injEq] at h
      exact d.walk_ne_nulInPath _ _ (h ▸ hwalk)
    | ok place =>
      simp only [hwalk] at h
      split at h <;> cases h

theorem locateParent_ne_nulInPath {d : Disk} {p : Path} (hnul : ¬ p.hasNul = true) :
    d.locateParent p ≠ .error .nulInPath := by
  intro h
  unfold locateParent at h
  cases hfit : unfit? p with
  | some fault =>
    simp only [hfit, Except.error.injEq] at h
    exact hnul (unfit?_eq_nulInPath_iff.mp (h ▸ hfit))
  | none =>
    cases hwalk : d.walk (d.start p) p.names.dropLast with
    | error fault =>
      simp only [hfit, hwalk, Except.error.injEq] at h
      exact d.walk_ne_nulInPath _ _ (h ▸ hwalk)
    | ok parent =>
      simp only [hfit, hwalk] at h
      split at h <;> cases h

theorem putFile_ne_nulInPath {d : Disk} {p : Path} {bytes : ByteArray}
    (hnul : ¬ p.hasNul = true) : putFile .busy d p bytes ≠ .error .nulInPath := by
  intro h
  unfold putFile at h
  cases hparent : d.locateParent p with
  | error fault =>
    simp only [hparent, Except.error.injEq] at h
    exact locateParent_ne_nulInPath hnul (h ▸ hparent)
  | ok parent =>
    simp only [hparent] at h
    repeat' split at h
    all_goals cases h

theorem freshFault?_eq_nulInPath_iff {d : Disk} {p : Path} :
    d.freshFault? p = some .nulInPath ↔ p.hasNul = true := by
  unfold freshFault? Path.hasNul
  by_cases h : p.names.any (hasChar (Char.ofNat 0)) = true
  · simp [h]
  · refine iff_of_false ?_ h
    intro hfault
    rw [if_neg h] at hfault
    cases hwalk : d.walk [] (lexicalPlace (d.start p) p.parent.names).reverse with
    | error fault =>
      simp only [hwalk, Option.some.injEq] at hfault
      exact d.walk_ne_nulInPath _ _ (hfault ▸ hwalk)
    | ok place =>
      simp only [hwalk] at hfault
      repeat' split at hfault
      all_goals cases hfault

theorem makeDirectory_eq_nulInPath_iff {d : Disk} {p : Path} :
    d.makeDirectory p = .error .nulInPath ↔ p.hasNul = true := by
  by_cases hnul : p.hasNul = true
  · refine iff_of_true ?_ hnul
    simp only [makeDirectory, locateParent, unfit?_eq_nulInPath_iff.mpr hnul]
  · refine iff_of_false ?_ hnul
    intro h
    unfold makeDirectory at h
    cases hparent : d.locateParent p with
    | error fault =>
      simp only [hparent, Except.error.injEq] at h
      exact locateParent_ne_nulInPath hnul (h ▸ hparent)
    | ok parent =>
      simp only [hparent] at h
      repeat' split at h
      all_goals cases h

/-- What is left of a fault is the character NUL where the path holds it. -/
theorem toleratedAt_eq_nulInPath_iff {d : Disk} {p : Path} {fault : DiskFault}
    (hmake : d.makeDirectory p = .error fault) :
    d.toleratedAt p fault = some .nulInPath ↔ p.hasNul = true := by
  by_cases hnul : p.hasNul = true
  · refine iff_of_true ?_ hnul
    rw [makeDirectory_eq_nulInPath_iff.mpr hnul] at hmake
    cases hmake
    simp only [toleratedAt, hasDirectory, entryAt?, locate, unfit?_eq_nulInPath_iff.mpr hnul,
      Except.map, Option.any_none]
  · refine iff_of_false ?_ hnul
    intro h
    unfold toleratedAt at h
    split at h
    · cases h
    · cases h
      exact hnul (makeDirectory_eq_nulInPath_iff.mp hmake)

/-- The induction is on the names that are left, as `makeAll` takes them: of a path without the
character NUL no shorter path has it. -/
theorem makeAll_eq_nulInPath_iff (anchor : Anchor) (names : List String) :
    ∀ d : Disk, (d.makeAll anchor names).2 = some .nulInPath ↔
      (⟨anchor, names.reverse⟩ : Path).hasNul = true := by
  induction names with
  | nil =>
    intro d
    simp only [makeAll]
    cases hmake : d.makeDirectory ⟨anchor, []⟩ with
    | ok d' => simp [Path.hasNul]
    | error fault => exact toleratedAt_eq_nulInPath_iff hmake
  | cons name rest ih =>
    intro d
    simp only [makeAll]
    cases hmake : d.makeDirectory ⟨anchor, (name :: rest).reverse⟩ with
    | ok d' =>
      refine iff_of_false (by simp) ?_
      intro hnul
      rw [makeDirectory_eq_nulInPath_iff.mpr hnul] at hmake
      cases hmake
    | error fault =>
      cases fault with
      | notFound =>
        have hnul : ¬ (⟨anchor, (name :: rest).reverse⟩ : Path).hasNul = true := by
          intro hnul
          rw [makeDirectory_eq_nulInPath_iff.mpr hnul] at hmake
          cases hmake
        refine iff_of_false ?_ hnul
        have hrest : ¬ (⟨anchor, rest.reverse⟩ : Path).hasNul = true := by
          intro h
          refine hnul ?_
          simp only [Path.hasNul, List.reverse_cons, List.any_append, Bool.or_eq_true] at h ⊢
          exact Or.inl h
        have hparents := ih d
        cases hmade : d.makeAll anchor rest with
        | mk d' fault? =>
          rw [hmade] at hparents
          cases fault? with
          | some f => exact fun h => hrest (hparents.mp h)
          | none =>
            dsimp only
            cases hagain : d'.makeDirectory ⟨anchor, (name :: rest).reverse⟩ with
            | ok d'' => simp
            | error f =>
              have htolerated := toleratedAt_eq_nulInPath_iff hagain
              cases f with
              | notFound => simp
              | _ => exact fun h => hnul (htolerated.mp h)
      | _ => exact toleratedAt_eq_nulInPath_iff hmake

/-- **Making a directory fails for the character NUL if and only if its path holds it.** -/
theorem ensureDirectory_eq_nulInPath_iff {d : Disk} {p q : Path} :
    (d.ensureDirectory p).2 = .error (.noDirectory q .nulInPath) ↔ p.hasNul = true ∧ p = q := by
  have hall := makeAll_eq_nulInPath_iff p.anchor p.names.reverse d
  rw [List.reverse_reverse] at hall
  unfold ensureDirectory
  cases hmade : d.makeAll p.anchor p.names.reverse with
  | mk made fault? =>
    rw [hmade] at hall
    cases fault? with
    | none => simp at hall ⊢; simp [hall]
    | some fault => simp at hall ⊢; simp [hall, and_comm]

end Disk

/-! ### Errors of reading and writing -/

theorem DiskFault.detail_eq (kind message : String) (p : Path) {fault : DiskFault}
    (h : fault ≠ .nulInPath) : fault.detail kind message p = .located kind message (some p.text) := by
  cases fault with
  | nulInPath => exact absurd rfl h
  | notFound => rfl
  | busy => rfl
  | occupied => rfl
  | notADirectory => rfl
  | isADirectory => rfl
  | nameTooLong => rfl

/-- **An input that cannot be read leaves an error of reading that names it**, unless its path
    holds the character NUL. -/
theorem ReadError.detail_eq {d : Disk} {p : Path} {cause : ReadError}
    (h : d.readText p = .error cause) :
    cause.detail = if p.hasNul then .plain "ValueError" DiskFault.nulInPath.message
      else .located "FileReadError" cause.message (some p.text) := by
  unfold Disk.readText at h
  by_cases hnul : p.hasNul = true
  · have hread : d.read p = .error .nulInPath := Disk.read_eq_nulInPath_iff.mpr hnul
    simp only [hread, Except.error.injEq] at h
    subst h
    rw [if_pos hnul]
    rfl
  · rw [if_neg hnul]
    cases hread : d.read p with
    | ok bytes =>
      simp only [hread] at h
      cases htext : textOfBytes? bytes with
      | some text => simp [htext] at h
      | none =>
        simp only [htext, Except.error.injEq] at h
        subst h
        rfl
    | error fault =>
      have hfault : fault ≠ .nulInPath := fun e =>
        hnul (Disk.read_eq_nulInPath_iff.mp (e ▸ hread))
      by_cases hmissing : fault = .notFound
      · subst hmissing
        simp only [hread, Except.error.injEq] at h
        subst h
        rfl
      · simp only [hread, Except.error.injEq] at h
        subst h
        exact DiskFault.detail_eq _ _ _ hfault

/-- **A file that the disk refuses leaves an error of writing that names it**, unless its path
    holds the character NUL. -/
theorem WriteError.detail_eq {d : Disk} {p : Path} {text : String} {cause : WriteError}
    (h : d.writeText p text = .error cause) :
    cause.detail = if p.hasNul then .plain "ValueError" DiskFault.nulInPath.message
      else .located "WriteError" cause.message (some p.text) := by
  unfold Disk.writeText at h
  by_cases hnul : p.hasNul = true
  · have hfresh : d.freshFault? p = some .nulInPath :=
      Disk.freshFault?_eq_nulInPath_iff.mpr hnul
    simp only [hfresh, Except.error.injEq] at h
    subst h
    rw [if_pos hnul]
    rfl
  · rw [if_neg hnul]
    cases hfresh : d.freshFault? p with
    | some fault =>
      simp only [hfresh, Except.error.injEq] at h
      subst h
      exact DiskFault.detail_eq _ _ _ fun e =>
        hnul (Disk.freshFault?_eq_nulInPath_iff.mp (e ▸ hfresh))
    | none =>
      simp only [hfresh, Disk.replaceFile] at h
      cases hput : Disk.putFile .busy d p text.toUTF8 with
      | ok d' =>
        rw [hput] at h
        cases h
      | error fault =>
        rw [hput] at h
        cases h
        exact DiskFault.detail_eq _ _ _ fun e => Disk.putFile_ne_nulInPath hnul (e ▸ hput)

/-- **A text that is not read back leaves an error of parsing.** -/
theorem SourceError.detail_eq {text : String} {cause : SourceError}
    (h : Source.firstClassName text = .error cause) :
    cause.detail none = .located "ParseError" (cause.message none) none := by
  unfold Source.firstClassName at h
  split at h
  · split at h
    · cases h
    · cases h
      rfl
  · cases h
    rfl

end TestScaffold
