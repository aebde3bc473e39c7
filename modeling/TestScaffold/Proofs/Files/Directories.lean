/-
  TestScaffold/Proofs/Files/Directories.lean
  ==========================================
  **What making a directory with its parents does to a disk.**

  Whether or not it succeeds, every entry that is new is a directory on the way of
  the path: a prefix of its names leads there.  If it succeeds, the path leads to
  a directory.
-/
import TestScaffold.Proofs.Files.Writing

namespace TestScaffold.Disk

/-- The second disk is the first one with directories added on the way of the path. -/
structure Paved (d d' : Disk) (p : Path) : Prop where
  grows : Grows d d'
  onTheWay : ∀ q, d'.find? q = d.find? q ∨
    (d.find? q = none ∧ d'.find? q = some .directory ∧
      ∃ k, d'.walk (d'.start p) (p.names.take k) = .ok q)

theorem Paved.refl (d : Disk) (p : Path) : Paved d d p := ⟨Grows.refl d, fun _ => Or.inl rfl⟩

/-- Directories on the way of a shorter path are on the way of the whole path. -/
theorem Paved.of_shorter {d d' : Disk} {p q : Path} (h : Paved d d' p) (hanchor : q.anchor = p.anchor)
    (hshorter : p.names <+: q.names) : Paved d d' q := by
  obtain ⟨more, hmore⟩ := hshorter
  have hstart : d'.start q = d'.start p := by simp only [Disk.start, hanchor]
  refine ⟨h.grows, fun place => ?_⟩
  rcases h.onTheWay place with hsame | ⟨hnone, hmade, k, hk⟩
  · exact Or.inl hsame
  · refine Or.inr ⟨hnone, hmade, min k p.names.length, ?_⟩
    rw [hstart, ← hmore, List.take_append_of_le_length (Nat.min_le_right ..),
      ← List.take_take, List.take_length]
    exact hk

theorem Paved.trans {d d' d'' : Disk} {p : Path} (h : Paved d d' p) (h' : Paved d' d'' p) :
    Paved d d'' p := by
  refine ⟨h.grows.trans h'.grows, fun place => ?_⟩
  rcases h'.onTheWay place with hsame' | ⟨hnone', hmade', hk'⟩
  · rcases h.onTheWay place with hsame | ⟨hnone, hmade, k, hk⟩
    · exact Or.inl (hsame'.trans hsame)
    · refine Or.inr ⟨hnone, hsame'.trans hmade, k, ?_⟩
      rw [h'.grows.start]
      exact h'.grows.walk hk
  · rcases h.onTheWay place with hsame | ⟨_, hmade, _⟩
    · exact Or.inr ⟨hsame ▸ hnone', hmade', hk'⟩
    · rw [hnone'] at hmade
      cases hmade

/-- Making one directory succeeds only on a free seat, and sets just that. -/
theorem makeDirectory_ok {d d' : Disk} {p : Path} (h : d.makeDirectory p = .ok d') :
    ∃ parent name, Seat d p parent name ∧ d.find? (name :: parent) = none ∧ Grows d d' ∧
      ∀ q, d'.find? q = if q = name :: parent then some .directory else d.find? q := by
  unfold makeDirectory locateParent at h
  cases hfit : unfit? p with
  | some fault => simp [hfit] at h
  | none =>
    cases hwalk : d.walk (d.start p) p.names.dropLast with
    | error fault => simp [hfit, hwalk] at h
    | ok parent =>
      by_cases hdir : d.isDirectoryAt parent = true
      · cases hlast : p.names.getLast? with
        | none => simp [hfit, hwalk, hdir, hlast] at h
        | some name =>
          by_cases hup : name = ".."
          · simp [hfit, hwalk, hdir, hlast, hup] at h
          · by_cases hlong : maxName < name.utf8ByteSize
            · simp [hfit, hwalk, hdir, hlast, hup, hlong] at h
            · by_cases htaken : (d.find? (name :: parent)).isSome = true
              · simp [hfit, hwalk, hdir, hlast, hup, hlong, htaken] at h
              · simp only [hfit, hwalk, hdir, hlast, hup, hlong, htaken, if_true, if_false,
                  Bool.false_eq_true, dif_pos, Except.ok.injEq] at h
                subst h
                refine ⟨parent, name, ⟨hfit, hwalk, hdir, hlast, hup, Nat.not_lt.mp hlong⟩, ?_⟩
                exact ⟨by simpa using htaken, grows_put .., fun q => find?_put ..⟩
      · simp [hfit, hwalk, hdir] at h

theorem paved_of_makeDirectory {d d' : Disk} {p : Path} (h : d.makeDirectory p = .ok d') :
    Paved d d' p := by
  obtain ⟨parent, name, hseat, hfree, hgrows, hfound⟩ := makeDirectory_ok h
  refine ⟨hgrows, fun q => ?_⟩
  by_cases hq : q = name :: parent
  · have hmade : d'.find? q = some .directory := by rw [hfound, if_pos hq]
    subst hq
    refine Or.inr ⟨hfree, hmade, p.names.length, ?_⟩
    rw [List.take_length]
    exact (hgrows.seat hseat).walk (by rw [hmade]; rfl)
  · exact Or.inl (by rw [hfound, if_neg hq])

theorem hasDirectory_of_makeDirectory {d d' : Disk} {p : Path} (h : d.makeDirectory p = .ok d') :
    d'.hasDirectory p = .ok true := by
  obtain ⟨parent, name, hseat, _, hgrows, hfound⟩ := makeDirectory_ok h
  have hmade : d'.find? (name :: parent) = some .directory := by rw [hfound, if_pos rfl]
  have hlocate := (hgrows.seat hseat).locate (by rw [hmade]; rfl)
  simp only [hasDirectory, entryAt?, hlocate, hmade]
  rfl

theorem hasDirectory_of_toleratedAt {d : Disk} {p : Path} {fault : DiskFault}
    (h : d.toleratedAt p fault = none) : d.hasDirectory p = .ok true := by
  unfold toleratedAt at h
  split at h
  · assumption
  · cases h

/-- Names from the root side on, and one more. -/
theorem names_prefix_snoc (anchor : Anchor) (name : String) (rest : List String) :
    (⟨anchor, rest.reverse⟩ : Path).names <+: (⟨anchor, (name :: rest).reverse⟩ : Path).names :=
  ⟨[name], by simp⟩

/-- The induction is on the names that are left, nearest first, as `makeAll` takes them: a parent
    is only made when the directory itself was refused for want of one. -/
theorem paved_of_makeAll (anchor : Anchor) (names : List String) :
    ∀ {d d' : Disk} {fault? : Option DiskFault}, d.makeAll anchor names = (d', fault?) →
      Paved d d' ⟨anchor, names.reverse⟩ ∧
        (fault? = none → d'.hasDirectory ⟨anchor, names.reverse⟩ = .ok true) := by
  induction names with
  | nil =>
    intro d d' fault? h
    simp only [makeAll] at h
    cases hmake : d.makeDirectory ⟨anchor, []⟩ with
    | ok e =>
      rw [hmake] at h
      cases h
      exact ⟨paved_of_makeDirectory hmake, fun _ => hasDirectory_of_makeDirectory hmake⟩
    | error fault =>
      rw [hmake] at h
      cases h
      exact ⟨Paved.refl _ _, hasDirectory_of_toleratedAt⟩
  | cons name rest ih =>
    intro d d' fault? h
    simp only [makeAll] at h
    cases hmake : d.makeDirectory ⟨anchor, (name :: rest).reverse⟩ with
    | ok e =>
      rw [hmake] at h
      cases h
      exact ⟨paved_of_makeDirectory hmake, fun _ => hasDirectory_of_makeDirectory hmake⟩
    | error fault =>
      rw [hmake] at h
      by_cases hmissing : fault = .notFound
      · subst hmissing
        simp only at h
        cases hparents : d.makeAll anchor rest with
        | mk e parentFault? =>
          have hpaved := (ih hparents).1.of_shorter (q := ⟨anchor, (name :: rest).reverse⟩) rfl
            (names_prefix_snoc anchor name rest)
          rw [hparents] at h
          cases parentFault? with
          | some f =>
            cases h
            exact ⟨hpaved, fun hnone => by cases hnone⟩
          | none =>
            simp only at h
            cases hagain : e.makeDirectory ⟨anchor, (name :: rest).reverse⟩ with
            | ok e' =>
              rw [hagain] at h
              cases h
              exact ⟨hpaved.trans (paved_of_makeDirectory hagain),
                fun _ => hasDirectory_of_makeDirectory hagain⟩
            | error f =>
              rw [hagain] at h
              have hkept : d' = e := by cases f <;> cases h <;> rfl
              subst hkept
              refine ⟨hpaved, fun hnone => ?_⟩
              cases f <;> simp only [Prod.mk.injEq, true_and] at h <;>
                first
                | (rw [hnone] at h; cases h)
                | exact hasDirectory_of_toleratedAt (h.trans hnone)
      · have hkept : d' = d ∧ d.toleratedAt ⟨anchor, (name :: rest).reverse⟩ fault = fault? := by
          cases fault <;> first | exact absurd rfl hmissing | (cases h; exact ⟨rfl, rfl⟩)
        obtain ⟨rfl, htolerated⟩ := hkept
        exact ⟨Paved.refl _ _, fun hnone => hasDirectory_of_toleratedAt (htolerated.trans hnone)⟩

/-- Even where the directory cannot be made, nothing but directories on its way is new. -/
theorem paved_ensureDirectory (d : Disk) (p : Path) : Paved d (d.ensureDirectory p).1 p := by
  have hpaved := (paved_of_makeAll p.anchor p.names.reverse (d := d) rfl).1
  rw [List.reverse_reverse] at hpaved
  have hdisk : (d.ensureDirectory p).1 = (d.makeAll p.anchor p.names.reverse).1 := by
    unfold ensureDirectory
    split <;> simp_all
  rw [hdisk]
  exact hpaved

/-- **Making a directory adds directories on its way and nothing else**, and afterwards the path
    leads to a directory. -/
theorem ensureDirectory_ok {d made : Disk} {p : Path}
    (h : d.ensureDirectory p = (made, .ok ())) :
    Paved d made p ∧ made.hasDirectory p = .ok true := by
  unfold ensureDirectory at h
  cases hall : d.makeAll p.anchor p.names.reverse with
  | mk d' fault? =>
    rw [hall] at h
    cases fault? with
    | some fault => cases h
    | none =>
      cases h
      have hpaved := paved_of_makeAll p.anchor p.names.reverse hall
      rw [List.reverse_reverse] at hpaved
      exact ⟨hpaved.1, hpaved.2 rfl⟩

end TestScaffold.Disk
