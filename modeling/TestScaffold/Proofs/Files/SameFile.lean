/-
  TestScaffold/Proofs/Files/SameFile.lean
  =======================================
  **Which spellings of one file are found side by side.**

  Discovery compares texts and never follows a path to its end for it.  A path that
  goes down only, without two points, ends where its start and its names say, so two
  of them that start alike lead to one file only if they are the same
  (`eq_of_sameFile`).  One file is therefore found under two texts only where two
  points or two kinds of starts are at work (`CanMeet`), in the texts as well as in
  what was asked for: in a pattern, or in two of the paths that were given
  (`discover_sameFile`).
-/
import TestScaffold.Proofs.Files.Stability

namespace TestScaffold

/-- Two paths of which the names do not tell whether they end at one place: one of them goes through
two points, or they start differently. -/
def Path.CanMeet (p q : Path) : Prop :=
  ".." ∈ p.names ∨ ".." ∈ q.names ∨ p.anchor ≠ q.anchor

namespace Disk

variable {d : Disk} {p q : Path}

/-- Two paths that lead to one file. -/
def SameFile (d : Disk) (p q : Path) : Prop :=
  ∃ place bytes, d.locate p = .ok place ∧ d.locate q = .ok place ∧
    d.find? place = some (.file bytes)

/-! ### Ways down -/

/-- From one path, two ways down to one file are the same. -/
theorem extend_eq_of_sameFile {names more : List String} (hnames : ".." ∉ names)
    (hmore : ".." ∉ more) (h : SameFile d (p.extend names) (p.extend more)) : names = more := by
  obtain ⟨place, _, hlocate, hlocate', _⟩ := h
  obtain ⟨middle, hmiddle, hwalk⟩ := exists_walk_of_append (walk_of_locate hlocate)
  have hwalk' : d.walk middle more = .ok place := by
    rw [← walk_append hmiddle]
    exact walk_of_locate hlocate'
  have hplace : names.reverse ++ middle = more.reverse ++ middle :=
    (walk_down hnames hwalk).symm.trans (walk_down hmore hwalk')
  exact List.reverse_injective (List.append_cancel_right hplace)

/-- Paths that cannot meet lead to one file only if they are the same. -/
theorem eq_of_sameFile (hmeet : ¬ p.CanMeet q) (h : SameFile d p q) : p = q := by
  obtain ⟨anchor, names⟩ := p
  obtain ⟨_, more⟩ := q
  simp only [Path.CanMeet, not_or, not_not] at hmeet
  obtain ⟨hnames, hmore, rfl⟩ := hmeet
  obtain rfl : names = more := extend_eq_of_sameFile (p := ⟨anchor, []⟩) hnames hmore h
  rfl

/-! ### What is found -/

theorem Comes.ne_up {patterns : List String}
    (hpatterns : ∀ text ∈ patterns, ".." ∉ (Path.ofString text).names) {names : List String}
    (h : ∀ name ∈ names, d.Comes patterns name) : ".." ∉ names := by
  intro hup
  rcases h ".." hup with ⟨text, htext, hname⟩ | hlists
  · exact hpatterns text htext hname
  · exact hlists.1 rfl

/-- **One file is found under two texts only if these can meet, and a pattern goes through two points
or two different paths that were given can meet.** -/
theorem discover_sameFile (named : d.Named) {settings : DiscoverySettings}
    {given found : List String} (h : d.discover settings (given.map .ofString) = .ok found) :
    found.Nodup ∧ ∀ s ∈ found, ∀ t ∈ found, s ≠ t → SameFile d (.ofString s) (.ofString t) →
      (Path.ofString s).CanMeet (.ofString t) ∧
        ((∃ text ∈ settings.patterns, ".." ∈ (Path.ofString text).names) ∨
          ∃ a ∈ given, ∃ b ∈ given, Path.ofString a ≠ .ofString b ∧
            (Path.ofString a).CanMeet (.ofString b)) := by
  refine ⟨nodup_of_discover h, fun s hs t ht hne hsame => ?_⟩
  obtain ⟨hwritten, _, a, ha, names, hnames, hcomes⟩ := exists_extend_of_discover named h hs
  obtain ⟨hwritten', _, b, hb, more, hmore, hcomes'⟩ := exists_extend_of_discover named h ht
  have hpaths : Path.ofString s ≠ .ofString t := fun heq =>
    hne (hwritten.symm.trans ((congrArg Path.text heq).trans hwritten'))
  have hmeet : (Path.ofString s).CanMeet (.ofString t) :=
    by_contra fun hmeet => hpaths (eq_of_sameFile hmeet hsame)
  refine ⟨hmeet, or_iff_not_imp_left.mpr fun hpatterns => ?_⟩
  push Not at hpatterns
  have hdown := Comes.ne_up hpatterns hcomes
  have hdown' := Comes.ne_up hpatterns hcomes'
  rw [hnames, hmore] at hpaths hmeet hsame
  refine ⟨a, ha, b, hb, fun heq => ?_, ?_⟩
  · -- Below one path the two ways down end at one place.
    rw [heq] at hpaths hsame
    exact hpaths (congrArg _ (extend_eq_of_sameFile hdown hdown' hsame))
  · -- What is added below the given paths has no two points and keeps their starts.
    rcases hmeet with hup | hup | hanchor
    · exact Or.inl ((List.mem_append.mp hup).resolve_right hdown)
    · exact Or.inr (Or.inl ((List.mem_append.mp hup).resolve_right hdown'))
    · exact Or.inr (Or.inr hanchor)

/-- Below the one path that was given, a pattern with two points finds a file a second time. -/
theorem discover_sameFile_twinDisk :
    twinDisk.Named ∧
      twinDisk.discover overlapping (["."].map .ofString) = .ok ["A.cs", "d/../A.cs", "d/B.cs"] ∧
      SameFile twinDisk (.ofString "A.cs") (.ofString "d/../A.cs") ∧
      (Path.ofString "A.cs").CanMeet (.ofString "d/../A.cs") ∧
      ∃ text ∈ overlapping.patterns, ".." ∈ (Path.ofString text).names := by
  have hfound : twinDisk.discover overlapping (["."].map .ofString) =
      .ok ["A.cs", "d/../A.cs", "d/B.cs"] :=
    discover_eq_ok_iff.mpr ⟨[_], .cons expand_twinDisk .nil, by decide +kernel⟩
  have hsame : SameFile twinDisk (.ofString "A.cs") (.ofString "d/../A.cs") :=
    ⟨["A.cs"], _, by decide +kernel, by decide +kernel, rfl⟩
  obtain ⟨hmeet, hasked⟩ := (discover_sameFile named_twinDisk hfound).2 "A.cs" (by decide)
    "d/../A.cs" (by decide) (by decide) hsame
  refine ⟨named_twinDisk, hfound, hsame, hmeet, hasked.resolve_right ?_⟩
  rintro ⟨a, ha, b, hb, hne, _⟩
  rw [List.mem_singleton.mp ha, List.mem_singleton.mp hb] at hne
  exact hne rfl

/-- Four texts for the file in the root. -/
def spellings : List String := ["A.cs", "d/../A.cs", "/A.cs", "//A.cs"]

/-- One file is found as often as it was given under another text. -/
theorem discover_spellings :
    twinDisk.discover {} (spellings.map .ofString) = .ok spellings ∧ spellings.Nodup ∧
      ∀ s ∈ spellings, ∀ t ∈ spellings, SameFile twinDisk (.ofString s) (.ofString t) := by
  have hleads : ∀ s ∈ spellings, twinDisk.locate (.ofString s) = .ok ["A.cs"] := by decide +kernel
  refine ⟨by decide +kernel, by decide, fun s hs t ht => ?_⟩
  exact ⟨["A.cs"], _, hleads s hs, hleads t ht, rfl⟩

end Disk

end TestScaffold
