/-
  TestScaffold/Proofs/Files/Stability.lean
  ========================================
  **What is found is found again.**

  A found text writes the path that it is read as, and this path leads to no
  directory (`Settled`).  It therefore stands for itself when it is given in turn,
  whatever pattern or spelling it was found by, and the texts of a result are found
  as they are.

  The files of a directory are sorted and each is listed once, so they depend on
  the set of patterns only: a file that several patterns find does not tell by which
  of them, nor how often, it was found (`scan_of_patterns`).
-/
import Mathlib.Data.List.Sort
import TestScaffold.Proofs.Files.Discovery

namespace TestScaffold

namespace Disk

variable {d : Disk} {p : Path} {settings : DiscoverySettings}

/-! ### Found texts that are given -/

/-- A text that writes the path it is read as, and this path leads to no directory. -/
structure Settled (d : Disk) (text : String) : Prop where
  noDirectory : d.hasDirectory (.ofString text) = .ok false
  written : (Path.ofString text).text = text

theorem settled_of_discover (named : d.Named) {given found : List String}
    (h : d.discover settings (given.map .ofString) = .ok found) :
    ∀ text ∈ found, Settled d text := by
  intro text htext
  obtain ⟨hwritten, hdirectory, _⟩ := exists_extend_of_discover named h htext
  exact ⟨hdirectory, hwritten⟩

theorem nodup_of_discover {paths : List Path} {found : List String}
    (h : d.discover settings paths = .ok found) : found.Nodup := by
  obtain ⟨lists, _, rfl⟩ := discover_eq_ok_iff.mp h
  exact nodup_eraseDups _

theorem discover_settled (settings : DiscoverySettings) {texts : List String}
    (hnodup : texts.Nodup) (h : ∀ text ∈ texts, Settled d text) :
    d.discover settings (texts.map .ofString) = .ok texts := by
  refine discover_eq_ok_iff.mpr ⟨texts.map fun text => [.ofString text], ?_, ?_⟩
  · rw [List.forall₂_map_left_iff, List.forall₂_map_right_iff, List.forall₂_same]
    exact fun text htext => expand_of_noDirectory (h text htext).noDirectory settings
  · have hwritten : (texts.map .ofString).map Path.text = texts := by
      rw [List.map_map]
      exact (List.map_congr_left fun text htext => (h text htext).written).trans (List.map_id texts)
    rw [← List.flatMap_def, ← List.map_eq_flatMap, hwritten, eraseDups_of_nodup hnodup]

theorem discover_again (named : d.Named) {given found : List String}
    (h : d.discover settings (given.map .ofString) = .ok found) :
    d.discover settings (found.map .ofString) = .ok found :=
  discover_settled settings (nodup_of_discover h) (settled_of_discover named h)

/-! ### Paths that are given again -/

theorem addNew_of_known {seen : List String} :
    ∀ {new : List String}, (∀ s ∈ new, s ∈ seen) → addNew seen new = seen
  | [], _ => rfl
  | s :: rest, h => by
    obtain ⟨hs, hrest⟩ := List.forall_mem_cons.mp h
    simp only [addNew, List.contains_iff_mem.mpr hs, if_true]
    exact addNew_of_known hrest

theorem discoverFrom_append {more : List Path} :
    ∀ {seen : List String} {paths : List Path}, d.discoverFrom settings seen (paths ++ more) =
      (d.discoverFrom settings seen paths).bind fun found => d.discoverFrom settings found more
  | _, [] => rfl
  | seen, p :: rest => by
    simp only [List.cons_append, discoverFrom]
    cases d.expand settings p with
    | error cause => rfl
    | ok files => exact discoverFrom_append

/-- Paths that stand for nothing new add nothing. -/
theorem discoverFrom_of_known {seen : List String} :
    ∀ {paths : List Path},
      (∀ p ∈ paths, ∃ files, d.expand settings p = .ok files ∧ ∀ r ∈ files, r.text ∈ seen) →
      d.discoverFrom settings seen paths = .ok seen
  | [], _ => rfl
  | p :: rest, h => by
    obtain ⟨⟨files, hfiles, hknown⟩, hrest⟩ := List.forall_mem_cons.mp h
    simp only [discoverFrom, hfiles, addNew_of_known (List.forall_mem_map.mpr hknown)]
    exact discoverFrom_of_known hrest

/-- Paths that were given, or that were found, add nothing when they are given again. -/
theorem discover_append_known (named : d.Named) {given more : List String}
    (hknown : ∀ found, d.discover settings (given.map .ofString) = .ok found →
      ∀ text ∈ more, text ∈ given ∨ text ∈ found) :
    d.discover settings ((given ++ more).map .ofString) =
      d.discover settings (given.map .ofString) := by
  rw [List.map_append, discover, discoverFrom_append, ← discover]
  cases hfound : d.discover settings (given.map .ofString) with
  | error cause => rfl
  | ok found =>
    refine discoverFrom_of_known (List.forall_mem_map.mpr fun text htext => ?_)
    rcases hknown found hfound text htext with hgiven | hlisted
    · exact exists_files_of_discover hfound (List.mem_map_of_mem hgiven)
    · have hsettled := settled_of_discover named hfound text hlisted
      refine ⟨_, expand_of_noDirectory hsettled.noDirectory settings, fun r hr => ?_⟩
      rw [List.mem_singleton.mp hr, hsettled.written]
      exact hlisted

/-! ### Patterns in another order -/

/-- Sorted lists of the same paths below a directory are the same. -/
theorem mergeSort_eq_of_mem_iff {found found' : List Path}
    (hbelow : ∀ r ∈ found, r.anchor = p.anchor) (h : ∀ r, r ∈ found' ↔ r ∈ found) :
    found'.eraseDups.mergeSort Path.le = found.eraseDups.mergeSort Path.le := by
  have : Std.Irrefl fun a b : Path => a.names < b.names := ⟨fun a => List.lt_irrefl a.names⟩
  have : Std.Antisymm fun a b : Path => a.names < b.names :=
    ⟨fun a b hab hba => absurd hba (List.lt_asymm hab)⟩
  refine (pairwise_mergeSort_le (p := p) fun r hr => hbelow r ((h r).mp hr)).eq_of_mem_iff
    (pairwise_mergeSort_le hbelow) fun r => ?_
  simp only [List.mem_mergeSort, List.mem_eraseDups, h]

theorem scan_of_patterns {patterns : List String}
    (hsame : ∀ text, text ∈ patterns ↔ text ∈ settings.patterns) {files : List Path} :
    d.scan { settings with patterns } p = .ok files ↔ d.scan settings p = .ok files := by
  have hfound : (∃ found, d.filesMatching settings.excluded p patterns = .ok found) ↔
      ∃ found, d.filesMatching settings.excluded p settings.patterns = .ok found := by
    rw [filesMatching_isOk_iff, filesMatching_isOk_iff]
    simp only [hsame]
  -- The lists may differ in order and in repetitions, which sorting takes away.
  have hfiles : ∀ found found', d.filesMatching settings.excluded p settings.patterns = .ok found →
      d.filesMatching settings.excluded p patterns = .ok found' →
      found'.eraseDups.mergeSort Path.le = found.eraseDups.mergeSort Path.le := by
    intro found found' h h'
    refine mergeSort_eq_of_mem_iff (p := p) (fun r hr => ?_) fun r => ?_
    · obtain ⟨_, names, rfl, _⟩ := exists_extend_of_filesMatching h hr
      rfl
    · simp only [mem_of_filesMatching h, mem_of_filesMatching h', hsame]
  simp only [scan_eq_ok_iff]
  constructor
  · rintro ⟨found', h', rfl⟩
    obtain ⟨found, h⟩ := hfound.mp ⟨found', h'⟩
    exact ⟨found, h, (hfiles found found' h h').symm⟩
  · rintro ⟨found, h, rfl⟩
    obtain ⟨found', h'⟩ := hfound.mpr ⟨found, h⟩
    exact ⟨found', h', hfiles found found' h h'⟩

theorem expand_of_patterns {patterns : List String}
    (hsame : ∀ text, text ∈ patterns ↔ text ∈ settings.patterns) {files : List Path} :
    d.expand { settings with patterns } p = .ok files ↔ d.expand settings p = .ok files := by
  unfold expand
  cases d.hasDirectory p with
  | error fault => rfl
  | ok isDirectory =>
    cases isDirectory with
    | false => rfl
    | true => exact scan_of_patterns hsame

theorem discover_of_patterns {patterns : List String}
    (hsame : ∀ text, text ∈ patterns ↔ text ∈ settings.patterns) {paths : List Path}
    {found : List String} :
    d.discover { settings with patterns } paths = .ok found ↔
      d.discover settings paths = .ok found := by
  simp only [discover_eq_ok_iff, expand_of_patterns hsame]

/-- **Discovery is stable.**  Its result is found again as it is; it is the same for all lists of
the same patterns; and paths that were given or found before change nothing behind the others. -/
theorem discover_stable (named : d.Named) (settings : DiscoverySettings) (given : List String) :
    (∀ found, d.discover settings (given.map .ofString) = .ok found →
      d.discover settings (found.map .ofString) = .ok found) ∧
    (∀ patterns : List String, (∀ text, text ∈ patterns ↔ text ∈ settings.patterns) → ∀ found,
      d.discover { settings with patterns } (given.map .ofString) = .ok found ↔
        d.discover settings (given.map .ofString) = .ok found) ∧
    ∀ more : List String,
      (∀ found, d.discover settings (given.map .ofString) = .ok found →
        ∀ text ∈ more, text ∈ given ∨ text ∈ found) →
      d.discover settings ((given ++ more).map .ofString) =
        d.discover settings (given.map .ofString) :=
  ⟨fun _ => discover_again named, fun _ hsame _ => discover_of_patterns hsame,
    fun _ => discover_append_known named⟩

/-- Two directories, the root and `d`, with a file in each. -/
def twinDisk : Disk :=
  ((empty.put "A.cs" [] (.file "a".toUTF8) empty.here_isDirectory (by decide)).put
    "d" [] .directory (by decide) (by decide)).put
    "B.cs" ["d"] (.file "b".toUTF8) (by decide) (by decide)

theorem named_twinDisk : twinDisk.Named := named_of_entries (by decide +kernel)

def overlapping : DiscoverySettings where
  patterns := ["*.cs", "d/../*.cs", "**/*.cs"]

theorem expand_twinDisk : twinDisk.expand overlapping (.ofString ".") =
    .ok (["A.cs", "d/../A.cs", "d/B.cs"].map .ofString) := by
  have hdirectory : twinDisk.hasDirectory (.ofString ".") = .ok true := by decide +kernel
  rw [expand, hdirectory]
  refine scan_eq_ok_iff.mpr
    ⟨["A.cs", "d/../A.cs", "A.cs", "d/B.cs"].map .ofString, by decide +kernel, ?_⟩
  exact List.mergeSort_of_pairwise (by decide +kernel)

/-- What is found by overlapping patterns, with one of the files given in front, is found again, by
the patterns in another order, and with paths that are given once more. -/
theorem discover_stable_twinDisk :
    twinDisk.Named ∧
      twinDisk.discover overlapping (["d/B.cs", "."].map .ofString) =
        .ok ["d/B.cs", "A.cs", "d/../A.cs"] ∧
      twinDisk.discover overlapping (["d/B.cs", "A.cs", "d/../A.cs"].map .ofString) =
        .ok ["d/B.cs", "A.cs", "d/../A.cs"] ∧
      twinDisk.discover { overlapping with patterns := ["**/*.cs", "*.cs", "d/../*.cs", "*.cs"] }
        (["d/B.cs", "."].map .ofString) = .ok ["d/B.cs", "A.cs", "d/../A.cs"] ∧
      twinDisk.discover overlapping ((["d/B.cs", "."] ++ [".", "A.cs"]).map .ofString) =
        .ok ["d/B.cs", "A.cs", "d/../A.cs"] := by
  have hfound : twinDisk.discover overlapping (["d/B.cs", "."].map .ofString) =
      .ok ["d/B.cs", "A.cs", "d/../A.cs"] :=
    discover_eq_ok_iff.mpr ⟨[[.ofString "d/B.cs"], _],
      .cons (by decide +kernel) (.cons expand_twinDisk .nil), by decide +kernel⟩
  obtain ⟨hagain, hpatterns, hmore⟩ :=
    discover_stable named_twinDisk overlapping ["d/B.cs", "."]
  refine ⟨named_twinDisk, hfound, hagain _ hfound, (hpatterns _ ?_ _).mpr hfound, ?_⟩
  · intro text
    simp only [overlapping, List.mem_cons, List.not_mem_nil]
    tauto
  · rw [hmore [".", "A.cs"], hfound]
    intro found h
    cases hfound.symm.trans h
    decide

end Disk

end TestScaffold
