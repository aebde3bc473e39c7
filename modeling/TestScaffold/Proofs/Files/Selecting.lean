/-
  TestScaffold/Proofs/Files/Selecting.lean
  ========================================
  **Where the names of found files come from.**

  A pattern leads down from a directory, one name after the other.  Each of these
  names is written in the pattern or is the name of an entry that the disk lists
  (`exists_extend_of_select`), and two points, which are no entry, come from
  patterns only.  The names of entries can be read back from a text on every disk
  whose entries have such names (`Named`), and so can the paths of all files that
  are found there (`exists_extend_of_discover`).

  Several patterns find what each of them finds (`mem_of_filesMatching`).
-/
import TestScaffold.Proofs.Files.Below
import TestScaffold.Proofs.Files.PathText
import TestScaffold.Proofs.Files.Searching

namespace TestScaffold

/-! ### Names in patterns -/

namespace Pattern

theorem eq_of_stepOf {text name : String} (h : stepOf text = .ok (.name name)) : text = name := by
  simp only [stepOf] at h
  split_ifs at h <;> cases h
  rfl

theorem mem_names_of_ofString {s : String} {pattern : Pattern} (h : ofString s = .ok pattern)
    {name : String} (hname : .name name ∈ pattern.steps) : name ∈ (Path.ofString s).names := by
  simp only [ofString] at h
  split at h
  · cases h
  · split at h
    · cases h
    · split at h
      · cases h
      · obtain ⟨steps, hsteps, rfl⟩ := map_eq_ok_iff.mp h
        obtain ⟨text, htext, hstep⟩ :=
          exists_left_of_forall₂ (forall₂_of_mapM_eq_ok hsteps) hname
        exact eq_of_stepOf hstep ▸ htext

end Pattern

namespace Disk

variable {d : Disk} {p q r : Path} {place : Place} {excluded : List String}

/-! ### Names of entries -/

/-- A name under which a directory lists an entry. -/
def Lists (d : Disk) (name : String) : Prop :=
  name ≠ ".." ∧ ∃ place, (d.find? (name :: place)).isSome = true

/-- Each entry has a name that can be read from the text of a path, as on disks that a system keeps:
no name is empty or a single point, and none has a slash in it. -/
def Named (d : Disk) : Prop :=
  ∀ name place, (d.find? (name :: place)).isSome = true → Path.Readable name

theorem Named.readable (named : d.Named) {name : String} (h : d.Lists name) :
    Path.Readable name :=
  h.2.elim (named name)

theorem named_of_entries (h : ∀ entry ∈ d.entries, ∀ name ∈ entry.1, Path.Readable name) :
    d.Named := by
  intro name place htaken
  obtain ⟨e, he⟩ := Option.isSome_iff_exists.mp htaken
  exact h _ (Entry.mem_of_find? he) name List.mem_cons_self

/-- All names on the way down to a directory are names of entries. -/
theorem lists_of_isDirectoryAt {way : List String} (hdown : ".." ∉ way)
    (h : d.isDirectoryAt (way.reverse ++ place) = true) : ∀ name ∈ way, d.Lists name := by
  intro name hname
  refine ⟨fun hup => hdown (hup ▸ hname), ?_⟩
  obtain ⟨before, after, rfl⟩ := List.append_of_mem hname
  have hsplit : (before ++ name :: after).reverse ++ place =
      after.reverse ++ name :: (before.reverse ++ place) := by simp
  rw [hsplit] at h
  exact ⟨before.reverse ++ place, find?_isSome_of_isDirectoryAt (isDirectoryAt_of_below h)⟩

theorem mem_directoriesBelow_of_directoriesFrom {directories : List Path}
    (h : d.directoriesFrom p = .ok directories) (hq : q ∈ directories) :
    ∃ place, d.locate p = .ok place ∧ q ∈ d.directoriesBelow p place := by
  unfold directoriesFrom at h
  cases hlocate : d.locate p with
  | error fault => simp [hlocate] at h
  | ok place =>
    rw [hlocate] at h
    obtain ⟨r, hr, single, hsingle, hq⟩ := (mem_of_gather h).mp hq
    obtain ⟨_, _, rfl⟩ := map_eq_ok_iff.mp hsingle
    exact ⟨place, rfl, List.mem_singleton.mp hq ▸ hr⟩

theorem exists_extend_of_directoriesFrom {directories : List Path}
    (h : d.directoriesFrom p = .ok directories) (hq : q ∈ directories) :
    ∃ way, q = p.extend way ∧ ∀ name ∈ way, d.Lists name := by
  obtain ⟨place, _, hbelow⟩ := mem_directoriesBelow_of_directoriesFrom h hq
  rcases eq_or_exists_of_directoriesBelow hbelow with rfl | ⟨way, rfl, hdown, hdirectory⟩
  · exact ⟨[], (Path.extend_nil q).symm, by simp⟩
  · exact ⟨way, rfl, lists_of_isDirectoryAt hdown hdirectory⟩

theorem lists_of_listing {entries : List (String × Option Entry)} (h : d.listing p = .ok entries)
    {entry : String × Option Entry} (hentry : entry ∈ entries) : d.Lists entry.1 := by
  obtain ⟨place, _, rfl⟩ := map_eq_ok_iff.mp h
  obtain ⟨name, hname, rfl⟩ := List.mem_map.mp hentry
  obtain ⟨htaken, hup⟩ := List.mem_filter.mp hname
  exact ⟨by simpa using hup, place, mem_namesIn.mp htaken⟩

/-! ### Names of what is found -/

/-- **What a pattern finds stands below the directory, under names that are written in the pattern
or that entries have.** -/
theorem exists_extend_of_select {isForDirectories : Bool} {steps : List PatternStep} :
    ∀ {p : Path} {found : List Path}, d.select isForDirectories p steps = .ok found → r ∈ found →
      ∃ names, r = p.extend names ∧ ∀ name ∈ names, .name name ∈ steps ∨ d.Lists name := by
  induction steps with
  | nil =>
    intro p found h hr
    cases h
    obtain rfl := List.mem_singleton.mp hr
    exact ⟨[], (Path.extend_nil r).symm, by simp⟩
  | cons step rest ih =>
    intro p found h hr
    -- A step leads on from paths of which the names are known to what the rest finds from there.
    have hstep : ∀ (way : List String) {more : List Path},
        (∀ name ∈ way, .name name ∈ step :: rest ∨ d.Lists name) →
        d.select isForDirectories (p.extend way) rest = .ok more → r ∈ more →
        ∃ names, r = p.extend names ∧ ∀ name ∈ names, .name name ∈ step :: rest ∨ d.Lists name := by
      intro way more hway hmore hr
      obtain ⟨names, rfl, hnames⟩ := ih hmore hr
      refine ⟨way ++ names, Path.extend_extend .., fun name hname => ?_⟩
      rcases List.mem_append.mp hname with hname | hname
      · exact hway name hname
      · exact (hnames name hname).imp_left (List.mem_cons_of_mem _)
    cases step with
    | name name =>
      simp only [select] at h
      split at h
      · exact hstep [name] (by simp) h hr
      · cases h
        cases hr
      · cases h
    | names wildcards =>
      simp only [select] at h
      split at h
      · cases h
      · rename_i entries hentries
        obtain ⟨entry, hentry, more, hmore, hr⟩ := (mem_of_gather h).mp hr
        have hlists := lists_of_listing hentries (List.mem_filter.mp hentry).1
        exact hstep [entry.1] (by simp [hlists]) hmore hr
    | anyDepth =>
      simp only [select] at h
      split at h
      · cases h
      · rename_i directories hdirectories
        obtain ⟨all, hall, rfl⟩ := map_eq_ok_iff.mp h
        obtain ⟨q, hq, more, hmore, hr⟩ := (mem_of_gather hall).mp (List.mem_eraseDups.mp hr)
        obtain ⟨way, rfl, hlists⟩ := exists_extend_of_directoriesFrom hdirectories hq
        exact hstep way (fun name hname => Or.inr (hlists name hname)) hmore hr

/-! ### Several patterns -/

theorem filesMatching_singleton_eq_ok {text : String} {files : List Path} :
    d.filesMatching excluded p [text] = .ok files ↔
      ∃ pattern found, Pattern.ofString text = .ok pattern ∧
        d.select pattern.isForDirectories p pattern.steps = .ok found ∧
        d.keepFiles excluded p found = .ok files := by
  simp only [filesMatching]
  cases Pattern.ofString text with
  | error cause => simp
  | ok pattern =>
    cases hfound : d.select pattern.isForDirectories p pattern.steps with
    | error fault => simp [Except.bind, hfound]
    | ok found => cases hkept : d.keepFiles excluded p found <;>
        simp [Except.bind, Except.map, hfound, hkept]

theorem filesMatching_cons_eq_ok {text : String} {rest : List String} {files : List Path} :
    d.filesMatching excluded p (text :: rest) = .ok files ↔
      ∃ found more, d.filesMatching excluded p [text] = .ok found ∧
        d.filesMatching excluded p rest = .ok more ∧ found ++ more = files := by
  rw [filesMatching_cons]
  cases d.filesMatching excluded p [text] with
  | error cause => simp [Except.bind]
  | ok found => cases d.filesMatching excluded p rest <;> simp [Except.bind, Except.map]

theorem filesMatching_isOk_iff {texts : List String} :
    (∃ files, d.filesMatching excluded p texts = .ok files) ↔
      ∀ text ∈ texts, ∃ found, d.filesMatching excluded p [text] = .ok found := by
  induction texts with
  | nil => simp [filesMatching]
  | cons text rest ih =>
    rw [List.forall_mem_cons, ← ih]
    constructor
    · rintro ⟨files, h⟩
      obtain ⟨found, more, hfound, hmore, _⟩ := filesMatching_cons_eq_ok.mp h
      exact ⟨⟨found, hfound⟩, more, hmore⟩
    · rintro ⟨⟨found, hfound⟩, more, hmore⟩
      exact ⟨found ++ more, filesMatching_cons_eq_ok.mpr ⟨found, more, hfound, hmore, rfl⟩⟩

theorem mem_of_filesMatching {texts : List String} :
    ∀ {files : List Path}, d.filesMatching excluded p texts = .ok files →
      (r ∈ files ↔ ∃ text ∈ texts, ∃ found,
        d.filesMatching excluded p [text] = .ok found ∧ r ∈ found) := by
  induction texts with
  | nil =>
    intro files h
    cases h
    simp
  | cons text rest ih =>
    intro files h
    obtain ⟨found, more, hfound, hmore, rfl⟩ := filesMatching_cons_eq_ok.mp h
    rw [List.mem_append, ih hmore, List.exists_mem_cons_iff]
    refine or_congr_left ⟨fun hr => ⟨found, hfound, hr⟩, ?_⟩
    rintro ⟨found', hfound', hr⟩
    cases hfound.symm.trans hfound'
    exact hr

/-- A name below a directory that is written in a pattern, or under which an entry is listed. -/
def Comes (d : Disk) (patterns : List String) (name : String) : Prop :=
  (∃ text ∈ patterns, name ∈ (Path.ofString text).names) ∨ d.Lists name

theorem Comes.readable (named : d.Named) {patterns : List String} {name : String}
    (h : d.Comes patterns name) : Path.Readable name :=
  h.elim (fun ⟨text, _, hname⟩ => Path.names_ofString text name hname) named.readable

theorem exists_extend_of_filesMatching {texts : List String} {files : List Path}
    (h : d.filesMatching excluded p texts = .ok files) (hr : r ∈ files) :
    d.hasFile r = .ok true ∧
      ∃ names, r = p.extend names ∧ ∀ name ∈ names, d.Comes texts name := by
  obtain ⟨text, htext, found, hfound, hr⟩ := (mem_of_filesMatching h).mp hr
  obtain ⟨pattern, all, hpattern, hselect, hkept⟩ := filesMatching_singleton_eq_ok.mp hfound
  obtain ⟨hall, hfile, _⟩ := (mem_of_keepFiles hkept).mp hr
  obtain ⟨names, rfl, hnames⟩ := exists_extend_of_select hselect hall
  refine ⟨hfile, names, rfl, fun name hname => (hnames name hname).imp_left fun hstep => ?_⟩
  exact ⟨text, htext, Pattern.mem_names_of_ofString hpattern hstep⟩

/-! ### What a path stands for -/

theorem scan_eq_ok_iff {settings : DiscoverySettings} {files : List Path} :
    d.scan settings p = .ok files ↔
      ∃ found, d.filesMatching settings.excluded p settings.patterns = .ok found ∧
        found.eraseDups.mergeSort Path.le = files :=
  map_eq_ok_iff

theorem hasDirectory_of_hasFile (h : d.hasFile r = .ok true) : d.hasDirectory r = .ok false := by
  obtain ⟨e?, he, hfile⟩ := map_eq_ok_iff.mp h
  rw [hasDirectory, he]
  cases e? with
  | none => cases hfile
  | some e => cases e <;> simp_all [Except.map, Entry.isDirectory]

/-- **A path stands for paths that lead to no directory**: itself, or others below it under names
that come from patterns or entries. -/
theorem exists_extend_of_expand {settings : DiscoverySettings} {files : List Path}
    (h : d.expand settings p = .ok files) (hr : r ∈ files) :
    d.hasDirectory r = .ok false ∧
      ∃ names, r = p.extend names ∧ ∀ name ∈ names, d.Comes settings.patterns name := by
  unfold expand at h
  split at h
  · obtain ⟨found, hfound, rfl⟩ := scan_eq_ok_iff.mp h
    obtain ⟨hfile, hnames⟩ := exists_extend_of_filesMatching hfound
      (List.mem_eraseDups.mp (List.mem_mergeSort.mp hr))
    exact ⟨hasDirectory_of_hasFile hfile, hnames⟩
  · rename_i hdirectory
    cases h
    obtain rfl := List.mem_singleton.mp hr
    exact ⟨hdirectory, [], (Path.extend_nil r).symm, by simp⟩
  · cases h

theorem ofString_text_of_expand (named : d.Named) {settings : DiscoverySettings} {s : String}
    {files : List Path} (h : d.expand settings (.ofString s) = .ok files) (hr : r ∈ files) :
    Path.ofString r.text = r := by
  obtain ⟨_, names, rfl, hnames⟩ := exists_extend_of_expand h hr
  refine Path.ofString_text fun name hname => ?_
  rcases List.mem_append.mp hname with hgiven | hbelow
  · exact Path.names_ofString s name hgiven
  · exact (hnames name hbelow).readable named

/-- **A text that is found writes the path it is read as**, and this path leads to no directory.  It
is a path that was given, or stands below one. -/
theorem exists_extend_of_discover (named : d.Named) {settings : DiscoverySettings}
    {given found : List String} (h : d.discover settings (given.map .ofString) = .ok found)
    {text : String} (htext : text ∈ found) :
    (Path.ofString text).text = text ∧ d.hasDirectory (.ofString text) = .ok false ∧
      ∃ s ∈ given, ∃ names, Path.ofString text = (Path.ofString s).extend names ∧
        ∀ name ∈ names, d.Comes settings.patterns name := by
  obtain ⟨_, hgiven, files, hexpand, r, hr, rfl⟩ := exists_path_of_discover h htext
  obtain ⟨s, hs, rfl⟩ := List.mem_map.mp hgiven
  obtain ⟨hdirectory, hnames⟩ := exists_extend_of_expand hexpand hr
  rw [ofString_text_of_expand named hexpand hr]
  exact ⟨rfl, hdirectory, s, hs, hnames⟩

end Disk

end TestScaffold
