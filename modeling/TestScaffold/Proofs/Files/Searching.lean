/-
  TestScaffold/Proofs/Files/Searching.lean
  ========================================
  **How a search for files goes on from one item to the next, and where it ends.**

  A search goes through the paths that are given, and in a directory through the
  patterns and through what the disk lists.  The results of the items follow each
  other (`discover_eq_ok_iff`).  The first item that fails ends the search with
  its own fault (`Reached`): a path that is too long, a text that is no pattern,
  or a directory that cannot be scanned.
-/
import TestScaffold.Proofs.Files.Reading
import TestScaffold.Proofs.Lists
import TestScaffold.Files.Discovery

namespace TestScaffold

/-! ### Items that fail -/

section Reached

variable {α β ε : Type}

/-- Going through items one after the other comes as far as an item: those in front of it do not
fail. -/
def Reached (f : α → Except ε β) (as : List α) (a : α) : Prop :=
  ∃ before after, as = before ++ a :: after ∧ ∀ b ∈ before, ∃ result, f b = .ok result

/-- What fails is the first item, or one of the others behind a first one that does not. -/
theorem exists_reached_cons_iff {f : α → Except ε β} {a : α} {rest : List α} {e : ε} :
    (∃ x, Reached f (a :: rest) x ∧ f x = .error e) ↔
      f a = .error e ∨ (∃ b, f a = .ok b) ∧ ∃ x, Reached f rest x ∧ f x = .error e := by
  constructor
  · rintro ⟨x, ⟨before, after, hsplit, hbefore⟩, hx⟩
    cases before with
    | nil =>
      cases hsplit
      exact Or.inl hx
    | cons b before =>
      obtain ⟨rfl, rfl⟩ := List.cons.inj hsplit
      obtain ⟨hfirst, hrest⟩ := List.forall_mem_cons.mp hbefore
      exact Or.inr ⟨hfirst, x, ⟨before, after, rfl, hrest⟩, hx⟩
  · rintro (hfirst | ⟨hfirst, x, ⟨before, after, rfl, hbefore⟩, hx⟩)
    · exact ⟨a, ⟨[], rest, rfl, by simp⟩, hfirst⟩
    · exact ⟨x, ⟨a :: before, after, rfl, List.forall_mem_cons.mpr ⟨hfirst, hbefore⟩⟩, hx⟩

theorem not_reached_nil {f : α → Except ε β} {a : α} : ¬ Reached f [] a := by
  rintro ⟨before, after, hsplit, _⟩
  cases before <;> cases hsplit

/-- Items that come from others fail where these do. -/
theorem exists_reached_map_iff {γ : Type} {g : γ → α} {f : α → Except ε β} {cs : List γ} {e : ε} :
    (∃ a, Reached f (cs.map g) a ∧ f a = .error e) ↔
      ∃ c, Reached (fun c => f (g c)) cs c ∧ f (g c) = .error e := by
  induction cs with
  | nil => simp [not_reached_nil]
  | cons c rest ih => rw [List.map_cons, exists_reached_cons_iff, exists_reached_cons_iff, ih]

end Reached

namespace Disk

variable {d : Disk} {p q : Path} {excluded : List String}

/-! ### Results one after the other -/

section Gather

variable {α β : Type} {f : α → Except DiskFault (List β)}

theorem gather_cons_eq_ok {a : α} {rest : List α} {bs : List β} :
    gather f (a :: rest) = .ok bs ↔
      ∃ cs more, f a = .ok cs ∧ gather f rest = .ok more ∧ cs ++ more = bs := by
  cases hfirst : f a with
  | error e => cases hrest : gather f rest <;> simp [gather, hfirst, hrest]
  | ok cs =>
    cases hrest : gather f rest with
    | error e => simp [gather, hfirst, hrest]
    | ok more => simp [gather, hfirst, hrest]

/-- There are results for all items if there are results for each of them. -/
theorem gather_isOk_iff {as : List α} :
    (∃ bs, gather f as = .ok bs) ↔ ∀ a ∈ as, ∃ cs, f a = .ok cs := by
  induction as with
  | nil => simp [gather]
  | cons a rest ih =>
    rw [List.forall_mem_cons, ← ih]
    constructor
    · rintro ⟨bs, hbs⟩
      obtain ⟨cs, more, hcs, hmore, _⟩ := gather_cons_eq_ok.mp hbs
      exact ⟨⟨cs, hcs⟩, more, hmore⟩
    · rintro ⟨⟨cs, hcs⟩, more, hmore⟩
      exact ⟨cs ++ more, gather_cons_eq_ok.mpr ⟨cs, more, hcs, hmore, rfl⟩⟩

theorem mem_of_gather {as : List α} {b : β} :
    ∀ {bs : List β}, gather f as = .ok bs → (b ∈ bs ↔ ∃ a ∈ as, ∃ cs, f a = .ok cs ∧ b ∈ cs) := by
  induction as with
  | nil =>
    intro bs h
    cases h
    simp
  | cons a rest ih =>
    intro bs h
    obtain ⟨cs, more, hcs, hmore, rfl⟩ := gather_cons_eq_ok.mp h
    rw [List.mem_append, ih hmore, List.exists_mem_cons_iff]
    refine or_congr_left ⟨fun hb => ⟨cs, hcs, hb⟩, ?_⟩
    rintro ⟨cs', hcs', hb⟩
    cases hcs.symm.trans hcs'
    exact hb

theorem gather_singletons {g : α → β} (as : List α) :
    gather (fun a => .ok [g a]) as = .ok (as.map g) := by
  induction as with
  | nil => rfl
  | cons a rest ih => simp [gather, ih]

end Gather

/-! ### Entries that cannot be looked at -/

/-- Looking at an entry fails where the path is too long, and nowhere else. -/
theorem entryAt?_eq_error_iff {fault : DiskFault} :
    d.entryAt? q = .error fault ↔ d.locate q = .error .nameTooLong ∧ fault = .nameTooLong := by
  unfold entryAt?
  cases hlocate : d.locate q with
  | ok place => simp
  | error cause => cases cause <;> simp [eq_comm]

theorem hasFile_eq_error_iff {fault : DiskFault} :
    d.hasFile q = .error fault ↔ d.locate q = .error .nameTooLong ∧ fault = .nameTooLong := by
  rw [← entryAt?_eq_error_iff]
  unfold hasFile
  cases d.entryAt? q <;> simp [Except.map]

theorem hasDirectory_eq_error_iff {fault : DiskFault} :
    d.hasDirectory q = .error fault ↔ d.locate q = .error .nameTooLong ∧ fault = .nameTooLong := by
  rw [← entryAt?_eq_error_iff]
  unfold hasDirectory
  cases d.entryAt? q <;> simp [Except.map]

/-! ### Files among paths -/

theorem keepFiles_isOk_iff {found : List Path} :
    (∃ kept, d.keepFiles excluded p found = .ok kept) ↔
      ∀ r ∈ found, d.locate r ≠ .error .nameTooLong := by
  unfold keepFiles
  rw [gather_isOk_iff]
  refine forall₂_congr fun r _ => ?_
  cases hfile : d.hasFile r with
  | ok isFile =>
    refine iff_of_true ⟨_, rfl⟩ fun hlong => ?_
    rw [hasFile_eq_error_iff.mpr ⟨hlong, rfl⟩] at hfile
    cases hfile
  | error fault =>
    have hlong := (hasFile_eq_error_iff.mp hfile).1
    simp [Except.map, hlong]

theorem mem_of_keepFiles {found kept : List Path} (h : d.keepFiles excluded p found = .ok kept)
    {r : Path} :
    r ∈ kept ↔ r ∈ found ∧ d.hasFile r = .ok true ∧ isExcluded excluded p r = false := by
  unfold keepFiles at h
  rw [mem_of_gather h]
  constructor
  · rintro ⟨q, hq, cs, hcs, hr⟩
    cases hfile : d.hasFile q with
    | error fault => simp [hfile, Except.map] at hcs
    | ok isFile =>
      simp only [hfile, Except.map, Except.ok.injEq] at hcs
      subst hcs
      rw [List.mem_ite_nil_right, Bool.and_eq_true, Bool.not_eq_true', List.mem_singleton] at hr
      obtain ⟨⟨rfl, hkept⟩, rfl⟩ := hr
      exact ⟨hq, hfile, hkept⟩
  · rintro ⟨hr, hfile, hkept⟩
    exact ⟨r, hr, [r], by simp [hfile, hkept, Except.map], List.mem_singleton_self r⟩

/-! ### Files of several paths -/

theorem eraseDups_snoc (xs : List String) (x : String) :
    (xs ++ [x]).eraseDups = if x ∈ xs then xs.eraseDups else xs.eraseDups ++ [x] := by
  rw [List.eraseDups_append]
  by_cases hx : x ∈ xs
  · simp [hx, List.removeAll]
  · simp [hx, List.removeAll, List.eraseDups_cons]

/-- Texts that are added to a list are listed where they come first. -/
theorem addNew_eraseDups (new : List String) :
    ∀ seen : List String, addNew seen.eraseDups new = (seen ++ new).eraseDups := by
  induction new with
  | nil => simp [addNew]
  | cons s rest ih =>
    intro seen
    have hstep : addNew seen.eraseDups (s :: rest) = addNew (seen ++ [s]).eraseDups rest := by
      rw [eraseDups_snoc]
      by_cases hs : s ∈ seen
      · simp [addNew, hs]
      · simp [addNew, hs]
    rw [hstep, ih, List.append_assoc, List.singleton_append]

/-- The files of paths follow each other, and texts that were seen are not listed again. -/
theorem discoverFrom_eq_ok_iff {settings : DiscoverySettings} {paths : List Path} :
    ∀ {seen texts : List String}, d.discoverFrom settings seen.eraseDups paths = .ok texts ↔
      ∃ lists, List.Forall₂ (fun p files => d.expand settings p = .ok files) paths lists ∧
        texts = (seen ++ lists.flatten.map Path.text).eraseDups := by
  induction paths with
  | nil =>
    intro seen texts
    simp [discoverFrom, eq_comm]
  | cons p rest ih =>
    intro seen texts
    simp only [discoverFrom, List.forall₂_cons_left_iff]
    cases hexpand : d.expand settings p with
    | error e => simp
    | ok files =>
      simp only [addNew_eraseDups, ih, Except.ok.injEq]
      constructor
      · rintro ⟨lists, hlists, rfl⟩
        exact ⟨files :: lists, ⟨files, lists, rfl, hlists, rfl⟩, by simp⟩
      · rintro ⟨_, ⟨_, lists, rfl, hlists, rfl⟩, rfl⟩
        exact ⟨lists, hlists, by simp⟩

theorem discover_eq_ok_iff {settings : DiscoverySettings} {paths : List Path}
    {texts : List String} :
    d.discover settings paths = .ok texts ↔
      ∃ lists, List.Forall₂ (fun p files => d.expand settings p = .ok files) paths lists ∧
        texts = (lists.flatten.map Path.text).eraseDups :=
  @discoverFrom_eq_ok_iff d settings paths [] texts

/-- A path that leads to no directory stands for itself. -/
theorem expand_of_noDirectory (h : d.hasDirectory p = .ok false) (settings : DiscoverySettings) :
    d.expand settings p = .ok [p] := by
  simp only [expand, h]

theorem exists_files_of_discover {settings : DiscoverySettings} {paths : List Path}
    {texts : List String} (h : d.discover settings paths = .ok texts) (hp : p ∈ paths) :
    ∃ files, d.expand settings p = .ok files ∧ ∀ r ∈ files, r.text ∈ texts := by
  obtain ⟨lists, hlists, rfl⟩ := discover_eq_ok_iff.mp h
  obtain ⟨files, hfiles, hexpand⟩ := exists_left_of_forall₂ hlists.flip hp
  refine ⟨files, hexpand, fun r hr => ?_⟩
  rw [List.mem_eraseDups]
  exact List.mem_map_of_mem (List.mem_flatten.mpr ⟨files, hfiles, hr⟩)

theorem exists_path_of_discover {settings : DiscoverySettings} {paths : List Path}
    {texts : List String} (h : d.discover settings paths = .ok texts) {text : String}
    (htext : text ∈ texts) :
    ∃ p ∈ paths, ∃ files, d.expand settings p = .ok files ∧ ∃ r ∈ files, r.text = text := by
  obtain ⟨lists, hlists, rfl⟩ := discover_eq_ok_iff.mp h
  obtain ⟨r, hr, rfl⟩ := List.mem_map.mp (List.mem_eraseDups.mp htext)
  obtain ⟨files, hfiles, hr⟩ := List.mem_flatten.mp hr
  obtain ⟨p, hp, hexpand⟩ := exists_left_of_forall₂ hlists hfiles
  exact ⟨p, hp, files, hexpand, r, hr, rfl⟩

/-! ### Searches that fail -/

theorem discoverFrom_eq_error_iff {settings : DiscoverySettings} {paths : List Path}
    {cause : DiscoveryError} :
    ∀ {seen : List String}, d.discoverFrom settings seen paths = .error cause ↔
      ∃ p, Reached (d.expand settings) paths p ∧ d.expand settings p = .error cause := by
  induction paths with
  | nil => simp [discoverFrom, not_reached_nil]
  | cons p rest ih =>
    intro seen
    rw [exists_reached_cons_iff]
    cases hexpand : d.expand settings p with
    | error e => simp [discoverFrom, hexpand]
    | ok files => simp [discoverFrom, hexpand, ih]

/-- The files of a pattern, and those of the patterns behind it. -/
theorem filesMatching_cons (text : String) (rest : List String) :
    d.filesMatching excluded p (text :: rest) =
      (d.filesMatching excluded p [text]).bind fun found =>
        (d.filesMatching excluded p rest).map (found ++ ·) := by
  simp only [filesMatching]
  cases Pattern.ofString text with
  | error cause => rfl
  | ok pattern =>
    cases hfound : (d.select pattern.isForDirectories p pattern.steps).bind
        (d.keepFiles excluded p) with
    | error fault => simp only [hfound]; rfl
    | ok found => simp only [hfound, Except.map, List.append_nil]; rfl

theorem filesMatching_eq_error_iff {texts : List String} {cause : DiscoveryError} :
    d.filesMatching excluded p texts = .error cause ↔
      ∃ text, Reached (fun text => d.filesMatching excluded p [text]) texts text ∧
        d.filesMatching excluded p [text] = .error cause := by
  induction texts with
  | nil => simp [filesMatching, not_reached_nil]
  | cons text rest ih =>
    rw [exists_reached_cons_iff, ← ih, filesMatching_cons]
    cases d.filesMatching excluded p [text] with
    | error e => simp [Except.bind]
    | ok found => cases d.filesMatching excluded p rest <;> simp [Except.bind, Except.map]

/-- A text fails for itself where it is no pattern, and otherwise for the directory. -/
theorem filesMatching_cases (d : Disk) (excluded : List String) (p : Path) (text : String) :
    (∃ cause, Pattern.ofString text = .error cause ∧
        d.filesMatching excluded p [text] = .error (.pattern cause)) ∨
      ∃ pattern, Pattern.ofString text = .ok pattern ∧
        ((∃ found, d.filesMatching excluded p [text] = .ok found) ∨
          ∃ fault, d.filesMatching excluded p [text] = .error (.unscannable p fault)) := by
  simp only [filesMatching]
  cases Pattern.ofString text with
  | error cause => exact Or.inl ⟨cause, rfl, rfl⟩
  | ok pattern =>
    refine Or.inr ⟨pattern, rfl, ?_⟩
    cases hfound : (d.select pattern.isForDirectories p pattern.steps).bind
        (d.keepFiles excluded p) with
    | ok found => exact Or.inl ⟨found, by simp [hfound, Except.map]⟩
    | error fault => exact Or.inr ⟨fault, by simp [hfound]⟩

theorem filesMatching_eq_pattern_iff {text : String} {cause : PatternError} :
    d.filesMatching excluded p [text] = .error (.pattern cause) ↔
      Pattern.ofString text = .error cause := by
  rcases filesMatching_cases d excluded p text with
    ⟨_, htext, h⟩ | ⟨_, htext, ⟨_, h⟩ | ⟨_, h⟩⟩ <;> simp [htext, h]

theorem filesMatching_ne_disk {text : String} {fault : DiskFault} :
    d.filesMatching excluded p [text] ≠ .error (.disk fault) := by
  rcases filesMatching_cases d excluded p text with
    ⟨_, _, h⟩ | ⟨_, _, ⟨_, h⟩ | ⟨_, h⟩⟩ <;> simp [h]

theorem scan_eq_error_iff {settings : DiscoverySettings} {cause : DiscoveryError} :
    d.scan settings p = .error cause ↔
      d.filesMatching settings.excluded p settings.patterns = .error cause := by
  unfold scan
  cases d.filesMatching settings.excluded p settings.patterns <;> simp [Except.map]

theorem expand_eq_disk_iff {settings : DiscoverySettings} {fault : DiskFault} :
    d.expand settings p = .error (.disk fault) ↔
      d.locate p = .error .nameTooLong ∧ fault = .nameTooLong := by
  rw [← hasDirectory_eq_error_iff]
  unfold expand
  cases hdirectory : d.hasDirectory p with
  | error e => simp
  | ok isDirectory =>
    cases isDirectory with
    | false => simp
    | true =>
      have hscan : d.scan settings p ≠ .error (.disk fault) := fun h => by
        obtain ⟨text, _, htext⟩ := filesMatching_eq_error_iff.mp (scan_eq_error_iff.mp h)
        exact filesMatching_ne_disk htext
      simp [hscan]

/-- Of the paths only directories are searched for patterns. -/
theorem expand_eq_pattern_iff {settings : DiscoverySettings} {cause : PatternError} :
    d.expand settings p = .error (.pattern cause) ↔
      d.hasDirectory p = .ok true ∧ ∃ text,
        Reached (fun text => d.filesMatching settings.excluded p [text]) settings.patterns text ∧
          Pattern.ofString text = .error cause := by
  unfold expand
  cases hdirectory : d.hasDirectory p with
  | error e => simp
  | ok isDirectory =>
    cases isDirectory with
    | false => simp
    | true =>
      refine (scan_eq_error_iff.trans filesMatching_eq_error_iff).trans ?_
      simp only [filesMatching_eq_pattern_iff, true_and]

/-- A path that is too long ends the search before it looks at anything behind it. -/
theorem discover_of_nameTooLong {d : Disk} {p : Path} (h : d.locate p = .error .nameTooLong)
    (settings : DiscoverySettings) (rest : List Path) :
    d.discover settings (p :: rest) = .error (.disk .nameTooLong) := by
  have hdirectory : d.hasDirectory p = .error .nameTooLong := hasDirectory_eq_error_iff.mpr ⟨h, rfl⟩
  simp only [discover, discoverFrom, expand, hdirectory]

end Disk

end TestScaffold
