/-
  TestScaffold/Proofs/Files/Discovery.lean
  ========================================
  **Which files a list of paths stands for.**

  With the default pattern a directory stands for the source files below it, at
  any depth and each of them once, in the order of their names, without those
  inside an excluded directory (`StandsFor`).  The files of several paths follow
  each other, and a text that came before does not come again.

  Looking for files asks the disk to follow paths, and some paths are too long to
  be followed.  Such a path below a directory, or among those that are given,
  ends the search; nothing else does (`discover_sources`).
-/
import TestScaffold.Proofs.Files.SameDirectories
import TestScaffold.Proofs.Files.Selecting

namespace TestScaffold

/-! ### The order of paths -/

namespace Path

theorem namesLe_total : ∀ as bs : List String, namesLe as bs = true ∨ namesLe bs as = true
  | [], _ => Or.inl rfl
  | _ :: _, [] => Or.inr rfl
  | a :: as, b :: bs => by
    by_cases hab : a = b
    · subst hab
      simpa [namesLe] using namesLe_total as bs
    · simp only [namesLe, hab, Ne.symm hab, if_false, decide_eq_true_eq]
      by_contra hneither
      obtain ⟨hba, hab'⟩ := not_or.mp hneither
      exact hab (String.le_antisymm (String.not_lt.mp hab') (String.not_lt.mp hba))

theorem namesLe_trans : ∀ {as bs cs : List String}, namesLe as bs = true → namesLe bs cs = true →
    namesLe as cs = true
  | [], _, _, _, _ => rfl
  | a :: as, b :: bs, c :: cs, hab, hbc => by
    by_cases heq : a = b
    · subst heq
      by_cases hac : a = c
      · subst hac
        simp only [namesLe, if_true] at hab hbc ⊢
        exact namesLe_trans hab hbc
      · simp only [namesLe, hac, if_false] at hbc ⊢
        exact hbc
    · simp only [namesLe, heq, if_false, decide_eq_true_eq] at hab
      by_cases hbc' : b = c
      · subst hbc'
        simpa [namesLe, heq] using hab
      · simp only [namesLe, hbc', if_false, decide_eq_true_eq] at hbc
        have hac : a < c := String.lt_trans hab hbc
        have hne : a ≠ c := fun h => String.lt_irrefl c (h ▸ hac)
        simpa [namesLe, hne] using hac

/-- Names that come before other ones are the same or smaller, name by name. -/
theorem lt_of_namesLe : ∀ {as bs : List String}, namesLe as bs = true → as ≠ bs → as < bs
  | [], [], _, hne => absurd rfl hne
  | [], _ :: _, _, _ => List.nil_lt_cons ..
  | a :: as, b :: bs, hle, hne => by
    rw [List.cons_lt_cons_iff]
    by_cases hab : a = b
    · subst hab
      simp only [namesLe, if_true] at hle
      exact Or.inr ⟨rfl, lt_of_namesLe hle fun h => hne (h ▸ rfl)⟩
    · simp only [namesLe, hab, if_false, decide_eq_true_eq] at hle
      exact Or.inl hle

theorem namesLe_cons_self (s : String) (as bs : List String) :
    namesLe (s :: as) (s :: bs) = namesLe as bs := by
  simp [namesLe]

theorem le_total (p q : Path) : (p.le q || q.le p) = true :=
  Bool.or_eq_true_iff.mpr (namesLe_total _ _)

theorem le_trans (p q r : Path) : p.le q = true → q.le r = true → p.le r = true :=
  namesLe_trans

/-- Paths that start alike are in the order of their names. -/
theorem le_eq_namesLe {p q : Path} (h : p.anchor = q.anchor) :
    p.le q = namesLe p.names q.names := by
  unfold le
  by_cases hq : q.anchor = .here
  · simp [h, hq]
  · simp [h, hq, namesLe_cons_self]

end Path

/-! ### The pattern of sources -/

namespace Wildcard

theorem fitAll_chars : ∀ ds cs : List Char, fitAll (ds.map .char) cs = true ↔ ds = cs
  | [], cs => by
    cases cs <;> simp [fitAll]
  | d :: ds, [] => by simp [fitAll]
  | d :: ds, c :: cs => by
    simp only [List.map_cons, fitAll, fits, Bool.and_eq_true, fitAll_chars ds cs, beq_iff_eq,
      List.cons.injEq, eq_comm (a := c)]

theorem anyEnd_iff {p : List Char → Bool} :
    ∀ {cs : List Char}, anyEnd p cs = true ↔ ∃ rest, rest <:+ cs ∧ p rest = true
  | [] => by simp [anyEnd]
  | c :: cs => by
    rw [anyEnd, Bool.or_eq_true, anyEnd_iff]
    simp only [List.suffix_cons_iff, or_and_right, exists_or, exists_eq_left]

/-- A star and some characters fit the texts that end in the characters. -/
theorem fitAll_anything_chars (ds cs : List Char) :
    fitAll (.anything :: ds.map .char) cs = true ↔ ds <:+ cs := by
  simp only [fitAll, anyEnd_iff, fitAll_chars, exists_eq_right']

end Wildcard

/-- The end of the name of a source file. -/
def sourceEnd : List Char := ".cs".toList

/-- The steps of the default pattern: any directories, and a name that ends as sources do. -/
def sourceSteps : List PatternStep := [.anyDepth, .names (.anything :: sourceEnd.map .char)]

theorem ofString_default : Pattern.ofString "**/*.cs" = .ok { steps := sourceSteps } := by
  decide +kernel

namespace Disk

open Text (hasChar joinWith)

variable {d : Disk} {p q : Path} {place : Place} {excluded : List String}

theorem select_name (ws : List Wildcard) :
    d.select false q [.names ws] = (d.listing q).map fun entries =>
      (entries.filter fun entry => Wildcard.fitAll ws entry.1.toList).map fun entry =>
        q.child entry.1 := by
  simp only [select]
  cases hlisting : d.listing q with
  | error e => rfl
  | ok entries =>
    simp only [List.isEmpty_nil, Bool.not_false, Bool.and_self, Bool.true_or, Bool.true_and]
    exact gather_singletons _

/-- A name of a source that is taken below a place, with the names on the way down to it. -/
structure SourceName (d : Disk) (place : Place) (way : List String) (name : String) : Prop where
  down : ".." ∉ way ++ [name]
  ending : sourceEnd <:+ name.toList
  taken : (d.find? (name :: (way.reverse ++ place))).isSome = true

/-- The names of sources in one directory. -/
theorem exists_select_name (hlocate : d.locate q = .ok place) :
    ∃ rs, d.select false q [.names (.anything :: sourceEnd.map .char)] = .ok rs ∧
      ∀ r, r ∈ rs ↔ ∃ name, r = q.child name ∧ SourceName d place [] name := by
  rw [select_name, listing, hlocate]
  refine ⟨_, rfl, fun r => ?_⟩
  simp only [List.mem_map, List.mem_filter, mem_namesIn, bne_iff_ne, ne_eq]
  constructor
  · rintro ⟨_, ⟨⟨name, ⟨htaken, hup⟩, rfl⟩, hfits⟩, rfl⟩
    exact ⟨name, rfl, by simpa using Ne.symm hup, (Wildcard.fitAll_anything_chars _ _).mp hfits,
      htaken⟩
  · rintro ⟨name, rfl, hdown, hending, htaken⟩
    refine ⟨_, ⟨⟨name, ⟨htaken, ?_⟩, rfl⟩, (Wildcard.fitAll_anything_chars _ _).mpr hending⟩, rfl⟩
    rintro rfl
    simp at hdown

/-- Each directory at or below a place can be looked into. -/
def Passable (d : Disk) (p : Path) (place : Place) : Prop :=
  ∀ way, ".." ∉ way → d.isDirectoryAt (way.reverse ++ place) = true →
    ∃ q, d.locate (p.extend way) = .ok q

theorem directoriesFrom_isOk_iff (hlocate : d.locate p = .ok place)
    (hplace : d.isDirectoryAt place = true) :
    (∃ rs, d.directoriesFrom p = .ok rs) ↔ Passable d p place := by
  unfold directoriesFrom
  rw [hlocate]
  dsimp only
  rw [gather_isOk_iff]
  constructor
  · intro h way hdown hdirectory
    obtain ⟨_, hrs⟩ := h _ ((mem_directoriesBelow hplace).mpr ⟨way, rfl, hdown, hdirectory⟩)
    cases hway : d.locate (p.extend way) with
    | error e => simp [hway, Except.map] at hrs
    | ok q => exact ⟨q, rfl⟩
  · intro h r hr
    obtain ⟨way, rfl, hdown, hdirectory⟩ := (mem_directoriesBelow hplace).mp hr
    obtain ⟨q, hq⟩ := h way hdown hdirectory
    exact ⟨[p.extend way], by rw [hq]; rfl⟩

theorem mem_of_directoriesFrom (hlocate : d.locate p = .ok place)
    (hplace : d.isDirectoryAt place = true) {rs : List Path} (h : d.directoriesFrom p = .ok rs)
    {r : Path} :
    r ∈ rs ↔
      ∃ way, r = p.extend way ∧ ".." ∉ way ∧ d.isDirectoryAt (way.reverse ++ place) = true := by
  have hpassable := (directoriesFrom_isOk_iff hlocate hplace).mp ⟨rs, h⟩
  rw [← mem_directoriesBelow hplace]
  constructor
  · intro hr
    obtain ⟨place', hlocate', hr⟩ := mem_directoriesBelow_of_directoriesFrom h hr
    cases hlocate.symm.trans hlocate'
    exact hr
  · intro hr
    unfold directoriesFrom at h
    rw [hlocate] at h
    obtain ⟨way, rfl, hdown, hdirectory⟩ := (mem_directoriesBelow hplace).mp hr
    obtain ⟨q, hq⟩ := hpassable way hdown hdirectory
    exact (mem_of_gather h).mpr ⟨_, hr, [p.extend way], by rw [hq]; rfl, List.mem_singleton_self _⟩

/-- The default pattern fits the names of sources below a directory, as soon as each directory can
be looked into. -/
theorem select_sources_isOk_iff (hlocate : d.locate p = .ok place)
    (hplace : d.isDirectoryAt place = true) :
    (∃ found, d.select false p sourceSteps = .ok found) ↔ Passable d p place := by
  rw [← directoriesFrom_isOk_iff hlocate hplace]
  unfold sourceSteps
  rw [select]
  cases hfrom : d.directoriesFrom p with
  | error e => simp
  | ok rs =>
    refine iff_of_true ?_ ⟨rs, rfl⟩
    have hall : ∀ r ∈ rs, ∃ cs,
        d.select false r [.names (.anything :: sourceEnd.map .char)] = .ok cs := by
      intro r hr
      obtain ⟨way, rfl, hdown, hdirectory⟩ := (mem_of_directoriesFrom hlocate hplace hfrom).mp hr
      obtain ⟨q, hq⟩ :=
        (directoriesFrom_isOk_iff hlocate hplace).mp ⟨rs, hfrom⟩ way hdown hdirectory
      obtain ⟨cs, hcs, _⟩ := exists_select_name hq
      exact ⟨cs, hcs⟩
    obtain ⟨found, hfound⟩ := gather_isOk_iff.mpr hall
    exact ⟨found.eraseDups, by simp only [hfound]; rfl⟩

theorem mem_of_select_sources (hlocate : d.locate p = .ok place)
    (hplace : d.isDirectoryAt place = true) {found : List Path}
    (h : d.select false p sourceSteps = .ok found) {r : Path} :
    r ∈ found ↔ ∃ way name, r = p.extend (way ++ [name]) ∧ SourceName d place way name := by
  have hpassable := (select_sources_isOk_iff hlocate hplace).mp ⟨found, h⟩
  unfold sourceSteps at h
  rw [select] at h
  cases hfrom : d.directoriesFrom p with
  | error e => simp [hfrom] at h
  | ok rs =>
    rw [hfrom] at h
    cases hgather : gather
        (fun q => d.select false q [.names (.anything :: sourceEnd.map .char)]) rs with
    | error e => simp [hgather, Except.map] at h
    | ok cs =>
      simp only [hgather, Except.map, Except.ok.injEq] at h
      subst h
      rw [List.mem_eraseDups, mem_of_gather hgather]
      -- The place of a directory below is the one its names make, so its listing is known.
      have hname : ∀ way, ".." ∉ way → d.isDirectoryAt (way.reverse ++ place) = true →
          ∀ cs, d.select false (p.extend way) [.names (.anything :: sourceEnd.map .char)] = .ok cs →
            (r ∈ cs ↔ ∃ name, r = (p.extend way).child name ∧
              SourceName d (way.reverse ++ place) [] name) := by
        intro way hdown hdirectory cs hcs
        obtain ⟨q, hq⟩ := hpassable way hdown hdirectory
        rw [locate_extend hlocate hdown hq] at hq
        obtain ⟨cs', hcs', hmem⟩ := exists_select_name hq
        cases hcs.symm.trans hcs'
        exact hmem r
      constructor
      · rintro ⟨q, hq, cs, hcs, hr⟩
        obtain ⟨way, rfl, hdown, hdirectory⟩ := (mem_of_directoriesFrom hlocate hplace hfrom).mp hq
        obtain ⟨name, rfl, hsource⟩ := (hname way hdown hdirectory cs hcs).mp hr
        refine ⟨way, name, Path.extend_extend .., ?_, hsource.ending, hsource.taken⟩
        rw [List.mem_append]
        exact fun hup => hup.elim hdown hsource.down
      · rintro ⟨way, name, rfl, hsource⟩
        have hdown : ".." ∉ way := fun hup => hsource.down (List.mem_append_left _ hup)
        have hdirectory := d.closed name (way.reverse ++ place) hsource.taken
        obtain ⟨q, hq⟩ := hpassable way hdown hdirectory
        obtain ⟨cs, hcs, _⟩ := exists_select_name hq
        refine ⟨_, (mem_of_directoriesFrom hlocate hplace hfrom).mpr ⟨way, rfl, hdown, hdirectory⟩,
          cs, hcs, (hname way hdown hdirectory cs hcs).mpr ⟨name, ?_, ?_, ?_, ?_⟩⟩
        · rw [Path.child_eq_extend, Path.extend_extend]
        · exact fun hup => hsource.down (List.mem_append_right _ hup)
        · exact hsource.ending
        · exact hsource.taken

/-! ### Files among the names -/

/-- Below a directory the names between it and the file decide. -/
theorem isExcluded_extend {way : List String} {name : String} :
    isExcluded excluded p (p.extend (way ++ [name])) = false ↔ ∀ n ∈ way, n ∉ excluded := by
  simp [isExcluded, Path.extend]

/-! ### What a path stands for -/

/-- A file below a directory that ends as sources do, with none of the directories between the two
excluded. -/
def IsSource (d : Disk) (excluded : List String) (p q : Path) : Prop :=
  ∃ way name, q = p.extend (way ++ [name]) ∧ ".." ∉ way ++ [name] ∧ (∀ n ∈ way, n ∉ excluded) ∧
    sourceEnd <:+ name.toList ∧ d.hasFile q = .ok true

/-- The files that a path stands for: itself, or the sources below the directory it leads to, in
the order of their names. -/
inductive StandsFor (d : Disk) (excluded : List String) (p : Path) : List Path → Prop where
  | itself (noDirectory : d.hasDirectory p = .ok false) : StandsFor d excluded p [p]
  | sources {files : List Path} (directory : d.hasDirectory p = .ok true)
      (sorted : files.Pairwise (·.names < ·.names))
      (mem : ∀ q, q ∈ files ↔ IsSource d excluded p q) : StandsFor d excluded p files

/-- The disk can follow the path and, if it leads to a directory, whatever is looked at below. -/
structure Explorable (d : Disk) (p : Path) : Prop where
  itself : d.locate p ≠ .error .nameTooLong
  directories : ∀ place, d.locate p = .ok place → Passable d p place
  sources : ∀ place, d.locate p = .ok place → ∀ way name, SourceName d place way name →
    d.locate (p.extend (way ++ [name])) ≠ .error .nameTooLong

/-- The source files below a directory are names of sources that lead to files. -/
theorem isSource_iff (hlocate : d.locate p = .ok place) :
    IsSource d excluded p q ↔
      ∃ way name, q = p.extend (way ++ [name]) ∧ SourceName d place way name ∧
        d.hasFile q = .ok true ∧ ∀ n ∈ way, n ∉ excluded := by
  constructor
  · rintro ⟨way, name, rfl, hdown, hkept, hending, hfile⟩
    refine ⟨way, name, rfl, ⟨hdown, hending, ?_⟩, hfile, hkept⟩
    cases hlocate' : d.locate (p.extend (way ++ [name])) with
    | error fault => cases fault <;> simp [hasFile, entryAt?, hlocate', Except.map] at hfile
    | ok q =>
      have htaken := find?_isSome_of_locate hlocate'
      rw [locate_extend hlocate hdown hlocate'] at htaken
      simpa using htaken
  · rintro ⟨way, name, rfl, hsource, hfile, hkept⟩
    exact ⟨way, name, rfl, hsource.down, hkept, hsource.ending, hfile⟩

theorem filesMatching_sources :
    d.filesMatching excluded p ["**/*.cs"] =
      ((d.select false p sourceSteps).bind (d.keepFiles excluded p)).mapError
        (.unscannable p) := by
  simp only [filesMatching, ofString_default]
  cases (d.select false p sourceSteps).bind (d.keepFiles excluded p) with
  | error fault => rfl
  | ok found => simp [Except.map, Except.mapError]

/-- Files below a directory that are listed once and sorted are in the order of their names. -/
theorem pairwise_mergeSort_le {found : List Path} (hbelow : ∀ r ∈ found, r.anchor = p.anchor) :
    (found.eraseDups.mergeSort Path.le).Pairwise (·.names < ·.names) := by
  have hle : (found.eraseDups.mergeSort Path.le).Pairwise fun a b => a.le b = true :=
    List.pairwise_mergeSort Path.le_trans Path.le_total found.eraseDups
  have hnodup : (found.eraseDups.mergeSort Path.le).Nodup :=
    (List.mergeSort_perm _ _).nodup_iff.mpr (nodup_eraseDups found)
  refine (hle.and hnodup).imp_of_mem ?_
  intro a b ha hb hab
  have hanchor : ∀ {r}, r ∈ found.eraseDups.mergeSort Path.le → r.anchor = p.anchor :=
    fun hr => hbelow _ (List.mem_eraseDups.mp (List.mem_mergeSort.mp hr))
  have halike : a.anchor = b.anchor := (hanchor ha).trans (hanchor hb).symm
  refine Path.lt_of_namesLe (Path.le_eq_namesLe halike ▸ hab.1) fun hnames => hab.2 ?_
  cases a
  cases b
  exact congrArg₂ Path.mk halike hnames

/-- A directory that has been searched can be explored where the paths that were found can be. -/
theorem explorable_iff_of_select (hlocate : d.locate p = .ok place)
    (hplace : d.isDirectoryAt place = true) {found : List Path}
    (hfound : d.select false p sourceSteps = .ok found) :
    Explorable d p ↔ ∀ r ∈ found, d.locate r ≠ .error .nameTooLong := by
  have hother : ∀ place', d.locate p = .ok place' → place' = place := fun place' h =>
    Except.ok.inj (h.symm.trans hlocate)
  have hpassable := (select_sources_isOk_iff hlocate hplace).mp ⟨found, hfound⟩
  have hmem := fun r => mem_of_select_sources hlocate hplace hfound (r := r)
  constructor
  · intro h r hr
    obtain ⟨way, name, rfl, hsource⟩ := (hmem r).mp hr
    exact h.sources place hlocate way name hsource
  · intro h
    refine ⟨by simp [hlocate], fun place' h' => hother place' h' ▸ hpassable, ?_⟩
    intro place' h' way name hsource
    rw [hother place' h'] at hsource
    exact h _ ((hmem _).mpr ⟨way, name, rfl, hsource⟩)

/-- Of a directory that can be explored, the scan finds the sources in order, and of no other. -/
theorem scan_sources (excluded : List String) (hlocate : d.locate p = .ok place)
    (hplace : d.isDirectoryAt place = true) :
    ((∃ files, d.scan { excluded } p = .ok files) ↔ Explorable d p) ∧
      ∀ files, d.scan { excluded } p = .ok files →
        files.Pairwise (·.names < ·.names) ∧ ∀ q, q ∈ files ↔ IsSource d excluded p q := by
  unfold scan
  rw [filesMatching_sources]
  cases hfound : d.select false p sourceSteps with
  | error fault =>
    have hclosed : ¬ Explorable d p := fun h => by
      obtain ⟨found, h'⟩ :=
        (select_sources_isOk_iff hlocate hplace).mpr (h.directories place hlocate)
      cases hfound.symm.trans h'
    constructor
    · exact iff_of_false (by rintro ⟨_, h⟩; cases h) hclosed
    · rintro _ h
      cases h
  | ok found =>
    have hmem := fun r => mem_of_select_sources hlocate hplace hfound (r := r)
    have hkeep : (∃ kept, d.keepFiles excluded p found = .ok kept) ↔
        ∀ r ∈ found, d.locate r ≠ .error .nameTooLong := keepFiles_isOk_iff
    rw [explorable_iff_of_select hlocate hplace hfound, ← hkeep]
    cases hkept : d.keepFiles excluded p found with
    | error fault => simp [Except.bind, Except.mapError, Except.map, hkept]
    | ok kept =>
      simp only [Except.bind, hkept, Except.mapError, Except.map]
      constructor
      · exact iff_of_true ⟨_, rfl⟩ ⟨kept, rfl⟩
      · intro files hfiles
        cases hfiles
        refine ⟨pairwise_mergeSort_le (p := p) ?_, ?_⟩
        · intro r hr
          obtain ⟨way, name, rfl, _⟩ := (hmem r).mp ((mem_of_keepFiles hkept).mp hr).1
          rfl
        · intro q
          rw [List.mem_mergeSort, List.mem_eraseDups, mem_of_keepFiles hkept, hmem,
            isSource_iff hlocate]
          constructor
          · rintro ⟨⟨way, name, rfl, hsource⟩, hfile, hout⟩
            exact ⟨way, name, rfl, hsource, hfile, isExcluded_extend.mp hout⟩
          · rintro ⟨way, name, rfl, hsource, hfile, hout⟩
            exact ⟨⟨way, name, rfl, hsource⟩, hfile, isExcluded_extend.mpr hout⟩

/-- **What a path stands for is found as soon as the path can be explored**, and nothing else is. -/
theorem expand_sources (d : Disk) (excluded : List String) (p : Path) :
    ((∃ files, d.expand { excluded } p = .ok files) ↔ Explorable d p) ∧
      ∀ files, d.expand { excluded } p = .ok files → StandsFor d excluded p files := by
  unfold expand
  cases hdirectory : d.hasDirectory p with
  | error fault =>
    have hlong := (hasDirectory_eq_error_iff.mp hdirectory).1
    constructor
    · exact iff_of_false (by rintro ⟨_, h⟩; cases h) fun h => h.itself hlong
    · rintro _ h
      cases h
  | ok isDirectory =>
    cases isDirectory with
    | true =>
      obtain ⟨place, hfit, hwalk, hplace⟩ := exists_locate_of_hasDirectory hdirectory
      have hlocate : d.locate p = .ok place := by
        unfold locate
        rw [hfit]
        exact hwalk
      have hscan := scan_sources excluded hlocate hplace
      refine ⟨hscan.1, fun files hfiles => ?_⟩
      obtain ⟨hsorted, hmem⟩ := hscan.2 files hfiles
      exact .sources hdirectory hsorted hmem
    | false =>
      have hnone : ∀ place, d.locate p = .ok place → d.isDirectoryAt place ≠ true := by
        intro place hlocate hplace
        rw [hasDirectory_of_locate hlocate, hplace] at hdirectory
        cases hdirectory
      constructor
      · refine iff_of_true ⟨_, rfl⟩ ⟨?_, ?_, ?_⟩
        · intro hlong
          rw [hasDirectory_eq_error_iff.mpr ⟨hlong, rfl⟩] at hdirectory
          cases hdirectory
        · intro place hlocate way _ hbelow
          exact absurd (isDirectoryAt_of_below hbelow) (hnone place hlocate)
        · intro place hlocate way name hsource
          have hbelow := d.closed name (way.reverse ++ place) hsource.taken
          exact absurd (isDirectoryAt_of_below hbelow) (hnone place hlocate)
      · intro files h
        cases h
        exact .itself hdirectory

/-! ### What a list of paths stands for -/

/-- **The files of a list of paths are found if and only if each path can be explored**, and then
they are what the paths stand for, one after the other, each text where it comes first. -/
theorem discover_sources (d : Disk) (excluded : List String) (paths : List Path) :
    ((∃ texts, d.discover { excluded } paths = .ok texts) ↔ ∀ p ∈ paths, Explorable d p) ∧
      ∀ texts, d.discover { excluded } paths = .ok texts →
        ∃ lists, List.Forall₂ (StandsFor d excluded) paths lists ∧
          texts = (lists.flatten.map Path.text).eraseDups := by
  constructor
  · have hexpand : (∃ lists,
        List.Forall₂ (fun p files => d.expand { excluded } p = .ok files) paths lists) ↔ _ :=
      exists_forall₂_iff
    simp only [fun p => (expand_sources d excluded p).1] at hexpand
    rw [← hexpand]
    constructor
    · rintro ⟨texts, htexts⟩
      obtain ⟨lists, hlists, _⟩ := discover_eq_ok_iff.mp htexts
      exact ⟨lists, hlists⟩
    · rintro ⟨lists, hlists⟩
      exact ⟨_, discover_eq_ok_iff.mpr ⟨lists, hlists, rfl⟩⟩
  · intro texts htexts
    obtain ⟨lists, hlists, rfl⟩ := discover_eq_ok_iff.mp htexts
    exact ⟨lists, hlists.imp fun p files => (expand_sources d excluded p).2 files, rfl⟩

/-! ### Names that are too long -/

/-- A name of as many letters as bytes. -/
def letters (n : Nat) : String := String.ofList (List.replicate n 'a')

theorem utf8ByteSize_letters (n : Nat) : (letters n).utf8ByteSize = n := by
  induction n with
  | zero => rfl
  | succ n ih =>
    unfold letters at ih ⊢
    rw [List.replicate_succ, String.ofList_cons, String.utf8ByteSize_append, ih]
    exact Nat.add_comm 1 n

/-- A name that is too long leads nowhere. -/
theorem locate_letters (d : Disk) {n : Nat} (hlong : maxName < n) (hshort : n < maxPath) :
    d.locate { names := [letters n] } = .error .nameTooLong := by
  have hproper : letters n ≠ ".." := by
    intro h
    have hsize := congrArg String.utf8ByteSize h
    have htwo : "..".utf8ByteSize = 2 := rfl
    rw [utf8ByteSize_letters, htwo] at hsize
    exact absurd (hsize ▸ hlong) (by decide)
  have hplain : hasChar (Char.ofNat 0) (letters n) = false := by
    simp [hasChar, letters]
  have hfit : unfit? { names := [letters n] } = none := by
    simp [unfit?, hplain, Path.text, Path.Anchor.text, joinWith, utf8ByteSize_letters,
      Nat.not_le.mpr hshort]
  simp [locate, hfit, walk, step, start_isDirectory, hproper, utf8ByteSize_letters, hlong]

/-- A path that is too long leads nowhere, and yet it does not stand for itself. -/
theorem discover_longName :
    empty.discover {} [{ names := [letters 256] }] = .error (.disk .nameTooLong) :=
  discover_of_nameTooLong (empty.locate_letters (by decide) (by decide)) {} []
end Disk

end TestScaffold
