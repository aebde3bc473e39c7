/-
  TestScaffold/Proofs/Files/Below.lean
  ====================================
  **What stands below a directory.**

  A disk lists its entries by place, from an entry up to the root; a path and a
  walk name them from a directory down.  This file turns one order into the
  other: the entries below a place are those whose place ends in it
  (`mem_below`), and a walk down over names that are no two points ends at the
  place that these names make (`walk_down`).
-/
import TestScaffold.Files.Discovery
import TestScaffold.Proofs.Files.Reading

namespace TestScaffold

/-- The path to an entry below the one that a path leads to. -/
def Path.extend (p : Path) (names : List String) : Path := { p with names := p.names ++ names }

namespace Path

theorem extend_nil (p : Path) : p.extend [] = p := by
  simp [extend]

theorem extend_extend (p : Path) (names more : List String) :
    (p.extend names).extend more = p.extend (names ++ more) := by
  simp [extend]

theorem child_eq_extend (p : Path) (name : String) : p.child name = p.extend [name] := rfl

end Path

/-! ### Entries by place -/

namespace Entry

theorem mem_of_find? {place : Place} {e : Entry} :
    ∀ {es : List (Place × Entry)}, find? place es = some e → (place, e) ∈ es
  | (q, f) :: rest, h => by
    simp only [find?] at h
    by_cases hq : q = place
    · rw [if_pos hq] at h
      cases h
      cases hq
      exact List.mem_cons_self
    · rw [if_neg hq] at h
      exact List.mem_cons_of_mem _ (mem_of_find? h)

theorem find?_isSome_of_mem {place : Place} {e : Entry} :
    ∀ {es : List (Place × Entry)}, (place, e) ∈ es → (find? place es).isSome = true
  | (q, f) :: rest, h => by
    simp only [find?]
    by_cases hq : q = place
    · rw [if_pos hq]
      rfl
    · rw [if_neg hq]
      rcases List.mem_cons.mp h with heq | hrest
      · cases heq
        exact absurd rfl hq
      · exact find?_isSome_of_mem hrest

end Entry

namespace Disk

variable {d : Disk} {p : Path} {place q : Place} {names : List String} {name : String}

/-- A name is listed in a directory if and only if an entry stands there. -/
theorem mem_namesIn : name ∈ d.namesIn place ↔ (d.find? (name :: place)).isSome = true := by
  unfold namesIn
  rw [List.mem_filterMap]
  constructor
  · rintro ⟨⟨q, e⟩, hmem, hname⟩
    cases q with
    | nil => cases hname
    | cons n parent =>
      simp only [Option.ite_none_right_eq_some, Option.some.injEq] at hname
      obtain ⟨rfl, rfl⟩ := hname
      exact Entry.find?_isSome_of_mem hmem
  · intro h
    obtain ⟨e, he⟩ := Option.isSome_iff_exists.mp h
    exact ⟨(name :: place, e), Entry.mem_of_find? he, by simp⟩

/-- The names on the way down to a place are the place read backwards, as far as it goes below. -/
theorem namesBelow?_eq_some_iff :
    ∀ {q : Place} {names : List String},
      namesBelow? place q = some names ↔ q = names.reverse ++ place
  | [], names => by
    cases place <;> simp [namesBelow?, eq_comm (a := ([] : List String))]
  | name :: parent, names => by
    simp only [namesBelow?]
    by_cases hq : place = name :: parent
    · subst hq
      simp [eq_comm (a := ([] : List String))]
    · rw [if_neg hq, Option.map_eq_some_iff]
      constructor
      · rintro ⟨way, hway, rfl⟩
        rw [namesBelow?_eq_some_iff.mp hway]
        simp
      · intro h
        rcases List.eq_nil_or_concat names with rfl | ⟨way, last, rfl⟩
        · exact absurd h.symm hq
        · rw [List.concat_eq_append, List.reverse_append] at h
          obtain ⟨rfl, hparent⟩ := List.cons.inj h
          exact ⟨way, namesBelow?_eq_some_iff.mpr hparent, by simp⟩

/-- The entries below a place are those that are listed for a place that ends in it. -/
theorem mem_below {e : Entry} :
    (names, e) ∈ d.below place ↔ names ≠ [] ∧ (names.reverse ++ place, e) ∈ d.entries := by
  unfold below
  rw [List.mem_filterMap]
  constructor
  · rintro ⟨⟨q, f⟩, hmem, hnames⟩
    cases hbelow : namesBelow? place q with
    | none => simp [hbelow] at hnames
    | some way =>
      rw [namesBelow?_eq_some_iff.mp hbelow] at hmem
      cases way with
      | nil => simp [hbelow] at hnames
      | cons n rest =>
        simp only [hbelow, Option.some.injEq, Prod.mk.injEq] at hnames
        obtain ⟨rfl, rfl⟩ := hnames
        exact ⟨by simp, hmem⟩
  · rintro ⟨hne, hmem⟩
    refine ⟨_, hmem, ?_⟩
    have hbelow : namesBelow? place (names.reverse ++ place) = some names :=
      namesBelow?_eq_some_iff.mpr rfl
    simp only [hbelow]
    cases names with
    | nil => exact absurd rfl hne
    | cons n rest => rfl

/-- Only a directory has directories below it. -/
theorem isDirectoryAt_of_below :
    ∀ {way : Place}, d.isDirectoryAt (way ++ place) = true → d.isDirectoryAt place = true
  | [], h => h
  | n :: way, h =>
    isDirectoryAt_of_below (d.closed n (way ++ place) (find?_isSome_of_isDirectoryAt h))

/-! ### Walking down -/

/-- Whether a path leads to a directory is seen at the place where it ends. -/
theorem hasDirectory_of_locate (h : d.locate p = .ok place) :
    d.hasDirectory p = .ok (d.isDirectoryAt place) := by
  simp only [hasDirectory, entryAt?, h, Except.map, isDirectoryAt_eq_find?]

/-- A walk down ends at the place that the names make. -/
theorem walk_down : ∀ {names : List String} {place : Place}, ".." ∉ names →
    d.walk place names = .ok q → q = names.reverse ++ place
  | [], place, _, hwalk => by
    cases hwalk
    rfl
  | name :: rest, place, hdown, hwalk => by
    simp only [walk] at hwalk
    cases hstep : d.step place name with
    | error fault => rw [hstep] at hwalk; cases hwalk
    | ok next =>
      rw [hstep] at hwalk
      obtain ⟨_, ⟨hup, _⟩ | ⟨_, _, _, rfl⟩⟩ := step_eq_ok_iff.mp hstep
      · exact absurd (hup ▸ List.mem_cons_self) hdown
      · rw [walk_down (fun h => hdown (List.mem_cons_of_mem _ h)) hwalk]
        simp

/-- A path that goes on down from where another one leads ends at the place below. -/
theorem locate_extend (hlocate : d.locate p = .ok place) (hdown : ".." ∉ names)
    (h : d.locate (p.extend names) = .ok q) : q = names.reverse ++ place := by
  have hwalk := walk_of_locate h
  have hstart : d.start (p.extend names) = d.start p := rfl
  rw [hstart] at hwalk
  exact walk_down hdown ((walk_append (walk_of_locate hlocate)).symm.trans hwalk)

/-- What is listed as a directory is the path itself, or leads down from it to a directory. -/
theorem eq_or_exists_of_directoriesBelow {r : Path} (hr : r ∈ d.directoriesBelow p place) :
    r = p ∨ ∃ names, r = p.extend names ∧ ".." ∉ names ∧
      d.isDirectoryAt (names.reverse ++ place) = true := by
  unfold directoriesBelow at hr
  rw [List.mem_cons, List.mem_filterMap] at hr
  refine hr.imp_right ?_
  rintro ⟨⟨names, e⟩, _, hnames⟩
  obtain ⟨hkept, rfl⟩ := Option.ite_none_right_eq_some.mp hnames |>.imp_right Option.some.inj
  simp only [Bool.and_eq_true, Bool.not_eq_true', List.contains_eq_mem,
    decide_eq_false_iff_not] at hkept
  exact ⟨names, rfl, hkept.2, hkept.1⟩

/-- The directories below a place, each by the path that leads down to it. -/
theorem mem_directoriesBelow (hplace : d.isDirectoryAt place = true) {r : Path} :
    r ∈ d.directoriesBelow p place ↔
      ∃ names, r = p.extend names ∧ ".." ∉ names ∧
        d.isDirectoryAt (names.reverse ++ place) = true := by
  constructor
  · intro hr
    rcases eq_or_exists_of_directoriesBelow hr with rfl | hbelow
    · exact ⟨[], (Path.extend_nil r).symm, List.not_mem_nil, hplace⟩
    · exact hbelow
  · rintro ⟨names, rfl, hdown, hdirectory⟩
    unfold directoriesBelow
    rw [List.mem_cons, List.mem_filterMap]
    by_cases hnames : names = []
    · subst hnames
      exact Or.inl (Path.extend_nil p)
    · have htaken := find?_isSome_of_isDirectoryAt hdirectory
      obtain ⟨e, he⟩ := Option.isSome_iff_exists.mp htaken
      have hlisted : (names.reverse ++ place, e) ∈ d.entries := by
        cases hway : names.reverse ++ place with
        | nil => simp_all
        | cons n rest =>
          rw [hway] at he
          exact Entry.mem_of_find? he
      refine Or.inr ⟨(names, e), mem_below.mpr ⟨hnames, hlisted⟩, ?_⟩
      simp [hdirectory, hdown, Path.extend]

end Disk

end TestScaffold
