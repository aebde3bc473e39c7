/-
  TestScaffold/Proofs/Files/Gaps.lean
  ===================================
  **When making a directory leaves directories behind.**

  Missing parents are made one after the other, and what was made stays when a
  later one cannot be.  How far this goes is seen from the way of the path on the
  disk as it was.  If the first thing that stops the way is not a missing name, the
  request fails at once and nothing is made.  If it is one, there is a *gap*
  (`Disk.Gap`): the name is made for certain, and behind it everything is new, so
  that only two things can go wrong, two points that lead back to what was there
  and a name that is too long.  Where neither stands behind the gap, making the
  directory succeeds.

  `Disk.makeAll` takes names off the end of the path until it comes to the gap, and
  makes them on the way back.  The induction is on the names behind the gap; what
  carries it is that the way made so far ends at an empty directory.
-/
import TestScaffold.Proofs.Files.SameDirectories
import TestScaffold.Proofs.Run.Kinds
import TestScaffold.Proofs.Text.Pieces

namespace TestScaffold

open TestScaffold.Text

namespace Disk

variable {d d' : Disk} {p : Path} {place parent : Place} {name : String}

/-! ### Missing names -/

/-- A name is missing in a directory where an entry of this name could be. -/
structure Missing (d : Disk) (place : Place) (name : String) : Prop where
  inside : d.isDirectoryAt place = true
  proper : name ≠ ".."
  short : name.utf8ByteSize ≤ maxName
  nothing : d.find? (name :: place) = none

theorem step_eq_notFound_iff : d.step place name = .error .notFound ↔ Missing d place name := by
  constructor
  · intro h
    unfold step at h
    split at h
    · cases h
    · rename_i hinside
      split at h
      · cases h
      · rename_i hproper
        split at h
        · cases h
        · rename_i hshort
          split at h
          · cases h
          · rename_i hnothing
            exact ⟨by simpa using hinside, hproper, Nat.not_lt.mp hshort, by simpa using hnothing⟩
  · rintro ⟨hinside, hproper, hshort, hnothing⟩
    simp [step, hinside, hproper, Nat.not_lt.mpr hshort, hnothing]

/-- A walk fails for want of an entry where the first name that it cannot follow is missing. -/
theorem walk_eq_notFound_iff {names : List String} : ∀ {place : Place},
    d.walk place names = .error .notFound ↔ ∃ front name back q, names = front ++ name :: back ∧
      d.walk place front = .ok q ∧ Missing d q name := by
  induction names with
  | nil =>
    intro place
    simp [walk]
  | cons first rest ih =>
    intro place
    constructor
    · intro h
      simp only [walk] at h
      cases hstep : d.step place first with
      | error fault =>
        rw [hstep] at h
        cases h
        exact ⟨[], first, rest, place, rfl, rfl, step_eq_notFound_iff.mp hstep⟩
      | ok next =>
        rw [hstep] at h
        obtain ⟨front, name, back, q, rfl, hwalk, hmissing⟩ := ih.mp h
        exact ⟨first :: front, name, back, q, rfl, by simp only [walk, hstep, hwalk], hmissing⟩
    · rintro ⟨front, name, back, q, hsplit, hwalk, hmissing⟩
      rw [hsplit, walk_append hwalk]
      simp only [walk, step_eq_notFound_iff.mpr hmissing]

/-! ### Paths that fit -/

theorem unfit?_eq_none_iff :
    unfit? p = none ↔ p.hasNul = false ∧ p.text.utf8ByteSize < maxPath := by
  unfold unfit? Path.hasNul
  cases p.names.any (hasChar (Char.ofNat 0)) with
  | true => simp
  | false => by_cases hlong : maxPath ≤ p.text.utf8ByteSize <;> simp [hlong]; omega

theorem unfit?_ne_notFound : unfit? p ≠ some .notFound := by
  intro h
  unfold unfit? at h
  split at h
  · cases h
  · split at h <;> cases h

/-- A path without its last name fits where the whole path does. -/
theorem unfit?_of_concat {anchor : Anchor} {names : List String}
    (h : unfit? ⟨anchor, names ++ [name]⟩ = none) : unfit? ⟨anchor, names⟩ = none := by
  rw [unfit?_eq_none_iff] at h ⊢
  obtain ⟨hnul, hlength⟩ := h
  refine ⟨?_, ?_⟩
  · simp only [Path.hasNul, List.any_append, Bool.or_eq_false_iff] at hnul ⊢
    exact hnul.1
  · have hjoin : (joinWith "/" names).utf8ByteSize ≤
        (joinWith "/" (names ++ [name])).utf8ByteSize := by
      rw [joinWith_concat]
      split
      · rename_i hnil
        simp [hnil, joinWith]
      · simp only [String.utf8ByteSize_append]
        omega
    by_cases hpoint : anchor = .here ∧ names = []
    · rw [Path.text, if_pos hpoint]
      decide
    · rw [Path.text, if_neg (by simp), String.utf8ByteSize_append] at hlength
      rw [Path.text, if_neg hpoint, String.utf8ByteSize_append]
      exact Nat.lt_of_le_of_lt (Nat.add_le_add_left hjoin _) hlength

/-! ### One directory -/

/-- Making a directory fails for want of an entry where the way to its parent does. -/
theorem makeDirectory_eq_notFound_iff : d.makeDirectory p = .error .notFound ↔
    unfit? p = none ∧ d.walk (d.start p) p.names.dropLast = .error .notFound := by
  unfold makeDirectory locateParent
  cases hfit : unfit? p with
  | some fault =>
    refine iff_of_false (fun h => ?_) (by simp)
    cases h
    exact unfit?_ne_notFound hfit
  | none =>
    cases hwalk : d.walk (d.start p) p.names.dropLast with
    | error fault => simp
    | ok parent =>
      refine iff_of_false (fun h => ?_) (by simp)
      by_cases hinside : d.isDirectoryAt parent = true
      · simp only [hinside, if_true] at h
        repeat' split at h
        all_goals cases h
      · simp [hinside] at h

/-- The path leads to a directory with nothing in it. -/
structure LeadsToEmpty (d : Disk) (p : Path) (place : Place) : Prop where
  leads : d.walk (d.start p) p.names = .ok place
  inside : d.isDirectoryAt place = true
  empty : ∀ name, d.find? (name :: place) = none

/-- A missing name can be made, and nothing is in the directory then. -/
theorem Missing.makeDirectory {init : List String} (h : Missing d parent name)
    (hfit : unfit? p = none) (hnames : p.names = init ++ [name])
    (hwalk : d.walk (d.start p) init = .ok parent) :
    ∃ d', d.makeDirectory p = .ok d' ∧ LeadsToEmpty d' p (name :: parent) := by
  have hseat : Seat d p parent name :=
    ⟨hfit, by rw [hnames, List.dropLast_concat]; exact hwalk, h.inside, by simp [hnames], h.proper,
      h.short⟩
  have hmake : d.makeDirectory p = .ok (d.put name parent .directory h.inside (.inl rfl)) := by
    simp only [Disk.makeDirectory, locateParent, hfit, hseat.leads, h.inside, hseat.last, h.proper,
      Nat.not_lt.mpr h.short, h.nothing, Option.isSome_none, Bool.false_eq_true, if_true, if_false,
      dif_pos]
  have hgrows := grows_put d name parent .directory h.inside (.inl rfl)
  have hfound := fun q => find?_put d name parent q .directory h.inside (.inl rfl)
  have hmade : (d.put name parent .directory h.inside (.inl rfl)).find? (name :: parent) =
      some .directory := by rw [hfound, if_pos rfl]
  refine ⟨_, hmake, (hgrows.seat hseat).walk (by rw [hmade]; rfl), ?_, fun other => ?_⟩
  · rw [isDirectoryAt_eq_find?, hmade]
    rfl
  · -- nothing was in it before, since it was no directory
    rw [hfound, if_neg (by simp)]
    cases hother : d.find? (other :: name :: parent) with
    | none => rfl
    | some e =>
      have hinside : d.isDirectoryAt (name :: parent) = true :=
        d.closed other _ (by rw [show Entry.find? _ _ = _ from hother]; rfl)
      have htaken := find?_isSome_of_isDirectoryAt hinside
      rw [h.nothing] at htaken
      cases htaken

/-! ### A directory with its parents -/

/-- The way of a path leads to a directory in which its next name is missing; `back` are the names
behind that one. -/
structure Gap (d : Disk) (p : Path) (place : Place) (name : String) (back : List String) :
    Prop where
  fits : unfit? p = none
  way : ∃ front, p.names = front ++ name :: back ∧ d.walk (d.start p) front = .ok place
  missing : Missing d place name

section

variable {anchor : Anchor} {names rest front : List String} {last : String}

theorem makeAll_of_ok (h : d.makeDirectory ⟨anchor, names.reverse⟩ = .ok d') :
    d.makeAll anchor names = (d', none) := by
  cases names with
  | nil => simp only [makeAll, show d.makeDirectory ⟨anchor, []⟩ = _ from h]
  | cons last rest => simp only [makeAll, h]

/-- Parents are only made for want of one. -/
theorem makeAll_of_error {fault : DiskFault}
    (h : d.makeDirectory ⟨anchor, names.reverse⟩ = .error fault) (hother : fault ≠ .notFound) :
    d.makeAll anchor names = (d, d.toleratedAt ⟨anchor, names.reverse⟩ fault) := by
  cases names with
  | nil => simp only [makeAll, show d.makeDirectory ⟨anchor, []⟩ = _ from h, List.reverse_nil]
  | cons last rest =>
    cases fault with
    | notFound => exact absurd rfl hother
    | _ => simp only [makeAll, h]

/-- A request that fails and leaves something behind came to a gap. -/
theorem exists_gap_of_makeAll {fault : DiskFault}
    (h : d.makeAll anchor names = (d', some fault)) (hchanged : d' ≠ d) :
    ∃ place name back, Gap d ⟨anchor, names.reverse⟩ place name back := by
  cases hmake : d.makeDirectory ⟨anchor, names.reverse⟩ with
  | ok made =>
    rw [makeAll_of_ok hmake] at h
    cases h
  | error cause =>
    by_cases hcause : cause = .notFound
    · subst hcause
      obtain ⟨hfit, hwalk⟩ := makeDirectory_eq_notFound_iff.mp hmake
      obtain ⟨front, name, back, place, hsplit, hfront, hmissing⟩ := walk_eq_notFound_iff.mp hwalk
      cases names with
      | nil => simp at hsplit
      | cons last rest =>
        rw [List.reverse_cons, List.dropLast_concat] at hsplit
        exact ⟨place, name, back ++ [last], hfit, ⟨front, by simp [hsplit], hfront⟩, hmissing⟩
    · rw [makeAll_of_error hmake hcause] at h
      exact absurd (congrArg Prod.fst h).symm hchanged

/-- What was made with the parents stays. -/
theorem grows_makeAll_cons
    (h : d.makeDirectory ⟨anchor, (last :: rest).reverse⟩ = .error .notFound) :
    Grows (d.makeAll anchor rest).1 (d.makeAll anchor (last :: rest)).1 := by
  simp only [makeAll, h]
  cases d.makeAll anchor rest with
  | mk made fault? =>
    cases fault? with
    | some fault => exact Grows.refl made
    | none =>
      cases hagain : made.makeDirectory ⟨anchor, (last :: rest).reverse⟩ with
      | ok d' =>
        obtain ⟨_, _, _, _, hgrows, _⟩ := makeDirectory_ok hagain
        simpa only [hagain] using hgrows
      | error fault => cases fault <;> simpa only [hagain] using Grows.refl made

/-- Behind a missing name nothing can be made yet. -/
theorem Missing.makeDirectory_behind (h : Missing d place name)
    (hfront : d.walk (d.start ⟨anchor, []⟩) front = .ok place) {behind : List String}
    (hfit : unfit? ⟨anchor, front ++ name :: behind ++ [last]⟩ = none) :
    d.makeDirectory ⟨anchor, front ++ name :: behind ++ [last]⟩ = .error .notFound := by
  refine makeDirectory_eq_notFound_iff.mpr ⟨hfit, ?_⟩
  rw [List.dropLast_concat]
  exact walk_eq_notFound_iff.mpr ⟨front, name, behind, place, rfl, hfront, h⟩

/-- **At a gap the missing name is made**, whatever comes of the names behind it. -/
theorem Missing.isDirectoryAt_makeAll (h : Missing d place name)
    (hfront : d.walk (d.start ⟨anchor, []⟩) front = .ok place) :
    ∀ behind : List String, unfit? ⟨anchor, front ++ name :: behind.reverse⟩ = none →
      (d.makeAll anchor (behind ++ name :: front.reverse)).1.isDirectoryAt (name :: place) = true
  | [], hfit => by
    obtain ⟨made, hmake, hempty⟩ := h.makeDirectory (p := ⟨anchor, front ++ [name]⟩) hfit rfl hfront
    have hall : d.makeAll anchor (name :: front.reverse) = (made, none) :=
      makeAll_of_ok (by simpa using hmake)
    rw [List.nil_append, hall]
    exact hempty.inside
  | last :: behind, hfit => by
    rw [List.reverse_cons, ← List.cons_append, ← List.append_assoc] at hfit
    have hmake := h.makeDirectory_behind hfront hfit
    have hgrows : Grows (d.makeAll anchor (behind ++ name :: front.reverse)).1
        (d.makeAll anchor (last :: (behind ++ name :: front.reverse))).1 :=
      grows_makeAll_cons (by simpa using hmake)
    exact hgrows.directories _ (h.isDirectoryAt_makeAll hfront behind (unfit?_of_concat hfit))

/-- **Nothing stops the way behind a gap but two points or a name that is too long.** -/
theorem Missing.makeAll_eq_none (h : Missing d place name)
    (hfront : d.walk (d.start ⟨anchor, []⟩) front = .ok place) :
    ∀ behind : List String, unfit? ⟨anchor, front ++ name :: behind.reverse⟩ = none →
      (∀ n ∈ behind, n ≠ ".." ∧ n.utf8ByteSize ≤ maxName) →
        ∃ made q, d.makeAll anchor (behind ++ name :: front.reverse) = (made, none) ∧
          LeadsToEmpty made ⟨anchor, front ++ name :: behind.reverse⟩ q
  | [], hfit, _ => by
    obtain ⟨made, hmake, hempty⟩ := h.makeDirectory (p := ⟨anchor, front ++ [name]⟩) hfit rfl hfront
    exact ⟨made, _, makeAll_of_ok (by simpa using hmake), hempty⟩
  | last :: behind, hfit, hplain => by
    rw [List.reverse_cons, ← List.cons_append, ← List.append_assoc] at hfit ⊢
    obtain ⟨⟨hproper, hshort⟩, hbehind⟩ := List.forall_mem_cons.mp hplain
    have hmake := h.makeDirectory_behind hfront hfit
    obtain ⟨parents, q, hparents, hempty⟩ :=
      h.makeAll_eq_none hfront behind (unfit?_of_concat hfit) hbehind
    have hlast : Missing parents q last := ⟨hempty.inside, hproper, hshort, hempty.empty last⟩
    obtain ⟨made, hagain, hmade⟩ := hlast.makeDirectory
      (p := ⟨anchor, front ++ name :: behind.reverse ++ [last]⟩) hfit rfl hempty.leads
    refine ⟨made, last :: q, ?_, hmade⟩
    have hsplit : (last :: (behind ++ name :: front.reverse)).reverse =
        front ++ name :: behind.reverse ++ [last] := by simp
    simp only [List.cons_append, makeAll, hsplit, hmake, hparents, hagain]

end

/-! ### Making a directory -/

theorem ensureDirectory_eq_makeAll (d : Disk) (p : Path) : d.ensureDirectory p =
    ((d.makeAll p.anchor p.names.reverse).1,
      match (d.makeAll p.anchor p.names.reverse).2 with
      | none => .ok ()
      | some fault => .error (.noDirectory p fault)) := by
  unfold ensureDirectory
  cases d.makeAll p.anchor p.names.reverse with
  | mk made fault? => cases fault? <;> rfl

/-- A gap in the way of a path is a missing name in front of the names that `makeAll` takes. -/
theorem Gap.exists_front {back : List String} (h : Gap d p place name back) :
    ∃ front, p.names.reverse = back.reverse ++ name :: front.reverse ∧
      d.walk (d.start ⟨p.anchor, []⟩) front = .ok place ∧
      unfit? ⟨p.anchor, front ++ name :: back.reverse.reverse⟩ = none := by
  obtain ⟨front, hnames, hfront⟩ := h.way
  refine ⟨front, by simp [hnames], hfront, ?_⟩
  rw [List.reverse_reverse, ← hnames]
  exact h.fits

theorem Gap.isDirectoryAt {back : List String} (h : Gap d p place name back) :
    (d.ensureDirectory p).1.isDirectoryAt (name :: place) = true := by
  obtain ⟨front, hnames, hfront, hfit⟩ := h.exists_front
  rw [ensureDirectory_eq_makeAll, hnames]
  exact h.missing.isDirectoryAt_makeAll hfront _ hfit

theorem Gap.ensureDirectory_eq_ok {back : List String} (h : Gap d p place name back)
    (hplain : ∀ n ∈ back, n ≠ ".." ∧ n.utf8ByteSize ≤ maxName) :
    ∃ made, d.ensureDirectory p = (made, .ok ()) := by
  obtain ⟨front, hnames, hfront, hfit⟩ := h.exists_front
  obtain ⟨made, _, hmade, _⟩ := h.missing.makeAll_eq_none hfront back.reverse hfit
    fun n hn => hplain n (List.mem_reverse.mp hn)
  exact ⟨made, by rw [ensureDirectory_eq_makeAll, hnames, hmade]⟩

/-- **A directory that cannot be made leaves the disk as it was, unless its way has a gap.** -/
theorem ensureDirectory_eq_self_iff {cause : WriteError}
    (h : d.ensureDirectory p = (d', .error cause)) :
    d' = d ↔ ¬ ∃ place name back, Gap d p place name back := by
  constructor
  · rintro rfl ⟨place, name, back, hgap⟩
    have hmade := hgap.isDirectoryAt
    rw [h, isDirectoryAt_eq_find?, hgap.missing.nothing] at hmade
    cases hmade
  · intro hnone
    refine Classical.byContradiction fun hchanged => hnone ?_
    rw [ensureDirectory_eq_makeAll] at h
    cases hall : d.makeAll p.anchor p.names.reverse with
    | mk made fault? =>
      rw [hall] at h
      cases fault? with
      | none => cases h
      | some fault =>
        cases h
        have hgap := exists_gap_of_makeAll hall hchanged
        rwa [List.reverse_reverse] at hgap

/-- Behind the gap in the way of a directory that cannot be made stand two points or a long name. -/
theorem Gap.exists_obstacle {back : List String} {cause : WriteError}
    (h : Gap d p place name back) (hfail : d.ensureDirectory p = (d', .error cause)) :
    ∃ n ∈ back, n = ".." ∨ maxName < n.utf8ByteSize := by
  refine Classical.byContradiction fun hnone => ?_
  obtain ⟨made, hmade⟩ := h.ensureDirectory_eq_ok fun n hn =>
    ⟨fun heq => hnone ⟨n, hn, .inl heq⟩, Nat.not_lt.mp fun hlt => hnone ⟨n, hn, .inr hlt⟩⟩
  rw [hmade] at hfail
  cases hfail

/-- The fault of a directory that cannot be made is told as one of writing. -/
theorem detail_of_ensureDirectory {cause : WriteError} (hnul : p.hasNul = false)
    (h : (d.ensureDirectory p).2 = .error cause) :
    cause.detail = .located "WriteError" cause.message (some p.text) := by
  have hother := ensureDirectory_eq_nulInPath_iff (d := d) (p := p) (q := p)
  rw [ensureDirectory_eq_makeAll] at h hother
  cases hfault : (d.makeAll p.anchor p.names.reverse).2 with
  | none => rw [hfault] at h; cases h
  | some fault =>
    rw [hfault] at h hother
    cases h
    refine DiskFault.detail_eq _ _ _ fun heq => ?_
    subst heq
    rw [(hother.mp rfl).1] at hnul
    cases hnul

end Disk

namespace Outlet

open Disk

/-- **A directory is there with its parents, or an error of writing tells that it cannot be.** In
both cases nothing but directories on its way is new.  If it is there, making it once more changes
nothing; if not, the disk is as it was before unless the way had a gap, behind which stand two points
or a name that is too long. -/
theorem ensureDirectory_made_or_refused (d : Disk) {p : Path} (hnul : p.hasNul = false) :
    (∃ made, ({ disk := d } : Outlet).ensureDirectory p = ({ disk := made }, .ok ()) ∧
      made.hasDirectory p = .ok true ∧ Paved d made p ∧
        ({ disk := made } : Outlet).ensureDirectory p = ({ disk := made }, .ok ())) ∨
    ∃ made cause, ({ disk := d } : Outlet).ensureDirectory p = ({ disk := made }, .error cause) ∧
      cause.detail = .located "WriteError" cause.message (some p.text) ∧ Paved d made p ∧
        (made = d ↔ ¬ ∃ place name back, Gap d p place name back) ∧
          ∀ place name back, Gap d p place name back →
            ∃ n ∈ back, n = ".." ∨ maxName < n.utf8ByteSize := by
  have hrun : ∀ d : Disk, ({ disk := d } : Outlet).ensureDirectory p =
      ({ disk := (d.ensureDirectory p).1 }, (d.ensureDirectory p).2) := fun _ => rfl
  have hpaved := paved_ensureDirectory d p
  cases hensure : d.ensureDirectory p with
  | mk made result =>
    rw [hensure] at hpaved
    cases result with
    | ok =>
      obtain ⟨_, hthere⟩ := ensureDirectory_ok hensure
      refine .inl ⟨made, by rw [hrun, hensure], hthere, hpaved, ?_⟩
      rw [hrun, ensureDirectory_of_hasDirectory hthere]
    | error cause =>
      exact .inr ⟨made, cause, by rw [hrun, hensure],
        detail_of_ensureDirectory hnul (by rw [hensure]), hpaved,
        ensureDirectory_eq_self_iff hensure, fun _ _ _ hgap => hgap.exists_obstacle hensure⟩

/-- A disk with one file. -/
def fileDisk : Disk :=
  Disk.empty.put "f" [] (.file "x".toUTF8) Disk.empty.here_isDirectory (by decide)

/-- A directory behind two missing parents is made with them. -/
theorem ensureDirectory_made_or_refused_fileDisk :
    (Path.ofString "a/b/c").hasNul = false ∧
      ∃ made, ({ disk := fileDisk } : Outlet).ensureDirectory (.ofString "a/b/c") =
          ({ disk := made }, .ok ()) ∧
        made.hasDirectory (.ofString "a/b/c") = .ok true ∧
          Paved fileDisk made (.ofString "a/b/c") := by
  have hnul : (Path.ofString "a/b/c").hasNul = false := by decide
  have hresult : (({ disk := fileDisk } : Outlet).ensureDirectory (.ofString "a/b/c")).2 =
      .ok () := by decide
  refine ⟨hnul, ?_⟩
  rcases ensureDirectory_made_or_refused fileDisk hnul with
    ⟨made, hmade, hthere, hpaved, _⟩ | ⟨made, cause, hrefused, _⟩
  · exact ⟨made, hmade, hthere, hpaved⟩
  · rw [hrefused] at hresult
    cases hresult

/-- The file can be no directory, and a parent that was made on the way to it stays. -/
theorem ensureDirectory_strayDirectory :
    ∃ made, ({ disk := fileDisk } : Outlet).ensureDirectory (.ofString "a/../f") =
        ({ disk := made }, .error (.noDirectory (.ofString "a/../f") .occupied)) ∧
      fileDisk.find? ["a"] = none ∧ made.find? ["a"] = some .directory :=
  ⟨_, rfl, rfl, rfl⟩

end Outlet

end TestScaffold
