/-
  TestScaffold/Proofs/Settings/Faults.lean
  ========================================
  **Which failures of loading are told as failures of settings.**

  Loading reads a file and the environment before anything is checked.  Most of
  what can be wrong with them is told as a failure of settings.  Five things are
  not (`Settings.Faulty`): the path asked for is too long, the file is no text,
  a value in it cannot be what it is meant to be, a key of it is no text, or the
  variables do not nest.  Everything else ends in settings or in a failure of
  settings, whatever the command line adds (`Settings.load_answers_iff`).
-/
import Mathlib.Data.List.Basic
import TestScaffold.Proofs.Run.Kinds
import TestScaffold.Proofs.Settings.Nesting
import TestScaffold.Settings.Load

namespace TestScaffold

/-! ### Paths that lead somewhere or nowhere -/

namespace Disk

theorem hasEntry_eq_error_iff {d : Disk} {p : Path} {fault : DiskFault} :
    d.hasEntry p = .error fault ↔ d.locate p = .error .nameTooLong ∧ fault = .nameTooLong := by
  unfold hasEntry entryAt?
  cases hlocate : d.locate p with
  | ok place => simp [Except.map]
  | error cause => cases cause <;> simp [Except.map, eq_comm]

/-- A path that leads to an entry does not hold the character NUL. -/
theorem read_ne_nulInPath_of_hasEntry {d : Disk} {p : Path} (h : d.hasEntry p = .ok true) :
    d.read p ≠ .error .nulInPath := by
  intro hread
  have hlocate : d.locate p = .error .nulInPath := by
    unfold locate
    rw [unfit?_eq_nulInPath_iff.mpr (read_eq_nulInPath_iff.mp hread)]
  unfold hasEntry entryAt? at h
  rw [hlocate] at h
  cases h

/-- No step of a walk over short names meets a name that is too long. -/
theorem walk_ne_nameTooLong {d : Disk} {names : List String}
    (hshort : ∀ name ∈ names, name.utf8ByteSize ≤ maxName) :
    ∀ place, d.walk place names ≠ .error .nameTooLong := by
  induction names with
  | nil => exact fun _ h => by cases h
  | cons name rest ih =>
    intro place h
    simp only [walk] at h
    cases hstep : d.step place name with
    | error fault =>
      rw [hstep] at h
      cases h
      unfold step at hstep
      have hname := hshort name List.mem_cons_self
      simp only [Nat.not_lt.mpr hname, if_false] at hstep
      repeat' split at hstep
      all_goals cases hstep
    | ok next =>
      rw [hstep] at h
      exact ih (fun n hn => hshort n (List.mem_cons_of_mem _ hn)) next h

theorem locate_ne_nameTooLong {d : Disk} {p : Path} (hfit : unfit? p = none)
    (hshort : ∀ name ∈ p.names, name.utf8ByteSize ≤ maxName) :
    d.locate p ≠ .error .nameTooLong := by
  unfold locate
  rw [hfit]
  exact walk_ne_nameTooLong hshort _

end Disk

namespace Settings

variable {d : Disk} {env : Environment} {request? : Option String}

/-! ### The file that is read -/

theorem stands_eq_error_iff {p : Path} {e : LoadError} :
    stands d p = .error e ↔
      d.locate p = .error .nameTooLong ∧ e = .fault (.disk .nameTooLong) := by
  unfold stands
  cases hentry : d.hasEntry p with
  | ok b =>
    refine iff_of_false (by simp [Except.mapError]) ?_
    rintro ⟨hlocate, _⟩
    rw [Disk.hasEntry_eq_error_iff.mpr ⟨hlocate, rfl⟩] at hentry
    cases hentry
  | error fault =>
    obtain ⟨hlocate, rfl⟩ := Disk.hasEntry_eq_error_iff.mp hentry
    simp [Except.mapError, hlocate, eq_comm]

/-- The paths that are searched are short. -/
theorem locate_searchPaths {s : String} (h : s ∈ searchPaths) :
    d.locate (.ofString s) ≠ .error .nameTooLong := by
  have hall : ∀ s ∈ searchPaths, Disk.unfit? (.ofString s) = none ∧
      ∀ name ∈ (Path.ofString s).names, name.utf8ByteSize ≤ Disk.maxName := by decide +kernel
  exact Disk.locate_ne_nameTooLong (hall s h).1 (hall s h).2

/-- A search over short paths ends, with or without a file. -/
theorem firstStanding?_ne_error {paths : List String}
    (h : ∀ s ∈ paths, d.locate (.ofString s) ≠ .error .nameTooLong) (e : LoadError) :
    firstStanding? d paths ≠ .error e := by
  induction paths with
  | nil => exact fun he => by cases he
  | cons s rest ih =>
    intro he
    simp only [firstStanding?] at he
    cases hstands : stands d (.ofString s) with
    | error e' => exact h s List.mem_cons_self (stands_eq_error_iff.mp hstands).1
    | ok b =>
      rw [hstands] at he
      cases b with
      | true => cases he
      | false => exact ih (fun t ht => h t (List.mem_cons_of_mem _ ht)) he

/-- The only fault in finding the file is a path asked for that is too long. -/
theorem file?_eq_fault_iff {cause : LoadFault} :
    file? d request? = .error (.fault cause) ↔
      ∃ s, request? = some s ∧ s ≠ "" ∧ d.locate (.ofString s) = .error .nameTooLong ∧
        cause = .disk .nameTooLong := by
  unfold file?
  cases hrequest : request?.filter (· ≠ "") with
  | none =>
    refine iff_of_false (firstStanding?_ne_error (fun s => locate_searchPaths) _) ?_
    rintro ⟨s, rfl, hs, _⟩
    simp [Option.filter, hs] at hrequest
  | some s =>
    obtain ⟨rfl, hs⟩ : request? = some s ∧ s ≠ "" := by
      simpa [Option.filter_eq_some_iff] using hrequest
    have hasked : ∀ t, some s = some t ↔ s = t := fun t => by simp
    simp only [hasked, exists_eq_left', hs, ne_eq, not_false_eq_true, true_and]
    cases hstands : stands d (.ofString s) with
    | error e =>
      obtain ⟨hlocate, rfl⟩ := stands_eq_error_iff.mp hstands
      simp [hlocate, eq_comm]
    | ok b =>
      have hlocate : d.locate (.ofString s) ≠ .error .nameTooLong := by
        intro hlong
        rw [stands_eq_error_iff.mpr ⟨hlong, rfl⟩] at hstands
        cases hstands
      cases b <;> simp [hlocate]

/-- A file that is found is there. -/
theorem hasEntry_of_file? {p : Path} (h : file? d request? = .ok (some p)) :
    d.hasEntry p = .ok true := by
  have hstands : ∀ {q : Path}, stands d q = .ok true → d.hasEntry q = .ok true := by
    intro q hq
    unfold stands at hq
    cases hentry : d.hasEntry q with
    | error fault => rw [hentry] at hq; cases hq
    | ok b => rw [hentry] at hq; cases hq; rfl
  have hsearch : ∀ paths : List String, firstStanding? d paths = .ok (some p) →
      d.hasEntry p = .ok true := by
    intro paths
    induction paths with
    | nil => exact fun hp => by cases hp
    | cons s rest ih =>
      intro hp
      simp only [firstStanding?] at hp
      split at hp
      · rename_i hs
        cases hp
        exact hstands hs
      · exact ih hp
      · cases hp
  unfold file? at h
  split at h
  · exact hsearch _ h
  · split at h
    · rename_i hs
      cases h
      exact hstands hs
    · cases h
    · cases h

/-! ### What the file holds -/

/-- What the readers of a format stumble over: bytes that are no text, and a text that follows the
rules of the format with a value in it that is none. -/
def Stumbles (format : FileFormat) (bytes : ByteArray) : Prop :=
  String.fromUTF8? bytes = none ∨
    ∃ text cause, String.fromUTF8? bytes = some text ∧ parse format text = .error cause ∧
      cause ≠ .malformed

/-- The file at a path has a known format, and its readers stumble over what it holds. -/
def FileFault (d : Disk) (p : Path) : Prop :=
  ∃ format bytes, FileFormat.ofPath? p = some format ∧ d.read p = .ok bytes ∧
    Stumbles format bytes

theorem readFile_eq_fault_iff {p : Path} (hthere : d.hasEntry p = .ok true) :
    (∃ cause, readFile d p = .error (.fault cause)) ↔ FileFault d p := by
  cases hformat : FileFormat.ofPath? p with
  | none => simp [readFile, FileFault, hformat]
  | some format =>
    cases hread : d.read p with
    | error fault =>
      have hnul : fault ≠ .nulInPath := fun e =>
        Disk.read_ne_nulInPath_of_hasEntry hthere (e ▸ hread)
      have hfile : readFile d p = .error (.settings (.unreadable p fault)) := by
        cases fault with
        | nulInPath => exact absurd rfl hnul
        | _ => simp only [readFile, hformat, hread]
      simp [hfile, FileFault, hread]
    | ok bytes =>
      have hfault : FileFault d p ↔ Stumbles format bytes := by simp [FileFault, hformat, hread]
      rw [hfault]
      cases htext : String.fromUTF8? bytes with
      | none =>
        simp only [readFile, hformat, hread, htext]
        exact iff_of_true ⟨_, rfl⟩ (Or.inl htext)
      | some text =>
        have hstumbles : Stumbles format bytes ↔
            ∃ cause, parse format text = .error cause ∧ cause ≠ .malformed := by
          simp [Stumbles, htext]
        rw [hstumbles]
        cases hparse : parse format text with
        | error cause =>
          cases cause <;> simp [readFile, hformat, hread, htext, hparse]
        | ok doc =>
          have hfile : ∀ cause, readFile d p ≠ .error (.fault cause) := by
            intro cause h
            simp only [readFile, hformat, hread, htext, hparse] at h
            repeat' split at h
            all_goals cases h
          simp [hfile]

/-- The file layer has a fault of its own if the path asked for is too long, or if the readers
stumble over the file that is found. -/
theorem fileLayer_eq_fault_iff :
    (∃ cause, fileLayer d request? = .error (.fault cause)) ↔
      (∃ s, request? = some s ∧ s ≠ "" ∧ d.locate (.ofString s) = .error .nameTooLong) ∨
        ∃ p, file? d request? = .ok (some p) ∧ FileFault d p := by
  have hasked := fun cause => @file?_eq_fault_iff d request? cause
  cases hfile : file? d request? with
  | error e =>
    have hlayer : fileLayer d request? = .error e := by simp only [fileLayer, hfile]
    have hfound : ¬ ∃ p, (.error e : Except LoadError (Option Path)) = .ok (some p) ∧
        FileFault d p := by
      rintro ⟨p, hp, _⟩
      cases hp
    rw [hfile] at hasked
    rw [hlayer, or_iff_left hfound]
    constructor
    · rintro ⟨cause, hcause⟩
      cases hcause
      obtain ⟨s, hs, hne, hlocate, _⟩ := (hasked cause).mp rfl
      exact ⟨s, hs, hne, hlocate⟩
    · rintro ⟨s, hs, hne, hlocate⟩
      have hfault := (hasked (.disk .nameTooLong)).mpr ⟨s, hs, hne, hlocate, rfl⟩
      cases hfault
      exact ⟨_, rfl⟩
  | ok found? =>
    rw [hfile] at hasked
    have hnone : ¬ ∃ s, request? = some s ∧ s ≠ "" ∧
        d.locate (.ofString s) = .error .nameTooLong := by
      rintro ⟨s, hs, hne, hlocate⟩
      have hfault := (hasked (.disk .nameTooLong)).mpr ⟨s, hs, hne, hlocate, rfl⟩
      cases hfault
    cases found? with
    | none => simp [fileLayer, hfile, hnone]
    | some p =>
      have hread := readFile_eq_fault_iff (hasEntry_of_file? hfile)
      simp [fileLayer, hfile, hnone, hread]

/-! ### Loading -/

/-- The inputs of loading that end in a fault which is told as it is. -/
inductive Faulty (d : Disk) (env : Environment) (request? : Option String) : Prop where
  | longPath (s : String) (asked : request? = some s) (given : s ≠ "")
      (tooLong : d.locate (.ofString s) = .error .nameTooLong)
  | file (p : Path) (found : file? d request? = .ok (some p)) (fault : FileFault d p)
  /-- A variable goes on below the value of an earlier one. -/
  | nesting (layer : Entries × Bool) (read : fileLayer d request? = .ok layer)
      (unnested : ¬ env.ways.Pairwise fun first second => ¬ Environment.EndsOn first second)
  /-- A key of the outermost mapping of the file is no text. -/
  | key (entries : Entries) (read : fileLayer d request? = .ok (entries, true))

/-- Once the file layer is read, loading has a fault if the variables do not nest or a key is no
text. Checking what the layers amount to adds failures of settings only. -/
theorem load_eq_fault_iff_of_layer {entries : Entries} {hasOtherKeys : Bool}
    (hfile : fileLayer d request? = .ok (entries, hasOtherKeys)) (overrides : Entries) :
    (∃ cause, load d env request? overrides = .error (.fault cause)) ↔
      (¬ env.ways.Pairwise fun first second => ¬ Environment.EndsOn first second) ∨
        hasOtherKeys = true := by
  rw [← Environment.settings_isOk_iff]
  cases henv : env.settings with
  | error e => simp [load, hfile, environmentLayer, henv, Except.mapError]
  | ok environment =>
    cases hasOtherKeys with
    | true => simp [load, hfile, environmentLayer, henv, Except.mapError]
    | false =>
      have hload : load d env request? overrides = ofLayers entries environment overrides := by
        simp [load, hfile, environmentLayer, henv, Except.mapError]
      have hchecked : ∀ es cause, ofEntries es ≠ .error (.fault cause) := by
        intro es cause h
        unfold ofEntries at h
        cases hcheck : (Schema.settings (.dict es)).toExcept "SharpScaffoldConfig" with
        | error r => rw [hcheck] at h; cases h
        | ok s => rw [hcheck] at h; cases h
      simp [hload, ofLayers, hchecked]

theorem load_eq_fault_iff (overrides : Entries) :
    (∃ cause, load d env request? overrides = .error (.fault cause)) ↔ Faulty d env request? := by
  have hlayer := @fileLayer_eq_fault_iff d request?
  cases hfile : fileLayer d request? with
  | error e =>
    have hload : load d env request? overrides = .error e := by simp only [load, hfile]
    rw [hfile] at hlayer
    simp only [hload, Except.error.injEq] at hlayer ⊢
    rw [hlayer]
    constructor
    · rintro (⟨s, hs, hne, hlocate⟩ | ⟨p, hp, hfault⟩)
      · exact .longPath s hs hne hlocate
      · exact .file p hp hfault
    · intro h
      cases h with
      | longPath s asked given tooLong => exact Or.inl ⟨s, asked, given, tooLong⟩
      | file p found fault => exact Or.inr ⟨p, found, fault⟩
      | nesting layer read => rw [hfile] at read; cases read
      | key entries read => rw [hfile] at read; cases read
  | ok layer =>
    obtain ⟨entries, hasOtherKeys⟩ := layer
    rw [hfile] at hlayer
    rw [load_eq_fault_iff_of_layer hfile]
    constructor
    · rintro (hunnested | rfl)
      · exact .nesting _ hfile hunnested
      · exact .key entries hfile
    · intro h
      cases h with
      | longPath s asked given tooLong =>
        obtain ⟨_, hcause⟩ := hlayer.mpr (Or.inl ⟨s, asked, given, tooLong⟩)
        cases hcause
      | file p found fault =>
        obtain ⟨_, hcause⟩ := hlayer.mpr (Or.inr ⟨p, found, fault⟩)
        cases hcause
      | nesting layer read unnested => exact Or.inl unnested
      | key entries read =>
        rw [hfile] at read
        cases read
        exact Or.inr rfl

/-- A disk with a settings file that is no text. -/
def garbledDisk : Disk :=
  Disk.empty.put ".sharpscaffold.toml" [] (.file ⟨#[0xFF, 0xFE]⟩) Disk.empty.here_isDirectory
    (by decide)

end Settings

end TestScaffold
