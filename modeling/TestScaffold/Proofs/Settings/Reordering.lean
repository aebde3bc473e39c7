/-
  TestScaffold/Proofs/Settings/Reordering.lean
  ============================================
  **The order of variables does not count.**

  Variables whose ways are apart from one another make a tree: each value stands
  at the end of the way of its variable, every value belongs to a variable, and
  every section has one below it (`Environment.Trie`).  This says all there is to
  say of the mapping but for the order of its entries, and the order of the
  variables does not occur in it.  Two environments with the same settings,
  whatever other variables stand among them, therefore make mappings of the same
  contents (`Datum.SameContents`).
-/
import TestScaffold.Proofs.Settings.Overlays
import TestScaffold.Proofs.Settings.Variables
import TestScaffold.Proofs.Text.Pieces

namespace TestScaffold

open Environment (EndsOn)

/-! ### Mappings but for the order of their entries -/

namespace Datum

/-- Two mappings, or the same value, or nothing twice. -/
def Alike : Option Datum → Option Datum → Prop
  | some (dict _), some (dict _) => True
  | d?, e? => d? = e?

/-- Both data have the same at the end of each way; where that is a mapping, the same below it. -/
def SameContents (d e : Datum) : Prop := ∀ way, Alike (d.at? way) (e.at? way)

theorem alike_of_mappings {d? e? : Option Datum} (hd : ∃ es, d? = some (dict es))
    (he : ∃ es, e? = some (dict es)) : Alike d? e? := by
  obtain ⟨es, rfl⟩ := hd
  obtain ⟨fs, rfl⟩ := he
  exact trivial

theorem alike_of_eq {d? e? : Option Datum} (h : d? = e?) : Alike d? e? := by
  subst h
  unfold Alike
  split <;> trivial

/-- A way that goes on leads through a mapping. -/
theorem exists_at?_eq_dict {d value : Datum} {front way : List String} (h : EndsOn front way)
    (hvalue : d.at? way = some value) : ∃ es, d.at? front = some (dict es) := by
  obtain ⟨⟨rest, rfl⟩, hne⟩ := h
  rw [at?_append] at hvalue
  obtain ⟨inner, hinner, hrest⟩ := Option.bind_eq_some_iff.mp hvalue
  cases hmapping : inner.isMapping with
  | true =>
    obtain ⟨es, rfl⟩ := isMapping_iff.mp hmapping
    exact ⟨es, hinner⟩
  | false =>
    rw [at?_eq_none_of_not_isMapping hmapping (by simpa using hne)] at hrest
    cases hrest

end Datum

namespace Environment

open Datum

/-! ### Variables that are settings -/

/-- Whether a variable begins like those of the program and is not the reserved one. -/
def isSetting (variable_ : String × String) : Bool :=
  Text.startsWith lead variable_.1 && variable_.1 != lead ++ quietKey

theorem wayOf?_isSome (variable_ : String × String) :
    (wayOf? variable_.1).isSome = isSetting variable_ := by
  unfold wayOf? isSetting Text.startsWith
  cases hlead : Text.afterLead? lead.toList variable_.1.toList with
  | none => rfl
  | some key =>
    have hname : variable_.1 = lead ++ String.ofList key := by
      rw [← String.toList_inj, String.toList_append, String.toList_ofList]
      exact Text.afterLead?_eq_some.mp hlead
    have hquiet : variable_.1 = lead ++ quietKey ↔ String.ofList key = quietKey := by
      rw [hname, String.append_right_inj]
    by_cases h : String.ofList key = quietKey <;> simp [hquiet, h]

theorem wayOf?_eq_none_iff {variable_ : String × String} :
    wayOf? variable_.1 = none ↔ isSetting variable_ = false := by
  rw [← wayOf?_isSome, Option.isSome_eq_false_iff, Option.isNone_iff_eq_none]

/-- **Variables that are no settings have no effect**, wherever they stand. -/
theorem settings_filter_isSetting (env : Environment) :
    settings (env.filter isSetting) = env.settings := by
  have hfold : ∀ d, (env.filter isSetting).foldlM addVariable d = env.foldlM addVariable d := by
    induction env with
    | nil => exact fun _ => rfl
    | cons variable_ rest ih =>
      intro d
      cases h : isSetting variable_ with
      | true =>
        rw [List.filter_cons_of_pos h, List.foldlM_cons, List.foldlM_cons]
        exact congrArg _ (funext ih)
      | false =>
        have hpass : addVariable d variable_ = .ok d := by
          simp only [addVariable, wayOf?_eq_none_iff.mpr h]
        rw [List.filter_cons_of_neg (by simp [h]), List.foldlM_cons, hpass]
        exact ih d
  rw [settings, hfold, settings]

theorem ways_filter_isSetting (env : Environment) : ways (env.filter isSetting) = env.ways := by
  have hway : (fun variable_ : String × String => if isSetting variable_ then
      (wayOf? variable_.1).map fun way => way.1 ++ [way.2] else none) =
        fun variable_ => (wayOf? variable_.1).map fun way => way.1 ++ [way.2] := by
    funext variable_
    cases h : isSetting variable_ with
    | true => rfl
    | false => simp [wayOf?_eq_none_iff.mpr h]
  rw [ways, List.filterMap_filter, hway, ways]

/-! ### The tree of the variables -/

/-- A mapping that has what variables say, and nothing else. -/
structure Trie (env : Environment) (d : Datum) : Prop where
  isMapping : d.isMapping = true
  isKeyed : d.isKeyed = true
  /-- At the end of the way of a variable stands what its text means. -/
  value : ∀ variable_ ∈ env, ∀ sections leaf, wayOf? variable_.1 = some (sections, leaf) →
    d.at? (sections ++ [leaf]) = some (.ofPlain variable_.2)
  /-- A value stands at the end of the way of a variable. -/
  leaf : ∀ way value, d.at? way = some value → value.isMapping = false → way ∈ env.ways
  /-- Below a mapping the way of a variable goes on. -/
  branch : ∀ way es, way ≠ [] → d.at? way = some (.dict es) → ∃ other ∈ env.ways, EndsOn way other

theorem Holds.at?_of_mem_ways {env : Environment} {d : Datum} (h : Holds env d) {way : List String}
    (hway : way ∈ env.ways) : ∃ value, d.at? way = some value ∧ value.isMapping = false := by
  obtain ⟨variable_, hmem, sections, leaf, hname, rfl⟩ := mem_ways_iff.mp hway
  exact ⟨_, h.named variable_ hmem hname, isMapping_ofPlain _⟩

/-- Where something stands, a way of a variable ends or goes on. -/
theorem Holds.exists_way {env : Environment} {d value : Datum} (h : Holds env d) {way : List String}
    (hne : way ≠ []) (hvalue : d.at? way = some value) :
    way ∈ env.ways ∨ ∃ other ∈ env.ways, EndsOn way other := by
  by_cases hway : way ∈ env.ways
  · exact .inl hway
  · refine .inr (Classical.byContradiction fun hnone => ?_)
    have habsent : d.at? way = none := by
      refine h.only hne fun other hother => ⟨fun hlead => ?_, fun hlead => ?_⟩
      · -- the value of the other variable would stand in front
        have hends : EndsOn other way := ⟨hlead, fun heq => hway (heq ▸ hother)⟩
        obtain ⟨scalar, hscalar, hmapping⟩ := h.at?_of_mem_ways hother
        obtain ⟨es, hes⟩ := exists_at?_eq_dict hends hvalue
        rw [hes] at hscalar
        cases hscalar
        cases hmapping
      · exact hnone ⟨other, hother, hlead, fun heq => hway (heq ▸ hother)⟩
    rw [habsent] at hvalue
    cases hvalue

theorem Holds.trie {env : Environment} {d : Datum} (h : Holds env d) : Trie env d where
  isMapping := h.isMapping
  isKeyed := h.isKeyed
  value variable_ hmem _ _ hway := h.named variable_ hmem hway
  leaf := by
    intro way value hvalue hscalar
    have hne : way ≠ [] := by
      rintro rfl
      cases hvalue
      rw [h.isMapping] at hscalar
      cases hscalar
    refine (h.exists_way hne hvalue).resolve_right ?_
    rintro ⟨other, hother, hends⟩
    obtain ⟨es, hes⟩ := h.before other hother hends
    rw [hes] at hvalue
    cases hvalue
    cases hscalar
  branch := by
    intro way es hne hes
    refine (h.exists_way hne hes).resolve_left fun hway => ?_
    obtain ⟨scalar, hscalar, hmapping⟩ := h.at?_of_mem_ways hway
    rw [hes] at hscalar
    cases hscalar
    cases hmapping

/-- What stands in the tree of some variables stands in the tree of the same variables. -/
theorem Trie.alike {env env' : Environment} {d e value : Datum} (hd : Trie env d) (he : Trie env' e)
    (hsame : ∀ variable_, isSetting variable_ = true → (variable_ ∈ env ↔ variable_ ∈ env'))
    {way : List String} (hvalue : d.at? way = some value) : Alike (d.at? way) (e.at? way) := by
  have hnamed : ∀ {other : List String}, other ∈ env.ways → ∃ scalar,
      d.at? other = some scalar ∧ e.at? other = some scalar := by
    intro other hother
    obtain ⟨variable_, hmem, sections, leaf, hname, rfl⟩ := mem_ways_iff.mp hother
    have hsetting : isSetting variable_ = true := by rw [← wayOf?_isSome, hname]; rfl
    exact ⟨_, hd.value _ hmem _ _ hname, he.value _ ((hsame _ hsetting).mp hmem) _ _ hname⟩
  cases hmapping : value.isMapping with
  | false =>
    obtain ⟨scalar, hscalar, hscalar'⟩ := hnamed (hd.leaf way value hvalue hmapping)
    exact alike_of_eq (hscalar.trans hscalar'.symm)
  | true =>
    obtain ⟨es, rfl⟩ := isMapping_iff.mp hmapping
    refine alike_of_mappings ⟨es, hvalue⟩ ?_
    by_cases hway : way = []
    · obtain ⟨fs, rfl⟩ := isMapping_iff.mp he.isMapping
      exact ⟨fs, by rw [hway]; rfl⟩
    · obtain ⟨other, hother, hends⟩ := hd.branch way es hway hvalue
      obtain ⟨scalar, _, hscalar⟩ := hnamed hother
      exact exists_at?_eq_dict hends hscalar

/-- **The same variables make the same contents.** -/
theorem Trie.sameContents {env env' : Environment} {d e : Datum} (hd : Trie env d)
    (he : Trie env' e)
    (hsame : ∀ variable_, isSetting variable_ = true → (variable_ ∈ env ↔ variable_ ∈ env')) :
    SameContents d e := by
  intro way
  cases hvalue : d.at? way with
  | some value => exact hvalue ▸ hd.alike he hsame hvalue
  | none =>
    cases hvalue' : e.at? way with
    | none => exact alike_of_eq rfl
    | some value =>
      have h := he.alike hd (fun variable_ hsetting => (hsame variable_ hsetting).symm) hvalue'
      rw [hvalue, hvalue'] at h
      cases value <;> exact (by cases h)

/-- **Variables apart from one another make one tree in every order**, and what other variables
stand among them makes no difference. -/
theorem settings_of_perm {env : Environment} (h : env.ways.Pairwise Apart) :
    ∃ es, env.settings = .ok es ∧ Trie env (.dict es) ∧ ∀ env' : Environment,
      (env'.filter isSetting).Perm (env.filter isSetting) →
        ∃ es', env'.settings = .ok es' ∧ settings (env'.filter isSetting) = .ok es' ∧
          areKeyed es' = true ∧ SameContents (.dict es) (.dict es') := by
  obtain ⟨es, hes, hholds⟩ := exists_holds h
  refine ⟨es, hes, hholds.trie, fun env' hperm => ?_⟩
  have hways : env'.ways.Perm env.ways := by
    rw [← ways_filter_isSetting env', ← ways_filter_isSetting env]
    exact hperm.filterMap _
  have hapart : env'.ways.Pairwise Apart := hways.symm.pairwise h fun hapart => hapart.symm
  obtain ⟨es', hes', hholds'⟩ := exists_holds hapart
  refine ⟨es', hes', (settings_filter_isSetting env').trans hes', hholds'.isKeyed,
    hholds.trie.sameContents hholds'.trie fun variable_ hsetting => ?_⟩
  have hmem := hperm.mem_iff (a := variable_)
  simpa [List.mem_filter, hsetting] using hmem.symm

/-- Three variables that share a section, with an empty name and an underscore in front among their
ways. -/
def sharedSections : Environment :=
  [("SHARPSCAFFOLD_A__B", "1"), ("SHARPSCAFFOLD_a____C", "x,y"), ("SHARPSCAFFOLD_A___B", "on")]

/-- The same backwards, with variables of others and the reserved one between them. -/
def sharedSectionsBackwards : Environment :=
  [("SHARPSCAFFOLD_A___B", "on"), ("SHARPSCAFFOLD_QUIET", "1"), ("SHARPSCAFFOLD_a____C", "x,y"),
    ("SHARPSCAFFOLD", "2"), ("SHARPSCAFFOLD_A__B", "1")]

theorem settings_of_perm_sharedSections :
    sharedSections.ways.Pairwise Apart ∧
      (sharedSectionsBackwards.filter isSetting).Perm (sharedSections.filter isSetting) ∧
      ∃ es es', sharedSections.settings = .ok es ∧ sharedSectionsBackwards.settings = .ok es' ∧
        Trie sharedSections (.dict es) ∧ SameContents (.dict es) (.dict es') := by
  have hapart : sharedSections.ways.Pairwise Apart := by decide +kernel
  have hperm : (sharedSectionsBackwards.filter isSetting).Perm
      (sharedSections.filter isSetting) := by decide +kernel
  obtain ⟨es, hes, htrie, hall⟩ := settings_of_perm hapart
  obtain ⟨es', hes', _, _, hsame⟩ := hall _ hperm
  exact ⟨hapart, hperm, es, es', hes, hes', htrie, hsame⟩

end Environment

end TestScaffold
