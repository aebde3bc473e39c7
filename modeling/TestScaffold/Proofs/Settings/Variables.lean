/-
  TestScaffold/Proofs/Settings/Variables.lean
  ===========================================
  **What the environment holds where no variable is in the way of another one.**

  If no way of a variable goes on where the way of another one ends, the
  variables make a tree: at the end of each way stands the value of its variable,
  on the way there are mappings, and anywhere else is nothing
  (`Environment.Holds`).  Nothing in it depends on the order of the variables.

  One value is planted at a time.  It comes to stand at the end of its way and
  leaves alone every way that is apart from it (`Environment.at?_plant_of_apart`).
-/
import TestScaffold.Proofs.Settings.Merging

namespace TestScaffold.Environment

open Datum

/-! ### Planting one value -/

/-- Neither way leads on from the other one. -/
def Apart (way other : List String) : Prop := ¬ way <+: other ∧ ¬ other <+: way

instance (way other : List String) : Decidable (Apart way other) :=
  inferInstanceAs (Decidable (¬ way <+: other ∧ ¬ other <+: way))

theorem Apart.symm {way other : List String} (h : Apart way other) : Apart other way := ⟨h.2, h.1⟩

theorem Apart.tail {name : String} {way other : List String}
    (h : Apart (name :: way) (name :: other)) : Apart way other := by
  simpa [Apart] using h

theorem Apart.ne_nil {way other : List String} (h : Apart way other) : other ≠ [] := by
  rintro rfl
  exact h.2 List.nil_prefix

/-- A value is set in entries, and what is left is entries. -/
theorem exists_of_plant_eq_ok {value d d' : Datum} {leaf : String} {sections : List String}
    (h : plant value leaf sections d = .ok d') : ∃ es es', d = .dict es ∧ d' = .dict es' := by
  cases sections with
  | nil =>
    cases d with
    | dict es =>
      cases h
      exact ⟨es, _, rfl, rfl⟩
    | _ => cases h
  | cons name rest =>
    cases d with
    | dict es =>
      simp only [plant] at h
      split at h
      · cases h
        exact ⟨es, _, rfl, rfl⟩
      · cases h
    | _ => cases h

/-- A value is set in the section that the way begins with, or in a new one. -/
theorem exists_of_plant_cons_eq_ok {value d' : Datum} {leaf name : String} {rest : List String}
    {es : Entries} (h : plant value leaf (name :: rest) (.dict es) = .ok d') :
    ∃ inner, plant value leaf rest ((lookup? name es).getD (.dict [])) = .ok inner ∧
      d' = .dict (insert name inner es) := by
  simp only [plant] at h
  split at h
  · rename_i inner hinner
    cases h
    exact ⟨inner, hinner, rfl⟩
  · cases h

/-- A value that was set stands at the end of its way. -/
theorem at?_plant {value : Datum} {leaf : String} {sections : List String} :
    ∀ {d d' : Datum}, plant value leaf sections d = .ok d' →
      d'.at? (sections ++ [leaf]) = some value := by
  induction sections with
  | nil =>
    intro d d' h
    obtain ⟨es, _, rfl, _⟩ := exists_of_plant_eq_ok h
    cases h
    rw [List.nil_append, at?_singleton_dict, lookup?_insert, if_pos rfl]
  | cons name rest ih =>
    intro d d' h
    obtain ⟨es, _, rfl, _⟩ := exists_of_plant_eq_ok h
    obtain ⟨inner, hinner, rfl⟩ := exists_of_plant_cons_eq_ok h
    rw [List.cons_append, at?_cons_dict, lookup?_insert, if_pos rfl, Option.bind_some]
    exact ih hinner

/-- On the way to a value that was set there are mappings. -/
theorem at?_plant_of_prefix {value : Datum} {leaf : String} {sections : List String} :
    ∀ {d d' : Datum}, plant value leaf sections d = .ok d' → ∀ {front : List String},
      front <+: sections → ∃ es, d'.at? front = some (.dict es) := by
  induction sections with
  | nil =>
    intro d d' h front hfront
    obtain ⟨_, es', _, rfl⟩ := exists_of_plant_eq_ok h
    rw [List.prefix_nil.mp hfront]
    exact ⟨es', rfl⟩
  | cons name rest ih =>
    intro d d' h front hfront
    obtain ⟨es, _, rfl, _⟩ := exists_of_plant_eq_ok h
    obtain ⟨inner, hinner, rfl⟩ := exists_of_plant_cons_eq_ok h
    cases front with
    | nil => exact ⟨_, rfl⟩
    | cons first more =>
      obtain ⟨rfl, hmore⟩ := List.cons_prefix_cons.mp hfront
      rw [at?_cons_dict, lookup?_insert, if_pos rfl, Option.bind_some]
      exact ih hinner hmore

/-- What stands at a way that is apart from the way of a value stays when the value is set. -/
theorem at?_plant_of_apart {value : Datum} {leaf : String} {sections : List String} :
    ∀ {d d' : Datum}, plant value leaf sections d = .ok d' → ∀ {way : List String},
      Apart (sections ++ [leaf]) way → d'.at? way = d.at? way := by
  induction sections with
  | nil =>
    intro d d' h way hapart
    obtain ⟨es, _, rfl, _⟩ := exists_of_plant_eq_ok h
    cases h
    cases way with
    | nil => exact absurd rfl hapart.ne_nil
    | cons name rest =>
      have hne : name ≠ leaf := by
        rintro rfl
        exact hapart.1 (List.cons_prefix_cons.mpr ⟨rfl, List.nil_prefix⟩)
      rw [at?_cons_dict, at?_cons_dict, lookup?_insert, if_neg hne]
  | cons section_ rest ih =>
    intro d d' h way hapart
    obtain ⟨es, _, rfl, _⟩ := exists_of_plant_eq_ok h
    obtain ⟨inner, hinner, rfl⟩ := exists_of_plant_cons_eq_ok h
    cases way with
    | nil => exact absurd rfl hapart.ne_nil
    | cons name more =>
      rw [at?_cons_dict, at?_cons_dict, lookup?_insert]
      by_cases hne : name = section_
      · subst hne
        have hmore : Apart (rest ++ [leaf]) more := hapart.tail
        rw [if_pos rfl, Option.bind_some, ih hinner hmore]
        cases lookup? name es with
        | some before => rfl
        | none =>
          -- a new section has nothing but the way of the value
          obtain ⟨first, others, rfl⟩ := List.exists_cons_of_ne_nil hmore.ne_nil
          rfl
      · rw [if_neg hne]

theorem isKeyed_plant {value : Datum} (hvalue : value.isKeyed = true) {leaf : String}
    {sections : List String} : ∀ {d d' : Datum}, plant value leaf sections d = .ok d' →
      d.isKeyed = true → d'.isKeyed = true := by
  induction sections with
  | nil =>
    intro d d' h hd
    obtain ⟨es, _, rfl, _⟩ := exists_of_plant_eq_ok h
    cases h
    exact areKeyed_insert hd hvalue
  | cons name rest ih =>
    intro d d' h hd
    obtain ⟨es, _, rfl, _⟩ := exists_of_plant_eq_ok h
    obtain ⟨inner, hinner, rfl⟩ := exists_of_plant_cons_eq_ok h
    refine areKeyed_insert hd (ih hinner ?_)
    cases hname : lookup? name es with
    | none => rfl
    | some before => exact isKeyed_of_lookup? hd hname

/-! ### Variables apart from one another -/

/-- Data that hold what variables say and nothing else. -/
structure Holds (env : Environment) (d : Datum) : Prop where
  isMapping : d.isMapping = true
  isKeyed : d.isKeyed = true
  /-- At the end of the way of a variable stands its value. -/
  named : ∀ variable_ ∈ env, ∀ {sections : List String} {leaf : String},
    wayOf? variable_.1 = some (sections, leaf) →
      d.at? (sections ++ [leaf]) = some (.ofPlain variable_.2)
  /-- On the way of a variable there are mappings. -/
  before : ∀ way ∈ env.ways, ∀ {front : List String}, EndsOn front way →
    ∃ es, d.at? front = some (.dict es)
  /-- Apart from the ways of variables there is nothing. -/
  only : ∀ {way : List String}, way ≠ [] → (∀ other ∈ env.ways, Apart other way) →
    d.at? way = none

theorem mem_ways_iff {env : Environment} {way : List String} :
    way ∈ env.ways ↔ ∃ variable_ ∈ env, ∃ sections leaf,
      wayOf? variable_.1 = some (sections, leaf) ∧ way = sections ++ [leaf] := by
  simp only [ways, List.mem_filterMap, Option.map_eq_some_iff, Prod.exists]
  constructor
  · rintro ⟨name, value, hmem, sections, leaf, hway, rfl⟩
    exact ⟨name, value, hmem, sections, leaf, hway, rfl⟩
  · rintro ⟨name, value, hmem, sections, leaf, hway, rfl⟩
    exact ⟨name, value, hmem, sections, leaf, hway, rfl⟩

theorem ways_append (env more : Environment) : ways (env ++ more) = ways env ++ ways more := by
  simp [ways]

theorem ways_singleton {variable_ : String × String} {sections : List String} {leaf : String}
    (h : wayOf? variable_.1 = some (sections, leaf)) : ways [variable_] = [sections ++ [leaf]] := by
  simp [ways, h]

theorem ways_singleton_of_none {variable_ : String × String} (h : wayOf? variable_.1 = none) :
    ways [variable_] = [] := by
  simp [ways, h]

theorem isKeyed_ofPlain (s : String) : (ofPlain s).isKeyed = true := by
  have h := isMapping_ofPlain s
  cases hd : ofPlain s with
  | dict es => rw [hd] at h; cases h
  | _ => rfl

theorem Holds.start : Holds [] (.dict []) where
  isMapping := rfl
  isKeyed := rfl
  named := by simp
  before := by simp [ways]
  only := by
    intro way hway _
    obtain ⟨name, rest, rfl⟩ := List.exists_cons_of_ne_nil hway
    rfl

/-- A name that is no name of a setting changes nothing. -/
theorem Holds.pass {env : Environment} {d : Datum} (h : Holds env d)
    {variable_ : String × String} (hway : wayOf? variable_.1 = none) :
    Holds (env ++ [variable_]) d := by
  have hways : ways (env ++ [variable_]) = ways env := by
    rw [ways_append, ways_singleton_of_none hway, List.append_nil]
  refine ⟨h.isMapping, h.isKeyed, ?_, ?_, ?_⟩
  · intro v hv sections leaf hname
    rcases List.mem_append.mp hv with hv | hv
    · exact h.named v hv hname
    · rw [List.mem_singleton.mp hv, hway] at hname
      cases hname
  · rw [hways]
    exact h.before
  · rw [hways]
    exact h.only

/-- One more variable, apart from all before it. -/
theorem Holds.plant {env : Environment} {d d' : Datum} (h : Holds env d)
    {variable_ : String × String} {sections : List String} {leaf : String}
    (hway : wayOf? variable_.1 = some (sections, leaf))
    (hapart : ∀ way ∈ env.ways, Apart way (sections ++ [leaf]))
    (hplant : plant (.ofPlain variable_.2) leaf sections d = .ok d') :
    Holds (env ++ [variable_]) d' := by
  have hways : ways (env ++ [variable_]) = ways env ++ [sections ++ [leaf]] := by
    rw [ways_append, ways_singleton hway]
  refine ⟨?_, isKeyed_plant (isKeyed_ofPlain _) hplant h.isKeyed, ?_, ?_, ?_⟩
  · obtain ⟨_, es', _, rfl⟩ := exists_of_plant_eq_ok hplant
    rfl
  · intro v hv sections' leaf' hname
    rcases List.mem_append.mp hv with hv | hv
    · have hmem : sections' ++ [leaf'] ∈ env.ways :=
        mem_ways_iff.mpr ⟨v, hv, sections', leaf', hname, rfl⟩
      rw [at?_plant_of_apart hplant (hapart _ hmem).symm]
      exact h.named v hv hname
    · rw [List.mem_singleton.mp hv] at hname ⊢
      cases hway.symm.trans hname
      exact at?_plant hplant
  · intro way hmem front hends
    rw [hways] at hmem
    by_cases hnew : front <+: sections
    · exact at?_plant_of_prefix hplant hnew
    · rcases List.mem_append.mp hmem with hmem | hmem
      · -- where the two ways part, the old mapping has been left alone
        have hout : Apart (sections ++ [leaf]) front := by
          refine ⟨fun hlead => (hapart way hmem).2 (hlead.trans hends.1), fun hlead => ?_⟩
          rcases List.prefix_concat_iff.mp hlead with rfl | hlead
          · exact (hapart way hmem).2 hends.1
          · exact hnew hlead
        rw [at?_plant_of_apart hplant hout]
        exact h.before way hmem hends
      · rw [List.mem_singleton.mp hmem] at hends
        exact absurd (endsOn_concat_iff.mp hends) hnew
  · intro way hne hall
    rw [hways] at hall
    have hold : ∀ other ∈ env.ways, Apart other way := fun other hmem =>
      hall other (List.mem_append_left _ hmem)
    have hnew : Apart (sections ++ [leaf]) way := hall _ List.mem_concat_self
    rw [at?_plant_of_apart hplant hnew]
    exact h.only hne hold

/-- The induction is on the variables that are left; what has been read is carried as `Holds`. -/
theorem Holds.foldlM {more : Environment} : ∀ {env : Environment} {d d' : Datum}, Holds env d →
    (ways (env ++ more)).Pairwise Apart → more.foldlM addVariable d = .ok d' →
      Holds (env ++ more) d' := by
  induction more with
  | nil =>
    intro env d d' h _ hfold
    cases hfold
    rw [List.append_nil]
    exact h
  | cons variable_ rest ih =>
    intro env d d' h hpair hfold
    have hsplit : env ++ variable_ :: rest = env ++ [variable_] ++ rest := by simp
    rw [hsplit] at hpair ⊢
    rw [List.foldlM_cons] at hfold
    cases hway : wayOf? variable_.1 with
    | none =>
      rw [show addVariable d variable_ = .ok d by simp only [addVariable, hway]] at hfold
      exact ih (h.pass hway) hpair hfold
    | some way =>
      obtain ⟨sections, leaf⟩ := way
      rw [show addVariable d variable_ = Environment.plant (.ofPlain variable_.2) leaf sections d by
        simp only [addVariable, hway]] at hfold
      cases hplant : Environment.plant (.ofPlain variable_.2) leaf sections d with
      | error e =>
        rw [hplant] at hfold
        cases hfold
      | ok next =>
        rw [hplant] at hfold
        have hapart : ∀ way ∈ env.ways, Apart way (sections ++ [leaf]) := by
          rw [ways_append, ways_append, ways_singleton hway] at hpair
          have hfront := (List.pairwise_append.mp hpair).1
          exact fun way hmem =>
            (List.pairwise_append.mp hfront).2.2 way hmem _ (List.mem_singleton_self _)
        exact ih (h.plant hway hapart hplant) hpair hfold

/-- **Variables apart from one another nest, and what they make is what they say.** -/
theorem exists_holds {env : Environment} (h : env.ways.Pairwise Apart) :
    ∃ es, env.settings = .ok es ∧ Holds env (.dict es) := by
  obtain ⟨es, hes⟩ := (settings_isOk_iff env).mpr (h.imp fun hapart hends => hapart.1 hends.1)
  have hsettings := hes
  unfold settings at hsettings
  cases hfold : env.foldlM addVariable (.dict []) with
  | error e =>
    rw [hfold] at hsettings
    cases hsettings
  | ok d =>
    have hd : Holds ([] ++ env) d := Holds.start.foldlM h hfold
    obtain ⟨inside, rfl⟩ := isMapping_iff.mp hd.isMapping
    rw [hfold] at hsettings
    cases hsettings
    exact ⟨_, hes, hd⟩

/-! ### Variables of others -/

/-- A variable that does not begin like those of the program names no setting. -/
theorem wayOf?_eq_none {name : String} (h : Text.startsWith lead name = false) :
    wayOf? name = none := by
  have hlead : Text.afterLead? lead.toList name.toList = none := by
    simpa [Text.startsWith] using h
  simp only [wayOf?, hlead]

/-- The variables of others make no settings. -/
theorem settings_eq_nil {env : Environment}
    (h : ∀ v ∈ env, Text.startsWith lead v.1 = false) : env.settings = .ok [] := by
  have hfold : env.foldlM addVariable (.dict []) = .ok (.dict []) := by
    induction env with
    | nil => rfl
    | cons v rest ih =>
      have hv : addVariable (.dict []) v = .ok (.dict []) := by
        simp only [addVariable, wayOf?_eq_none (h v List.mem_cons_self)]
      rw [List.foldlM_cons, hv]
      exact ih fun w hw => h w (List.mem_cons_of_mem _ hw)
  rw [settings, hfold]
  rfl

end TestScaffold.Environment
