/-
  TestScaffold/Proofs/Settings/Nesting.lean
  =========================================
  **Which environment variables nest.**

  The name of a variable is a way through sections, and its value stands at the
  end of that way.  A later variable can take the place of an earlier value or of
  a whole section, but it cannot go on below a value.  So variables nest if and
  only if the way of none goes on where the way of an earlier one ends
  (`Environment.settings_isOk_iff`), whatever their values are and whatever other
  variables there are.

  The invariant is `Planted`: only ways of variables end at values, and on every
  way of a variable there is a value, its own or that of a shorter way which was
  laid over it.
-/
import TestScaffold.Settings.Environment

namespace TestScaffold

/-! ### Values at the ends of ways -/

namespace Datum

theorem lookup?_insert (key name : String) (value : Datum) (es : Entries) :
    lookup? name (insert key value es) = if name = key then some value else lookup? name es := by
  induction es with
  | nil => simp only [insert, lookup?, eq_comm]
  | cons head rest ih =>
    obtain ⟨k, v⟩ := head
    by_cases hk : k = key
    · subst hk
      by_cases hname : k = name
      · simp [insert, lookup?, hname]
      · simp [insert, lookup?, hname, Ne.symm hname]
    · by_cases hname : k = name
      · subst hname
        simp [insert, lookup?, hk]
      · simp [insert, lookup?, hk, hname, ih]

/-- Whether a datum is a mapping, so that a way can go on below it. -/
def isMapping : Datum → Bool
  | dict _ => true
  | _ => false

/-- Whether a way through mappings ends at a value, which is anything but a mapping. -/
def hasValueAt : List String → Datum → Bool
  | [], d => !d.isMapping
  | name :: rest, dict es => (lookup? name es).any (hasValueAt rest)
  | _ :: _, _ => false

/-- No way goes on below a value. -/
theorem hasValueAt_of_not_isMapping {d : Datum} (h : d.isMapping = false) (way : List String) :
    d.hasValueAt way = true ↔ way = [] := by
  cases way with
  | nil => simp [hasValueAt, h]
  | cons name rest =>
    cases d with
    | dict es => cases h
    | _ => simp [hasValueAt]

@[simp] theorem hasValueAt_empty (way : List String) : (dict []).hasValueAt way = false := by
  cases way with
  | nil => rfl
  | cons name rest => rfl

theorem hasValueAt_cons (name : String) (rest : List String) (es : Entries) :
    (dict es).hasValueAt (name :: rest) =
      ((lookup? name es).getD (dict [])).hasValueAt rest := by
  simp only [hasValueAt]
  cases lookup? name es with
  | none => simp
  | some inner => rfl

/-- A plain text never means a mapping. -/
theorem isMapping_ofPlain (s : String) : (ofPlain s).isMapping = false := by
  unfold ofPlain
  split
  · rfl
  · split
    · rename_i d hnumber
      unfold numberOf? at hnumber
      split at hnumber
      all_goals
        obtain ⟨_, _, rfl⟩ := Option.map_eq_some_iff.mp hnumber
        rfl
    · split <;> rfl

end Datum

/-! ### Planting one value -/

namespace Environment

open Datum

/-- A value can be set at the end of a way unless some section on the way is a value. -/
theorem plant_isOk_iff (value : Datum) (leaf : String) (sections : List String) :
    ∀ d : Datum, (∃ d', plant value leaf sections d = .ok d') ↔
      ∀ way, way <+: sections → d.hasValueAt way = false := by
  induction sections with
  | nil =>
    intro d
    cases d with
    | dict es => simp [plant, hasValueAt, isMapping]
    | _ => simp [plant, hasValueAt, isMapping]
  | cons name rest ih =>
    intro d
    cases d with
    | dict es =>
      have hinner := ih ((lookup? name es).getD (dict []))
      have hplant : (∃ d', plant value leaf (name :: rest) (dict es) = .ok d') ↔
          ∃ inner, plant value leaf rest ((lookup? name es).getD (dict [])) = .ok inner := by
        simp only [plant]
        cases plant value leaf rest ((lookup? name es).getD (dict [])) with
        | error e => simp
        | ok inner => simp
      rw [hplant, hinner]
      constructor
      · intro h way hway
        cases way with
        | nil => rfl
        | cons first more =>
          obtain ⟨rfl, hmore⟩ := List.cons_prefix_cons.mp hway
          rw [hasValueAt_cons]
          exact h more hmore
      · intro h more hmore
        rw [← hasValueAt_cons]
        exact h (name :: more) (List.cons_prefix_cons.mpr ⟨rfl, hmore⟩)
    | _ =>
      constructor
      · rintro ⟨d', h⟩
        cases h
      · intro h
        exact absurd (h [] List.nil_prefix) (by simp [hasValueAt, isMapping])

/-- A value that was set is the only one on its way and below; elsewhere nothing has changed. -/
theorem hasValueAt_plant {value : Datum} (hvalue : value.isMapping = false) {leaf : String}
    {sections : List String} : ∀ {d d' : Datum}, plant value leaf sections d = .ok d' →
      ∀ way, d'.hasValueAt way = true ↔
        way = sections ++ [leaf] ∨ (¬ sections ++ [leaf] <+: way ∧ d.hasValueAt way = true) := by
  induction sections with
  | nil =>
    intro d d' h way
    cases d with
    | dict es =>
      cases h
      cases way with
      | nil => simp [hasValueAt, isMapping]
      | cons name rest =>
        rw [hasValueAt_cons, hasValueAt_cons, lookup?_insert]
        by_cases hname : name = leaf
        · subst hname
          simp [hasValueAt_of_not_isMapping hvalue]
        · simp [hname, Ne.symm hname]
    | _ => cases h
  | cons section_ rest ih =>
    intro d d' h way
    cases d with
    | dict es =>
      simp only [plant] at h
      cases hinner : plant value leaf rest ((lookup? section_ es).getD (dict [])) with
      | error e => rw [hinner] at h; cases h
      | ok inner =>
        rw [hinner] at h
        cases h
        cases way with
        | nil => simp [hasValueAt, isMapping]
        | cons name more =>
          rw [hasValueAt_cons, hasValueAt_cons, lookup?_insert]
          by_cases hname : name = section_
          · subst hname
            rw [if_pos rfl, Option.getD_some, ih hinner more]
            simp
          · simp [hname, Ne.symm hname]
    | _ => cases h

/-! ### Variables one after the other -/

/-- The ways that the variables of the program name, each with the name of its setting at the
    end. -/
def ways (env : Environment) : List (List String) :=
  env.filterMap fun variable_ => (wayOf? variable_.1).map fun way => way.1 ++ [way.2]

/-- The first way ends where the second one goes on. -/
def EndsOn (first second : List String) : Prop := first <+: second ∧ first ≠ second

theorem endsOn_concat_iff {first sections : List String} {leaf : String} :
    EndsOn first (sections ++ [leaf]) ↔ first <+: sections := by
  unfold EndsOn
  rw [List.prefix_concat_iff]
  constructor
  · rintro ⟨rfl | h, hne⟩
    · exact absurd rfl hne
    · exact h
  · intro h
    refine ⟨Or.inr h, ?_⟩
    rintro rfl
    have hlength := h.length_le
    rw [List.length_append, List.length_singleton] at hlength
    omega

/-- Data with values at the ends of ways: no value stands elsewhere, and every way leads to a value
    or past one. -/
structure Planted (ways : List (List String)) (d : Datum) : Prop where
  only : ∀ way, d.hasValueAt way = true → way ∈ ways
  covered : ∀ way ∈ ways, ∃ front, front <+: way ∧ d.hasValueAt front = true

theorem Planted.start : Planted [] (.dict []) where
  only := by
    intro way h
    rw [hasValueAt_empty] at h
    cases h
  covered := by
    intro way h
    cases h

/-- One more value can be set unless a way so far ends on its way. -/
theorem Planted.plant_isOk_iff {done : List (List String)} {d : Datum} (h : Planted done d)
    (value : Datum) (leaf : String) (sections : List String) :
    (∃ d', plant value leaf sections d = .ok d') ↔
      ∀ way ∈ done, ¬ EndsOn way (sections ++ [leaf]) := by
  rw [Environment.plant_isOk_iff]
  constructor
  · intro hfree way hway hends
    obtain ⟨front, hfront, hvalue⟩ := h.covered way hway
    rw [hfree front (hfront.trans (endsOn_concat_iff.mp hends))] at hvalue
    cases hvalue
  · intro hfree way hway
    cases hvalue : d.hasValueAt way with
    | false => rfl
    | true => exact absurd (endsOn_concat_iff.mpr hway) (hfree way (h.only way hvalue))

theorem Planted.plant {done : List (List String)} {d d' : Datum} (h : Planted done d)
    {value : Datum} (hvalue : value.isMapping = false) {leaf : String} {sections : List String}
    (hplant : plant value leaf sections d = .ok d') :
    Planted (done ++ [sections ++ [leaf]]) d' := by
  have hnow := hasValueAt_plant hvalue hplant
  constructor
  · intro way hway
    rcases (hnow way).mp hway with rfl | ⟨_, hbefore⟩
    · exact List.mem_concat_self
    · exact List.mem_append_left _ (h.only way hbefore)
  · intro way hway
    rcases List.mem_append.mp hway with hway | hway
    · obtain ⟨front, hfront, hbefore⟩ := h.covered way hway
      by_cases hover : sections ++ [leaf] <+: front
      · -- the old value is gone, and the new one stands before it
        exact ⟨sections ++ [leaf], hover.trans hfront, (hnow _).mpr (Or.inl rfl)⟩
      · exact ⟨front, hfront, (hnow front).mpr (Or.inr ⟨hover, hbefore⟩)⟩
    · rw [List.mem_singleton.mp hway]
      exact ⟨_, List.prefix_refl _, (hnow _).mpr (Or.inl rfl)⟩

/-- The induction is on the variables; what has been read so far is carried as `Planted`. -/
theorem Planted.settings_isOk_iff (env : Environment) :
    ∀ {done : List (List String)} {d : Datum}, Planted done d →
      done.Pairwise (fun first second => ¬ EndsOn first second) →
      ((∃ d', env.foldlM addVariable d = .ok d') ↔
        (done ++ env.ways).Pairwise fun first second => ¬ EndsOn first second) := by
  induction env with
  | nil =>
    intro done d _ hdone
    simp only [ways, List.filterMap_nil, List.append_nil, hdone, iff_true]
    exact ⟨d, rfl⟩
  | cons variable_ rest ih =>
    intro done d h hdone
    rw [List.foldlM_cons]
    cases hway : wayOf? variable_.1 with
    | none =>
      have hadd : addVariable d variable_ = .ok d := by simp only [addVariable, hway]
      have hways : ways (variable_ :: rest) = ways rest := by simp [ways, hway]
      rw [hadd, hways]
      exact ih h hdone
    | some way =>
      obtain ⟨sections, leaf⟩ := way
      have hadd : addVariable d variable_ = Environment.plant (.ofPlain variable_.2) leaf sections d := by
        simp only [addVariable, hway]
      have hways : ways (variable_ :: rest) = (sections ++ [leaf]) :: ways rest := by
        simp [ways, hway]
      have hnext := h.plant_isOk_iff (.ofPlain variable_.2) leaf sections
      rw [hadd, hways]
      cases hplant : Environment.plant (.ofPlain variable_.2) leaf sections d with
      | error e =>
        rw [hplant] at hnext
        constructor
        · rintro ⟨d', hd'⟩
          cases hd'
        · intro hall
          obtain ⟨d', hd'⟩ := hnext.mpr fun way hway =>
            (List.pairwise_append.mp hall).2.2 way hway _ List.mem_cons_self
          cases hd'
      | ok d' =>
        have hfree := hnext.mp ⟨d', hplant⟩
        have hdone' : (done ++ [sections ++ [leaf]]).Pairwise
            fun first second => ¬ EndsOn first second := by
          refine List.pairwise_append.mpr ⟨hdone, List.pairwise_singleton _ _, ?_⟩
          intro way hway last hlast
          rw [List.mem_singleton.mp hlast]
          exact hfree way hway
        have hrest := ih (h.plant (isMapping_ofPlain _) hplant) hdone'
        rw [List.append_assoc] at hrest
        exact hrest

/-- **Variables nest if and only if** the way of none goes on where the way of an earlier one
    ends. -/
theorem settings_isOk_iff (env : Environment) :
    (∃ es, env.settings = .ok es) ↔
      env.ways.Pairwise fun first second => ¬ EndsOn first second := by
  have hfold := Planted.settings_isOk_iff env Planted.start List.Pairwise.nil
  rw [List.nil_append] at hfold
  rw [← hfold, settings]
  cases env.foldlM addVariable (.dict []) with
  | error e => simp [Except.map]
  | ok d => simp [Except.map]

end Environment

end TestScaffold
