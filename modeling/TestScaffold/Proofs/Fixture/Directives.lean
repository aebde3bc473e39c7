/-
  TestScaffold/Proofs/Fixture/Directives.lean
  ===========================================
  **Which directives of a source file the generated file keeps.**

  A set of directives is asked for one by its name, and answers as the list of all
  that was ever added would: with the first of that name (`UsingSet.find?_addAll`).
  A name therefore never gets lost, but its alias or its static form does where a
  directive of another form came before it: the import of the namespace under
  test, a default, or an earlier directive of the file.
-/
import Mathlib.Data.List.Nodup
import TestScaffold.Fixture.Usings

namespace TestScaffold

open Source (Using)

/-! ### Sets of directives -/

namespace UsingSet

variable {s : UsingSet} {d : Using} {ds : List Using}

theorem contains_eq_true_iff {name : String} :
    s.contains name = true ↔ ∃ e ∈ s.directives, e.name.text = name := by
  simp [contains]

theorem add_of_mem (h : ∃ e ∈ s.directives, e.name = d.name) : (s.add d).1 = s := by
  obtain ⟨e, he, hname⟩ := h
  have htaken : s.contains d.name.text = true :=
    contains_eq_true_iff.mpr ⟨e, he, congrArg Name.text hname⟩
  rw [add, if_pos htaken]

theorem add_of_notMem (h : ∀ e ∈ s.directives, e.name ≠ d.name) :
    (s.add d).1 = ⟨s.directives ++ [d]⟩ := by
  have hfree : ¬ s.contains d.name.text = true := by
    intro htaken
    obtain ⟨e, he, htext⟩ := contains_eq_true_iff.mp htaken
    apply h e he
    cases hname : e.name
    cases hname' : d.name
    simp_all
  rw [add, if_neg hfree]

/-- Adding a directive answers a look-up as listing it last does. -/
theorem find?_add (n : Name) :
    (s.add d).1.directives.find? (·.name = n) = (s.directives ++ [d]).find? (·.name = n) := by
  by_cases h : ∃ e ∈ s.directives, e.name = d.name
  · rw [add_of_mem h, List.find?_append]
    by_cases hn : d.name = n
    · -- the name is taken, so the look-up does not get as far as `d`
      obtain ⟨e, he, hname⟩ := h
      have hfound : (s.directives.find? (·.name = n)).isSome = true :=
        List.find?_isSome.mpr ⟨e, he, by simp [hname, hn]⟩
      obtain ⟨first, hfirst⟩ := Option.isSome_iff_exists.mp hfound
      simp [hfirst]
    · simp [hn]
  · rw [add_of_notMem fun e he hname => h ⟨e, he, hname⟩]

/-- **A look-up finds the first directive of its name among all that were added.** -/
theorem find?_addAll (n : Name) :
    (s.addAll ds).directives.find? (·.name = n) = (s.directives ++ ds).find? (·.name = n) := by
  induction ds generalizing s with
  | nil => rw [List.append_nil]; rfl
  | cons d ds ih =>
    change (((s.add d).1).addAll ds).directives.find? (·.name = n) = _
    rw [ih, List.find?_append, find?_add, ← List.find?_append, List.append_assoc]
    rfl

theorem nodup_names_add (h : (s.directives.map (·.name)).Nodup) :
    ((s.add d).1.directives.map (·.name)).Nodup := by
  by_cases hd : ∃ e ∈ s.directives, e.name = d.name
  · rwa [add_of_mem hd]
  · rw [add_of_notMem fun e he hname => hd ⟨e, he, hname⟩, List.map_append, List.map_singleton]
    apply h.append (List.nodup_singleton _)
    intro n hn hn'
    obtain ⟨e, he, hname⟩ := List.mem_map.mp hn
    exact hd ⟨e, he, hname.trans (List.mem_singleton.mp hn')⟩

/-- No name is listed twice. -/
theorem nodup_names_addAll (h : (s.directives.map (·.name)).Nodup) :
    ((s.addAll ds).directives.map (·.name)).Nodup := by
  induction ds generalizing s with
  | nil => exact h
  | cons d ds ih => exact ih (nodup_names_add h)

/-- Where no name is listed twice, a look-up finds a directive of that name if there is one. -/
theorem find?_eq_some_iff (h : (s.directives.map (·.name)).Nodup) {n : Name} :
    s.directives.find? (·.name = n) = some d ↔ d ∈ s.directives ∧ d.name = n := by
  constructor
  · intro hfound
    exact ⟨List.mem_of_find?_eq_some hfound, by simpa using List.find?_some hfound⟩
  · rintro ⟨hd, rfl⟩
    obtain ⟨first, hfirst⟩ := Option.isSome_iff_exists.mp
      (List.find?_isSome (p := fun e => decide (e.name = d.name)).mpr ⟨d, hd, by simp⟩)
    have hname : first.name = d.name := by simpa using List.find?_some hfirst
    rw [hfirst, List.inj_on_of_nodup_map h (List.mem_of_find?_eq_some hfirst) hd hname]

end UsingSet

/-! ### Merged directives -/

/-- Two directives that make the same thing available under the same name. -/
structure Source.Using.Agrees (d e : Using) : Prop where
  name : d.name = e.name
  alias? : d.alias? = e.alias?
  isStatic : d.isStatic = e.isStatic

theorem Source.Using.agrees_iff {d e : Using} :
    d.Agrees e ↔ d.name = e.name ∧ d.alias? = e.alias? ∧ d.isStatic = e.isStatic := by
  constructor
  · rintro ⟨hname, halias, hstatic⟩
    exact ⟨hname, halias, hstatic⟩
  · rintro ⟨hname, halias, hstatic⟩
    exact ⟨hname, halias, hstatic⟩

instance (d e : Using) : Decidable (d.Agrees e) := decidable_of_iff _ Using.agrees_iff.symm

/-- The namespaces that a generated file imports whatever its source file has. -/
def importedFirst (inNamespace? : Option String) : List Name :=
  (inNamespace?.bind Name.ofString?).toList ++ defaultUsings

theorem mergeUsings_eq (inNamespace? : Option String) (fromSource : List Using) :
    mergeUsings inNamespace? fromSource =
      ((UsingSet.mk []).addAll
        ((importedFirst inNamespace?).map Using.plain ++ fromSource)).directives := by
  simp only [mergeUsings, importedFirst, List.map_append]

/-- Among the merged directives is the first of each name of all that were offered, and no other
    one of that name. -/
theorem mem_mergeUsings_iff {inNamespace? : Option String} {fromSource : List Using} {d : Using} :
    d ∈ mergeUsings inNamespace? fromSource ↔
      ((importedFirst inNamespace?).map Using.plain ++ fromSource).find? (·.name = d.name) =
        some d := by
  generalize hoffered : (importedFirst inNamespace?).map Using.plain ++ fromSource = offered
  have hfind : ((UsingSet.mk []).addAll offered).directives.find? (·.name = d.name) =
      offered.find? (·.name = d.name) := UsingSet.find?_addAll d.name
  have hnodup : (((UsingSet.mk []).addAll offered).directives.map (·.name)).Nodup :=
    UsingSet.nodup_names_addAll List.nodup_nil
  rw [mergeUsings_eq, hoffered, ← hfind, UsingSet.find?_eq_some_iff hnodup, and_iff_left rfl]

theorem find?_plain (names : List Name) (n : Name) :
    (names.map Using.plain).find? (·.name = n) = if n ∈ names then some (.plain n) else none := by
  induction names with
  | nil => rfl
  | cons m names ih =>
    rw [List.map_cons, List.find?_cons]
    by_cases h : m = n
    · subst h
      simp [Using.plain]
    · rw [ih]
      simp [Using.plain, h, Ne.symm h]

/-- The first directive of a name that is offered: a plain import, if the generated file imports
    the name anyway, and else the first of the source file. -/
theorem find?_offered (inNamespace? : Option String) (fromSource : List Using) (n : Name) :
    ((importedFirst inNamespace?).map Using.plain ++ fromSource).find? (·.name = n) =
      if n ∈ importedFirst inNamespace? then some (.plain n)
      else fromSource.find? (·.name = n) := by
  rw [List.find?_append, find?_plain]
  split
  · rfl
  · rfl

/-- **A directive of the source file is kept in its form if and only if the first one of its name
    is of that form.** The name itself is always kept, by one directive. -/
theorem mergeUsings_keeps_iff {inNamespace? : Option String} {fromSource : List Using} {d : Using}
    (h : d ∈ fromSource) :
    (∃ kept ∈ mergeUsings inNamespace? fromSource, kept.name = d.name ∧
        ∀ other ∈ mergeUsings inNamespace? fromSource, other.name = d.name → other = kept) ∧
      ((∃ kept ∈ mergeUsings inNamespace? fromSource, kept.Agrees d) ↔
        if d.name ∈ importedFirst inNamespace? then d.alias? = none ∧ d.isStatic = false
        else ∀ first ∈ fromSource.find? (·.name = d.name), first.Agrees d) := by
  obtain ⟨kept, hkept⟩ : ∃ kept,
      ((importedFirst inNamespace?).map Using.plain ++ fromSource).find? (·.name = d.name) =
        some kept := by
    apply Option.isSome_iff_exists.mp
    exact List.find?_isSome.mpr ⟨d, List.mem_append_right _ h, by simp⟩
  have hname : kept.name = d.name := by simpa using List.find?_some hkept
  have hmem : kept ∈ mergeUsings inNamespace? fromSource := by
    rw [mem_mergeUsings_iff, hname, hkept]
  have honly : ∀ other ∈ mergeUsings inNamespace? fromSource, other.name = d.name →
      other = kept := by
    intro other hother hsame
    rw [mem_mergeUsings_iff, hsame, hkept] at hother
    exact (Option.some.inj hother).symm
  refine ⟨⟨kept, hmem, hname, honly⟩, ?_⟩
  have hagrees : (∃ other ∈ mergeUsings inNamespace? fromSource, other.Agrees d) ↔
      kept.Agrees d := by
    constructor
    · rintro ⟨other, hother, hform⟩
      rwa [← honly other hother hform.name]
    · intro hform
      exact ⟨kept, hmem, hform⟩
  rw [hagrees]
  rw [find?_offered] at hkept
  split at hkept
  · rename_i himported
    rw [if_pos himported, ← Option.some.inj hkept, Using.agrees_iff]
    constructor
    · rintro ⟨_, halias, hstatic⟩
      exact ⟨halias.symm, hstatic.symm⟩
    · rintro ⟨halias, hstatic⟩
      exact ⟨rfl, halias.symm, hstatic.symm⟩
  · rename_i himported
    rw [if_neg himported, hkept]
    simp

/-- Of a static import and an alias of one name, the first is kept and the second is lost. -/
theorem mergeUsings_keeps_firstForm :
    (∃ kept ∈ mergeUsings (some "App") [⟨⟨"System.Math", by decide⟩, none, true, false⟩,
          ⟨⟨"System.Math", by decide⟩, some "M", false, false⟩],
        kept.Agrees ⟨⟨"System.Math", by decide⟩, none, true, false⟩) ∧
      ¬ ∃ kept ∈ mergeUsings (some "App") [⟨⟨"System.Math", by decide⟩, none, true, false⟩,
          ⟨⟨"System.Math", by decide⟩, some "M", false, false⟩],
        kept.Agrees ⟨⟨"System.Math", by decide⟩, some "M", false, false⟩ := by
  constructor
  · apply (mergeUsings_keeps_iff (by decide)).2.mpr
    decide +kernel
  · intro hkept
    have hfirst := (mergeUsings_keeps_iff (by decide)).2.mp hkept
    revert hfirst
    decide +kernel

/-- An alias of a namespace that every generated file imports is lost. -/
theorem mergeUsings_loses_defaultAlias :
    ¬ ∃ kept ∈ mergeUsings none [⟨⟨"System", by decide⟩, some "Sys", false, false⟩],
        kept.Agrees ⟨⟨"System", by decide⟩, some "Sys", false, false⟩ := by
  decide +kernel

end TestScaffold
