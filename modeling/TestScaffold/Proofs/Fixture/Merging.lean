/-
  TestScaffold/Proofs/Fixture/Merging.lean
  ========================================
  **Merging directives is a union in which the first of each name stays.**

  A set of directives that is filled in order holds the first of each name, in the
  order in which they came (`UsingSet.directives_addAll`).  So merging is one
  operation on lists: what every generated file imports goes in front, and of all
  directives that are then listed the first of each name is kept.

  The laws of merging are laws of that operation.  What it has kept already it
  keeps again, in front of anything (`keepFirst_keepFirst_append`) and behind the
  same imports (`keepFirst_append_keepFirst`); so a merged list can be merged once
  more, or stand for the list it was made of.
-/
import Mathlib.Data.List.Induction
import TestScaffold.Proofs.Fixture.Directives

namespace TestScaffold

open Source (Using)

/-! ### The first of each name -/

namespace Source.Using

/-- The directives of a list without those whose name occurred earlier. -/
def keepFirst (ds : List Using) : List Using := ds.eraseDupsBy fun d e => decide (d.name = e.name)

/-- The directives of a list whose names do not occur in another one. -/
def besides (front ds : List Using) : List Using := ds.filter fun d => ∀ e ∈ front, e.name ≠ d.name

variable {ds es front : List Using} {d : Using}

theorem mem_besides_iff : d ∈ besides front ds ↔ d ∈ ds ∧ ∀ e ∈ front, e.name ≠ d.name := by
  simp [besides]

theorem besides_eq_self (h : ∀ d ∈ ds, ∀ e ∈ front, e.name ≠ d.name) : besides front ds = ds :=
  List.filter_eq_self.mpr fun d hd => decide_eq_true (h d hd)

theorem besides_eq_nil (h : ∀ d ∈ ds, ∃ e ∈ front, e.name = d.name) : besides front ds = [] := by
  apply List.filter_eq_nil_iff.mpr
  intro d hd hfree
  obtain ⟨e, he, hname⟩ := h d hd
  exact of_decide_eq_true hfree e he hname

theorem besides_append (front ds es : List Using) :
    besides front (ds ++ es) = besides front ds ++ besides front es :=
  List.filter_append ..

theorem keepFirst_cons (d : Using) (ds : List Using) :
    keepFirst (d :: ds) = d :: keepFirst (besides [d] ds) := by
  have hfilter : ds.filter (fun e => decide (e.name = d.name) = false) = besides [d] ds := by
    apply List.filter_congr
    intro e _
    simp [eq_comm]
  rw [keepFirst, List.eraseDupsBy_cons, hfilter, keepFirst]

/-- Of two lists one behind the other, the names of the first are dropped from the second. -/
theorem keepFirst_append (ds es : List Using) :
    keepFirst (ds ++ es) = keepFirst ds ++ keepFirst (besides ds es) := by
  -- the induction is on the length, since the rest of the list is filtered
  induction hn : ds.length using Nat.strongRecOn generalizing ds es with
  | ind n ih =>
    rcases ds with _ | ⟨d, ds⟩
    · rw [besides_eq_self fun d _ e he => absurd he List.not_mem_nil]
      rfl
    · have hshort : (besides [d] ds).length < n := by
        have hle : (besides [d] ds).length ≤ ds.length := List.length_filter_le _ _
        simp only [List.length_cons] at hn
        omega
      have hrest : besides (besides [d] ds) (besides [d] es) = besides (d :: ds) es := by
        unfold besides
        rw [List.filter_filter]
        apply List.filter_congr
        intro e _
        rw [← Bool.decide_and, decide_eq_decide]
        grind
      rw [List.cons_append, keepFirst_cons, keepFirst_cons, besides_append,
        ih _ hshort (besides [d] ds) (besides [d] es) rfl, hrest, List.cons_append]

/-- A directive behind a list is dropped if its name occurred there. -/
theorem keepFirst_concat (ds : List Using) (d : Using) : keepFirst (ds ++ [d]) =
    if ∃ e ∈ ds, e.name = d.name then keepFirst ds else keepFirst ds ++ [d] := by
  rw [keepFirst_append]
  split
  · rename_i htaken
    rw [besides_eq_nil (by simpa using htaken)]
    exact List.append_nil _
  · rename_i hfree
    rw [besides_eq_self (by simpa using hfree), keepFirst_cons]
    rfl

theorem keepFirst_sublist (ds : List Using) : (keepFirst ds).Sublist ds := by
  induction ds using List.reverseRecOn with
  | nil => exact List.Sublist.slnil
  | append_singleton ds d ih =>
    rw [keepFirst_concat]
    split
    · exact ih.trans (List.sublist_append_left ds [d])
    · exact ih.append (List.Sublist.refl [d])

/-- No name gets lost. -/
theorem exists_mem_keepFirst (ds : List Using) :
    ∀ d ∈ ds, ∃ e ∈ keepFirst ds, e.name = d.name := by
  induction ds using List.reverseRecOn with
  | nil => exact fun d hd => absurd hd List.not_mem_nil
  | append_singleton ds last ih =>
    intro d hd
    rw [keepFirst_concat]
    rcases List.mem_append.mp hd with hd | hd
    · obtain ⟨e, he, hname⟩ := ih d hd
      refine ⟨e, ?_, hname⟩
      split
      · exact he
      · exact List.mem_append_left [last] he
    · rw [List.mem_singleton.mp hd]
      split
      · -- the name has occurred, so that the list before has kept a directive of it
        rename_i htaken
        obtain ⟨d', hd', hname'⟩ := htaken
        obtain ⟨e, he, hname⟩ := ih d' hd'
        exact ⟨e, he, hname.trans hname'⟩
      · exact ⟨last, List.mem_append_right _ List.mem_cons_self, rfl⟩

/-- No name is kept twice. -/
theorem nodup_names_keepFirst (ds : List Using) : ((keepFirst ds).map (·.name)).Nodup := by
  induction ds using List.reverseRecOn with
  | nil => exact List.nodup_nil
  | append_singleton ds d ih =>
    rw [keepFirst_concat]
    split
    · exact ih
    · rename_i hfree
      rw [List.map_append, List.nodup_append]
      refine ⟨ih, List.nodup_singleton _, ?_⟩
      intro n hn n' hn' hsame
      obtain ⟨e, he, rfl⟩ := List.mem_map.mp hn
      apply hfree
      exact ⟨e, (keepFirst_sublist ds).subset he, hsame.trans (List.mem_singleton.mp hn')⟩

/-- A list without repeated names is kept as it is. -/
theorem keepFirst_of_nodup (h : (ds.map (·.name)).Nodup) : keepFirst ds = ds := by
  induction ds using List.reverseRecOn with
  | nil => rfl
  | append_singleton ds d ih =>
    rw [List.map_append, List.nodup_append] at h
    obtain ⟨hrest, _, hdisjoint⟩ := h
    have hfree : ¬ ∃ e ∈ ds, e.name = d.name := by
      rintro ⟨e, he, hname⟩
      exact hdisjoint _ (List.mem_map_of_mem he) _ (List.mem_singleton.mpr rfl) hname
    rw [keepFirst_concat, if_neg hfree, ih hrest]

theorem keepFirst_keepFirst (ds : List Using) : keepFirst (keepFirst ds) = keepFirst ds :=
  keepFirst_of_nodup (nodup_names_keepFirst ds)

/-- The names of a list are those of what is kept of it. -/
theorem besides_keepFirst (ds es : List Using) : besides (keepFirst ds) es = besides ds es := by
  apply List.filter_congr
  intro d _
  rw [decide_eq_decide]
  constructor
  · intro hfree e he hname
    obtain ⟨e', he', hname'⟩ := exists_mem_keepFirst ds e he
    exact hfree e' he' (hname'.trans hname)
  · intro hfree e he
    exact hfree e ((keepFirst_sublist ds).subset he)

/-- In front of anything, a list may be replaced by what is kept of it. -/
theorem keepFirst_keepFirst_append (ds es : List Using) :
    keepFirst (keepFirst ds ++ es) = keepFirst (ds ++ es) := by
  rw [keepFirst_append, keepFirst_append, keepFirst_keepFirst, besides_keepFirst]

/-- What was kept behind some directives is kept behind the same ones again. -/
theorem keepFirst_append_keepFirst (front ds : List Using) :
    keepFirst (front ++ keepFirst (front ++ ds)) = keepFirst (front ++ ds) := by
  have hfront : besides front (keepFirst front) = [] := by
    apply besides_eq_nil
    intro d hd
    exact ⟨d, (keepFirst_sublist front).subset hd, rfl⟩
  have hrest : besides front (keepFirst (besides front ds)) = keepFirst (besides front ds) := by
    apply besides_eq_self
    intro d hd
    exact (mem_besides_iff.mp ((keepFirst_sublist _).subset hd)).2
  calc keepFirst (front ++ keepFirst (front ++ ds))
      = keepFirst front ++ keepFirst (besides front (keepFirst (front ++ ds))) :=
        keepFirst_append ..
    _ = keepFirst front ++ keepFirst (keepFirst (besides front ds)) := by
        rw [keepFirst_append front ds, besides_append, hfront, hrest, List.nil_append]
    _ = keepFirst (front ++ ds) := by
        rw [keepFirst_keepFirst, ← keepFirst_append]

end Source.Using

/-! ### Merging -/

/-- **A set that is filled in order holds the first directive of each name.** -/
theorem UsingSet.directives_addAll (ds : List Using) :
    ((UsingSet.mk []).addAll ds).directives = Using.keepFirst ds := by
  induction ds using List.reverseRecOn with
  | nil => rfl
  | append_singleton ds d ih =>
    have hlast : (UsingSet.mk []).addAll (ds ++ [d]) = (((UsingSet.mk []).addAll ds).add d).1 :=
      List.foldl_concat ..
    rw [hlast, Using.keepFirst_concat]
    split
    · rename_i htaken
      obtain ⟨d', hd', hname'⟩ := htaken
      obtain ⟨e, he, hname⟩ := Using.exists_mem_keepFirst ds d' hd'
      rw [add_of_mem ⟨e, ih ▸ he, hname.trans hname'⟩, ih]
    · rename_i hfree
      rw [add_of_notMem, ih]
      intro e he hname
      rw [ih] at he
      exact hfree ⟨e, (Using.keepFirst_sublist ds).subset he, hname⟩

/-- What every generated file imports: the namespace under test, if there is one, and the
defaults. -/
theorem map_text_importedFirst (inNamespace? : Option String) :
    (importedFirst inNamespace?).map Name.text = (inNamespace?.filter (· ≠ "")).toList ++
      ["System", "System.Collections", "System.Collections.Generic", "Xunit", "Moq"] := by
  rcases inNamespace? with _ | ns
  · rfl
  · by_cases hns : ns = ""
    · simp [importedFirst, Name.ofString?, hns, defaultUsings]
    · have hkept : (some ns).filter (· ≠ "") = some ns := Option.filter_some_pos (decide_eq_true hns)
      rw [hkept]
      simp [importedFirst, Name.ofString?, hns, defaultUsings]

/-- **Merging is a union in which the first of each name stays.** Listed are plain imports of the
namespace under test, if it has a name, and of the defaults, then the directives of the source
file; every directive whose name occurred earlier is dropped. So no name is left twice and none
gets lost; merging a merged list again changes nothing, and a merged list may stand for the one it
was made of. -/
theorem mergeUsings_union (inNamespace? : Option String) :
    ∃ front : List Using,
      front.map (·.name.text) = (inNamespace?.filter (· ≠ "")).toList ++
        ["System", "System.Collections", "System.Collections.Generic", "Xunit", "Moq"] ∧
      (∀ d ∈ front, d.alias? = none ∧ d.isStatic = false ∧ d.isGlobal = false) ∧
      ∀ fromSource : List Using,
        mergeUsings inNamespace? fromSource = Using.keepFirst (front ++ fromSource) ∧
        ((mergeUsings inNamespace? fromSource).map (·.name)).Nodup ∧
        (∀ d ∈ fromSource, ∃ kept ∈ mergeUsings inNamespace? fromSource, kept.name = d.name) ∧
        mergeUsings inNamespace? (mergeUsings inNamespace? fromSource) =
          mergeUsings inNamespace? fromSource ∧
        ∀ more : List Using, mergeUsings inNamespace? (fromSource ++ more) =
          mergeUsings inNamespace? (mergeUsings inNamespace? fromSource ++ more) := by
  have hmerge : ∀ fromSource, mergeUsings inNamespace? fromSource =
      Using.keepFirst ((importedFirst inNamespace?).map Using.plain ++ fromSource) := by
    intro fromSource
    rw [mergeUsings_eq, UsingSet.directives_addAll]
  refine ⟨(importedFirst inNamespace?).map Using.plain, ?_, ?_, ?_⟩
  · rw [List.map_map, ← map_text_importedFirst]
    rfl
  · intro d hd
    obtain ⟨n, _, rfl⟩ := List.mem_map.mp hd
    exact ⟨rfl, rfl, rfl⟩
  · intro fromSource
    refine ⟨hmerge fromSource, ?_, ?_, ?_, ?_⟩
    · rw [hmerge]
      exact Using.nodup_names_keepFirst _
    · intro d hd
      rw [hmerge]
      exact Using.exists_mem_keepFirst _ d (List.mem_append_right _ hd)
    · rw [hmerge, hmerge, Using.keepFirst_append_keepFirst]
    · intro more
      rw [hmerge, hmerge, hmerge, ← List.append_assoc, ← List.append_assoc,
        ← Using.keepFirst_keepFirst_append (_ ++ Using.keepFirst _),
        Using.keepFirst_append_keepFirst, Using.keepFirst_keepFirst_append]

-- the namespace may be listed in the file as well, a default may come back as an alias, and one
-- name with different forms
example : (mergeUsings (some "Shop") [⟨⟨"Shop", by decide⟩, none, false, true⟩,
    ⟨⟨"System", by decide⟩, some "Sys", false, false⟩,
    ⟨⟨"System.Math", by decide⟩, none, true, false⟩,
    ⟨⟨"System.Math", by decide⟩, some "M", false, false⟩]).map (·.name.text) =
      ["Shop", "System", "System.Collections", "System.Collections.Generic", "Xunit", "Moq",
        "System.Math"] := by
  decide +kernel

end TestScaffold
