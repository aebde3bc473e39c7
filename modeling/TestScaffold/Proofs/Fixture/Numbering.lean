/-
  TestScaffold/Proofs/Fixture/Numbering.lean
  ==========================================
  **The numbers in the names of tests.**

  The name of a test is looked for candidate by candidate, and in use are all the
  names that were given before.  A method may itself be named like a test.  Still
  no candidate is one for two methods of different names, so that the search meets
  nothing but the names that were given to methods of the same name: it looks at
  one candidate for each of them, and ends at their number.
-/
import TestScaffold.Proofs.Fixture.Naming

namespace TestScaffold.Naming

variable {used : List Name} {base : String} {n tries k : Nat}

/-! ### The search without a bound -/

/-- A search that goes on for as long as the candidate is in use: from number `n` on it looks at
    `tries` candidates, and ends at number `k`. -/
inductive Search (used : List Name) (base : String) : Nat → Nat → Nat → Prop where
  | free {n : Nat} (new : candidate base n ∉ used) : Search used base n 1 n
  | taken {n tries k : Nat} (taken : candidate base n ∈ used)
      (rest : Search used base (n + 1) tries k) : Search used base n (tries + 1) k

/-- Bounds that leave room for the search do not matter. -/
theorem Search.firstFree_eq (h : Search used base n tries k) :
    ∀ {bound : Nat}, tries ≤ bound → firstFree used base bound n = candidate base k := by
  induction h with
  | free new =>
    intro bound hbound
    obtain ⟨bound, rfl⟩ := Nat.exists_eq_add_of_le' hbound
    rw [firstFree, if_neg new]
  | taken taken rest ih =>
    intro bound hbound
    obtain ⟨bound, rfl⟩ := Nat.exists_eq_add_of_le' (Nat.le_trans (Nat.le_add_left 1 _) hbound)
    rw [firstFree, if_pos taken]
    exact ih (by omega)

/-- A search passes candidates by that are in use, and ends at the first that is free. -/
theorem Search.of_candidates {passed : Nat}
    (htaken : ∀ j, n ≤ j → j < n + passed → candidate base j ∈ used)
    (hfree : candidate base (n + passed) ∉ used) :
    Search used base n (passed + 1) (n + passed) := by
  induction passed generalizing n with
  | zero => exact .free hfree
  | succ passed ih =>
    have hsum : n + 1 + passed = n + (passed + 1) := by omega
    refine .taken (htaken n (Nat.le_refl n) (by omega)) ?_
    rw [← hsum]
    apply ih
    · intro j hle hlt
      exact htaken j (by omega) (by omega)
    · rwa [hsum]

/-- Where names are numbered from zero on, a search looks at one candidate more than there are
    names for methods of that name. -/
theorem Numbered.search {bases : List String} (h : Numbered used bases) (base : String) :
    Search used base 0 (bases.count base + 1) (bases.count base) := by
  have hsearch : Search used base 0 (bases.count base + 1) (0 + bases.count base) := by
    apply Search.of_candidates
    · intro j _ hlt
      rw [h base j]
      omega
    · rw [h base]
      omega
  rwa [Nat.zero_add] at hsearch

/-! ### All names -/

/-- A test has the number of methods of its name before it. -/
theorem getElem?_resolveAll {bases : List String} : ∀ {used : List Name} {before : List String},
    Numbered used before → ∀ i, (resolveAll used bases)[i]? =
      bases[i]?.map fun base => candidate base ((before ++ bases.take i).count base) := by
  induction bases with
  | nil => exact fun _ i => rfl
  | cons base rest ih =>
    intro used before h i
    cases i with
    -- the number of a name is the count so far, and `before` says what was counted
    | zero => simp [resolveAll, h.resolve_eq]
    | succ i =>
      have hrest := ih (h.concat base) i
      simpa [resolveAll] using hrest

/-- The names that were given so far are those for the methods so far. -/
theorem take_resolveAll (used : List Name) (bases : List String) (i : Nat) :
    (resolveAll used bases).take i = resolveAll used (bases.take i) := by
  induction bases generalizing used i with
  | nil => simp [resolveAll]
  | cons base rest ih =>
    cases i with
    | zero => rfl
    | succ i => simp [resolveAll, ih]

/-- **Names are numbered by the methods of their own name.** As many names are given as there are
methods, all different. The one for the method at place `i` has the number of methods of that name
before it, and it is no candidate for a method of another name. The search for it among the names
given so far looks at no more than `i + 1` candidates, so no bound that admits these matters. -/
theorem resolveAll_numbers (bases : List String) :
    (resolveAll [] bases).length = bases.length ∧ (resolveAll [] bases).Nodup ∧
      ∀ i base, bases[i]? = some base → ∃ name, (resolveAll [] bases)[i]? = some name ∧
        name.text = base ++ "Test" ++ toString ((bases.take i).count base) ∧
        (∀ (base' : String) (k : Nat), base' ≠ base →
          name.text ≠ base' ++ "Test" ++ toString k) ∧
        ∃ tries, tries ≤ i + 1 ∧
          Search ((resolveAll [] bases).take i) base 0 tries ((bases.take i).count base) ∧
          ∀ bound, tries ≤ bound →
            firstFree ((resolveAll [] bases).take i) base bound 0 = name := by
  refine ⟨length_resolveAll [] bases, (nodup_resolveAll [] bases).1, ?_⟩
  intro i base hbase
  have hname : (resolveAll [] bases)[i]? = some (candidate base ((bases.take i).count base)) := by
    rw [getElem?_resolveAll numbered_nil, hbase]
    rfl
  have hsearch : Search ((resolveAll [] bases).take i) base 0 ((bases.take i).count base + 1)
      ((bases.take i).count base) := by
    rw [take_resolveAll]
    exact (numbered_resolveAll numbered_nil (bases.take i)).search base
  refine ⟨_, hname, rfl, ?_, _, ?_, hsearch, fun bound hbound => hsearch.firstFree_eq hbound⟩
  · intro base' k hne htext
    have hsame : candidate base ((bases.take i).count base) = candidate base' k := by
      rw [candidate, candidate, Name.mk.injEq]
      exact htext
    exact hne (candidate_eq_iff.mp hsame).1.symm
  · have hcount : (bases.take i).count base ≤ i :=
      Nat.le_trans List.count_le_length (List.length_take_le i bases)
    omega

/-- A method that is named like a test for another one takes no number from it. -/
theorem resolveAll_numbers_overloads :
    (resolveAll [] ["Get", "GetTest1", "Get", "Get"]).map Name.text =
        ["GetTest0", "GetTest1Test0", "GetTest1", "GetTest2"] ∧
      ∃ name, (resolveAll [] ["Get", "GetTest1", "Get", "Get"])[2]? = some name ∧
        name.text = "GetTest1" ∧ ∃ tries, tries ≤ 3 ∧
          Search ((resolveAll [] ["Get", "GetTest1", "Get", "Get"]).take 2) "Get" 0 tries 1 := by
  obtain ⟨name, hname, htext, _, tries, htries, hsearch, _⟩ :=
    (resolveAll_numbers ["Get", "GetTest1", "Get", "Get"]).2.2 2 "Get" rfl
  exact ⟨by decide, name, hname, htext, tries, htries, hsearch⟩

end TestScaffold.Naming
