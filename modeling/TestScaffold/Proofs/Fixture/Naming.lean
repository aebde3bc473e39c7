/-
  TestScaffold/Proofs/Fixture/Naming.lean
  =======================================
  **The names of tests are new, and the smallest that are.**

  A candidate tells the method and the number it was made of.  Of one more
  candidate than there are names in use, at least one is free; the search stops at
  the first of these.  So the tests for the methods of one name are numbered from
  zero on, whatever other methods there are (`numbered_resolveAll`).
-/
import Mathlib.Data.List.Nodup
import Mathlib.Data.List.Perm.Subperm
import TestScaffold.Fixture.Naming

namespace TestScaffold.Naming

/-! ### Candidates -/

theorem toList_candidate (base : String) (n : Nat) :
    (candidate base n).text.toList = base.toList ++ "Test".toList ++ Nat.toDigits 10 n := by
  simp only [candidate, String.toList_append]
  exact congrArg _ Nat.toList_repr

/-- Base and number of a candidate can be read from its name: the number is made of the digits at
    its end, and the base ends where `Test` begins. -/
theorem candidate_eq_iff {base base' : String} {m n : Nat} :
    candidate base m = candidate base' n ↔ base = base' ∧ m = n := by
  constructor
  · intro h
    have htexts : (candidate base m).text.toList = (candidate base' n).text.toList := by rw [h]
    rw [toList_candidate, toList_candidate] at htexts
    have hdigits : ∀ (b : String) (k : Nat),
        ((b.toList ++ "Test".toList ++ Nat.toDigits 10 k).reverse.takeWhile Char.isDigit) =
          (Nat.toDigits 10 k).reverse := by
      intro b k
      have hall : ∀ c ∈ (Nat.toDigits 10 k).reverse, c.isDigit = true := by
        intro c hc
        rw [List.mem_reverse] at hc
        exact Nat.isDigit_of_mem_toDigits (by decide) (by decide) hc
      rw [List.reverse_append, List.takeWhile_append_of_pos hall, List.reverse_append]
      simp [show "Test".toList = ['T', 'e', 's', 't'] by decide]
    have hsame : (Nat.toDigits 10 m).reverse = (Nat.toDigits 10 n).reverse := by
      rw [← hdigits base m, htexts, hdigits]
    have hmn : m = n := by
      rw [← Nat.ofDigitChars_ten_toDigits (n := m), List.reverse_injective hsame,
        Nat.ofDigitChars_ten_toDigits]
    subst hmn
    rw [List.append_left_inj, List.append_left_inj, String.toList_inj] at htexts
    exact ⟨htexts, rfl⟩
  · rintro ⟨rfl, rfl⟩
    rfl

theorem candidate_injective (base : String) : Function.Injective (candidate base) :=
  fun _ _ h => (candidate_eq_iff.mp h).2

/-! ### The search -/

/-- The search stops at a free candidate or after the last try; those before are in use. -/
theorem firstFree_spec (used : List Name) (base : String) (tries start : Nat) :
    ∃ k, firstFree used base tries start = candidate base k ∧ start ≤ k ∧
      (∀ j, start ≤ j → j < k → candidate base j ∈ used) ∧
      (candidate base k ∈ used → k = start + tries) := by
  induction tries generalizing start with
  | zero => exact ⟨start, rfl, Nat.le_refl start, fun j hj hlt => by omega, fun _ => rfl⟩
  | succ tries ih =>
    rw [firstFree]
    split
    · rename_i hused
      obtain ⟨k, hk, hle, hall, hlast⟩ := ih (start + 1)
      refine ⟨k, hk, by omega, fun j hj hlt => ?_, fun hk => ?_⟩
      · by_cases hstart : j = start
        · exact hstart ▸ hused
        · exact hall j (by omega) hlt
      · have := hlast hk
        omega
    · rename_i hfree
      exact ⟨start, rfl, Nat.le_refl start, fun j hj hlt => by omega, fun hused => absurd hused hfree⟩

/-- Some of the candidates that are tried is free. -/
theorem exists_free (used : List Name) (base : String) :
    ∃ k, k < used.length + 1 ∧ candidate base k ∉ used := by
  by_contra hnone
  have hall : ∀ k, k < used.length + 1 → candidate base k ∈ used := by
    intro k hk
    by_contra hfree
    exact hnone ⟨k, hk, hfree⟩
  have hnodup : ((List.range (used.length + 1)).map (candidate base)).Nodup :=
    List.Nodup.map (candidate_injective base) List.nodup_range
  have hsubset : (List.range (used.length + 1)).map (candidate base) ⊆ used := by
    intro name hname
    obtain ⟨k, hk, rfl⟩ := List.mem_map.mp hname
    exact hall k (List.mem_range.mp hk)
  have hlength := (hnodup.subperm hsubset).length_le
  rw [List.length_map, List.length_range] at hlength
  omega

/-- **The resolved name is the first candidate that is not in use.** -/
theorem resolve_spec (used : List Name) (base : String) :
    ∃ k, resolve used base = candidate base k ∧ resolve used base ∉ used ∧
      ∀ j, j < k → candidate base j ∈ used := by
  obtain ⟨k, hk, _, hall, hlast⟩ := firstFree_spec used base (used.length + 1) 0
  refine ⟨k, hk, fun hused => ?_, fun j hj => hall j (Nat.zero_le j) hj⟩
  obtain ⟨free, hfree, hnew⟩ := exists_free used base
  rw [resolve, hk] at hused
  have hlate := hlast hused
  exact hnew (hall free (Nat.zero_le free) (by omega))

/-! ### All names -/

theorem length_resolveAll (used : List Name) (bases : List String) :
    (resolveAll used bases).length = bases.length := by
  induction bases generalizing used with
  | nil => rfl
  | cons base rest ih => simp [resolveAll, ih]

/-- Each name is a candidate for its method. -/
theorem resolveAll_candidates (used : List Name) (bases : List String) :
    List.Forall₂ (fun base name => ∃ k, name = candidate base k) bases (resolveAll used bases) := by
  induction bases generalizing used with
  | nil => exact .nil
  | cons base rest ih =>
    obtain ⟨k, hk, _, _⟩ := resolve_spec used base
    exact .cons ⟨k, hk⟩ (ih _)

/-- **No name is given twice**, and none that is in use. -/
theorem nodup_resolveAll (used : List Name) (bases : List String) :
    (resolveAll used bases).Nodup ∧ ∀ name ∈ resolveAll used bases, name ∉ used := by
  induction bases generalizing used with
  | nil => exact ⟨List.nodup_nil, fun _ h => absurd h List.not_mem_nil⟩
  | cons base rest ih =>
    obtain ⟨hnodup, hnew⟩ := ih (used ++ [resolve used base])
    obtain ⟨_, _, hfree, _⟩ := resolve_spec used base
    refine ⟨List.nodup_cons.mpr ⟨fun hmem => ?_, hnodup⟩, ?_⟩
    · exact hnew _ hmem (List.mem_append_right _ List.mem_cons_self)
    · intro name hname
      rcases List.mem_cons.mp hname with rfl | hname
      · exact hfree
      · exact fun hused => hnew name hname (List.mem_append_left _ hused)

/-! ### Numbers -/

/-- The names in use are those of tests for some methods that are numbered from zero on: of the
    candidates for a method, as many first ones as there are methods of that name. -/
def Numbered (used : List Name) (bases : List String) : Prop :=
  ∀ base k, candidate base k ∈ used ↔ k < bases.count base

theorem numbered_nil : Numbered [] [] := by
  intro base k
  simp

/-- The next number is the count of the methods of that name so far. -/
theorem Numbered.resolve_eq {used : List Name} {bases : List String} (h : Numbered used bases)
    (base : String) : resolve used base = candidate base (bases.count base) := by
  obtain ⟨k, hk, hfree, hbelow⟩ := resolve_spec used base
  have hle : bases.count base ≤ k := by
    rw [hk, h base k] at hfree
    exact Nat.not_lt.mp hfree
  have hge : k ≤ bases.count base := by
    by_contra hlt
    have hused := hbelow _ (Nat.not_le.mp hlt)
    rw [h base _] at hused
    exact absurd hused (Nat.lt_irrefl _)
  rw [hk, Nat.le_antisymm hge hle]

theorem Numbered.concat {used : List Name} {bases : List String} (h : Numbered used bases)
    (base : String) : Numbered (used ++ [resolve used base]) (bases ++ [base]) := by
  intro base' k
  rw [List.mem_append, List.mem_singleton, h base' k, h.resolve_eq, candidate_eq_iff,
    List.count_append, List.count_singleton]
  by_cases hbase : base' = base
  · subst hbase
    simp
    omega
  · have hne : (base == base') = false := beq_eq_false_iff_ne.mpr (Ne.symm hbase)
    simp [hbase, hne]

/-- **The tests for methods are numbered from zero on**, those of each name by themselves. -/
theorem numbered_resolveAll {used : List Name} {before : List String} (h : Numbered used before)
    (bases : List String) : Numbered (used ++ resolveAll used bases) (before ++ bases) := by
  induction bases generalizing used before with
  | nil => simpa [resolveAll] using h
  | cons base rest ih =>
    have hrest := ih (h.concat base)
    simpa [resolveAll] using hrest

end TestScaffold.Naming
