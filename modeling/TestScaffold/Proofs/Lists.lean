/-
  TestScaffold/Proofs/Lists.lean
  ==============================
  **Lists item by item.**

  What is said here is about no program: lists of which the items are related in
  pairs, items that are computed one after the other and may fail, items that are
  listed once, and a list with one more item at its end.
-/
import Mathlib.Data.List.Forall2

namespace TestScaffold

section Related

variable {α β γ : Type}

/-! ### Related items -/

/-- A choice can be made for all items if it can be made for each. -/
theorem exists_forall₂_iff {R : α → β → Prop} {as : List α} :
    (∃ bs, List.Forall₂ R as bs) ↔ ∀ a ∈ as, ∃ b, R a b := by
  induction as with
  | nil => simp
  | cons a rest ih =>
    rw [List.forall_mem_cons, ← ih]
    constructor
    · rintro ⟨_, hbs⟩
      cases hbs with
      | cons hb hrest => exact ⟨⟨_, hb⟩, _, hrest⟩
    · rintro ⟨⟨b, hb⟩, bs, hbs⟩
      exact ⟨b :: bs, .cons hb hbs⟩

/-- What holds of each item that some item is related to. -/
theorem forall_of_forall₂ {R : α → β → Prop} {P : β → Prop} {as : List α} {bs : List β}
    (h : List.Forall₂ R as bs) (hP : ∀ a b, R a b → P b) : ∀ b ∈ bs, P b := by
  induction h with
  | nil => exact fun b hb => absurd hb List.not_mem_nil
  | cons hab _ ih =>
    intro b hb
    rcases List.mem_cons.mp hb with rfl | hb
    · exact hP _ _ hab
    · exact ih b hb

/-- An element of the second of two related lists has its element in the first. -/
theorem exists_left_of_forall₂ {R : α → β → Prop} {as : List α} {bs : List β}
    (h : List.Forall₂ R as bs) {b : β} (hb : b ∈ bs) : ∃ a ∈ as, R a b := by
  induction h with
  | nil => cases hb
  | @cons a _ _ _ hab _ ih =>
    rcases List.mem_cons.mp hb with rfl | hb
    · exact ⟨a, List.mem_cons_self, hab⟩
    · obtain ⟨a', ha', hab'⟩ := ih hb
      exact ⟨a', List.mem_cons_of_mem _ ha', hab'⟩

/-- Related lists have related elements at each place. -/
theorem exists_getElem?_of_forall₂ {R : α → β → Prop} {as : List α} {bs : List β}
    (h : List.Forall₂ R as bs) {i : Nat} {a : α} (ha : as[i]? = some a) :
    ∃ b, bs[i]? = some b ∧ R a b := by
  induction h generalizing i with
  | nil => cases ha
  | cons hab _ ih =>
    cases i with
    | zero =>
      cases ha
      exact ⟨_, rfl, hab⟩
    | succ i => exact ih ha

theorem isEmpty_of_forall₂ {R : α → β → Prop} {as : List α} {bs : List β}
    (h : List.Forall₂ R as bs) : as.isEmpty = bs.isEmpty := by
  cases h <;> rfl

/-- What two lists of related elements agree on. -/
theorem map_eq_of_forall₂ {f : α → γ} {g : β → γ} {R : α → β → Prop} {as : List α}
    {bs : List β} (h : List.Forall₂ R as bs) (hR : ∀ a b, R a b → f a = g b) :
    as.map f = bs.map g := by
  induction h with
  | nil => rfl
  | cons hab _ ih => rw [List.map_cons, List.map_cons, hR _ _ hab, ih]

/-- Relations along two lists, one after the other. -/
theorem forall₂_trans {R : α → β → Prop} {S : β → γ → Prop} {T : α → γ → Prop}
    {as : List α} {bs : List β} {cs : List γ} (h : List.Forall₂ R as bs) (h' : List.Forall₂ S bs cs)
    (hT : ∀ a b c, R a b → S b c → T a c) : List.Forall₂ T as cs := by
  induction h generalizing cs with
  | nil =>
    cases h'
    exact .nil
  | cons hab _ ih =>
    cases h' with
    | cons hbc hrest => exact .cons (hT _ _ _ hab hbc) (ih hrest)

end Related

/-! ### Items that are computed -/

section Computed

variable {α β γ ε : Type}

theorem map_eq_ok_iff {f : α → β} {x : Except ε α} {b : β} :
    x.map f = .ok b ↔ ∃ a, x = .ok a ∧ f a = b := by
  cases x <;> simp [Except.map]

theorem exists_of_bind_eq_ok {x : Except ε α} {f : α → Except ε β} {b : β}
    (h : x >>= f = .ok b) : ∃ a, x = .ok a ∧ f a = .ok b := by
  cases x with
  | error e => cases h
  | ok a => exact ⟨a, rfl, h⟩

/-- What is computed for all elements is computed for each. -/
theorem forall₂_of_mapM_eq_ok {f : α → Except ε β} {as : List α} {bs : List β}
    (h : as.mapM f = .ok bs) : List.Forall₂ (fun a b => f a = .ok b) as bs := by
  induction as generalizing bs with
  | nil =>
    cases h
    exact .nil
  | cons a as ih =>
    rw [List.mapM_cons] at h
    obtain ⟨b, hb, h⟩ := exists_of_bind_eq_ok h
    obtain ⟨rest, hrest, h⟩ := exists_of_bind_eq_ok h
    cases h
    exact .cons hb (ih hrest)

/-- What each of some elements gives is what all of them give. -/
theorem mapM_eq_of_forall₂ {f : α → Except ε β} {as : List α} {bs : List β}
    (h : List.Forall₂ (fun a b => f a = .ok b) as bs) : as.mapM f = .ok bs := by
  induction h with
  | nil => rfl
  | cons hab _ ih =>
    rw [List.mapM_cons, hab, ih]
    rfl

/-- What is computed for each element is computed for all. -/
theorem exists_mapM_eq_ok {f : α → Except ε β} {as : List α}
    (h : ∀ a ∈ as, ∃ b, f a = .ok b) : ∃ bs, as.mapM f = .ok bs := by
  obtain ⟨bs, hbs⟩ := exists_forall₂_iff.mpr h
  exact ⟨bs, mapM_eq_of_forall₂ hbs⟩

/-- What is computed for each of some elements, in relation to others, is computed for all. -/
theorem mapM_of_forall₂ {f : α → Except ε β} {R : β → γ → Prop} {as : List α}
    {cs : List γ} (h : List.Forall₂ (fun a c => ∃ b, f a = .ok b ∧ R b c) as cs) :
    ∃ bs, as.mapM f = .ok bs ∧ List.Forall₂ R bs cs := by
  induction h with
  | nil => exact ⟨[], rfl, .nil⟩
  | @cons a c as cs hac _ ih =>
    obtain ⟨b, hb, hR⟩ := hac
    obtain ⟨bs, hbs, hRs⟩ := ih
    refine ⟨b :: bs, ?_, .cons hR hRs⟩
    rw [List.mapM_cons, hb, hbs]
    rfl

/-- What is computed for each of some elements, with a property, is computed for all. -/
theorem mapM_of_forall {f : α → Except ε β} {P : β → Prop} {as : List α}
    (h : ∀ a ∈ as, ∃ b, f a = .ok b ∧ P b) : ∃ bs, as.mapM f = .ok bs ∧ ∀ b ∈ bs, P b := by
  obtain ⟨bs, hbs⟩ := exists_forall₂_iff.mpr h
  exact ⟨bs, mapM_eq_of_forall₂ (hbs.imp fun _ _ hb => hb.1),
    forall_of_forall₂ hbs fun _ _ hb => hb.2⟩

theorem bind_ne_error {x : Except ε α} {f : α → Except ε β} {e : ε}
    (hx : x ≠ .error e) (hf : ∀ a, x = .ok a → f a ≠ .error e) : x >>= f ≠ .error e := by
  cases x with
  | error e' => exact fun h => hx (by cases h; rfl)
  | ok a => exact hf a rfl

theorem mapM_ne_error {f : α → Except ε β} {e : ε} {as : List α}
    (h : ∀ a ∈ as, f a ≠ .error e) : as.mapM f ≠ .error e := by
  induction as with
  | nil => exact fun h => by cases h
  | cons a as ih =>
    rw [List.mapM_cons]
    refine bind_ne_error (h a List.mem_cons_self) fun b _ => ?_
    refine bind_ne_error (ih fun a' ha' => h a' (List.mem_cons_of_mem _ ha')) fun bs _ => ?_
    exact fun h => by cases h

end Computed

/-! ### Items that are listed once -/

section Listed

variable {α : Type} [BEq α] [LawfulBEq α]

theorem nodup_eraseDups : ∀ xs : List α, xs.eraseDups.Nodup
  | [] => by simp
  | x :: xs => by
    rw [List.eraseDups_cons, List.nodup_cons]
    refine ⟨?_, nodup_eraseDups _⟩
    rw [List.mem_eraseDups, List.mem_filter]
    simp
termination_by xs => xs.length
decreasing_by exact Nat.lt_succ_of_le (List.length_filter_le ..)

/-- Nothing is dropped from a list in which nothing is twice. -/
theorem eraseDups_of_nodup {xs : List α} (h : xs.Nodup) :
    xs.eraseDups = xs := by
  induction xs with
  | nil => rfl
  | cons x rest ih =>
    obtain ⟨hx, hrest⟩ := List.nodup_cons.mp h
    have hkept : rest.filter (fun y => !y == x) = rest := by
      rw [List.filter_eq_self]
      intro y hy
      simpa using fun e : y = x => hx (e ▸ hy)
    rw [List.eraseDups_cons, hkept, ih hrest]

end Listed

/-! ### One more item -/

/-- A list with one more element at its end, cut before some element. -/
theorem concat_eq_append_cons {α : Type} {xs before after : List α} {a b : α}
    (h : xs ++ [a] = before ++ b :: after) :
    (after = [] ∧ xs = before ∧ a = b) ∨
      ∃ rest, after = rest ++ [a] ∧ xs = before ++ b :: rest := by
  rcases List.eq_nil_or_concat after with rfl | ⟨rest, c, rfl⟩
  · obtain ⟨hxs, hab⟩ := List.append_inj' h rfl
    exact Or.inl ⟨rfl, hxs, (List.cons.inj hab).1⟩
  · rw [List.concat_eq_append] at h ⊢
    rw [← List.cons_append, ← List.append_assoc] at h
    obtain ⟨hxs, hac⟩ := List.append_inj' h rfl
    exact Or.inr ⟨rest, by rw [(List.cons.inj hac).1], hxs⟩

end TestScaffold
