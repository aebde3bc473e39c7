/-
  TestScaffold/Proofs/CSharp/Closing.lean
  =======================================
  **A column that has been closed is closed.**

  Closing a column looks at items until none is left to look at, but only so often
  as its fuel allows.  There are finitely many things that an item of a column can
  say, and each is added at most once beside the items predicted for a category;
  so the fuel is never used up, and everything that an item calls for has been
  looked at as well.
-/
import Mathlib.Data.List.Perm.Subperm
import TestScaffold.Proofs.CSharp.Soundness

namespace TestScaffold.CSharp

open Grammar

/-! ### What items say -/

/-- What an item says, but for its subtrees. -/
def Item.key (item : Item) : Category × List Part × Nat := (item.category, item.rest, item.origin)

theorem Item.same_iff {a b : Item} : a.same b = true ↔ a.key = b.key := by
  simp only [Item.same, Item.key, Bool.and_eq_true, beq_iff_eq, Prod.mk.injEq]
  constructor
  · rintro ⟨⟨horigin, hcategory⟩, hrest⟩
    exact ⟨hcategory, hrest, horigin⟩
  · rintro ⟨hcategory, hrest, horigin⟩
    exact ⟨⟨horigin, hcategory⟩, hrest⟩

/-- Some item of the list says the same. -/
def Known (items : List Item) (item : Item) : Prop := ∃ l ∈ items, l.key = item.key

theorem Known.mono {items more : List Item} {item : Item} (h : Known items item)
    (hsub : items ⊆ more) : Known more item := by
  obtain ⟨l, hl, hkey⟩ := h
  exact ⟨l, hsub hl, hkey⟩

theorem known_of_mem {items : List Item} {item : Item} (h : item ∈ items) : Known items item :=
  ⟨item, h, rfl⟩

theorem length_states : states.length ≤ 2000 := by decide +kernel

/-- What an item can say at a boundary. -/
def keys (here : Nat) : List (Category × List Part × Nat) :=
  states.flatMap fun (c, rest) => (List.range (here + 1)).map (c, rest, ·)

theorem length_keys (here : Nat) : (keys here).length ≤ 2000 * (here + 1) := by
  have h : (keys here).length = states.length * (here + 1) := by
    simp [keys, List.length_flatMap]
  rw [h]
  exact Nat.mul_le_mul_right _ length_states

theorem Item.Sound.key_mem {before : List Token} {item : Item} (h : item.Sound before) :
    item.key ∈ keys before.length := by
  refine List.mem_flatMap.mpr ⟨(item.category, item.rest), h.mem_states, ?_⟩
  exact List.mem_map.mpr ⟨item.origin, List.mem_range.mpr (Nat.lt_succ_of_le h.origin_le), rfl⟩

/-- Few items are predicted for one category. -/
theorem length_start (here : Nat) (c : Category) : (Item.start here c).length ≤ 25 := by
  have h := Category.of_all (p := fun c =>
    decide (((rules c).map fun rhs => (unfold rhs).length).sum ≤ 25)) (by decide) c
  simpa [Item.start, List.length_flatMap] using h

/-! ### Pushing -/

namespace Closing

/-- What pushing items does: those that nothing says yet are to be looked at. -/
structure Pushed (news : List Item) (c c' : Closing) : Prop where
  column : c'.column = c.column
  predicted : c'.predicted = c.predicted
  seen : c.seen ⊆ c'.seen
  agenda : c.agenda ⊆ c'.agenda
  origin : ∀ item ∈ c'.seen, item ∈ c.seen ∨ (item ∈ c'.agenda ∧ item ∈ news)
  known : ∀ item ∈ news, Known c'.seen item
  distinct : (c.seen.map Item.key).Nodup → (c'.seen.map Item.key).Nodup
  count : c'.agenda.length + c.seen.length = c.agenda.length + c'.seen.length

theorem Pushed.refl (c : Closing) : Pushed [] c c where
  column := rfl
  predicted := rfl
  seen := List.Subset.refl _
  agenda := List.Subset.refl _
  origin := fun _ h => Or.inl h
  known := fun _ h => absurd h List.not_mem_nil
  distinct := id
  count := rfl

theorem Pushed.trans {news news' : List Item} {c c' c'' : Closing} (h : Pushed news c c')
    (h' : Pushed news' c' c'') : Pushed (news ++ news') c c'' where
  column := h'.column.trans h.column
  predicted := h'.predicted.trans h.predicted
  seen := List.Subset.trans h.seen h'.seen
  agenda := List.Subset.trans h.agenda h'.agenda
  origin := by
    intro item hitem
    rcases h'.origin item hitem with hitem | ⟨hagenda, hnews⟩
    · rcases h.origin item hitem with hitem | ⟨hagenda, hnews⟩
      · exact Or.inl hitem
      · exact Or.inr ⟨h'.agenda hagenda, List.mem_append_left _ hnews⟩
    · exact Or.inr ⟨hagenda, List.mem_append_right _ hnews⟩
  known := by
    intro item hitem
    rcases List.mem_append.mp hitem with hitem | hitem
    · exact (h.known item hitem).mono h'.seen
    · exact h'.known item hitem
  distinct := fun hdistinct => h'.distinct (h.distinct hdistinct)
  count := by
    have := h.count
    have := h'.count
    omega

theorem pushed_push (c : Closing) (item : Item) : Pushed [item] c (c.push item) := by
  unfold push
  split
  · rename_i hseen
    obtain ⟨l, hl, hsame⟩ := List.any_eq_true.mp hseen
    exact {
      column := rfl
      predicted := rfl
      seen := List.Subset.refl _
      agenda := List.Subset.refl _
      origin := fun _ h => Or.inl h
      known := fun i hi =>
        ⟨l, hl, by rw [List.mem_singleton.mp hi]; exact (Item.same_iff.mp hsame).symm⟩
      distinct := id
      count := rfl }
  · rename_i hseen
    have hnew : item.key ∉ c.seen.map Item.key := by
      intro hmem
      obtain ⟨l, hl, hkey⟩ := List.mem_map.mp hmem
      exact hseen (List.any_eq_true.mpr ⟨l, hl, Item.same_iff.mpr hkey.symm⟩)
    exact {
      column := rfl
      predicted := rfl
      seen := List.subset_cons_self _ _
      agenda := List.subset_cons_self _ _
      origin := by
        intro i hi
        rcases List.mem_cons.mp hi with rfl | hi
        · exact Or.inr ⟨List.mem_cons_self, List.mem_singleton.mpr rfl⟩
        · exact Or.inl hi
      known := fun i hi =>
        known_of_mem (by rw [List.mem_singleton.mp hi]; exact List.mem_cons_self)
      distinct := fun hdistinct => List.nodup_cons.mpr ⟨hnew, hdistinct⟩
      count := by
        simp only [List.length_cons]
        omega }

theorem pushed_foldl (items : List Item) (c : Closing) :
    Pushed items c (items.foldl push c) := by
  induction items generalizing c with
  | nil => exact .refl c
  | cons item rest ih => exact (pushed_push c item).trans (ih (c.push item))

theorem pushed_parents (d : Category) (subtrees : List Tree) (parents : List Item) (c : Closing) :
    Pushed (parents.flatMap fun parent => parent.afterCategory d subtrees) c
      (parents.foldl (fun c parent => (parent.afterCategory d subtrees).foldl push c) c) := by
  induction parents generalizing c with
  | nil => exact .refl c
  | cons parent rest ih => exact (pushed_foldl _ c).trans (ih _)

/-! ### What has been looked at -/

/-- What has been looked at so far is among `looked`. What the items `settled` call for has been
    looked at or is on the agenda. -/
structure Covers (columns : Array Column) (here : Nat) (looked settled : List Item)
    (c : Closing) : Prop where
  seen : ∀ item ∈ c.seen, item ∈ looked ++ c.agenda
  predicted : ∀ d : Category, c.predicted.testBit d.ctorIdx = true →
    Item.start here d ⊆ looked ++ c.agenda
  forCategory : ∀ item ∈ settled, ∀ d rest, item.rest = .one (.category d) :: rest →
    item ∈ c.column.forCategory ∧ c.predicted.testBit d.ctorIdx = true
  forToken : ∀ item ∈ settled, ∀ x rest, item.rest = .one (.token x) :: rest →
    item ∈ c.column.forToken
  completed : ∀ item ∈ settled, item.rest = [] → ∀ column, columns[item.origin]? = some column →
    ∀ parent ∈ column.forCategory, ∀ next ∈ parent.afterCategory item.category item.result,
      Known c.seen next
  whole : ∀ item ∈ settled, item.rest = [] → item.category = .compilationUnit →
    c.column.whole.isSome = true

/-- How many items there are, looked at or on the agenda. -/
structure Counts (here : Nat) (looked : List Item) (c : Closing) : Prop where
  distinct : (c.seen.map Item.key).Nodup
  bound : ∃ ds : List Category, ds.Nodup ∧
    (∀ d : Category, c.predicted.testBit d.ctorIdx = true ↔ d ∈ ds) ∧
    looked.length + c.agenda.length ≤ c.seen.length + 25 * ds.length

theorem Covers.pushed {columns : Array Column} {here : Nat} {looked settled news : List Item}
    {c c' : Closing} (h : c.Covers columns here looked settled) (hpushed : Pushed news c c') :
    c'.Covers columns here looked settled where
  seen := by
    intro item hitem
    rcases hpushed.origin item hitem with hitem | ⟨hagenda, _⟩
    · rcases List.mem_append.mp (h.seen item hitem) with hlooked | hagenda
      · exact List.mem_append_left _ hlooked
      · exact List.mem_append_right _ (hpushed.agenda hagenda)
    · exact List.mem_append_right _ hagenda
  predicted := by
    intro d hd item hitem
    rw [hpushed.predicted] at hd
    rcases List.mem_append.mp (h.predicted d hd hitem) with hlooked | hagenda
    · exact List.mem_append_left _ hlooked
    · exact List.mem_append_right _ (hpushed.agenda hagenda)
  forCategory := by
    rw [hpushed.column, hpushed.predicted]
    exact h.forCategory
  forToken := by
    rw [hpushed.column]
    exact h.forToken
  completed := fun item hitem hrest column hcolumn parent hparent next hnext =>
    (h.completed item hitem hrest column hcolumn parent hparent next hnext).mono hpushed.seen
  whole := by
    rw [hpushed.column]
    exact h.whole

/-- Taking an item off the agenda. -/
theorem Covers.pop {columns : Array Column} {here : Nat} {looked rest : List Item} {c : Closing}
    {item : Item} (h : c.Covers columns here looked looked) (hagenda : c.agenda = item :: rest) :
    ({ c with agenda := rest } : Closing).Covers columns here (looked ++ [item]) looked where
  seen := by
    intro i hi
    have hmem := h.seen i hi
    rw [hagenda] at hmem
    simpa using hmem
  predicted := by
    intro d hd i hi
    have hmem := h.predicted d hd hi
    rw [hagenda] at hmem
    simpa using hmem
  forCategory := h.forCategory
  forToken := h.forToken
  completed := h.completed
  whole := h.whole

/-- An item that gets what it calls for is settled. -/
theorem Covers.settle {columns : Array Column} {here : Nat} {looked settled : List Item}
    {c : Closing} {item : Item} (h : c.Covers columns here looked settled)
    (hforCategory : ∀ d rest, item.rest = .one (.category d) :: rest →
      item ∈ c.column.forCategory ∧ c.predicted.testBit d.ctorIdx = true)
    (hforToken : ∀ x rest, item.rest = .one (.token x) :: rest → item ∈ c.column.forToken)
    (hcompleted : item.rest = [] → ∀ column, columns[item.origin]? = some column →
      ∀ parent ∈ column.forCategory, ∀ next ∈ parent.afterCategory item.category item.result,
        Known c.seen next)
    (hwhole : item.rest = [] → item.category = .compilationUnit →
      c.column.whole.isSome = true) :
    c.Covers columns here looked (settled ++ [item]) where
  seen := h.seen
  predicted := h.predicted
  forCategory := by
    intro i hi
    rcases List.mem_append.mp hi with hi | hi
    · exact h.forCategory i hi
    · rw [List.mem_singleton.mp hi]
      exact hforCategory
  forToken := by
    intro i hi
    rcases List.mem_append.mp hi with hi | hi
    · exact h.forToken i hi
    · rw [List.mem_singleton.mp hi]
      exact hforToken
  completed := by
    intro i hi
    rcases List.mem_append.mp hi with hi | hi
    · exact h.completed i hi
    · rw [List.mem_singleton.mp hi]
      exact hcompleted
  whole := by
    intro i hi
    rcases List.mem_append.mp hi with hi | hi
    · exact h.whole i hi
    · rw [List.mem_singleton.mp hi]
      exact hwhole

/-- A column that holds more covers the same. -/
theorem Covers.withColumn {columns : Array Column} {here : Nat} {looked settled : List Item}
    {c : Closing} (h : c.Covers columns here looked settled) (column : Column)
    (hforCategory : c.column.forCategory ⊆ column.forCategory)
    (hforToken : c.column.forToken ⊆ column.forToken)
    (hwhole : c.column.whole.isSome = true → column.whole.isSome = true) :
    ({ c with column } : Closing).Covers columns here looked settled where
  seen := h.seen
  predicted := h.predicted
  forCategory := fun item hitem d rest hrest =>
    ⟨hforCategory (h.forCategory item hitem d rest hrest).1,
      (h.forCategory item hitem d rest hrest).2⟩
  forToken := fun item hitem x rest hrest => hforToken (h.forToken item hitem x rest hrest)
  completed := h.completed
  whole := fun item hitem hrest hcategory => hwhole (h.whole item hitem hrest hcategory)

theorem testBit_or_shiftLeft (p : Nat) (c d : Category) :
    (p ||| (1 <<< c.ctorIdx)).testBit d.ctorIdx = true ↔
      p.testBit d.ctorIdx = true ∨ d = c := by
  have hone : (1 <<< c.ctorIdx).testBit d.ctorIdx = true ↔ d = c := by
    rw [Nat.one_shiftLeft, Nat.testBit_two_pow, decide_eq_true_iff]
    constructor
    · intro h
      rw [← Category.ofNat_ctorIdx c, ← Category.ofNat_ctorIdx d, h]
    · rintro rfl
      rfl
  rw [Nat.testBit_or, Bool.or_eq_true, hone]

/-- Predicting a category puts its items on the agenda. -/
theorem Covers.predict {columns : Array Column} {here : Nat} {looked settled : List Item}
    {c : Closing} (d : Category) (h : c.Covers columns here looked settled) :
    ({ c with
      agenda := Item.start here d ++ c.agenda
      predicted := c.predicted ||| (1 <<< d.ctorIdx) } : Closing).Covers columns here looked
        settled where
  seen := by
    intro i hi
    rcases List.mem_append.mp (h.seen i hi) with hi | hi
    · exact List.mem_append_left _ hi
    · exact List.mem_append_right _ (List.mem_append_right _ hi)
  predicted := by
    intro e he i hi
    rcases (testBit_or_shiftLeft c.predicted d e).mp he with he | rfl
    · rcases List.mem_append.mp (h.predicted e he hi) with hi | hi
      · exact List.mem_append_left _ hi
      · exact List.mem_append_right _ (List.mem_append_right _ hi)
    · exact List.mem_append_right _ (List.mem_append_left _ hi)
  forCategory := fun item hitem e rest hrest =>
    ⟨(h.forCategory item hitem e rest hrest).1,
      (testBit_or_shiftLeft c.predicted d e).mpr (Or.inl (h.forCategory item hitem e rest hrest).2)⟩
  forToken := h.forToken
  completed := h.completed
  whole := h.whole

/-- Looking at a complete item settles it: what waits for its category goes on. -/
theorem Covers.step_complete {columns : Array Column} {here : Nat} {looked rest : List Item}
    {c : Closing} {item : Item} (h : c.Covers columns here looked looked)
    (hagenda : c.agenda = item :: rest) (hrest : item.rest = []) :
    (({ c with agenda := rest } : Closing).step columns here item).Covers columns here
      (looked ++ [item]) (looked ++ [item]) := by
  simp only [Closing.step, hrest]
  generalize hc₁ : (if item.category = .compilationUnit ∧ c.column.whole.isNone = true then
    (⟨rest, c.seen, c.predicted, { c.column with
      whole := some (.node .compilationUnit item.read.reverse) }⟩ : Closing)
    else ⟨rest, c.seen, c.predicted, c.column⟩) = c₁
  have hcovers : c₁.Covers columns here (looked ++ [item]) looked := by
    rw [← hc₁]
    split
    · exact (h.pop hagenda).withColumn _ (List.Subset.refl _) (List.Subset.refl _) fun _ => rfl
    · exact h.pop hagenda
  have hwhole : item.category = .compilationUnit → c₁.column.whole.isSome = true := by
    intro hcategory
    rw [← hc₁]
    split
    · rfl
    · rename_i hnot
      rw [not_and, Option.isNone_iff_eq_none, ← ne_eq, Option.ne_none_iff_isSome] at hnot
      exact hnot hcategory
  have hparents : ∀ parents : List Item,
      (∀ column, columns[item.origin]? = some column → column.forCategory ⊆ parents) →
      (parents.foldl (fun c parent =>
        (parent.afterCategory item.category item.result).foldl push c) c₁).Covers columns here
          (looked ++ [item]) (looked ++ [item]) := by
    intro parents hsub
    have hpushed := pushed_parents item.category item.result parents c₁
    refine (hcovers.pushed hpushed).settle ?_ ?_ ?_ ?_
    · intro d r h'
      rw [hrest] at h'
      cases h'
    · intro x r h'
      rw [hrest] at h'
      cases h'
    · exact fun _ column hcolumn parent hparent next hnext =>
        hpushed.known next (List.mem_flatMap.mpr ⟨parent, hsub column hcolumn hparent, hnext⟩)
    · intro _ hcategory
      rw [hpushed.column]
      exact hwhole hcategory
  cases hcolumn : columns[item.origin]? with
  | none => exact hparents [] fun column h' => by rw [hcolumn] at h'; cases h'
  | some column =>
    refine hparents column.forCategory fun column' h' => ?_
    rw [hcolumn] at h'
    cases h'
    exact List.Subset.refl _

/-- Looking at an item that waits for a category settles it: the category is predicted. -/
theorem Covers.step_category {columns : Array Column} {here : Nat} {looked rest : List Item}
    {c : Closing} {item : Item} {d : Category} {more : List Part}
    (h : c.Covers columns here looked looked) (hagenda : c.agenda = item :: rest)
    (hrest : item.rest = .one (.category d) :: more) :
    (({ c with agenda := rest } : Closing).step columns here item).Covers columns here
      (looked ++ [item]) (looked ++ [item]) := by
  simp only [Closing.step, hrest]
  have hcovers := (h.pop hagenda).withColumn
    { c.column with forCategory := item :: c.column.forCategory }
    (List.subset_cons_self _ _) (List.Subset.refl _) id
  have hsettle : ∀ {c' : Closing}, c'.Covers columns here (looked ++ [item]) looked →
      c'.column.forCategory = item :: c.column.forCategory →
      c'.predicted.testBit d.ctorIdx = true →
      c'.Covers columns here (looked ++ [item]) (looked ++ [item]) := by
    intro c' hc' hcolumn hbit
    refine hc'.settle ?_ ?_ ?_ ?_
    · intro e r h'
      rw [hrest] at h'
      cases h'
      exact ⟨by rw [hcolumn]; exact List.mem_cons_self, hbit⟩
    · intro x r h'
      rw [hrest] at h'
      cases h'
    · intro h'
      rw [hrest] at h'
      cases h'
    · intro h'
      rw [hrest] at h'
      cases h'
  split
  · rename_i hbit
    exact hsettle hcovers rfl hbit
  · exact hsettle (hcovers.predict d) rfl
      ((testBit_or_shiftLeft c.predicted d d).mpr (Or.inr rfl))

/-- Looking at an item that waits for a token settles it. -/
theorem Covers.step_token {columns : Array Column} {here : Nat} {looked rest : List Item}
    {c : Closing} {item : Item} {x : Terminal} {more : List Part}
    (h : c.Covers columns here looked looked) (hagenda : c.agenda = item :: rest)
    (hrest : item.rest = .one (.token x) :: more) :
    (({ c with agenda := rest } : Closing).step columns here item).Covers columns here
      (looked ++ [item]) (looked ++ [item]) := by
  simp only [Closing.step, hrest]
  refine ((h.pop hagenda).withColumn { c.column with forToken := item :: c.column.forToken }
    (List.Subset.refl _) (List.subset_cons_self _ _) id).settle ?_ ?_ ?_ ?_
  · intro d r h'
    rw [hrest] at h'
    cases h'
  · exact fun _ _ _ => List.mem_cons_self
  · intro h'
    rw [hrest] at h'
    cases h'
  · intro h'
    rw [hrest] at h'
    cases h'

/-- **Looking at an item settles it.** -/
theorem Covers.step {columns : Array Column} {here : Nat} {looked rest : List Item} {c : Closing}
    {item : Item} (h : c.Covers columns here looked looked) (hagenda : c.agenda = item :: rest)
    (hway : unfold item.rest = [item.rest]) :
    (({ c with agenda := rest } : Closing).step columns here item).Covers columns here
      (looked ++ [item]) (looked ++ [item]) := by
  rcases eq_of_mem_unfold (hway ▸ List.mem_singleton.mpr rfl) with hrest | ⟨s, more, hrest⟩
  · exact h.step_complete hagenda hrest
  · cases s with
    | category d => exact h.step_category hagenda hrest
    | token x => exact h.step_token hagenda hrest

theorem Counts.pushed {here : Nat} {looked news : List Item} {c c' : Closing}
    (h : c.Counts here looked) (hpushed : Pushed news c c') : c'.Counts here looked := by
  obtain ⟨ds, hnodup, hds, hbound⟩ := h.bound
  refine ⟨hpushed.distinct h.distinct, ds, hnodup, ?_, ?_⟩
  · rw [hpushed.predicted]
    exact hds
  · have := hpushed.count
    omega

theorem Counts.step {columns : Array Column} {here : Nat} {looked rest : List Item} {c : Closing}
    {item : Item} (h : c.Counts here looked) (hagenda : c.agenda = item :: rest) :
    (({ c with agenda := rest } : Closing).step columns here item).Counts here
      (looked ++ [item]) := by
  obtain ⟨ds, hnodup, hds, hbound⟩ := h.bound
  have hlength : (looked ++ [item]).length + rest.length = looked.length + c.agenda.length := by
    rw [hagenda]
    simp only [List.length_append, List.length_cons, List.length_nil]
    omega
  -- the column does not count
  have hcounts : ∀ column : Column,
      (⟨rest, c.seen, c.predicted, column⟩ : Closing).Counts here (looked ++ [item]) :=
    fun column => ⟨h.distinct, ds, hnodup, hds, hlength ▸ hbound⟩
  unfold Closing.step
  split
  · refine Counts.pushed ?_ (pushed_parents item.category item.result _ _)
    split <;> exact hcounts _
  · rename_i d more _
    dsimp only
    split
    · exact hcounts _
    · rename_i hbit
      refine ⟨h.distinct, d :: ds, List.nodup_cons.mpr ⟨fun hd => hbit ((hds d).mpr hd), hnodup⟩,
        ?_, ?_⟩
      · intro e
        rw [testBit_or_shiftLeft, hds, List.mem_cons]
        exact or_comm
      · have := length_start here d
        simp only [List.length_append, List.length_cons, List.length_nil] at hlength ⊢
        omega
  · exact hcounts _

theorem seen_subset_step (columns : Array Column) (here : Nat) (c : Closing) (item : Item) :
    c.seen ⊆ (c.step columns here item).seen := by
  unfold Closing.step
  split
  · refine List.Subset.trans ?_ (pushed_parents item.category item.result _ _).seen
    split <;> exact List.Subset.refl _
  · dsimp only
    split <;> exact List.Subset.refl _
  · exact List.Subset.refl _

/-- There are fewer items than the fuel allows. -/
theorem Counts.length_lt {before : List Token} {columns : Array Column} {looked : List Item}
    {c : Closing} (h : c.Counts before.length looked)
    (hcovers : c.Covers columns before.length looked looked) (hsound : c.Sound before)
    (hlooked : ∀ item ∈ looked, item.Sound before) :
    looked.length < Chart.itemBound before.length := by
  obtain ⟨ds, hnodup, _, hbound⟩ := h.bound
  have hseen : c.seen.length ≤ 2000 * (before.length + 1) := by
    have hsub : c.seen.map Item.key ⊆ keys before.length := by
      intro key hkey
      obtain ⟨item, hitem, rfl⟩ := List.mem_map.mp hkey
      rcases List.mem_append.mp (hcovers.seen item hitem) with hitem | hitem
      · exact (hlooked item hitem).key_mem
      · exact (hsound.agenda item hitem).key_mem
    have hle := (List.subperm_of_subset h.distinct hsub).length_le
    rw [List.length_map] at hle
    exact Nat.le_trans hle (length_keys _)
  have hds : ds.length ≤ 195 := by
    have hle := (List.subperm_of_subset hnodup fun d _ => Category.mem_all d).length_le
    exact Nat.le_trans hle (Nat.le_of_eq (by simp [Category.all]))
  unfold Chart.itemBound
  omega

/-- **Closing does not run out of fuel.** -/
theorem exists_closed {before : List Token} {columns : Array Column}
    (hcolumns : SoundColumns before columns) (fuel : Nat) :
    ∀ {looked : List Item} {c : Closing}, c.Sound before → (∀ item ∈ looked, item.Sound before) →
      c.Covers columns before.length looked looked → c.Counts before.length looked →
      Chart.itemBound before.length ≤ fuel + looked.length →
      ∃ (more : List Item) (c' : Closing), run columns before.length fuel c = c'.column ∧
        c'.agenda = [] ∧ c'.Covers columns before.length (looked ++ more) (looked ++ more) ∧
        c.seen ⊆ c'.seen := by
  induction fuel with
  | zero =>
    intro looked c hsound hlooked hcovers hcounts hfuel
    have := hcounts.length_lt hcovers hsound hlooked
    omega
  | succ fuel ih =>
    intro looked c hsound hlooked hcovers hcounts hfuel
    cases hagenda : c.agenda with
    | nil =>
      refine ⟨[], c, by simp only [Closing.run, hagenda], hagenda, ?_, List.Subset.refl _⟩
      rw [List.append_nil]
      exact hcovers
    | cons item rest =>
      have hitem := hsound.agenda item (by rw [hagenda]; exact List.mem_cons_self)
      have hpopped : ({ c with agenda := rest } : Closing).Sound before :=
        ⟨fun i hi => hsound.agenda i (by rw [hagenda]; exact List.mem_cons_of_mem _ hi),
          hsound.forCategory, hsound.forToken, hsound.whole⟩
      have hlooked' : ∀ i ∈ looked ++ [item], i.Sound before := by
        intro i hi
        rcases List.mem_append.mp hi with hi | hi
        · exact hlooked i hi
        · rw [List.mem_singleton.mp hi]
          exact hitem
      have hstep := hcovers.step hagenda hitem.isWay
      obtain ⟨more, c', hrun, hempty, hcovers', hsub⟩ := ih (hpopped.step hcolumns hitem) hlooked'
        hstep (hcounts.step hagenda)
        (by simp only [List.length_append, List.length_cons, List.length_nil]; omega)
      refine ⟨item :: more, c', ?_, hempty, ?_, ?_⟩
      · simp only [Closing.run, hagenda]
        exact hrun
      · rw [List.append_assoc] at hcovers'
        exact hcovers'
      · exact List.Subset.trans
          (seen_subset_step columns before.length { c with agenda := rest } item) hsub

end Closing

/-! ### Closed columns -/

/-- Everything that the items looked at in a column call for has been looked at, and what waits
    there is in the column. -/
structure Column.Closed (columns : Array Column) (items : List Item) (column : Column)
    (looked : List Item) : Prop where
  carried : ∀ item ∈ items, Known looked item
  predicted : ∀ item ∈ looked, ∀ d rest, item.rest = .one (.category d) :: rest →
    item ∈ column.forCategory ∧ Item.start columns.size d ⊆ looked
  forToken : ∀ item ∈ looked, ∀ x rest, item.rest = .one (.token x) :: rest →
    item ∈ column.forToken
  completed : ∀ item ∈ looked, item.rest = [] → ∀ earlier, columns[item.origin]? = some earlier →
    ∀ parent ∈ earlier.forCategory, ∀ next ∈ parent.afterCategory item.category item.result,
      Known looked next
  whole : ∀ item ∈ looked, item.rest = [] → item.category = .compilationUnit →
    column.whole.isSome = true

/-- **A column that has been closed is closed.** -/
theorem Chart.closed_close {before : List Token} {columns : Array Column} {items : List Item}
    (hcolumns : SoundColumns before columns) (hitems : ∀ item ∈ items, item.Sound before) :
    ∃ looked, (close columns items).Closed columns items looked := by
  have hstart : Closing.Sound before ⟨[], [], 0, {}⟩ :=
    { agenda := fun _ h => absurd h List.not_mem_nil
      forCategory := fun _ h => absurd h List.not_mem_nil
      forToken := fun _ h => absurd h List.not_mem_nil
      whole := fun _ h => by cases h }
  have hcovers : Closing.Covers columns before.length [] [] ⟨[], [], 0, {}⟩ :=
    { seen := fun _ h => absurd h List.not_mem_nil
      predicted := fun d hd => by simp at hd
      forCategory := fun _ h => absurd h List.not_mem_nil
      forToken := fun _ h => absurd h List.not_mem_nil
      completed := fun _ h => absurd h List.not_mem_nil
      whole := fun _ h => absurd h List.not_mem_nil }
  have hcounts : Closing.Counts before.length [] ⟨[], [], 0, {}⟩ :=
    ⟨List.nodup_nil, [], List.nodup_nil, by simp, by simp⟩
  have hpushed := Closing.pushed_foldl items ⟨[], [], 0, {}⟩
  obtain ⟨looked, c, hrun, hempty, hc, hseen⟩ := Closing.exists_closed hcolumns
    (Chart.itemBound before.length) (hstart.pushAll items hitems)
    (fun _ h => absurd h List.not_mem_nil) (hcovers.pushed hpushed) (hcounts.pushed hpushed)
    (Nat.le_refl _)
  rw [List.nil_append] at hc
  have hlooked : ∀ {item : Item}, Known c.seen item → Known looked item := by
    rintro item ⟨l, hl, hkey⟩
    have hmem := hc.seen l hl
    rw [hempty, List.append_nil] at hmem
    exact ⟨l, hmem, hkey⟩
  have hclose : close columns items = c.column := by
    rw [← hrun, ← hcolumns.size_eq]
    rfl
  rw [hclose]
  refine ⟨looked, ?_, ?_, hc.forToken, ?_, hc.whole⟩
  · exact fun item hitem => hlooked ((hpushed.known item hitem).mono hseen)
  · intro item hitem d rest hrest
    obtain ⟨hforCategory, hbit⟩ := hc.forCategory item hitem d rest hrest
    refine ⟨hforCategory, ?_⟩
    have hsub := hc.predicted d hbit
    rw [hempty, List.append_nil, ← hcolumns.size_eq] at hsub
    exact hsub
  · exact fun item hitem hrest earlier hearlier parent hparent next hnext =>
      hlooked (hc.completed item hitem hrest earlier hearlier parent hparent next hnext)

end TestScaffold.CSharp
