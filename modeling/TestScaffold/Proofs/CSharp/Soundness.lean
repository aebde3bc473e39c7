/-
  TestScaffold/Proofs/CSharp/Soundness.lean
  =========================================
  **A tree that the chart gives is a reading of the tokens that it has met.**

  An item is sound if whatever completes it completes a right-hand side of its
  category over the tokens since its origin.  Predicting, completing and reading
  a token keep items sound, so every column has sound items only, and the whole
  text that a column holds is read by the category of a file.
-/
import TestScaffold.Proofs.CSharp.Neighbours

namespace TestScaffold.CSharp

open Grammar

/-! ### Scans -/

/-- Whether an item of a closed column waits for a terminal. -/
def Column.wants (column : Column) (terminal : Terminal) : Bool :=
  column.forToken.any (Item.wants terminal)

/-- The course of a reading from some items on: the tokens that are met, and what the last
    column holds. -/
inductive Scans : Array Column → List Item → Lexer.State → List Token → Option Tree → Prop where
  | finished {columns : Array Column} {items : List Item} {state : Lexer.State}
      (next : Lexer.next (Chart.close columns items).wants state = .finished) :
      Scans columns items state [] (Chart.close columns items).whole
  | token {columns : Array Column} {items : List Item} {state state' : Lexer.State} {t : Token}
      {ts : List Token} {result : Option Tree}
      (next : Lexer.next (Chart.close columns items).wants state = .token t state')
      (goes : (Chart.close columns items).forToken.flatMap (Item.afterToken t) ≠ [])
      (rest : Scans (columns.push (Chart.close columns items))
        ((Chart.close columns items).forToken.flatMap (Item.afterToken t)) state' ts result) :
      Scans columns items state (t :: ts) result

/-- How a reading goes on behind a closed column, given what stands ahead. -/
def Chart.proceed (fuel : Nat) (columns : Array Column) (column : Column) :
    Lexer.Next → Option Tree
  | .finished => column.whole
  | .stuck => none
  | .token t state =>
    match column.forToken.flatMap (Item.afterToken t) with
    | [] => none
    | items => read fuel (columns.push column) items state

theorem Chart.read_succ (fuel : Nat) (columns : Array Column) (items : List Item)
    (state : Lexer.State) :
    read (fuel + 1) columns items state =
      proceed fuel columns (close columns items)
        (Lexer.next (close columns items).wants state) := rfl

theorem Chart.proceed_finished (fuel : Nat) (columns : Array Column) (column : Column) :
    proceed fuel columns column .finished = column.whole := rfl

theorem Chart.proceed_stuck (fuel : Nat) (columns : Array Column) (column : Column) :
    proceed fuel columns column .stuck = none := rfl

theorem Chart.proceed_token {fuel : Nat} {columns : Array Column} {column : Column} {t : Token}
    {state : Lexer.State} (h : column.forToken.flatMap (Item.afterToken t) ≠ []) :
    proceed fuel columns column (.token t state) =
      read fuel (columns.push column) (column.forToken.flatMap (Item.afterToken t)) state := by
  cases hitems : column.forToken.flatMap (Item.afterToken t) with
  | nil => exact absurd hitems h
  | cons item more => simp only [proceed, hitems]

theorem Chart.proceed_nil {fuel : Nat} {columns : Array Column} {column : Column} {t : Token}
    {state : Lexer.State} (h : column.forToken.flatMap (Item.afterToken t) = []) :
    proceed fuel columns column (.token t state) = none := by
  simp only [proceed, h]

/-- A reading that gives a tree has taken its course. -/
theorem Chart.scans_of_read {tree : Tree} (fuel : Nat) :
    ∀ {columns : Array Column} {items : List Item} {state : Lexer.State},
      read fuel columns items state = some tree →
        ∃ ts, Scans columns items state ts (some tree) := by
  induction fuel with
  | zero =>
    intro columns items state h
    cases h
  | succ fuel ih =>
    intro columns items state h
    rw [read_succ] at h
    cases hnext : Lexer.next (close columns items).wants state with
    | finished =>
      rw [hnext, proceed_finished] at h
      exact ⟨[], h ▸ .finished hnext⟩
    | stuck =>
      rw [hnext, proceed_stuck] at h
      cases h
    | token t state' =>
      rw [hnext] at h
      by_cases hitems : (close columns items).forToken.flatMap (Item.afterToken t) = []
      · rw [proceed_nil hitems] at h
        cases h
      · rw [proceed_token hitems] at h
        obtain ⟨ts, hscan⟩ := ih h
        exact ⟨t :: ts, .token hnext hitems hscan⟩

/-- A course of no more tokens than the fuel allows is taken. -/
theorem Scans.read_eq {columns : Array Column} {items : List Item} {state : Lexer.State}
    {ts : List Token} {result : Option Tree} (h : Scans columns items state ts result) :
    ∀ {fuel : Nat}, ts.length < fuel → Chart.read fuel columns items state = result := by
  induction h with
  | finished next =>
    intro fuel hfuel
    cases fuel with
    | zero => cases hfuel
    | succ fuel =>
      rw [Chart.read_succ, next, Chart.proceed_finished]
  | @token columns items state state' t ts result next goes rest ih =>
    intro fuel hfuel
    cases fuel with
    | zero => cases hfuel
    | succ fuel =>
      rw [Chart.read_succ, next, Chart.proceed_token goes]
      exact ih (Nat.lt_of_succ_lt_succ hfuel)

/-! ### Sound items -/

/-- An item is sound behind the tokens `before`: what completes it completes a right-hand side of
    its category over the tokens since its origin, and it may stand behind the last of them. -/
structure Item.Sound (before : List Token) (item : Item) : Prop where
  origin_le : item.origin ≤ before.length
  atStart : item.category = .compilationUnit → item.origin = 0
  inner : Inner item.rest
  isWay : unfold item.rest = [item.rest]
  completes : ∃ rhs ∈ rules item.category, item.rest ∈ reach rhs ∧
    ∀ ts us, Reads item.rest ts us →
      Reads rhs (before.drop item.origin ++ ts) (item.read.reverse ++ us)
  behind : ∀ t, before.getLast? = some t → Behind t.role item.category item.rest

namespace Item

/-- The items for a category that begins here are sound. -/
theorem sound_of_mem_start {before : List Token} {c : Category} {item : Item}
    (hc : c = .compilationUnit → before.length = 0)
    (houter : ∀ t, before.getLast? = some t →
      ∃ d rest, Behind t.role d (.one (.category c) :: rest))
    (h : item ∈ start before.length c) : item.Sound before := by
  obtain ⟨rhs, hrule, hitem⟩ := List.mem_flatMap.mp h
  obtain ⟨way, hway, rfl⟩ := List.mem_map.mp hitem
  have hinner : Inner rhs := fun part hpart => symbol_ne_compilationUnit hrule hpart
  refine ⟨Nat.le_refl _, hc, hinner.of_mem_unfold hway, unfold_of_mem_unfold hway, ⟨rhs, hrule,
    unfold_subset_reach rhs hway, ?_⟩, ?_⟩
  · intro ts us hreads
    simpa using Reads.of_unfold hway hreads
  · intro t ht
    obtain ⟨d, rest, hbehind⟩ := houter t ht
    exact hbehind.predict hrule hway

/-- An item that has read one more symbol is sound. -/
theorem Sound.advance {before after : List Token} {item next : Item} {s : Symbol}
    {rest : List Part} {subtrees : List Tree} {new : List Token} (h : item.Sound before)
    (hrest : item.rest = .one s :: rest) (hafter : after = before ++ new)
    (hreads : ∀ ts us, Reads rest ts us →
      Reads (.one s :: rest) (new ++ ts) (subtrees.reverse ++ us))
    (hbehind : ∀ way ∈ unfold rest, ∀ t, after.getLast? = some t →
      Behind t.role item.category way)
    (hnext : next ∈ item.advance rest subtrees) : next.Sound after := by
  obtain ⟨way, hway, rfl⟩ := List.mem_map.mp hnext
  have hinner : Inner rest := by
    have hall := h.inner
    rw [hrest] at hall
    exact hall.tail
  obtain ⟨rhs, hrule, hreach, hcompletes⟩ := h.completes
  rw [hrest] at hreach
  refine ⟨?_, h.atStart, hinner.of_mem_unfold hway, unfold_of_mem_unfold hway, ⟨rhs, hrule,
    unfold_subset_reach_of_mem hreach hway, ?_⟩, hbehind way hway⟩
  · rw [hafter, List.length_append]
    exact Nat.le_add_right_of_le h.origin_le
  · intro ts us hway'
    have hall := hcompletes (new ++ ts) (subtrees.reverse ++ us)
      (hrest ▸ hreads ts us (Reads.of_unfold hway hway'))
    rw [hafter, List.drop_append_of_le_length h.origin_le, List.append_assoc]
    simpa only [List.reverse_append, List.append_assoc] using hall

/-- What a sound item says is a state of the grammar. -/
theorem Sound.mem_states {before : List Token} {item : Item} (h : item.Sound before) :
    (item.category, item.rest) ∈ states := by
  obtain ⟨rhs, hrule, hreach, _⟩ := h.completes
  exact CSharp.mem_states hrule hreach

/-- Reading a token keeps items sound. -/
theorem Sound.afterToken {before : List Token} {item next : Item} {t : Token}
    (h : item.Sound before) (hnext : next ∈ item.afterToken t) : next.Sound (before ++ [t]) := by
  unfold Item.afterToken at hnext
  split at hnext
  · rename_i x rest hrest
    split at hnext
    · rename_i hfits
      refine h.advance hrest rfl ?_ ?_ hnext
      · exact fun ts us hreads => .token (List.mem_singleton.mpr rfl) hfits hreads
      · intro way hway t' ht'
        rw [List.getLast?_concat, Option.some.injEq] at ht'
        rw [← ht', Token.role_of_fits hfits]
        exact .token (hrest ▸ h.mem_states) rfl hway
    · cases hnext
  · cases hnext

/-- The subtrees of a complete item read its category. -/
theorem Sound.reads_result {before : List Token} {item : Item} (h : item.Sound before)
    (hrest : item.rest = []) :
    ∃ rhs ∈ rules item.category, ∃ us, Reads rhs (before.drop item.origin) us ∧
      item.result.reverse = Tree.ofCategory item.category us ∧ us = item.read.reverse := by
  obtain ⟨rhs, hrule, _, hcompletes⟩ := h.completes
  refine ⟨rhs, hrule, item.read.reverse, ?_, ?_, rfl⟩
  · simpa using hcompletes [] [] (hrest ▸ Reads.nil)
  · unfold Item.result Tree.ofCategory
    split <;> simp

/-- Completing a category keeps the items that wait for it sound. -/
theorem Sound.afterCategory {before : List Token} {item parent next : Item}
    (h : item.Sound before) (hrest : item.rest = [])
    (hparent : parent.Sound (before.take item.origin))
    (hnext : next ∈ parent.afterCategory item.category item.result) : next.Sound before := by
  obtain ⟨rhs, hrule, us', hreads', hresult, _⟩ := h.reads_result hrest
  unfold Item.afterCategory at hnext
  split at hnext
  · rename_i d rest hparentRest
    split at hnext
    · rename_i hd
      subst hd
      refine hparent.advance hparentRest (List.take_append_drop item.origin before).symm ?_ ?_ hnext
      · intro ts us hreads
        rw [hresult]
        exact .category (List.mem_singleton.mpr rfl) hrule hreads' hreads
      · intro way hway t ht
        have hinner := h.behind t ht
        rw [hrest] at hinner
        exact hinner.complete (hparentRest ▸ hparent.mem_states) hway
    · cases hnext
  · cases hnext

end Item

/-! ### Sound columns -/

/-- The columns before a boundary hold sound items only. -/
structure SoundColumns (before : List Token) (columns : Array Column) : Prop where
  size_eq : columns.size = before.length
  sound : ∀ i (h : i < columns.size), ∀ item ∈ columns[i].forCategory,
    item.Sound (before.take i)

/-- A column that is being closed holds sound items only, and the whole text if any. -/
structure Closing.Sound (before : List Token) (c : Closing) : Prop where
  agenda : ∀ item ∈ c.agenda, item.Sound before
  forCategory : ∀ item ∈ c.column.forCategory, item.Sound before
  forToken : ∀ item ∈ c.column.forToken, item.Sound before
  whole : ∀ tree, c.column.whole = some tree → ∃ rhs ∈ rules .compilationUnit, ∃ us,
    tree = .node .compilationUnit us ∧ Reads rhs before us

namespace Closing

theorem Sound.push {before : List Token} {c : Closing} {item : Item} (h : c.Sound before)
    (hitem : item.Sound before) : (c.push item).Sound before := by
  unfold Closing.push
  split
  · exact h
  · refine ⟨?_, h.forCategory, h.forToken, h.whole⟩
    intro i hi
    rcases List.mem_cons.mp hi with rfl | hi
    · exact hitem
    · exact h.agenda i hi

theorem Sound.pushAll {before : List Token} (items : List Item) :
    ∀ {c : Closing}, c.Sound before → (∀ item ∈ items, item.Sound before) →
      (items.foldl Closing.push c).Sound before := by
  induction items with
  | nil => exact fun h _ => h
  | cons item rest ih =>
    intro c h hitems
    exact ih (h.push (hitems item List.mem_cons_self))
      fun i hi => hitems i (List.mem_cons_of_mem _ hi)

/-- The items that wait for a category go on soundly when it is complete. -/
theorem Sound.pushParents {before : List Token} {item : Item} (hitem : item.Sound before)
    (hrest : item.rest = []) (parents : List Item) :
    ∀ {c : Closing}, c.Sound before →
      (∀ parent ∈ parents, parent.Sound (before.take item.origin)) →
      (parents.foldl (fun c parent =>
        (parent.afterCategory item.category item.result).foldl Closing.push c) c).Sound before := by
  induction parents with
  | nil => exact fun h _ => h
  | cons parent rest ih =>
    intro c h hparents
    refine ih (h.pushAll _ ?_) fun p hp => hparents p (List.mem_cons_of_mem _ hp)
    intro next hnext
    exact hitem.afterCategory hrest (hparents parent List.mem_cons_self) hnext

theorem Sound.withWhole {before : List Token} {c : Closing} {item : Item} (h : c.Sound before)
    (hitem : item.Sound before) (hrest : item.rest = []) :
    (if item.category = .compilationUnit ∧ c.column.whole.isNone then
        { c with column :=
            { c.column with whole := some (.node .compilationUnit item.read.reverse) } }
      else c).Sound before := by
  split
  · rename_i hwhole
    refine ⟨h.agenda, h.forCategory, h.forToken, ?_⟩
    intro tree htree
    obtain ⟨rhs, hrule, us, hreads, _, hus⟩ := hitem.reads_result hrest
    rw [hwhole.1] at hrule
    rw [hitem.atStart hwhole.1, List.drop_zero] at hreads
    refine ⟨rhs, hrule, us, ?_, hreads⟩
    rw [hus]
    exact (Option.some.inj htree).symm
  · exact h

/-- **Looking at a sound item keeps everything sound.** -/
theorem Sound.step {before : List Token} {columns : Array Column}
    (hcolumns : SoundColumns before columns) {c : Closing} {item : Item} (h : c.Sound before)
    (hitem : item.Sound before) : (c.step columns before.length item).Sound before := by
  unfold Closing.step
  split
  · rename_i hrest
    refine Sound.pushParents hitem hrest _ (h.withWhole hitem hrest) ?_
    intro parent hparent
    split at hparent
    · rename_i column hcolumn
      obtain ⟨hlt, rfl⟩ := Array.getElem?_eq_some_iff.mp hcolumn
      exact hcolumns.sound item.origin hlt parent hparent
    · cases hparent
  · rename_i d rest hrest
    have hforCategory : ∀ i ∈ item :: c.column.forCategory, i.Sound before := by
      intro i hi
      rcases List.mem_cons.mp hi with rfl | hi
      · exact hitem
      · exact h.forCategory i hi
    dsimp only
    split
    · exact ⟨h.agenda, hforCategory, h.forToken, h.whole⟩
    · refine ⟨?_, hforCategory, h.forToken, h.whole⟩
      intro i hi
      rcases List.mem_append.mp hi with hi | hi
      · refine Item.sound_of_mem_start (fun hd => ?_) (fun t ht => ?_) hi
        · -- no right-hand side names the whole file
          have hinner := hitem.inner
          rw [hrest] at hinner
          exact absurd (by rw [hd]; rfl) (hinner _ List.mem_cons_self)
        · exact ⟨_, _, hrest ▸ hitem.behind t ht⟩
      · exact h.agenda i hi
  · refine ⟨h.agenda, h.forCategory, ?_, h.whole⟩
    intro i hi
    rcases List.mem_cons.mp hi with rfl | hi
    · exact hitem
    · exact h.forToken i hi

theorem Sound.run {before : List Token} {columns : Array Column}
    (hcolumns : SoundColumns before columns) (fuel : Nat) :
    ∀ {c : Closing}, c.Sound before →
      ∃ c' : Closing, c'.Sound before ∧ run columns before.length fuel c = c'.column := by
  induction fuel with
  | zero => exact fun {c} h => ⟨c, h, rfl⟩
  | succ fuel ih =>
    intro c h
    cases hagenda : c.agenda with
    | nil => exact ⟨c, h, by simp only [Closing.run, hagenda]⟩
    | cons item rest =>
      have hitem := h.agenda item (by rw [hagenda]; exact List.mem_cons_self)
      have hpopped : ({ c with agenda := rest } : Closing).Sound before :=
        ⟨fun i hi => h.agenda i (by rw [hagenda]; exact List.mem_cons_of_mem _ hi),
          h.forCategory, h.forToken, h.whole⟩
      simp only [Closing.run, hagenda]
      exact ih (hpopped.step hcolumns hitem)

end Closing

/-- A column closed over sound items is sound. -/
theorem Chart.sound_close {before : List Token} {columns : Array Column} {items : List Item}
    (hcolumns : SoundColumns before columns) (hitems : ∀ item ∈ items, item.Sound before) :
    ∃ c : Closing, c.Sound before ∧ close columns items = c.column := by
  have hstart : Closing.Sound before ⟨[], [], 0, {}⟩ :=
    { agenda := fun _ h => absurd h List.not_mem_nil
      forCategory := fun _ h => absurd h List.not_mem_nil
      forToken := fun _ h => absurd h List.not_mem_nil
      whole := fun _ h => by cases h }
  unfold close
  rw [hcolumns.size_eq]
  exact (hstart.pushAll items hitems).run hcolumns _

theorem SoundColumns.push {before : List Token} {columns : Array Column} {c : Closing} {t : Token}
    (h : SoundColumns before columns) (hc : c.Sound before) :
    SoundColumns (before ++ [t]) (columns.push c.column) := by
  refine ⟨by simp [h.size_eq], ?_⟩
  intro i hi item hitem
  rw [Array.getElem_push] at hitem
  split at hitem
  · rename_i hlt
    rw [List.take_append_of_le_length (h.size_eq ▸ Nat.le_of_lt hlt)]
    exact h.sound i hlt item hitem
  · rename_i hlt
    have hi' : i = before.length := by
      rw [Array.size_push, h.size_eq] at hi
      rw [h.size_eq] at hlt
      omega
    rw [hi', List.take_left]
    exact hc.forCategory item hitem

/-- **What a scan leaves at its end reads all its tokens.** -/
theorem Scans.sound {columns : Array Column} {items : List Item} {state : Lexer.State}
    {ts : List Token} {result : Option Tree} (h : Scans columns items state ts result) :
    ∀ {before : List Token}, SoundColumns before columns →
      (∀ item ∈ items, item.Sound before) → ∀ tree, result = some tree →
        ∃ rhs ∈ rules .compilationUnit, ∃ us,
          tree = .node .compilationUnit us ∧ Reads rhs (before ++ ts) us := by
  induction h with
  | finished next =>
    intro before hcolumns hitems tree htree
    obtain ⟨c, hc, hclose⟩ := Chart.sound_close hcolumns hitems
    rw [hclose] at htree
    rw [List.append_nil]
    exact hc.whole tree htree
  | @token columns items state state' t ts result next goes rest ih =>
    intro before hcolumns hitems tree htree
    obtain ⟨c, hc, hclose⟩ := Chart.sound_close hcolumns hitems
    rw [hclose] at ih
    have hnext : ∀ item ∈ c.column.forToken.flatMap (Item.afterToken t),
        item.Sound (before ++ [t]) := by
      intro item hitem
      obtain ⟨parent, hparent, hitem⟩ := List.mem_flatMap.mp hitem
      exact (hc.forToken parent hparent).afterToken hitem
    have := ih (hcolumns.push (t := t) hc) hnext tree htree
    rwa [List.append_assoc] at this

end TestScaffold.CSharp
