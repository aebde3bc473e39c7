/-
  TestScaffold/Proofs/CSharp/Completeness.lean
  ============================================
  **A text whose tokens are derived has a tree.**

  A chart whose columns are closed follows every derivation: where a derivation
  goes, an item goes with it.  So at every boundary of a derived text the chart
  waits for the next terminal, which is what the lexer needs to know to read the
  next token as that terminal; and at its end the chart holds the whole text.
-/
import TestScaffold.Proofs.CSharp.Closing

namespace TestScaffold.CSharp

open Grammar

/-! ### Following a derivation -/

/-- What items say at the boundaries of a word up to the `n`th, closed under predicting,
    completing and reading the next terminal. -/
structure Charts (word : List Terminal) (n : Nat)
    (said : Nat → Category × List Part × Nat → Prop) : Prop where
  predict : ∀ i ≤ n, ∀ c d rest o, said i (c, .one (.category d) :: rest, o) →
    ∀ rhs ∈ rules d, ∀ way ∈ unfold rhs, said i (d, way, i)
  complete : ∀ i j, i < j → j ≤ n → ∀ c d rest o, said i (c, .one (.category d) :: rest, o) →
    said j (d, [], i) → ∀ way ∈ unfold rest, said j (c, way, o)
  scan : ∀ i < n, ∀ c x rest o, word[i]? = some x → said i (c, .one (.token x) :: rest, o) →
    ∀ way ∈ unfold rest, said (i + 1) (c, way, o)

namespace Charts

variable {word : List Terminal} {n : Nat} {said : Nat → Category × List Part × Nat → Prop}

/-- **What is derived behind an item completes it.** -/
theorem reaches (h : Charts word n said) {parts : List Part} {xs : List Terminal}
    (hder : Derives parts xs) : ∀ {i : Nat} {c : Category} {o : Nat}, Inner parts →
      xs <+: word.drop i → i + xs.length ≤ n → (∀ way ∈ unfold parts, said i (c, way, o)) →
      said (i + xs.length) (c, [], o) := by
  induction hder with
  | done way =>
    intro i c o _ _ _ hsaid
    exact hsaid [] way
  | @token parts rest x xs way tail ih =>
    intro i c o hinner hword hle hsaid
    obtain ⟨more, hmore⟩ := hword
    have hx : word[i]? = some x := by
      rw [← List.head?_drop, ← hmore]
      rfl
    have hxs : xs <+: word.drop (i + 1) := by
      refine ⟨more, ?_⟩
      rw [← List.drop_drop, ← hmore]
      rfl
    simp only [List.length_cons] at hle ⊢
    have hnext := ih (hinner.of_mem_unfold way).tail hxs (by omega)
      (h.scan i (by omega) c x rest o hx (hsaid _ way))
    rwa [Nat.add_right_comm, Nat.add_assoc] at hnext
  | @category parts rest rhs d xs ys way rule head tail ihHead ihTail =>
    intro i c o hinner hword hle hsaid
    obtain ⟨more, hmore⟩ := hword
    have hxs : xs <+: word.drop i := ⟨ys ++ more, by rw [← hmore, List.append_assoc]⟩
    have hys : ys <+: word.drop (i + xs.length) := by
      refine ⟨more, ?_⟩
      rw [← List.drop_drop, ← hmore, List.append_assoc, List.drop_left]
    simp only [List.length_append] at hle ⊢
    have hrhs : Inner rhs := fun part hpart => symbol_ne_compilationUnit rule hpart
    have hd : d ≠ .compilationUnit := fun e =>
      hinner.of_mem_unfold way _ List.mem_cons_self (by rw [e]; rfl)
    have hne : xs ≠ [] := head.ne_nil hrhs ((rules_needed d).resolve_left hd rhs rule)
    have hpos : 0 < xs.length := List.length_pos_iff.mpr hne
    have hcomplete : said (i + xs.length) (d, [], i) :=
      ihHead hrhs hxs (by omega) (h.predict i (by omega) c d rest o (hsaid _ way) rhs rule)
    have hnext := ihTail (hinner.of_mem_unfold way).tail hys (by omega)
      (h.complete i (i + xs.length) (by omega) (by omega) c d rest o (hsaid _ way) hcomplete)
    rwa [Nat.add_assoc] at hnext

/-- **Where a derivation goes on, an item waits for its next terminal.** -/
theorem waits (h : Charts word n said) {parts : List Part} {xs : List Terminal}
    (hder : Derives parts xs) : ∀ {i : Nat} {c : Category} {o : Nat}, Inner parts →
      xs <+: word.drop i → i ≤ n → n < i + xs.length → (∀ way ∈ unfold parts, said i (c, way, o)) →
      ∃ c' x rest o', word[n]? = some x ∧ said n (c', .one (.token x) :: rest, o') := by
  induction hder with
  | done way =>
    intro i c o _ _ hle hlt
    simp only [List.length_nil] at hlt
    omega
  | @token parts rest x xs way tail ih =>
    intro i c o hinner hword hle hlt hsaid
    obtain ⟨more, hmore⟩ := hword
    have hx : word[i]? = some x := by
      rw [← List.head?_drop, ← hmore]
      rfl
    by_cases hi : i = n
    · subst hi
      exact ⟨c, x, rest, o, hx, hsaid _ way⟩
    · have hxs : xs <+: word.drop (i + 1) := by
        refine ⟨more, ?_⟩
        rw [← List.drop_drop, ← hmore]
        rfl
      simp only [List.length_cons] at hlt
      exact ih (hinner.of_mem_unfold way).tail hxs (by omega) (by omega)
        (h.scan i (by omega) c x rest o hx (hsaid _ way))
  | @category parts rest rhs d xs ys way rule head tail ihHead ihTail =>
    intro i c o hinner hword hle hlt hsaid
    obtain ⟨more, hmore⟩ := hword
    have hxs : xs <+: word.drop i := ⟨ys ++ more, by rw [← hmore, List.append_assoc]⟩
    have hys : ys <+: word.drop (i + xs.length) := by
      refine ⟨more, ?_⟩
      rw [← List.drop_drop, ← hmore, List.append_assoc, List.drop_left]
    simp only [List.length_append] at hlt
    have hrhs : Inner rhs := fun part hpart => symbol_ne_compilationUnit rule hpart
    have hd : d ≠ .compilationUnit := fun e =>
      hinner.of_mem_unfold way _ List.mem_cons_self (by rw [e]; rfl)
    have hpredict := h.predict i hle c d rest o (hsaid _ way) rhs rule
    by_cases hn : n < i + xs.length
    · exact ihHead hrhs hxs hle hn hpredict
    · have hne : xs ≠ [] := head.ne_nil hrhs ((rules_needed d).resolve_left hd rhs rule)
      have hpos : 0 < xs.length := List.length_pos_iff.mpr hne
      have hcomplete := h.reaches head hrhs hxs (by omega) hpredict
      exact ihTail (hinner.of_mem_unfold way).tail hys (by omega) (by omega)
        (h.complete i (i + xs.length) (by omega) (by omega) c d rest o (hsaid _ way) hcomplete)

end Charts

/-! ### The columns of a scan -/

/-- The items that are carried to a boundary. -/
def carried (ts : List Token) (columns : Array Column) : Nat → List Item
  | 0 => Item.start 0 .compilationUnit
  | i + 1 =>
    match columns[i]?, ts[i]? with
    | some column, some t => column.forToken.flatMap (Item.afterToken t)
    | _, _ => []

/-- Columns that were closed one after the other over tokens; `looked i` holds the items looked
    at in the column `i`. -/
def ClosedColumns (ts : List Token) (columns : Array Column) (looked : Nat → List Item) : Prop :=
  ∀ i (h : i < columns.size),
    columns[i].Closed (columns.extract 0 i) (carried ts columns i) (looked i)

/-- Some item of the list says this. -/
def Says (items : List Item) (key : Category × List Part × Nat) : Prop :=
  ∃ l ∈ items, l.key = key

theorem Says.exists {items : List Item} {c : Category} {rest : List Part} {o : Nat}
    (h : Says items (c, rest, o)) :
    ∃ l ∈ items, l.category = c ∧ l.rest = rest ∧ l.origin = o := by
  obtain ⟨l, hl, hkey⟩ := h
  simp only [Item.key, Prod.mk.injEq] at hkey
  exact ⟨l, hl, hkey⟩

/-- The items behind a category, one for each way to go on. -/
theorem Item.mem_afterCategory {item : Item} {d : Category} {rest way : List Part}
    (subtrees : List Tree) (hrest : item.rest = .one (.category d) :: rest)
    (hway : way ∈ unfold rest) :
    { item with rest := way, read := subtrees ++ item.read } ∈
      item.afterCategory d subtrees := by
  unfold Item.afterCategory
  rw [hrest]
  simp only [if_true]
  exact List.mem_map.mpr ⟨way, hway, rfl⟩

/-- The items behind a token, one for each way to go on. -/
theorem Item.mem_afterToken {item : Item} {x : Terminal} {rest way : List Part} {t : Token}
    (hrest : item.rest = .one (.token x) :: rest) (hfits : t.fits x = true)
    (hway : way ∈ unfold rest) :
    { item with rest := way, read := .leaf t :: item.read } ∈ item.afterToken t := by
  unfold Item.afterToken
  rw [hrest]
  simp only [hfits, if_true]
  exact List.mem_map.mpr ⟨way, hway, rfl⟩

/-- Closed columns follow derivations. -/
theorem ClosedColumns.charts {ts : List Token} {columns : Array Column} {n : Nat}
    {looked : Nat → List Item} {word : List Terminal} (h : ClosedColumns ts columns looked)
    (hsize : columns.size = n + 1) (hfits : List.Forall₂ (fun t x => t.fits x = true) ts word) :
    Charts word n fun i => Says (looked i) where
  predict := by
    intro i hi c d rest o hstands rhs hrule way hway
    obtain ⟨l, hl, _, hrest, _⟩ := hstands.exists
    have hsub := ((h i (by omega)).predicted l hl d rest hrest).2
    rw [Array.size_extract, Nat.min_eq_left (by omega), Nat.sub_zero] at hsub
    refine ⟨⟨d, way, i, []⟩, hsub (List.mem_flatMap.mpr ⟨rhs, hrule, ?_⟩), rfl⟩
    exact List.mem_map.mpr ⟨way, hway, rfl⟩
  complete := by
    intro i j hij hj c d rest o hstands hcomplete way hway
    obtain ⟨l, hl, rfl, hrest, rfl⟩ := hstands.exists
    obtain ⟨l', hl', rfl, hrest', rfl⟩ := hcomplete.exists
    have hparent := ((h l'.origin (by omega)).predicted l hl _ rest hrest).1
    refine (h j (by omega)).completed l' hl' hrest' columns[l'.origin] ?_ l hparent _
      (Item.mem_afterCategory _ hrest hway)
    rw [Array.getElem?_extract, if_pos (by omega), Nat.zero_add]
    exact Array.getElem?_eq_getElem (by omega)
  scan := by
    intro i hi c x rest o hx hstands way hway
    obtain ⟨l, hl, rfl, hrest, rfl⟩ := hstands.exists
    have hwaits := (h i (by omega)).forToken l hl x rest hrest
    obtain ⟨hlt, rfl⟩ := List.getElem?_eq_some_iff.mp hx
    have hlt' : i < ts.length := by rw [hfits.length_eq]; exact hlt
    have hfit : ts[i].fits word[i] = true := hfits.get hlt' hlt
    refine (h (i + 1) (by omega)).carried { l with rest := way, read := .leaf ts[i] :: l.read } ?_
    simp only [carried, Array.getElem?_eq_getElem (show i < columns.size by omega),
      List.getElem?_eq_getElem hlt']
    exact List.mem_flatMap.mpr ⟨l, hwaits, Item.mem_afterToken hrest hfit hway⟩

/-! ### The format of a hole -/

/-- Whether parts that begin with a format are the last of a right-hand side behind a colon. -/
def isFormatLast (rhs : List Part) : List Part → Bool
  | .one (.token .format) :: rest => rhs == [m .colon, t .format] && rest == []
  | _ => true

/-- Only behind a colon may a format follow. -/
theorem eq_of_format_mem_reach {c : Category} {rhs : List Part} {rest : List Part}
    (hrule : rhs ∈ rules c) (hreach : .one (.token .format) :: rest ∈ reach rhs) :
    rhs = [m .colon, t .format] ∧ rest = [] := by
  have h := Category.of_all (p := fun c => (rules c).all fun rhs => (reach rhs).all
    (isFormatLast rhs)) (by decide) c
  have hway := List.all_eq_true.mp (List.all_eq_true.mp h rhs hrule) _ hreach
  simpa only [isFormatLast, Bool.and_eq_true, beq_iff_eq] using hway

/-- Where no colon has been read, no format is waited for. -/
theorem Item.Sound.not_wants_format {before : List Token} {item : Item} (h : item.Sound before)
    (hcolon : ∀ t ∈ before, t.role ≠ .mark .colon) : item.wants .format = false := by
  cases hwants : item.wants .format with
  | false => rfl
  | true =>
    unfold Item.wants at hwants
    split at hwants
    · rename_i x rest hrest
      rw [beq_iff_eq] at hwants
      subst hwants
      obtain ⟨rhs, hrule, hreach, hcompletes⟩ := h.completes
      rw [hrest] at hreach hcompletes
      obtain ⟨rfl, rfl⟩ := eq_of_format_mem_reach hrule hreach
      -- a token that would complete the item stands behind the colon that has been read
      have hreads := hcompletes [⟨[], .other [], .format⟩] _
        (.token (List.mem_singleton.mpr rfl) rfl .nil)
      obtain ⟨colon, ts, us, hts, _, hfits, hrest'⟩ := hreads.of_cons_token
      obtain ⟨format, ts', us', rfl, _, _, hnil⟩ := hrest'.of_cons_token
      obtain ⟨rfl, _⟩ := hnil.of_nil
      have hmem : colon ∈ before := by
        refine List.mem_of_mem_drop (i := item.origin) ?_
        have hsplit : before.drop item.origin ++ [_] = [colon] ++ [format] := hts
        rw [(List.append_inj' hsplit rfl).1]
        exact List.mem_singleton.mpr rfl
      exact absurd (by simpa [Token.fits] using hfits) (hcolon colon hmem)
    · cases hwants

/-! ### Scanning a derived text -/

/-- What is waited for where a token `before?` has been read last: no format, and nothing that may
    not follow the token. -/
structure Apt (before? : Option Token) (wants : Terminal → Bool) : Prop where
  format : wants .format = false
  follows : ∀ t, before? = some t → ∀ x, wants x = true → MayFollow t.role x

/-- Behind a token `before?`, the lexer reads these tokens, as long as their keywords are waited
    for. -/
inductive Spells : Option Token → Lexer.State → List Token → Prop where
  | finished {before? : Option Token} {state : Lexer.State}
      (next : ∀ wants : Terminal → Bool, Apt before? wants →
        Lexer.next wants state = .finished) : Spells before? state []
  | token {before? : Option Token} {state state' : Lexer.State} {t : Token} {ts : List Token}
      (next : ∀ wants : Terminal → Bool, Apt before? wants →
        (∀ k, t.role = .keyword k → wants t.role = true) →
          Lexer.next wants state = .token t state')
      (shorter : state'.ahead.length < state.ahead.length) (rest : Spells (some t) state' ts) :
      Spells before? state (t :: ts)

theorem Spells.length_le {before? : Option Token} {state : Lexer.State} {ts : List Token}
    (h : Spells before? state ts) : ts.length ≤ state.ahead.length := by
  induction h with
  | finished next => exact Nat.zero_le _
  | token next shorter rest ih =>
    simp only [List.length_cons]
    omega

theorem unfold_ne_nil (parts : List Part) : unfold parts ≠ [] := by
  induction parts with
  | nil => exact List.cons_ne_nil _ _
  | cons part rest ih => cases part <;> exact List.cons_ne_nil _ _

/-- One more closed column. -/
theorem ClosedColumns.push {ts : List Token} {columns : Array Column} {looked : Nat → List Item}
    {column : Column} {new : List Item} (h : ClosedColumns ts columns looked)
    (hnew : column.Closed columns (carried ts columns columns.size) new) :
    ClosedColumns ts (columns.push column) fun i => if i = columns.size then new else looked i := by
  have hcarried : ∀ i ≤ columns.size, carried ts (columns.push column) i = carried ts columns i := by
    intro i hi
    cases i with
    | zero => rfl
    | succ i => simp only [carried, Array.getElem?_push, if_neg (show ¬ i = columns.size by omega)]
  intro i hi
  rw [Array.size_push] at hi
  rw [hcarried i (by omega)]
  by_cases hlast : i = columns.size
  · subst hlast
    simpa using hnew
  · have hlt : i < columns.size := by omega
    have hold := h i hlt
    simp only [if_neg hlast, Array.getElem_push, dif_pos hlt]
    have hextract : (columns.push column).extract 0 i = columns.extract 0 i := by
      rw [Array.extract_push_of_le]
      omega
    rw [hextract]
    exact hold

/-- A token that a keyword is read as is just that keyword. -/
theorem Token.eq_of_fits_of_keyword {t : Token} {x : Terminal} {k : Keyword}
    (hrole : t.role = .keyword k) (hfits : t.fits x = true) : x = .keyword k := by
  cases x with
  | joined m =>
    simp only [Token.fits, hrole, Bool.and_eq_true, beq_iff_eq] at hfits
    cases hfits.1
  | _ =>
    simp only [Token.fits, hrole, beq_iff_eq] at hfits
    exact hfits.symm

/-- What a closed column waits for. -/
theorem Column.wants_of_says {columns : Array Column} {items looked : List Item} {column : Column}
    (h : column.Closed columns items looked) {c : Category} {x : Terminal} {rest : List Part}
    {o : Nat} (hstands : Says looked (c, .one (.token x) :: rest, o)) :
    column.wants x = true ∧ ∀ t : Token, t.fits x = true →
      column.forToken.flatMap (Item.afterToken t) ≠ [] := by
  obtain ⟨l, hl, _, hrest, _⟩ := hstands.exists
  have hmem := h.forToken l hl x rest hrest
  constructor
  · refine List.any_eq_true.mpr ⟨l, hmem, ?_⟩
    simp [Item.wants, hrest]
  · intro t hfits hnil
    obtain ⟨way, hway⟩ := List.exists_mem_of_ne_nil _ (unfold_ne_nil rest)
    have hnext := List.mem_flatMap.mpr ⟨l, hmem, Item.mem_afterToken hrest hfits hway⟩
    rw [hnil] at hnext
    cases hnext

/-- A column closed over sound items waits for what is apt. -/
theorem Closing.Sound.apt {before : List Token} {c : Closing} (h : c.Sound before)
    (hcolon : ∀ t ∈ before, t.role ≠ .mark .colon) : Apt before.getLast? c.column.wants where
  format := by
    refine List.any_eq_false.mpr fun item hitem => ?_
    rw [(h.forToken item hitem).not_wants_format hcolon]
    exact Bool.false_ne_true
  follows := by
    intro t ht x hwants
    obtain ⟨item, hitem, hwaits⟩ := List.any_eq_true.mp hwants
    unfold Item.wants at hwaits
    split at hwaits
    · rename_i y rest hrest
      rw [beq_iff_eq] at hwaits
      subst hwaits
      exact ⟨_, _, hrest ▸ (h.forToken item hitem).behind t ht⟩
    · cases hwaits

/-- The items of the next column say what the derivation asks for, and it waits for what is apt. -/
theorem exists_closed_column {ts before more : List Token} {word : List Terminal} {rhs : List Part}
    {columns : Array Column} {looked : Nat → List Item} (hrule : rhs ∈ rules .compilationUnit)
    (hfits : List.Forall₂ (fun t x => t.fits x = true) ts word)
    (hcolon : ∀ t ∈ ts, t.role ≠ .mark .colon) (hts : ts = before ++ more)
    (hcolumns : SoundColumns before columns) (hclosed : ClosedColumns ts columns looked)
    (hitems : ∀ item ∈ carried ts columns columns.size, item.Sound before) :
    ∃ looked' : Nat → List Item,
      (Chart.close columns (carried ts columns columns.size)).Closed columns
          (carried ts columns columns.size) (looked' columns.size) ∧
        ClosedColumns ts
          (columns.push (Chart.close columns (carried ts columns columns.size))) looked' ∧
        Charts word columns.size (fun i => Says (looked' i)) ∧
        (∀ way ∈ unfold rhs, Says (looked' 0) (.compilationUnit, way, 0)) ∧
        Apt before.getLast? (Chart.close columns (carried ts columns columns.size)).wants := by
  obtain ⟨new, hnew⟩ := Chart.closed_close hcolumns hitems
  obtain ⟨c, hc, hclose⟩ := Chart.sound_close hcolumns hitems
  have hpush := hclosed.push hnew
  refine ⟨_, ?_, hpush, hpush.charts (Array.size_push _) hfits, ?_, ?_⟩
  · simpa using hnew
  · intro way hway
    refine (hpush 0 (by simp)).carried ⟨.compilationUnit, way, 0, []⟩ ?_
    exact List.mem_flatMap.mpr ⟨rhs, hrule, List.mem_map.mpr ⟨way, hway, rfl⟩⟩
  · rw [hclose]
    exact hc.apt fun t ht => hcolon t (by rw [hts]; exact List.mem_append_left _ ht)

/-- **The scan of a derived text takes its tokens one by one**, from any boundary on, and ends
    with a tree. -/
theorem Scans.exists_of_spells {ts : List Token} {word : List Terminal} {rhs : List Part}
    (hrule : rhs ∈ rules .compilationUnit) (hder : Derives rhs word)
    (hfits : List.Forall₂ (fun t x => t.fits x = true) ts word)
    (hcolon : ∀ t ∈ ts, t.role ≠ .mark .colon) {before? : Option Token} {state : Lexer.State}
    {rest : List Token} (hspells : Spells before? state rest) :
    ∀ (before : List Token) (columns : Array Column) (looked : Nat → List Item),
      before? = before.getLast? → ts = before ++ rest → SoundColumns before columns →
      ClosedColumns ts columns looked → (∀ item ∈ carried ts columns columns.size, item.Sound before) →
      ∃ tree, Scans columns (carried ts columns columns.size) state rest (some tree) := by
  have hinner : Inner rhs := fun part hpart => symbol_ne_compilationUnit hrule hpart
  induction hspells with
  | @finished before? state next =>
    intro before columns looked hbefore hts hcolumns hclosed hitems
    obtain ⟨looked', hnew, _, hcharts, hstart, hapt⟩ :=
      exists_closed_column hrule hfits hcolon hts hcolumns hclosed hitems
    have hlength : word.length = columns.size := by
      rw [hcolumns.size_eq, ← hfits.length_eq, hts, List.append_nil]
    have hstands := hcharts.reaches (i := 0) hder hinner (List.prefix_refl _)
      (Nat.le_of_eq (by rw [Nat.zero_add, hlength])) hstart
    rw [Nat.zero_add, hlength] at hstands
    obtain ⟨l, hl, hcategory, hrest, _⟩ := hstands.exists
    obtain ⟨tree, htree⟩ := Option.isSome_iff_exists.mp (hnew.whole l hl hrest hcategory)
    exact ⟨tree, htree ▸ .finished (next _ (hbefore ▸ hapt))⟩
  | @token before? state state' t rest next shorter spelled ih =>
    intro before columns looked hbefore hts hcolumns hclosed hitems
    obtain ⟨looked', hnew, hclosed', hcharts, hstart, hapt⟩ :=
      exists_closed_column hrule hfits hcolon hts hcolumns hclosed hitems
    have hlength : columns.size < word.length := by
      rw [hcolumns.size_eq, ← hfits.length_eq, hts]
      simp
    obtain ⟨c, x, more, o, hx, hstands⟩ := hcharts.waits (i := 0) hder hinner (List.prefix_refl _)
      (Nat.zero_le _) (by rw [Nat.zero_add]; exact hlength) hstart
    have ht : ts[columns.size]? = some t := by
      rw [hcolumns.size_eq, hts, List.getElem?_append_right (Nat.le_refl _), Nat.sub_self]
      rfl
    have hfit : t.fits x = true := by
      obtain ⟨hlt, rfl⟩ := List.getElem?_eq_some_iff.mp hx
      obtain ⟨hlt', rfl⟩ := List.getElem?_eq_some_iff.mp ht
      exact hfits.get hlt' hlt
    obtain ⟨hwants, hgoes⟩ := Column.wants_of_says hnew hstands
    have hnext := next _ (hbefore ▸ hapt) fun k hk => by
      rw [hk, ← Token.eq_of_fits_of_keyword hk hfit]
      exact hwants
    obtain ⟨closing, hclosing, hclose⟩ := Chart.sound_close hcolumns hitems
    have hcarried : carried ts
        (columns.push (Chart.close columns (carried ts columns columns.size)))
        (columns.push (Chart.close columns (carried ts columns columns.size))).size =
        (Chart.close columns (carried ts columns columns.size)).forToken.flatMap
          (Item.afterToken t) := by
      rw [Array.size_push]
      simp only [carried, Array.getElem?_push_size, ht]
    have hitems' : ∀ item ∈ (Chart.close columns
        (carried ts columns columns.size)).forToken.flatMap (Item.afterToken t),
        item.Sound (before ++ [t]) := by
      rw [hclose]
      intro item hitem
      obtain ⟨parent, hparent, hitem⟩ := List.mem_flatMap.mp hitem
      exact (hclosing.forToken parent hparent).afterToken hitem
    obtain ⟨tree, hscan⟩ := ih (before ++ [t]) _ _ List.getLast?_concat.symm
      (by rw [hts, List.append_assoc]; rfl)
      (by rw [hclose]; exact hcolumns.push hclosing) hclosed' (by rw [hcarried]; exact hitems')
    rw [hcarried] at hscan
    exact ⟨tree, .token hnext (hgoes t hfit) hscan⟩

/-- **A text whose tokens are derived has a tree**, and the tree reads these tokens. -/
theorem Tree.exists_of_spells {cs : List Char} {ts : List Token} {word : List Terminal}
    {rhs : List Part} (hnul : '\x00' ∉ cs) (hspells : Spells none ⟨[], cs⟩ ts)
    (hrule : rhs ∈ rules .compilationUnit) (hder : Derives rhs word)
    (hfits : List.Forall₂ (fun t x => t.fits x = true) ts word)
    (hcolon : ∀ t ∈ ts, t.role ≠ .mark .colon) :
    ∃ us, Tree.ofChars? cs = some (.node .compilationUnit us) ∧
      ∃ rhs' ∈ rules .compilationUnit, Reads rhs' ts us := by
  have hcolumns : SoundColumns [] #[] := ⟨rfl, fun i h => absurd h (Nat.not_lt_zero i)⟩
  have hitems : ∀ item ∈ Item.start 0 .compilationUnit, item.Sound [] :=
    fun item hitem => Item.sound_of_mem_start (fun _ => rfl) (fun _ ht => by cases ht) hitem
  obtain ⟨tree, hscan⟩ := Scans.exists_of_spells hrule hder hfits hcolon hspells [] #[]
    (fun _ => []) rfl rfl hcolumns
    (fun i h => absurd h (Nat.not_lt_zero i)) hitems
  obtain ⟨rhs', hrule', us, rfl, hreads⟩ := hscan.sound hcolumns hitems tree rfl
  refine ⟨us, ?_, rhs', hrule', hreads⟩
  have hlength := hspells.length_le
  unfold Tree.ofChars?
  rw [if_neg (by rw [List.contains_iff_mem]; exact hnul)]
  exact hscan.read_eq (Nat.lt_succ_of_le hlength)

end TestScaffold.CSharp
