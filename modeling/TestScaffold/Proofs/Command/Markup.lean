/-
  TestScaffold/Proofs/Command/Markup.lean
  =======================================
  **A text that was made safe holds no tags.**

  Reading markup fails at a closing tag that closes nothing.  A text made safe
  has no tags at all, whatever it was before, also where more markup follows it
  (`readsPlain_escape`): a backslash stands before every bracket that would begin
  a tag, and a bracket that begins none does not begin one later.  So a safe text
  can be shown, alone or between a tag and its end (`ReadsPlain.render_isOk`,
  `ReadsPlain.render_framed_isOk`).
-/
import TestScaffold.Command.Session

namespace TestScaffold.Command.Markup

/-! ### Tags -/

/-- A tag ends at the first bracket behind its beginning. -/
theorem inside?_eq_some {cs body after : List Char} (h : inside? cs = some (body, after)) :
    cs = body ++ ']' :: after ∧ ∀ more, inside? (body ++ ']' :: more) = some (body, more) := by
  induction cs generalizing body with
  | nil => cases h
  | cons c rest ih =>
    simp only [inside?] at h
    split at h
    · rename_i hclose
      cases h
      simp_all [inside?]
    · rename_i hclose
      split at h
      · cases h
      · rename_i hopen
        obtain ⟨⟨tag, after'⟩, htag, heq⟩ := Option.map_eq_some_iff.mp h
        cases heq
        obtain ⟨rfl, hmore⟩ := ih htag
        exact ⟨rfl, fun more => by simp [inside?, hclose, hopen, hmore]⟩

theorem inside?_backslashes (n : Nat) (cs : List Char) (h : inside? cs = none) :
    inside? (List.replicate n '\\' ++ cs) = none := by
  induction n with
  | zero => exact h
  | succ n ih => simp [List.replicate_succ, inside?, ih]

/-- A tag needs an end, so characters that have none begin no tag. -/
theorem tag?_of_inside? {cs : List Char} (h : inside? cs = none) : tag? cs = none := by
  cases cs with
  | nil => rfl
  | cons c rest =>
    simp only [tag?, h]
    split <;> rfl

/-! ### Safe texts -/

/-- The characters of a tag are copied as they are. -/
theorem escapeFrom_skip (skip : Nat) :
    ∀ cs : List Char, skip ≤ cs.length →
      escapeFrom 0 skip cs = cs.take skip ++ escapeFrom 0 0 (cs.drop skip) := by
  induction skip with
  | zero => simp
  | succ skip ih =>
    intro cs hskip
    cases cs with
    | nil => simp at hskip
    | cons c rest => simp [escapeFrom, ih rest (Nat.le_of_succ_le_succ hskip)]

/-- Making a text safe gives no tag its end. -/
theorem inside?_escapeFrom {tail : List Char} (htail : inside? tail = none) :
    ∀ (cs : List Char) (slashes : Nat), inside? cs = none →
      inside? (escapeFrom slashes 0 cs ++ tail) = none
  | [], slashes, _ => inside?_backslashes _ _ htail
  | c :: rest, slashes, h => by
    simp only [escapeFrom]
    by_cases hslash : c = '\\'
    · subst hslash
      have hrest : inside? rest = none := by simpa [inside?] using h
      simpa using inside?_escapeFrom htail rest (slashes + 1) hrest
    · by_cases hopen : c = '['
      · subst hopen
        simp only [beq_self_eq_true, if_true, hslash, beq_iff_eq, if_false]
        cases tag? rest <;> simp [List.append_assoc, inside?_backslashes, inside?]
      · have hrest : c ≠ ']' ∧ inside? rest = none := by
          by_cases hclose : c = ']' <;> simp_all [inside?]
        have ih := inside?_escapeFrom htail rest 0 hrest.2
        simp only [hslash, hopen, beq_iff_eq, if_false, List.append_assoc, List.cons_append]
        refine inside?_backslashes _ _ ?_
        simp [inside?, hrest.1, hopen, ih]

theorem exists_escapeFrom_backslash (slashes : Nat) (cs : List Char) :
    ∃ more, escapeFrom (slashes + 1) 0 cs = '\\' :: more := by
  induction cs generalizing slashes with
  | nil => exact ⟨_, List.replicate_succ⟩
  | cons c rest ih =>
    simp only [escapeFrom]
    by_cases hslash : c = '\\'
    · subst hslash
      exact ih (slashes + 1)
    · simp only [hslash, beq_iff_eq, if_false]
      cases if c = '[' then tag? rest else none with
      | none => exact ⟨_, by rw [List.replicate_succ, List.cons_append]⟩
      | some found => exact ⟨_, by dsimp only; rw [List.replicate_succ, List.cons_append]⟩

/-- A safe text begins as the text does, or with a backslash. -/
theorem exists_escapeFrom_head (c : Char) (rest : List Char) :
    ∃ more, escapeFrom 0 0 (c :: rest) = c :: more ∨ escapeFrom 0 0 (c :: rest) = '\\' :: more := by
  by_cases hslash : c = '\\'
  · obtain ⟨more, hmore⟩ := exists_escapeFrom_backslash 0 rest
    exact ⟨more, Or.inr (by simpa [escapeFrom, hslash] using hmore)⟩
  · simp only [escapeFrom, hslash, beq_iff_eq, if_false]
    cases if c = '[' then tag? rest else none with
    | none => exact ⟨_, Or.inl rfl⟩
    | some found => exact ⟨_, Or.inr rfl⟩

/-- A bracket that begins no tag does not begin one in the safe text. -/
theorem tag?_escapeFrom {tail : List Char} (htail : inside? tail = none) {cs : List Char}
    (h : tag? cs = none) : tag? (escapeFrom 0 0 cs ++ tail) = none := by
  cases cs with
  | nil => exact tag?_of_inside? htail
  | cons c rest =>
    by_cases hbegin : mayBegin c = true
    · simp only [tag?, hbegin, if_true] at h
      exact tag?_of_inside? (inside?_escapeFrom htail (c :: rest) 0 h)
    · obtain ⟨more, hmore | hmore⟩ := exists_escapeFrom_head c rest
      · simp [hmore, tag?, hbegin]
      · simp [hmore, tag?, mayBegin]

/-- A bracket that begins a tag begins the same tag in the safe text, where it is copied. -/
theorem tag?_copied (tail : List Char) {cs body after : List Char}
    (h : tag? cs = some (body, after)) :
    body.length + 1 ≤ cs.length ∧
      ∃ more, tag? (escapeFrom 0 (body.length + 1) cs ++ tail) = some (body, more) := by
  cases cs with
  | nil => cases h
  | cons c rest =>
    simp only [tag?] at h
    split at h
    · rename_i hbegin
      obtain ⟨hcs, hmore⟩ := inside?_eq_some h
      have hlength : body.length + 1 ≤ (c :: rest).length := by
        rw [hcs, List.length_append, List.length_cons]
        omega
      refine ⟨hlength, escapeFrom 0 0 after ++ tail, ?_⟩
      have hcopied : escapeFrom 0 (body.length + 1) (c :: rest) ++ tail =
          body ++ ']' :: (escapeFrom 0 0 after ++ tail) := by
        rw [escapeFrom_skip _ _ hlength, hcs, List.append_cons,
          List.take_left' (by simp), List.drop_left' (by simp)]
        simp
      rw [hcopied, ← hmore]
      cases body with
      | nil =>
        cases hcs
        exact absurd hbegin (by decide)
      | cons b body =>
        cases hcs
        simp only [List.cons_append, tag?, hbegin, if_true]
    · cases h

/-! ### Parts of safe texts -/

/-- Characters that are shown as they are. -/
abbrev plain (cs : List Char) : List Part := cs.map .text

theorem partsFrom_backslashes (n slashes : Nat) (cs : List Char) :
    partsFrom slashes 0 (List.replicate n '\\' ++ cs) = partsFrom (slashes + n) 0 cs := by
  induction n generalizing slashes with
  | zero => rfl
  | succ n ih =>
    simp only [List.replicate_succ, List.cons_append, partsFrom, beq_self_eq_true, if_true, ih]
    congr 1
    omega

/-- The induction is on the text, with the backslashes that are held back and the characters of a
tag that are still to be copied: reading the safe text is in step with making it. -/
theorem partsFrom_escapeFrom {tail : List Char} (htail : inside? tail = none) :
    ∀ (cs : List Char) (slashes skip : Nat), skip ≤ cs.length → (skip = 0 ∨ slashes = 0) →
      ∃ shown left, partsFrom 0 skip (escapeFrom slashes skip cs ++ tail) =
        plain shown ++ partsFrom left 0 tail
  | [], slashes, skip, hskip, _ => by
    cases Nat.le_zero.mp hskip
    exact ⟨[], slashes, by simp [escapeFrom, partsFrom_backslashes]⟩
  | c :: rest, slashes, skip + 1, hskip, hslashes => by
    obtain ⟨shown, left, hparts⟩ := partsFrom_escapeFrom htail rest 0 skip
      (Nat.le_of_succ_le_succ hskip) (Or.inr rfl)
    exact ⟨shown, left, by simpa [escapeFrom, partsFrom] using hparts⟩
  | c :: rest, slashes, 0, _, _ => by
    by_cases hslash : c = '\\'
    · subst hslash
      obtain ⟨shown, left, hparts⟩ := partsFrom_escapeFrom htail rest (slashes + 1) 0
        (Nat.zero_le _) (Or.inl rfl)
      exact ⟨shown, left, by simpa [escapeFrom] using hparts⟩
    · by_cases hopen : c = '['
      · subst hopen
        cases htag : tag? rest with
        | none =>
          obtain ⟨shown, left, hparts⟩ := partsFrom_escapeFrom htail rest 0 0
            (Nat.zero_le _) (Or.inl rfl)
          refine ⟨List.replicate (slashes - 1) '\\' ++ '[' :: shown, left, ?_⟩
          simp [escapeFrom, htag, partsFrom_backslashes, partsFrom, hparts,
            tag?_escapeFrom htail htag]
        | some found =>
          obtain ⟨body, after⟩ := found
          obtain ⟨hlength, more, hcopied⟩ := tag?_copied tail htag
          obtain ⟨shown, left, hparts⟩ := partsFrom_escapeFrom htail rest 0 (body.length + 1)
            hlength (Or.inr rfl)
          refine ⟨List.replicate slashes '\\' ++ '[' :: body ++ ']' :: shown, left, ?_⟩
          have hodd : (2 * slashes + 1) % 2 = 1 := by omega
          have hhalf : (2 * slashes + 1) / 2 = slashes := by omega
          simp [escapeFrom, htag, partsFrom_backslashes, partsFrom, hparts, hcopied, hodd,
            hhalf]
      · obtain ⟨shown, left, hparts⟩ := partsFrom_escapeFrom htail rest 0 0
          (Nat.zero_le _) (Or.inl rfl)
        refine ⟨List.replicate slashes '\\' ++ c :: shown, left, ?_⟩
        simp [escapeFrom, hslash, hopen, partsFrom_backslashes, partsFrom, hparts]

/-- In front of the tail the characters are read as plain ones, with perhaps some backslashes that
are left for the tail. -/
def ReadsPlain (cs tail : List Char) : Prop :=
  ∃ shown left, partsFrom 0 0 (cs ++ tail) = plain shown ++ partsFrom left 0 tail

/-- **A safe text is read as plain characters**, whatever it was before. -/
theorem readsPlain_escape {tail : List Char} (htail : inside? tail = none) (s : String) :
    ReadsPlain (escape s).toList tail := by
  have hparts : ∀ tail, inside? tail = none → ReadsPlain (escapeFrom 0 0 s.toList) tail :=
    fun _ h => partsFrom_escapeFrom h s.toList 0 0 (Nat.zero_le _) (Or.inl rfl)
  -- A backslash that is added at the end is one more of those that are left.
  have hadded : ReadsPlain (escapeFrom 0 0 s.toList ++ ['\\']) tail := by
    obtain ⟨shown, left, h⟩ := hparts ('\\' :: tail) (inside?_backslashes 1 _ htail)
    refine ⟨shown, left + 1, ?_⟩
    rw [List.append_assoc, List.singleton_append, h]
    simp [partsFrom]
  unfold escape
  dsimp only
  split
  · rw [String.toList_ofList]
    exact hadded
  · split
    · rw [String.toList_ofList]
      exact hparts tail htail
    · rw [String.toList_ofList]
      exact hadded
  · rw [String.toList_ofList]
    exact hparts tail htail

/-- A text without opening brackets holds no tags either. -/
theorem readsPlain_of_notMem {cs : List Char} (h : '[' ∉ cs) (tail : List Char) :
    ReadsPlain cs tail := by
  have hparts : ∀ slashes, ∃ shown left,
      partsFrom slashes 0 (cs ++ tail) = plain shown ++ partsFrom left 0 tail := by
    induction cs with
    | nil => exact fun slashes => ⟨[], slashes, rfl⟩
    | cons c rest ih =>
      intro slashes
      obtain ⟨hopen, hrest⟩ := List.ne_and_not_mem_of_not_mem_cons h
      by_cases hslash : c = '\\'
      · subst hslash
        obtain ⟨shown, left, hparts⟩ := ih hrest (slashes + 1)
        exact ⟨shown, left, by simpa [partsFrom] using hparts⟩
      · obtain ⟨shown, left, hparts⟩ := ih hrest 0
        refine ⟨List.replicate slashes '\\' ++ c :: shown, left, ?_⟩
        simp [partsFrom, hslash, Ne.symm hopen, hparts]
  exact hparts 0

/-! ### Showing safe texts -/

theorem textOf_plain (opened : List (List Char)) (shown : List Char) (more : List Part) :
    textOf opened (plain shown ++ more) = (textOf opened more).map (shown ++ ·) := by
  induction shown with
  | nil => cases htext : textOf opened more <;> simp [htext, Except.map]
  | cons c rest ih =>
    simp only [plain, List.map_cons, List.cons_append, textOf] at ih ⊢
    rw [ih]
    cases textOf opened more <;> rfl

theorem textOf_eq_plain (opened : List (List Char)) (shown : List Char) :
    textOf opened (plain shown) = .ok shown := by
  have htext := textOf_plain opened shown []
  rw [List.append_nil] at htext
  rw [htext]
  simp [textOf, Except.map]

/-- The end of the last tag can be read wherever a tag is open. -/
theorem textOf_end_isOk (name : List Char) (opened : List (List Char)) (left : Nat) :
    ∃ text, textOf (name :: opened) (partsFrom left 0 "[/]".toList) = .ok text := by
  have hparts : partsFrom left 0 "[/]".toList =
      plain (List.replicate (left / 2) '\\') ++
        if left % 2 = 1 then plain "[/]".toList else [.tag ['/']] := by
    by_cases hodd : left % 2 = 1 <;> simp [partsFrom, tag?, mayBegin, inside?, hodd]
  rw [hparts, textOf_plain]
  by_cases hodd : left % 2 = 1
  · rw [if_pos hodd, textOf_eq_plain]
    exact ⟨_, rfl⟩
  · rw [if_neg hodd]
    exact ⟨_, rfl⟩

namespace ReadsPlain

/-- Plain characters can be shown. -/
theorem render_isOk {s : String} (h : ReadsPlain s.toList []) : ∃ text, render s = .ok text := by
  obtain ⟨shown, left, hparts⟩ := h
  have hplain : partsFrom 0 0 s.toList = plain (shown ++ List.replicate left '\\') := by
    simpa [partsFrom] using hparts
  exact ⟨_, by simp only [render, hplain, textOf_eq_plain]; rfl⟩

/-- Plain characters can be shown between a tag and its end. -/
theorem render_framed_isOk {tag s : String} (name : List Char)
    (htag : ∀ more, textOf [] (partsFrom 0 0 (tag.toList ++ more)) =
      textOf [name] (partsFrom 0 0 more)) (h : ReadsPlain s.toList "[/]".toList) :
    ∃ text, render (tag ++ s ++ "[/]") = .ok text := by
  obtain ⟨shown, left, hparts⟩ := h
  obtain ⟨text, htext⟩ := textOf_end_isOk name [] left
  have hrender : render (tag ++ s ++ "[/]") =
      (textOf [name] (partsFrom 0 0 (s.toList ++ "[/]".toList))).map String.ofList := by
    simp only [render, String.toList_append, List.append_assoc, htag]
  rw [hrender, hparts, textOf_plain, htext]
  exact ⟨_, rfl⟩

end ReadsPlain

end TestScaffold.Command.Markup
