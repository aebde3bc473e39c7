/-
  TestScaffold/Proofs/Command/Verbatim.lean
  =========================================
  **Which texts the console shows as they stand.**

  Reading markup only takes away: a tag goes as a whole, and so does a backslash in
  front of a bracket.  So the text that is left is never longer
  (`length_le_of_textOf`), and it is the same text if and only if no bracket
  begins a tag or stands behind a backslash (`render_eq_self_iff`).  Of what is
  left, the console drops the characters that move the cursor
  (`shown_eq_self_iff`).
-/
import TestScaffold.Proofs.Command.Screens

namespace TestScaffold.Command

open TestScaffold.Command.Markup

namespace Markup

/-- No bracket in the text begins a tag or stands behind a backslash. `isBehind` tells whether
    the text itself stands behind one. -/
def Untagged (isBehind : Bool) : List Char → Prop
  | [] => True
  | c :: rest => (c = '[' → tag? rest = none ∧ isBehind = false) ∧ Untagged (c == '\\') rest

theorem untagged_of_notMem {cs : List Char} (h : '[' ∉ cs) (isBehind : Bool) :
    Untagged isBehind cs := by
  induction cs generalizing isBehind with
  | nil => trivial
  | cons c rest ih =>
    obtain ⟨hc, hrest⟩ := List.ne_and_not_mem_of_not_mem_cons h
    exact ⟨fun e => absurd e.symm hc, ih hrest _⟩

/-! ### Parts, character by character -/

theorem partsFrom_backslash (slashes : Nat) (rest : List Char) :
    partsFrom slashes 0 ('\\' :: rest) = partsFrom (slashes + 1) 0 rest := by
  simp [partsFrom]

/-- A character that is no sign of markup is shown behind the backslashes that were held back. -/
theorem partsFrom_letter {c : Char} (hslash : c ≠ '\\') (hopen : c ≠ '[') (slashes : Nat)
    (rest : List Char) : partsFrom slashes 0 (c :: rest) =
      plain (List.replicate slashes '\\' ++ [c]) ++ partsFrom 0 0 rest := by
  simp [partsFrom, hslash, hopen]

/-- A bracket that begins no tag takes one backslash away. -/
theorem partsFrom_bracket {rest : List Char} (h : tag? rest = none) (slashes : Nat) :
    partsFrom slashes 0 ('[' :: rest) =
      plain (List.replicate (slashes - 1) '\\' ++ ['[']) ++ partsFrom 0 0 rest := by
  simp [partsFrom, h]

/-- Half of the backslashes in front of a tag are shown, and the tag itself behind an odd one. -/
theorem partsFrom_tag {rest body after : List Char} (h : tag? rest = some (body, after))
    (slashes : Nat) : partsFrom slashes 0 ('[' :: rest) =
      plain (List.replicate (slashes / 2) '\\') ++
        ((if slashes % 2 = 1 then plain ('[' :: body ++ [']']) else [.tag body]) ++
          partsFrom 0 (body.length + 1) rest) := by
  by_cases hodd : slashes % 2 = 1 <;> simp [partsFrom, h, hodd]

/-- Characters without brackets are shown as they stand, once the run of backslashes at their end
    is over. -/
theorem partsFrom_of_notMem {cs : List Char} (h : '[' ∉ cs) {c : Char} (hslash : c ≠ '\\')
    (hopen : c ≠ '[') (slashes : Nat) (rest : List Char) :
    partsFrom slashes 0 (cs ++ c :: rest) =
      plain (List.replicate slashes '\\' ++ cs ++ [c]) ++ partsFrom 0 0 rest := by
  induction cs generalizing slashes with
  | nil => simpa using partsFrom_letter hslash hopen slashes rest
  | cons b cs ih =>
    obtain ⟨hb, hcs⟩ := List.ne_and_not_mem_of_not_mem_cons h
    by_cases hb' : b = '\\'
    · subst hb'
      rw [List.cons_append, partsFrom_backslash, ih hcs, List.replicate_succ']
      simp
    · rw [List.cons_append, partsFrom_letter hb' (Ne.symm hb), ih hcs]
      simp

/-! ### What is left of a text -/

theorem textOf_plain_eq_ok_iff {opened : List (List Char)} {shown text : List Char}
    {more : List Part} : textOf opened (plain shown ++ more) = .ok text ↔
      ∃ left, textOf opened more = .ok left ∧ text = shown ++ left := by
  rw [textOf_plain]
  cases textOf opened more <;> simp [Except.map, eq_comm]

theorem exists_of_textOf_tag {opened : List (List Char)} {body text : List Char}
    {more : List Part} (h : textOf opened (.tag body :: more) = .ok text) :
    ∃ opened', textOf opened' more = .ok text := by
  unfold textOf at h
  split at h
  · split at h
    · exact ⟨_, h⟩
    · cases h
  · exact ⟨_, h⟩

/-- What a bracket leaves in front of what is read next: itself, if it is a plain one, and else
    less than the bracket and the backslashes before it. -/
theorem exists_of_textOf_open {opened : List (List Char)} {slashes : Nat} {rest text : List Char}
    (h : textOf opened (partsFrom slashes 0 ('[' :: rest)) = .ok text) :
    ∃ front opened' skip left, text = front ++ left ∧ skip ≤ rest.length ∧
      textOf opened' (partsFrom 0 skip rest) = .ok left ∧
      front.length ≤ (if tag? rest = none ∧ slashes = 0 then 1 else slashes) + skip := by
  cases htag : tag? rest with
  | none =>
    rw [partsFrom_bracket htag, textOf_plain_eq_ok_iff] at h
    obtain ⟨left, hleft, rfl⟩ := h
    refine ⟨_, opened, 0, left, rfl, Nat.zero_le _, hleft, ?_⟩
    by_cases hslashes : slashes = 0
    · simp [hslashes]
    · simp only [hslashes, List.length_append, List.length_replicate, List.length_singleton,
        and_false, if_false]
      omega
  | some found =>
    obtain ⟨body, after⟩ := found
    have hlength := (tag?_copied [] htag).1
    rw [partsFrom_tag htag, textOf_plain_eq_ok_iff] at h
    obtain ⟨left, hleft, rfl⟩ := h
    by_cases hodd : slashes % 2 = 1
    · rw [if_pos hodd, textOf_plain_eq_ok_iff] at hleft
      obtain ⟨left', hleft', rfl⟩ := hleft
      refine ⟨List.replicate (slashes / 2) '\\' ++ ('[' :: body ++ [']']), opened, body.length + 1,
        left', by simp, hlength, hleft', ?_⟩
      simp only [List.length_append, List.length_replicate, List.length_cons, List.length_nil,
        reduceCtorEq, false_and, if_false]
      omega
    · rw [if_neg hodd] at hleft
      obtain ⟨opened', hleft'⟩ := exists_of_textOf_tag hleft
      refine ⟨_, opened', body.length + 1, left, rfl, hlength, hleft', ?_⟩
      simp only [List.length_replicate, reduceCtorEq, false_and, if_false]
      omega

/-- **Markup only takes away.** The induction is on the text, with the backslashes held back and
    the characters of a tag that are still to be passed over. -/
theorem length_le_of_textOf {cs : List Char} : ∀ {opened : List (List Char)} {slashes skip : Nat}
    {text : List Char}, skip ≤ cs.length → textOf opened (partsFrom slashes skip cs) = .ok text →
      text.length + skip ≤ slashes + cs.length := by
  induction cs with
  | nil =>
    intro opened slashes skip text hskip h
    obtain rfl := Nat.le_zero.mp hskip
    have hparts : partsFrom slashes 0 [] = plain (List.replicate slashes '\\') ++ [] := by
      simp [partsFrom]
    rw [hparts, textOf_plain_eq_ok_iff] at h
    obtain ⟨left, hleft, rfl⟩ := h
    cases hleft
    simp
  | cons c rest ih =>
    intro opened slashes skip text hskip h
    cases skip with
    | succ skip =>
      have hrest := ih (Nat.le_of_succ_le_succ hskip) h
      rw [List.length_cons]
      omega
    | zero =>
      rw [List.length_cons]
      by_cases hslash : c = '\\'
      · subst hslash
        rw [partsFrom_backslash] at h
        have hrest := ih (Nat.zero_le _) h
        omega
      · by_cases hopen : c = '['
        · subst hopen
          obtain ⟨front, _, skip, left, rfl, hskip, hleft, hfront⟩ := exists_of_textOf_open h
          have hrest := ih hskip hleft
          rw [List.length_append]
          split at hfront <;> omega
        · rw [partsFrom_letter hslash hopen, textOf_plain_eq_ok_iff] at h
          obtain ⟨left, hleft, rfl⟩ := h
          have hrest := ih (Nat.zero_le _) hleft
          simp only [List.length_append, List.length_replicate, List.length_cons, List.length_nil]
          omega

/-- A bracket that begins a tag, or stands behind a backslash, leaves less than there was. -/
theorem length_lt_of_textOf_open {opened : List (List Char)} {slashes : Nat}
    {rest text : List Char} (hless : ¬ (tag? rest = none ∧ slashes = 0))
    (h : textOf opened (partsFrom slashes 0 ('[' :: rest)) = .ok text) :
    text.length < slashes + (rest.length + 1) := by
  obtain ⟨front, _, skip, left, rfl, hskip, hleft, hfront⟩ := exists_of_textOf_open h
  have hrest := length_le_of_textOf hskip hleft
  rw [if_neg hless] at hfront
  rw [List.length_append]
  omega

/-- The text is left as it stands if its brackets are plain ones, and only then. The induction is
    on the text: a backslash is held back, a bracket that takes something away makes the text
    shorter for good, and every other character is shown. -/
theorem textOf_partsFrom_eq_self_iff {opened : List (List Char)} {cs : List Char} :
    ∀ {slashes : Nat}, textOf opened (partsFrom slashes 0 cs) =
        .ok (List.replicate slashes '\\' ++ cs) ↔ Untagged (slashes != 0) cs := by
  induction cs with
  | nil =>
    intro slashes
    have hparts : partsFrom slashes 0 [] = plain (List.replicate slashes '\\') := by
      simp [partsFrom]
    rw [hparts, textOf_eq_plain, List.append_nil]
    exact iff_of_true rfl trivial
  | cons c rest ih =>
    intro slashes
    by_cases hslash : c = '\\'
    · subst hslash
      have hshift : List.replicate slashes '\\' ++ '\\' :: rest =
          List.replicate (slashes + 1) '\\' ++ rest := by
        rw [List.replicate_succ']
        simp
      rw [partsFrom_backslash, hshift, ih]
      simp [Untagged]
    · have hother : (c == '\\') = false := by simpa using hslash
      -- a character that is shown leaves the rest to be read with no backslash held back
      have hshown : textOf opened (plain (List.replicate slashes '\\' ++ [c]) ++
          partsFrom 0 0 rest) = .ok (List.replicate slashes '\\' ++ c :: rest) ↔
            Untagged (c == '\\') rest := by
        rw [textOf_plain_eq_ok_iff, hother]
        simpa using @ih 0
      by_cases hopen : c = '['
      · subst hopen
        by_cases hplain : tag? rest = none ∧ slashes = 0
        · obtain ⟨htag, rfl⟩ := hplain
          rw [partsFrom_bracket htag]
          exact hshown.trans (by simp [Untagged, htag])
        · refine iff_of_false (fun h => ?_) fun h => hplain ⟨(h.1 rfl).1, by simpa using (h.1 rfl).2⟩
          have hless := length_lt_of_textOf_open hplain h
          simp at hless
      · rw [partsFrom_letter hslash hopen, hshown]
        simp [Untagged, hopen]

/-- **Markup leaves a text as it stands if and only if every bracket in it is a plain one.** -/
theorem render_eq_self_iff {s : String} : render s = .ok s ↔ Untagged false s.toList := by
  have hparts := @textOf_partsFrom_eq_self_iff [] s.toList 0
  rw [bne_self_eq_false] at hparts
  rw [← hparts]
  unfold render
  cases textOf [] (partsFrom 0 0 s.toList) with
  | error e => simp [Except.map]
  | ok text =>
    simp only [Except.map, Except.ok.injEq, List.replicate_zero, List.nil_append]
    exact ⟨fun h => by rw [← h, String.toList_ofList], fun h => by rw [h, String.ofList_toList]⟩

-- From here on the lemmas stand for the definition, which would be computed on paths else.
attribute [irreducible] Untagged

end Markup

namespace Screen

/-- **A text is shown as it stands if and only if every bracket in it is a plain one and no
    character moves the cursor.** -/
theorem shown_eq_self_iff {s : String} : shown s = .ok s.toList ↔
    Untagged false s.toList ∧ ∀ c ∈ s.toList, isControl c = false := by
  rw [← render_eq_self_iff]
  constructor
  · intro h
    cases hrender : render s with
    | error e =>
      rw [shown_eq_error_iff.mpr hrender] at h
      cases h
    | ok text =>
      have hkept : text.toList.filter (fun c => !isControl c) = s.toList := by
        rw [shown, hrender] at h
        exact Except.ok.inj h
      -- what is left is not longer than the text, so that nothing was dropped from it
      have hlength : text.toList.length ≤ s.toList.length := by
        have htext : textOf [] (partsFrom 0 0 s.toList) = .ok text.toList := by
          unfold render at hrender
          cases hparts : textOf [] (partsFrom 0 0 s.toList) with
          | error e =>
            rw [hparts] at hrender
            cases hrender
          | ok cs =>
            rw [hparts] at hrender
            rw [← Except.ok.inj hrender, String.toList_ofList]
        simpa using length_le_of_textOf (Nat.zero_le _) htext
      have hall : ∀ c ∈ text.toList, (!isControl c) = true := by
        rw [← List.length_filter_eq_length_iff, hkept]
        have hfewer := List.length_filter_le (fun c => !isControl c) text.toList
        rw [hkept] at hfewer
        omega
      have hsame : text.toList = s.toList := (List.filter_eq_self.mpr hall).symm.trans hkept
      rw [String.toList_inj.mp hsame] at hall ⊢
      exact ⟨rfl, fun c hc => by simpa using hall c hc⟩
  · rintro ⟨hrender, hcontrol⟩
    rw [shown, hrender]
    exact congrArg Except.ok (List.filter_eq_self.mpr fun c hc => by simp [hcontrol c hc])

end Screen

end TestScaffold.Command
