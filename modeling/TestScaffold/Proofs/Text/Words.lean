/-
  TestScaffold/Proofs/Text/Words.lean
  ===================================
  **Texts as words between blanks.**

  Cutting a text into words and joining these again changes blanks only: what is
  not blank stays, in its order (`filter_squeeze`).  A text that begins with
  something else than a blank begins with its first word.
-/
import TestScaffold.Text.Words

namespace TestScaffold.Text

/-- The words of a text have what is not blank in it. -/
theorem flatten_runsFrom (w cs : List Char) :
    (runsFrom isBlank w cs).flatten = w.reverse ++ cs.filter (!isBlank ·) := by
  induction cs generalizing w with
  | nil =>
    unfold runsFrom
    split <;> simp_all
  | cons c cs ih =>
    cases hc : isBlank c with
    | true =>
      unfold runsFrom
      rw [if_pos hc]
      split <;> simp_all
    | false => simp [runsFrom, hc, ih]

theorem filter_joinWords (ws : List (List Char)) :
    (joinWords ws).filter (!isBlank ·) = ws.flatten.filter (!isBlank ·) := by
  induction ws using joinWords.induct with
  | case1 => rfl
  | case2 w => simp [joinWords]
  | case3 w v ws ih =>
    have hspace : isBlank ' ' = true := by decide
    rw [joinWords, List.filter_append, List.filter_cons_of_neg (by simp [hspace]), ih]
    simp

/-- **Squeezing a text leaves what is not blank.** -/
theorem filter_squeeze (s : String) :
    (squeeze s).toList.filter (!isBlank ·) = s.toList.filter (!isBlank ·) := by
  rw [squeeze, String.toList_ofList, filter_joinWords, wordsOfChars, flatten_runsFrom,
    List.reverse_nil, List.nil_append, List.filter_filter]
  simp

/-- What is put before a text is seen in it, unless it is blank. -/
theorem all_isBlank_of_squeeze_append {front cs : List Char}
    (h : squeeze (String.ofList (front ++ cs)) = squeeze (String.ofList cs)) :
    front.all isBlank = true := by
  have hfilter := congrArg (fun s : String => s.toList.filter (!isBlank ·)) h
  simp only [filter_squeeze, String.toList_ofList, List.filter_append,
    List.append_left_eq_self, List.filter_eq_nil_iff] at hfilter
  simpa using hfilter

theorem exists_runsFrom {w : List Char} (hw : w ≠ []) (cs : List Char) :
    ∃ v ws, runsFrom isBlank w cs = (w.reverse ++ v) :: ws := by
  induction cs generalizing w with
  | nil => exact ⟨[], [], by simp [runsFrom, hw]⟩
  | cons c cs ih =>
    unfold runsFrom
    split
    · exact ⟨[], runsFrom isBlank [] cs, by simp [hw]⟩
    · obtain ⟨v, ws, heq⟩ := ih (List.cons_ne_nil c w)
      exact ⟨c :: v, ws, by simp [heq]⟩

/-- A text begins with its first word, if it does not begin with a blank. -/
theorem exists_wordsOfChars {c : Char} (hc : isBlank c = false) (cs : List Char) :
    ∃ v ws, wordsOfChars (c :: cs) = (c :: v) :: ws := by
  rw [wordsOfChars, runsFrom, hc]
  exact exists_runsFrom (List.cons_ne_nil c []) cs

theorem runsFrom_append {w : List Char} (h : ∀ c ∈ w, isBlank c = false) (v cs : List Char) :
    runsFrom isBlank v (w ++ cs) = runsFrom isBlank (w.reverse ++ v) cs := by
  induction w generalizing v with
  | nil => rfl
  | cons c w ih =>
    obtain ⟨hc, hw⟩ := List.forall_mem_cons.mp h
    rw [List.cons_append, runsFrom, if_neg (by simp [hc]), ih hw, List.reverse_cons,
      List.append_assoc, List.singleton_append]

/-- What stands before the first blank is the first word. -/
theorem wordsOfChars_append_space {w : List Char} (hne : w ≠ []) (h : ∀ c ∈ w, isBlank c = false)
    (cs : List Char) : wordsOfChars (w ++ ' ' :: cs) = w :: wordsOfChars cs := by
  have hspace : isBlank ' ' = true := by decide
  rw [wordsOfChars, runsFrom_append h, List.append_nil, runsFrom, if_pos hspace,
    if_neg (by simpa using hne), List.reverse_reverse, wordsOfChars]

theorem joinWith_ofList (ws : List (List Char)) :
    joinWith " " (ws.map String.ofList) = String.ofList (joinWords ws) := by
  induction ws using joinWords.induct with
  | case1 => rfl
  | case2 w => rfl
  | case3 w v ws ih =>
    rw [List.map_cons, List.map_cons, joinWith, ← List.map_cons, ih, joinWords]
    simp [String.ofList_append, String.append_assoc]

end TestScaffold.Text
