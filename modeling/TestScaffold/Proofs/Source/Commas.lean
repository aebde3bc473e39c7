/-
  TestScaffold/Proofs/Source/Commas.lean
  ======================================
  **Where a list of type arguments is cut, and into how many pieces.**

  The cuts are told by the text alone: they are its commas with balanced brackets in
  front of them (`cuts`).  Brackets of all kinds count alike and a closing one may
  come first, so the depth in front of a comma may be anything; only zero makes a cut.

  A text without a cut is one part, and any other text is such a part, a comma at
  depth zero and a shorter text (`induction_on_cuts`).  What holds of all pieces is
  shown along this split.
-/
import TestScaffold.Proofs.Source.Arguments
import TestScaffold.Proofs.Text.Pieces

namespace TestScaffold

open TestScaffold.Text

namespace Source

/-! ### Parts of a text without a comma at depth zero -/

theorem WholeFrom.append_iff {d : Int} {cs ds : List Char} :
    WholeFrom d (cs ++ ds) ↔ WholeFrom d cs ∧ WholeFrom (d + depth cs) ds := by
  induction cs generalizing d with
  | nil => simp [depth, WholeFrom.nil]
  | cons c cs ih =>
    rw [List.cons_append, WholeFrom.cons_iff, WholeFrom.cons_iff, ih, and_assoc, depth,
      Int.add_assoc]

/-- A text is what is left of it without the blanks at its ends, with blanks around it. -/
theorem padded_trimChars (cs : List Char) : Padded (trimChars cs) cs := by
  have hfront : cs = cs.takeWhile isBlank ++ cs.dropWhile isBlank :=
    List.takeWhile_append_dropWhile.symm
  have hback : cs.dropWhile isBlank =
      trimChars cs ++ ((cs.dropWhile isBlank).reverse.takeWhile isBlank).reverse := by
    rw [trimChars, ← List.reverse_append, List.takeWhile_append_dropWhile, List.reverse_reverse]
  refine ⟨cs.takeWhile isBlank, ((cs.dropWhile isBlank).reverse.takeWhile isBlank).reverse,
    fun c hc => List.mem_takeWhile_imp hc, fun c hc => ?_, ?_⟩
  · exact List.mem_takeWhile_imp (List.mem_reverse.mp hc)
  · rw [List.append_assoc, ← hback, ← hfront]

theorem WholeFrom.trim {cs : List Char} (h : WholeFrom 0 cs) : WholeFrom 0 (trimChars cs) := by
  obtain ⟨before, after, hbefore, _, hcs⟩ := padded_trimChars cs
  -- The blanks in front leave the depth at zero.
  rw [hcs, append_iff, append_iff, depth_of_blank hbefore] at h
  exact h.1.2

/-! ### Cuts -/

/-- A comma stands at an index, and the characters in front of it leave the depth at zero. -/
def IsCut (cs : List Char) (i : Nat) : Prop := cs[i]? = some ',' ∧ depth (cs.take i) = 0

instance (cs : List Char) (i : Nat) : Decidable (IsCut cs i) :=
  inferInstanceAs (Decidable (_ ∧ _))

/-- The indices of the commas at depth zero. -/
def cuts (cs : List Char) : List Nat := (List.range cs.length).filter fun i => IsCut cs i

/-- What stands behind the last comma at depth zero; all of the text if it has none. -/
def lastPart (cs : List Char) : List Char :=
  match (cuts cs).getLast? with
  | some i => cs.drop (i + 1)
  | none => cs

theorem not_isCut_of_wholeFrom {cs : List Char} (h : WholeFrom 0 cs) (i : Nat) :
    ¬ IsCut cs i := by
  rintro ⟨hcomma, hdepth⟩
  obtain ⟨hi, hget⟩ := List.getElem?_eq_some_iff.mp hcomma
  refine h (cs.take i) (cs.drop (i + 1)) ?_ (by rw [hdepth, Int.add_zero])
  rw [← hget, List.getElem_cons_drop, List.take_append_drop]

theorem cuts_of_wholeFrom {cs : List Char} (h : WholeFrom 0 cs) : cuts cs = [] := by
  rw [cuts, List.filter_eq_nil_iff]
  intro i _
  simpa using not_isCut_of_wholeFrom h i

section Comma

variable {before : List Char}

theorem not_isCut_before (hwhole : WholeFrom 0 before) (after : List Char) {i : Nat}
    (hi : i < before.length) : ¬ IsCut (before ++ ',' :: after) i := by
  have hcut := not_isCut_of_wholeFrom hwhole i
  rwa [IsCut, List.getElem?_append_left hi, List.take_append_of_le_length (Nat.le_of_lt hi)]

theorem isCut_comma (hdepth : depth before = 0) (after : List Char) :
    IsCut (before ++ ',' :: after) before.length := by
  rw [IsCut, List.take_left]
  exact ⟨by simp, hdepth⟩

theorem isCut_behind_iff (hdepth : depth before = 0) (after : List Char) (i : Nat) :
    IsCut (before ++ ',' :: after) (before.length + 1 + i) ↔ IsCut after i := by
  have hsplit : before ++ ',' :: after = (before ++ [',']) ++ after := by simp
  have hlength : before.length + 1 + i = (before ++ [',']).length + i := by simp
  have hzero : depth (before ++ [',']) = 0 := by
    rw [depth_append, hdepth]
    rfl
  rw [IsCut, IsCut, hsplit, hlength, List.getElem?_append_right (Nat.le_add_right ..),
    Nat.add_sub_cancel_left, List.take_length_add_append, depth_append, hzero, Int.zero_add]

theorem cuts_comma (hwhole : WholeFrom 0 before) (hdepth : depth before = 0) (after : List Char) :
    cuts (before ++ ',' :: after) =
      before.length :: (cuts after).map (before.length + 1 + ·) := by
  have hlength : (before ++ ',' :: after).length = before.length + 1 + after.length := by
    simp only [List.length_append, List.length_cons]
    omega
  have hfront : (List.range before.length).filter
      (fun i => decide (IsCut (before ++ ',' :: after) i)) = [] := by
    rw [List.filter_eq_nil_iff]
    intro i hi
    simpa using not_isCut_before hwhole after (List.mem_range.mp hi)
  have hcomma : [before.length].filter
      (fun i => decide (IsCut (before ++ ',' :: after) i)) = [before.length] := by
    simp [isCut_comma hdepth after]
  rw [cuts, hlength, List.range_add, List.range_succ, List.filter_append, List.filter_append,
    hfront, hcomma, List.filter_map, cuts]
  simp only [Function.comp_def, isCut_behind_iff hdepth, List.nil_append,
    List.singleton_append]

theorem lastPart_comma (hwhole : WholeFrom 0 before) (hdepth : depth before = 0)
    (after : List Char) : lastPart (before ++ ',' :: after) = lastPart after := by
  have hdrop : ∀ i, (before ++ ',' :: after).drop (before.length + 1 + i) = after.drop i := by
    intro i
    rw [← List.drop_drop, ← List.singleton_append, ← List.append_assoc]
    exact congrArg (List.drop i) (List.drop_left' (by simp))
  rw [lastPart, lastPart, cuts_comma hwhole hdepth, List.getLast?_cons, List.getLast?_map]
  cases (cuts after).getLast? with
  | none => exact hdrop 0
  | some i => exact hdrop (i + 1)

end Comma

/-- A text has no comma at depth zero, or it is split at the first one. -/
theorem induction_on_cuts {motive : List Char → Prop}
    (whole : ∀ cs, WholeFrom 0 cs → motive cs)
    (comma : ∀ before after, WholeFrom 0 before → depth before = 0 → motive after →
      motive (before ++ ',' :: after)) (cs : List Char) : motive cs := by
  rcases wholeFrom_or_exists 0 cs with h | ⟨before, after, hcs, hbefore, hdepth⟩
  · exact whole cs h
  · rw [Int.zero_add] at hdepth
    exact hcs ▸ comma before after hbefore hdepth (induction_on_cuts whole comma after)
termination_by cs.length
decreasing_by
  rw [hcs, List.length_append, List.length_cons]
  omega

/-! ### Pieces -/

theorem wholeFrom_of_mem_splitArgumentsFrom (cs : List Char) :
    ∀ piece ∈ splitArgumentsFrom 0 [] cs, WholeFrom 0 piece := by
  induction cs using induction_on_cuts with
  | whole cs h =>
    rw [splitArgumentsFrom_whole h]
    intro piece hpiece
    split at hpiece
    · cases hpiece
    · rw [List.mem_singleton.mp hpiece]
      exact h.trim
  | comma before after hbefore hdepth ih =>
    rw [splitArgumentsFrom_comma hbefore hdepth, List.forall_mem_cons]
    exact ⟨hbefore.trim, ih⟩

/-- Each cut ends a piece, and what stands behind the last one is a piece if it is not blank. -/
theorem length_splitArgumentsFrom (cs : List Char) :
    (splitArgumentsFrom 0 [] cs).length =
      (cuts cs).length + if (lastPart cs).all isBlank = true then 0 else 1 := by
  induction cs using induction_on_cuts with
  | whole cs h =>
    have hlast : lastPart cs = cs := by rw [lastPart, cuts_of_wholeFrom h]; rfl
    rw [splitArgumentsFrom_whole h, cuts_of_wholeFrom h, hlast]
    simp only [trimChars_eq_nil_iff, List.all_eq_true]
    split <;> rfl
  | comma before after hbefore hdepth ih =>
    rw [splitArgumentsFrom_comma hbefore hdepth, cuts_comma hbefore hdepth,
      lastPart_comma hbefore hdepth, List.length_cons, List.length_cons, List.length_map, ih]
    omega

/-- **Splitting undoes joining, and cuts at the commas at depth zero.** Arguments are found again
    between the commas that join them, with any blanks around them. Of every text the pieces have no
    comma at depth zero of their own; there is one for each comma at depth zero, and one more if
    what stands behind the last of them is not blank. -/
theorem splitArguments_cuts :
    (∀ args pieces : List String, args ≠ [] → (∀ a ∈ args, IsArgument a.toList) →
      List.Forall₂ (fun a piece => Padded a.toList piece.toList) args pieces →
      splitArguments (joinWith "," pieces) = args) ∧
    ∀ text : String, (∀ piece ∈ splitArguments text, WholeFrom 0 piece.toList) ∧
      (splitArguments text).length = (cuts text.toList).length +
        if (lastPart text.toList).all isBlank = true then 0 else 1 := by
  refine ⟨fun args pieces hne hargs hpieces => ?_, fun text => ⟨?_, ?_⟩⟩
  · have hcomma : (",").toList = [','] := by decide
    have hjoined : splitArgumentsFrom 0 [] (List.intercalate [','] (pieces.map String.toList)) =
        args.map String.toList := by
      refine splitArgumentsFrom_join (by simpa using hne) (by simpa using hargs) ?_
      simpa [List.forall₂_map_left_iff, List.forall₂_map_right_iff] using hpieces
    rw [splitArguments, toList_joinWith, hcomma, hjoined, List.map_map]
    simp [Function.comp_def]
  · simp only [splitArguments, List.forall_mem_map, String.toList_ofList]
    exact wholeFrom_of_mem_splitArgumentsFrom text.toList
  · rw [splitArguments, List.length_map, length_splitArgumentsFrom]

/-- Two arguments, one with commas inside of brackets of two kinds. -/
theorem splitArguments_cuts_pair :
    (∀ a ∈ ["Map<int, (A, B)>", "C[,]"], IsArgument a.toList) ∧
      splitArguments "\tMap<int, (A, B)> , C[,]\n" = ["Map<int, (A, B)>", "C[,]"] := by
  have hargs : ∀ a ∈ ["Map<int, (A, B)>", "C[,]"], IsArgument a.toList := by
    have hall : ∀ a ∈ ["Map<int, (A, B)>", "C[,]"],
        a.toList ≠ [] ∧ trimChars a.toList = a.toList ∧ depth a.toList = 0 ∧
          WholeFrom 0 a.toList := by decide +kernel
    intro a ha
    obtain ⟨hne, htrim, hdepth, hwhole⟩ := hall a ha
    exact ⟨hne, htrim, hdepth, hwhole⟩
  have hpadded : ∀ (before cs after : String), before.toList.all isBlank = true →
      after.toList.all isBlank = true →
      Padded cs.toList (before ++ cs ++ after).toList := by
    intro before cs after hbefore hafter
    refine ⟨before.toList, after.toList, List.all_eq_true.mp hbefore, List.all_eq_true.mp hafter, ?_⟩
    rw [String.toList_append, String.toList_append]
  have hpieces : List.Forall₂ (fun a piece : String => Padded a.toList piece.toList)
      ["Map<int, (A, B)>", "C[,]"] ["\tMap<int, (A, B)> ", " C[,]\n"] :=
    .cons (hpadded "\t" _ " " (by decide) (by decide))
      (.cons (hpadded " " _ "\n" (by decide) (by decide)) .nil)
  exact ⟨hargs, splitArguments_cuts.1 _ _ (by decide) hargs hpieces⟩

end Source

end TestScaffold
