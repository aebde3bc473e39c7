/-
  TestScaffold/Proofs/Source/ReturnType.lean
  ==========================================
  **What the text of a type says of the result of a method.**

  A text is squeezed before it is looked at, so that only its words count.  A
  squeezed text applies a type to arguments if it is a dotted head, perhaps a
  space, and something between angle brackets (`headAndArguments?_eq_some_iff`).

  However it is spaced, a task of one argument wraps this argument, and nothing
  else between the brackets of a task wraps anything.
-/
import TestScaffold.Proofs.Source.Arguments

namespace TestScaffold

open TestScaffold.Text

namespace Source

/-! ### Heads -/

/-- A character of a dotted head. -/
def isDotted (c : Char) : Bool := isWord c || c == '.'

/-- The characters of a dotted head. -/
def IsHead (cs : List Char) : Prop := cs ≠ [] ∧ ∀ c ∈ cs, isDotted c = true

theorem isHead_iff {cs : List Char} : IsHead cs ↔ (!cs.isEmpty && cs.all isDotted) = true := by
  rw [IsHead, Bool.and_eq_true, Bool.not_eq_true', List.isEmpty_eq_false_iff, List.all_eq_true]

instance (cs : List Char) : Decidable (IsHead cs) := decidable_of_iff _ isHead_iff.symm

theorem not_isBlank_of_isDotted {c : Char} (h : isDotted c = true) : isBlank c = false :=
  not_isBlank_of (by decide +kernel) h

theorem isDotted_of_isBlank {c : Char} (h : isBlank c = true) : isDotted c = false := by
  refine Bool.eq_false_iff.mpr fun hdotted => ?_
  rw [not_isBlank_of_isDotted hdotted] at h
  cases h

/-- A head ends before blanks and an angle bracket. -/
theorem IsHead.cut {head bs : List Char} (h : IsHead head) (hbs : ∀ c ∈ bs, isBlank c = true)
    (rest : List Char) : (head ++ (bs ++ '<' :: rest)).takeWhile isDotted = head ∧
      (head ++ (bs ++ '<' :: rest)).dropWhile isDotted = bs ++ '<' :: rest := by
  have hlast : isDotted '<' = false := by decide
  rw [List.takeWhile_append_of_pos h.2, List.dropWhile_append_of_pos h.2]
  cases bs with
  | nil => simp [hlast]
  | cons b bs => simp [isDotted_of_isBlank (hbs b List.mem_cons_self)]

theorem headAndArguments?_eq (cs : List Char) : headAndArguments? cs =
    match (cs.dropWhile isDotted).dropWhile isBlank with
    | '<' :: inner =>
      match inner.reverse with
      | '>' :: body =>
        if body.isEmpty || (cs.takeWhile isDotted).isEmpty then none
        else some (cs.takeWhile isDotted, body.reverse)
      | _ => none
    | _ => none := rfl

/-- **A text applies a type to arguments if it is a dotted head before something in angle
brackets.** -/
theorem headAndArguments?_eq_some_iff {cs head body : List Char} :
    headAndArguments? cs = some (head, body) ↔ IsHead head ∧ body ≠ [] ∧
      ∃ bs, (∀ c ∈ bs, isBlank c = true) ∧ cs = head ++ (bs ++ '<' :: (body ++ ['>'])) := by
  constructor
  · intro h
    rw [headAndArguments?_eq] at h
    split at h
    · rename_i inner hinner
      split at h
      · rename_i reversed hreversed
        split at h
        · cases h
        · rename_i hboth
          cases h
          rw [Bool.or_eq_true, not_or, List.isEmpty_iff, List.isEmpty_iff] at hboth
          refine ⟨⟨hboth.2, fun c hc => List.mem_takeWhile_imp hc⟩, by simpa using hboth.1,
            (cs.dropWhile isDotted).takeWhile isBlank, fun c hc => List.mem_takeWhile_imp hc, ?_⟩
          have hbody : inner = reversed.reverse ++ ['>'] := by
            rw [← List.reverse_reverse inner, hreversed, List.reverse_cons]
          rw [← hbody, ← hinner, List.takeWhile_append_dropWhile, List.takeWhile_append_dropWhile]
      · cases h
    · cases h
  · rintro ⟨hhead, hbody, bs, hbs, rfl⟩
    obtain ⟨htake, hdrop⟩ := hhead.cut hbs (body ++ ['>'])
    have hblanks : (bs ++ '<' :: (body ++ ['>'])).dropWhile isBlank = '<' :: (body ++ ['>']) := by
      rw [dropWhile_blanks hbs]
      exact List.dropWhile_cons_of_neg (by decide)
    simp [headAndArguments?_eq, htake, hdrop, hblanks, hhead.1, hbody]

/-! ### Words of a type -/

theorem ReturnType.ofText_of_squeeze {s t : String} (h : squeeze s = squeeze t) :
    ofText s = ofText t := by
  rw [ofText, ofText, h]

/-- Only the words of a text count. -/
theorem ReturnType.ofText_of_words {s t : String} (h : words s = words t) :
    ofText s = ofText t := by
  have hchars : wordsOfChars s.toList = wordsOfChars t.toList :=
    List.map_injective_iff.mpr (fun _ _ => String.ofList_injective) h
  exact ofText_of_squeeze (by rw [squeeze, squeeze, hchars])

theorem ReturnType.typeName_ofText (s : String) : (ofText s).typeName = squeeze s := by
  unfold ofText
  dsimp only
  split
  · rfl
  split
  · rfl
  split
  · split
    · split <;> rfl
    · rfl
  · rfl

/-- What is said of a type is said of its text. -/
theorem ReturnType.ofText_typeName (s : String) : ofText (ofText s).typeName = ofText s := by
  rw [typeName_ofText]
  exact ofText_of_squeeze (squeeze_squeeze s)

/-- A text that applies a type to arguments is neither void nor a bare task. -/
theorem ReturnType.ofText_of_headAndArguments? {text : String} {head body : List Char}
    (h : headAndArguments? (squeeze text).toList = some (head, body)) :
    ofText text =
      if String.ofList head ∈ taskNames ∧ (splitArgumentsFrom 0 [] body).length = 1 then
        ⟨.taskOf, squeeze text, (splitArgumentsFrom 0 [] body).head?.map String.ofList⟩
      else ⟨.value, squeeze text, none⟩ := by
  obtain ⟨_, _, bs, _, htext⟩ := headAndArguments?_eq_some_iff.mp h
  have hbracket : '<' ∈ (squeeze text).toList := by
    rw [htext]
    simp
  have hvoid : squeeze text ≠ "void" := by
    intro hvoid
    rw [hvoid] at hbracket
    exact absurd hbracket (by decide)
  have htask : squeeze text ∉ taskNames := by
    intro htask
    have hnone : ∀ name ∈ taskNames, '<' ∉ name.toList := by decide
    exact hnone _ htask hbracket
  rw [ofText]
  simp only [if_neg hvoid, if_neg htask, h]
  by_cases hhead : String.ofList head ∈ taskNames
  · rw [if_pos hhead]
    generalize splitArgumentsFrom 0 [] body = pieces
    rcases pieces with _ | ⟨only, _ | ⟨second, more⟩⟩ <;> simp [hhead]
  · simp [hhead]

/-! ### Types with arguments -/

/-- A text that is one argument of a type, without superfluous blanks. -/
structure Argument (text : String) : Prop where
  nonempty : text ≠ ""
  normal : squeeze text = text
  closed : depth text.toList = 0
  whole : WholeFrom 0 text.toList

/-- A text that applies a head to arguments, with any blanks around the head, the brackets and the
commas. -/
structure Applies (text head : String) (args : List String) : Prop where
  isHead : IsHead head.toList
  nonempty : args ≠ []
  arguments : ∀ a ∈ args, Argument a
  spelled : ∃ lead mid trail pieces, (∀ c ∈ lead, isBlank c = true) ∧
    (∀ c ∈ mid, isBlank c = true) ∧ (∀ c ∈ trail, isBlank c = true) ∧
    List.Forall₂ Padded (args.map String.toList) pieces ∧
    text.toList = lead ++ (head.toList ++ (mid ++
      '<' :: (List.intercalate [','] pieces ++ '>' :: trail)))

theorem Argument.neat {a : String} (h : Argument a) : Neat a.toList := h.normal ▸ neat_squeeze a

theorem Argument.isArgument {a : String} (h : Argument a) : IsArgument a.toList where
  nonempty := by simpa using h.nonempty
  trimmed := h.neat.trim
  closed := h.closed
  whole := h.whole

/-- Some characters with what is left of the blanks around them. -/
theorem exists_padded {cs piece rest rest' : List Char} (h : Padded cs piece)
    (hrest : SameWords rest rest') : ∃ piece', Padded cs piece' ∧
      SameWords (piece ++ rest) (piece' ++ rest') ∧
      ∀ {front back}, Neat front → front ≠ [] → Neat cs → cs ≠ [] → Neat back → back ≠ [] →
        Neat (front ++ piece' ++ back) := by
  obtain ⟨before, after, hbefore, hafter, rfl⟩ := h
  refine ⟨gap before ++ cs ++ gap after, ⟨_, _, isBlank_of_mem_gap, isBlank_of_mem_gap, rfl⟩,
    ?_, ?_⟩
  · simpa only [List.append_assoc] using ((hrest.blanks hafter).append cs).blanks hbefore
  · intro front back hfront hfrontne hcs hcsne hback hbackne
    have hfirst := hfront.append_gap hcs hfrontne hcsne before
    have hboth := hfirst.append_gap hback (by simp [hcsne]) hbackne after
    simpa only [List.append_assoc] using hboth

/-- Joined arguments with what is left of the blanks around them. -/
theorem exists_joined {args pieces : List (List Char)} {rest rest' : List Char}
    (hpieces : List.Forall₂ Padded args pieces) (hne : args ≠ [])
    (hargs : ∀ a ∈ args, Neat a ∧ a ≠ []) (hrest : SameWords rest rest') :
    ∃ pieces', List.Forall₂ Padded args pieces' ∧
      SameWords (List.intercalate [','] pieces ++ rest)
        (List.intercalate [','] pieces' ++ rest') ∧
      ∀ {front}, Neat front → front ≠ [] →
        Neat (front ++ (List.intercalate [','] pieces' ++ ['>'])) := by
  have hmark : ∀ {c}, isBlank c = false → Neat [c] := fun hc => .word (by simpa using hc)
  induction hpieces with
  | nil => exact absurd rfl hne
  | @cons a piece args pieces hpiece hmore ih =>
    obtain ⟨⟨hneat, hane⟩, hargs⟩ := List.forall_mem_cons.mp hargs
    cases hmore with
    | nil =>
      obtain ⟨piece', hpiece', hwords, hjoin⟩ := exists_padded hpiece hrest
      refine ⟨[piece'], .cons hpiece' .nil, by simpa using hwords, fun hfront hfrontne => ?_⟩
      have hall := hjoin hfront hfrontne hneat hane (hmark (by decide)) (List.cons_ne_nil '>' [])
      simpa using hall
    | @cons a' next args pieces hnext hmore =>
      obtain ⟨pieces', hpieces', hwords, hjoin⟩ := ih (List.cons_ne_nil _ _) hargs
      obtain ⟨piece', hpiece', hwords', hjoin'⟩ := exists_padded hpiece (hwords.cons ',')
      have hne' : pieces' ≠ [] := by
        rintro rfl
        cases hpieces'
      refine ⟨piece' :: pieces', .cons hpiece' hpieces', ?_, fun hfront hfrontne => ?_⟩
      · simpa [List.intercalate_cons_of_ne_nil hne'] using hwords'
      · have htail := hjoin (hmark (by decide)) (List.cons_ne_nil ',' [])
        have hall := hjoin' hfront hfrontne hneat hane htail (by simp)
        simpa [List.intercalate_cons_of_ne_nil hne'] using hall

/-- **A type with arguments, squeezed**, is its head before joined arguments. -/
theorem Applies.exists_squeeze {text head : String} {args : List String}
    (h : Applies text head args) : ∃ bs body, (∀ c ∈ bs, isBlank c = true) ∧ body ≠ [] ∧
      (squeeze text).toList = head.toList ++ (bs ++ '<' :: (body ++ ['>'])) ∧
      splitArgumentsFrom 0 [] body = args.map String.toList := by
  obtain ⟨lead, mid, trail, pieces, hlead, hmid, htrail, hpieces, htext⟩ := h.spelled
  have hne : args.map String.toList ≠ [] := by simpa using h.nonempty
  have hargs : ∀ a ∈ args.map String.toList, Neat a ∧ a ≠ [] := List.forall_mem_map.mpr fun a ha =>
    ⟨(h.arguments a ha).neat, (h.arguments a ha).isArgument.nonempty⟩
  have hsplit : ∀ a ∈ args.map String.toList, IsArgument a :=
    List.forall_mem_map.mpr fun a ha => (h.arguments a ha).isArgument
  obtain ⟨pieces', hpieces', hwords, hjoin⟩ := exists_joined hpieces hne hargs
    ((SameWords.trail htrail).cons '>')
  have hbracket : isBlank '<' = false := by decide
  have hneat : Neat (head.toList ++ (gap mid ++
      '<' :: (List.intercalate [','] pieces' ++ ['>']))) := by
    have hhead : Neat head.toList := .word fun c hc => not_isBlank_of_isDotted (h.isHead.2 c hc)
    have htail := hjoin (.word (by simp [hbracket])) (List.cons_ne_nil '<' [])
    have hall := hhead.append_gap htail h.isHead.1 (by simp) mid
    simpa using hall
  have hsqueeze := squeeze_of_sameWords hlead (((hwords.cons '<').blanks hmid).append head.toList)
    hneat
  rw [← htext, String.ofList_toList] at hsqueeze
  refine ⟨gap mid, List.intercalate [','] pieces', isBlank_of_mem_gap, ?_, ?_,
    splitArgumentsFrom_join hne hsplit hpieces'⟩
  · intro hnone
    have := splitArgumentsFrom_join hne hsplit hpieces'
    rw [hnone] at this
    exact hne this.symm
  · rw [hsqueeze, String.toList_ofList]

/-- A type with arguments is a task of its only argument, if it is a task. -/
theorem Applies.ofText_eq {text head : String} {args : List String} (h : Applies text head args) :
    ReturnType.ofText text =
      if head ∈ taskNames ∧ args.length = 1 then ⟨.taskOf, squeeze text, args.head?⟩
      else ⟨.value, squeeze text, none⟩ := by
  obtain ⟨bs, body, hbs, hbody, hsqueeze, hsplit⟩ := h.exists_squeeze
  have happlies : headAndArguments? (squeeze text).toList = some (head.toList, body) :=
    headAndArguments?_eq_some_iff.mpr ⟨h.isHead, hbody, bs, hbs, hsqueeze⟩
  rw [ReturnType.ofText_of_headAndArguments? happlies, hsplit, String.ofList_toList, List.length_map,
    List.head?_map, Option.map_map]
  simp

/-- **What the text of a type says of a result.** A type with arguments, however it is spaced, is a
task of its only argument, if it is a task, and a plain value otherwise. Only the words of the text
count, and the text that is kept says the same again. -/
theorem ReturnType.ofText_unwraps :
    (∀ text head args, Applies text head args →
      (∀ only, head ∈ taskNames → args = [only] →
        ofText text = ⟨.taskOf, squeeze text, some only⟩) ∧
      (head ∉ taskNames ∨ 1 < args.length → ofText text = ⟨.value, squeeze text, none⟩)) ∧
    (∀ s t, words s = words t → ofText s = ofText t) ∧
    ∀ s, ofText (ofText s).typeName = ofText s := by
  refine ⟨fun text head args h => ⟨?_, ?_⟩, fun s t => ofText_of_words, ofText_typeName⟩
  · rintro only htask rfl
    rw [h.ofText_eq, if_pos ⟨htask, rfl⟩]
    rfl
  · intro hvalue
    rw [h.ofText_eq, if_neg]
    rintro ⟨htask, hlength⟩
    rcases hvalue with hhead | hmany
    · exact hhead htask
    · omega

/-- A comma between the brackets of an argument is none between arguments. -/
theorem ReturnType.ofText_unwraps_pairs :
    Applies " Task\t<  Dictionary<string, (int, bool)[]>\n> " "Task"
        ["Dictionary<string, (int, bool)[]>"] ∧
      ofText " Task\t<  Dictionary<string, (int, bool)[]>\n> " =
        ⟨.taskOf, "Task < Dictionary<string, (int, bool)[]> >",
          some "Dictionary<string, (int, bool)[]>"⟩ := by
  have happlies : Applies " Task\t<  Dictionary<string, (int, bool)[]>\n> " "Task"
      ["Dictionary<string, (int, bool)[]>"] := by
    have hblanks : ∀ {cs : List Char}, cs.all isBlank = true → ∀ c ∈ cs, isBlank c = true :=
      List.all_eq_true.mp
    refine ⟨by decide, by decide, ?_, [' '], ['\t'], [' '],
      ["  Dictionary<string, (int, bool)[]>\n".toList], hblanks (by decide), hblanks (by decide),
      hblanks (by decide), ?_, by decide⟩
    · rintro a ha
      rw [List.mem_singleton.mp ha]
      exact ⟨by decide, by decide, by decide, by decide⟩
    · exact .cons ⟨[' ', ' '], ['\n'], hblanks (by decide), hblanks (by decide), by decide⟩ .nil
  refine ⟨happlies, ?_⟩
  have h := (ofText_unwraps.1 _ _ _ happlies).1 _ (by decide) rfl
  rw [h]
  decide

/-! ### Tasks without a result type -/

/-- A task of two blank arguments. -/
def OpenTask (text : String) : Prop :=
  ∃ head ∈ taskNames, ∃ a ∈ ["", " "], ∃ b ∈ ["", " "], ∃ c ∈ ["", " "],
    squeeze text = head ++ a ++ "<" ++ b ++ "," ++ c ++ ">"

instance (text : String) : Decidable (OpenTask text) :=
  inferInstanceAs (Decidable (∃ head ∈ taskNames, ∃ a ∈ ["", " "], ∃ b ∈ ["", " "],
    ∃ c ∈ ["", " "], squeeze text = head ++ a ++ "<" ++ b ++ "," ++ c ++ ">"))

/-- A task of one result has the only piece between its brackets. -/
theorem ReturnType.exists_of_taskOf {text : String} (h : (ofText text).kind = .taskOf) :
    ∃ head body only, headAndArguments? (squeeze text).toList = some (head, body) ∧
      String.ofList head ∈ taskNames ∧ splitArgumentsFrom 0 [] body = [only] ∧
      (ofText text).wrapped = some (String.ofList only) := by
  cases happlies : headAndArguments? (squeeze text).toList with
  | none =>
    unfold ofText at h
    simp only [happlies] at h
    split at h
    · cases h
    · split at h <;> cases h
  | some pair =>
    obtain ⟨head, body⟩ := pair
    rw [ofText_of_headAndArguments? happlies] at h ⊢
    split at h
    · rename_i hboth
      obtain ⟨only, honly⟩ := List.length_eq_one_iff.mp hboth.2
      exact ⟨head, body, only, rfl, hboth.1, honly, by rw [if_pos hboth, honly]; rfl⟩
    · cases h

theorem isBlank_of_mem_spaces {s : String} (h : s ∈ ["", " "]) :
    ∀ c ∈ s.toList, isBlank c = true := by
  have hall : ∀ s ∈ ["", " "], s.toList.all isBlank = true := by decide
  exact List.all_eq_true.mp (hall s h)

theorem ofList_gap_mem (bs : List Char) : String.ofList (gap bs) ∈ ["", " "] := by
  unfold gap
  split <;> decide

/-- **The result type of a task is empty just if the task has two blank arguments.** -/
theorem ReturnType.wrapped_eq_empty_iff {text : String} :
    (ofText text).kind = .taskOf ∧ (ofText text).wrapped = some "" ↔ OpenTask text := by
  constructor
  · rintro ⟨hkind, hempty⟩
    obtain ⟨head, body, only, happlies, hhead, hsplit, hwrapped⟩ := exists_of_taskOf hkind
    obtain ⟨_, _, bs, hbs, htext⟩ := headAndArguments?_eq_some_iff.mp happlies
    rw [hwrapped] at hempty
    obtain rfl : only = [] := by simpa using Option.some.inj hempty
    obtain ⟨before, after, hbefore, hafter, rfl⟩ := splitArgumentsFrom_eq_empty_iff.mp hsplit
    have hspace : ∀ {cs}, (∀ c ∈ cs, isBlank c = true) → cs <:+: (squeeze text).toList →
        String.ofList cs ∈ ["", " "] := fun hcs hinfix => by
      rw [((neat_squeeze text).toSparse.of_infix hinfix).eq_gap hcs]
      exact ofList_gap_mem _
    refine ⟨_, hhead, _, hspace hbs ⟨head, _, by rw [htext, List.append_assoc]⟩,
      _, hspace hbefore ⟨head ++ bs ++ ['<'], ',' :: (after ++ ['>']), by simp [htext]⟩,
      _, hspace hafter ⟨head ++ bs ++ '<' :: (before ++ [',']), ['>'], by simp [htext]⟩, ?_⟩
    rw [← String.toList_inj, htext]
    simp
  · rintro ⟨head, hhead, a, ha, b, hb, c, hc, htext⟩
    have hisHead : ∀ name ∈ taskNames, IsHead name.toList := by decide
    have happlies : headAndArguments? (squeeze text).toList =
        some (head.toList, b.toList ++ ',' :: c.toList) := by
      refine headAndArguments?_eq_some_iff.mpr
        ⟨hisHead head hhead, by simp, a.toList, isBlank_of_mem_spaces ha, ?_⟩
      rw [htext]
      simp
    have hsplit : splitArgumentsFrom 0 [] (b.toList ++ ',' :: c.toList) = [[]] :=
      splitArgumentsFrom_eq_empty_iff.mpr
        ⟨_, _, isBlank_of_mem_spaces hb, isBlank_of_mem_spaces hc, rfl⟩
    rw [ofText_of_headAndArguments? happlies, hsplit, String.ofList_toList, if_pos ⟨hhead, rfl⟩]
    exact ⟨rfl, rfl⟩

end Source

end TestScaffold
