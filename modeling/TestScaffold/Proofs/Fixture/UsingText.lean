/-
  TestScaffold/Proofs/Fixture/UsingText.lean
  ==========================================
  **What a directive states is read back from the line it is written as.**

  The parts of a directive are cut from a text whose blanks are single spaces, so
  its line has no other blanks either, and cutting the line gives the same parts.
-/
import Mathlib.Data.List.TakeWhile
import TestScaffold.CSharp.Outline
import TestScaffold.Fixture.Layout
import TestScaffold.Proofs.Fixture.Parts
import TestScaffold.Proofs.Text.Blanks

namespace TestScaffold

open TestScaffold.Text

open CSharp

/-! ### Cutting a directive -/

namespace CSharp

theorem withoutSemicolons_isPrefix (cs : List Char) : withoutSemicolons cs <+: cs := by
  have h := List.reverse_prefix.mpr (List.dropWhile_suffix (· == ';') (l := cs.reverse))
  rwa [List.reverse_reverse] at h

theorem withoutSemicolons_append {cs : List Char} (h : cs.getLast? ≠ some ';') :
    withoutSemicolons (cs ++ [';']) = cs := by
  rw [withoutSemicolons, List.reverse_append, List.reverse_singleton, List.singleton_append,
    List.dropWhile_cons_of_pos (by decide)]
  have hrest : cs.reverse.dropWhile (· == ';') = cs.reverse := by
    rw [← List.head?_reverse] at h
    cases hcs : cs.reverse with
    | nil => rfl
    | cons c rest =>
      rw [hcs] at h
      exact List.dropWhile_cons_of_neg (by simpa using h)
  rw [hrest, List.reverse_reverse]

/-- Whether a word stands first, and what is left without it. -/
def leadWord (word : String) (cs : List Char) : Bool × List Char :=
  match afterWord? word cs with
  | some rest => (true, rest)
  | none => (false, cs)

/-- The alias before an equals sign, and the name. -/
def aliasAndName (cs : List Char) : Option String × List Char :=
  match cs.dropWhile (· != '=') with
  | _ :: rest => (some (String.ofList (trimChars (cs.takeWhile (· != '=')))), trimChars rest)
  | [] => (none, cs)

theorem aliasAndName_of_not_mem {cs : List Char} (h : '=' ∉ cs) : aliasAndName cs = (none, cs) := by
  have hdrop : cs.dropWhile (· != '=') = [] :=
    List.dropWhile_eq_nil_iff.mpr fun c hc => bne_iff_ne.mpr fun hassign => h (hassign ▸ hc)
  rw [aliasAndName, hdrop]

theorem aliasAndName_append {cs ds : List Char} (h : '=' ∉ cs) : aliasAndName (cs ++ '=' :: ds) =
    (some (String.ofList (trimChars cs)), trimChars ds) := by
  have hall : ∀ c ∈ cs, (c != '=') = true := fun c hc =>
    bne_iff_ne.mpr fun hassign => h (hassign ▸ hc)
  have hdrop : (cs ++ '=' :: ds).dropWhile (· != '=') = '=' :: ds := by
    rw [List.dropWhile_append_of_pos hall, List.dropWhile_cons_of_neg (by decide)]
  have htake : (cs ++ '=' :: ds).takeWhile (· != '=') = cs := by
    rw [List.takeWhile_append_of_pos hall, List.takeWhile_cons_of_neg (by decide), List.append_nil]
  rw [aliasAndName, hdrop, htake]

/-- The parts of a directive are cut one behind the other. -/
theorem usingOfText?_eq (text : String) : usingOfText? text =
    let global := leadWord "global" (trimChars (withoutSemicolons (squeeze text).toList))
    let static := leadWord "static" (trimChars (global.2.drop "using".length))
    (Name.ofString? (String.ofList (aliasAndName static.2).2)).map fun name =>
      ⟨name, (aliasAndName static.2).1, static.1, global.1⟩ := by
  unfold usingOfText?
  generalize trimChars (withoutSemicolons (squeeze text).toList) = cs
  dsimp only
  unfold leadWord aliasAndName
  rfl

theorem leadWord_append {word : String} {cs : List Char} (h : Neat cs) :
    leadWord word (word.toList ++ ' ' :: cs) = (true, cs) := by
  have hrest : afterLead? (word.toList ++ [' ']) (word.toList ++ ' ' :: cs) = some cs :=
    afterLead?_eq_some.mpr (by simp)
  rw [leadWord, afterWord?, hrest, Option.map_some, h.trim]

theorem leadWord_of_notPrefix {word : String} {cs : List Char}
    (h : ¬ word.toList ++ [' '] <+: cs) : leadWord word cs = (false, cs) := by
  have hnone : afterLead? (word.toList ++ [' ']) cs = none := by
    cases hcase : afterLead? (word.toList ++ [' ']) cs with
    | none => rfl
    | some rest => exact absurd ⟨rest, (afterLead?_eq_some.mp hcase).symm⟩ h
  rw [leadWord, afterWord?, hnone, Option.map_none]

/-- What is left is neat, and the word does not stand there if it was not found. -/
theorem neat_leadWord (word : String) {cs : List Char} (h : Neat cs) :
    Neat (leadWord word cs).2 ∧
      ((leadWord word cs).1 = false → ¬ word.toList ++ [' '] <+: (leadWord word cs).2) := by
  by_cases hpre : word.toList ++ [' '] <+: cs
  · obtain ⟨rest, rfl⟩ := hpre
    have hrest : afterLead? (word.toList ++ [' ']) (word.toList ++ [' '] ++ rest) = some rest :=
      afterLead?_eq_some.mpr rfl
    rw [leadWord, afterWord?, hrest, Option.map_some]
    exact ⟨(h.toSparse.of_infix (List.suffix_append _ _).isInfix).trim, fun hfalse => by cases hfalse⟩
  · rw [leadWord_of_notPrefix hpre]
    exact ⟨h, fun _ => hpre⟩

end CSharp

namespace Source.Using

/-- What a directive states first behind its words. -/
def lead (u : Using) : List Char :=
  match u.alias? with
  | some name => name.toList
  | none => u.name.text.toList

/-- The parts of a directive as they are cut from a text. -/
structure Tidy (u : Using) : Prop where
  name : Neat u.name.text.toList
  aliasName : ∀ a ∈ u.alias?, Neat a.toList ∧ '=' ∉ a.toList
  noAlias : u.alias? = none → '=' ∉ u.name.text.toList
  noStatic : u.isStatic = false → ¬ "static".toList ++ [' '] <+: u.lead

theorem tidy_of_usingOfText? {u : Using} {text : String} (h : usingOfText? text = some u) :
    u.Tidy := by
  rw [usingOfText?_eq] at h
  obtain ⟨hglobal, _⟩ := neat_leadWord "global"
    ((neat_squeeze text).toSparse.of_infix (withoutSemicolons_isPrefix _).isInfix).trim
  obtain ⟨hneat, hstatic⟩ := neat_leadWord "static"
    (hglobal.toSparse.of_infix (List.drop_suffix "using".length _).isInfix).trim
  dsimp only at h
  generalize leadWord "static" _ = rest at h hneat hstatic
  obtain ⟨isStatic, cs⟩ := rest
  obtain ⟨name, hname, rfl⟩ := Option.map_eq_some_iff.mp h
  have htext := congrArg String.toList (Name.text_of_ofString? hname)
  rw [String.toList_ofList] at htext
  by_cases hassign : '=' ∈ cs
  · obtain ⟨front, rest, rfl, hfront⟩ := List.eq_append_cons_of_mem hassign
    have hneatFront : Neat (trimChars front) :=
      (hneat.toSparse.of_infix (List.prefix_append _ _).isInfix).trim
    have hneatRest : Neat (trimChars rest) := (hneat.toSparse.of_infix
      ((List.suffix_cons _ _).trans (List.suffix_append _ _)).isInfix).trim
    rw [aliasAndName_append hfront] at htext ⊢
    refine ⟨htext ▸ hneatRest, fun a ha => ?_, fun hnone => ?_, fun hfalse hstat => ?_⟩
    · rw [← Option.mem_some_iff.mp ha, String.toList_ofList]
      exact ⟨hneatFront, fun hmem => hfront ((trimChars_isInfix _).subset hmem)⟩
    · cases hnone
    · -- no blank is cut off before the alias, so that it stands where the text begins
      have hhead : ∀ d ∈ front.head?, isBlank d = false := by
        intro d hd
        refine hneat.head d ?_
        rw [List.head?_append, Option.mem_def.mp hd]
        rfl
      have htrim := trimChars_isPrefix front
      rw [dropWhile_of_head hhead] at htrim
      have halias : "static".toList ++ [' '] <+: trimChars front := by
        simpa only [lead, String.toList_ofList] using hstat
      exact hstatic hfalse ((halias.trans htrim).trans (List.prefix_append _ _))
  · rw [aliasAndName_of_not_mem hassign] at htext ⊢
    refine ⟨htext ▸ hneat, fun a ha => ?_, fun _ => htext ▸ hassign, fun hfalse => ?_⟩
    · cases ha
    · rw [lead, htext]
      exact hstatic hfalse

/-- What the syntax of directives says of an alias and of a name: an alias has characters and is
not the word of static directives, and no name ends with a semicolon. -/
structure Clear (u : Using) : Prop where
  aliasName : ∀ a ∈ u.alias?, a ≠ "" ∧ a ≠ "static"
  name : u.name.text.toList.getLast? ≠ some ';'

/-- What a directive states behind its words. -/
def stated (u : Using) : List Char :=
  match u.alias? with
  | some a => a.toList ++ ' ' :: '=' :: ' ' :: u.name.text.toList
  | none => u.name.text.toList

/-- The characters behind a word, if the word is there. -/
def withWord (isThere : Bool) (word : String) (cs : List Char) : List Char :=
  if isThere then word.toList ++ ' ' :: cs else cs

variable {u : Using}

theorem leadWord_withWord {isThere : Bool} {word : String} {cs : List Char} (h : Neat cs)
    (hno : isThere = false → ¬ word.toList ++ [' '] <+: cs) :
    leadWord word (withWord isThere word cs) = (isThere, cs) := by
  cases isThere with
  | true => exact leadWord_append h
  | false => exact leadWord_of_notPrefix (hno rfl)

theorem neat_withWord (isThere : Bool) (word : String) {cs : List Char} (h : Neat cs) (hcs : cs ≠ [])
    (hword : word.toList ≠ [] ∧ ∀ c ∈ word.toList, isBlank c = false) :
    Neat (withWord isThere word cs) ∧ withWord isThere word cs ≠ [] := by
  cases isThere with
  | true => exact ⟨(Neat.word hword.2).append_space h hword.1 hcs, by simp [withWord]⟩
  | false => exact ⟨h, hcs⟩

theorem toList_name_ne_nil (u : Using) : u.name.text.toList ≠ [] := fun h =>
  u.name.nonempty (String.toList_eq_nil_iff.mp h)

theorem getLast?_space {cs ds : List Char} (hds : ds ≠ []) :
    (cs ++ ' ' :: ds).getLast? = ds.getLast? := by
  rw [List.append_cons, List.getLast?_append_of_ne_nil _ hds]

theorem getLast?_withWord (isThere : Bool) (word : String) {cs : List Char} (hcs : cs ≠ []) :
    (withWord isThere word cs).getLast? = cs.getLast? := by
  cases isThere with
  | true => exact getLast?_space hcs
  | false => rfl

theorem getLast?_stated (u : Using) : u.stated.getLast? = u.name.text.toList.getLast? := by
  have hname := u.toList_name_ne_nil
  unfold stated
  split
  · rw [getLast?_space (List.cons_ne_nil _ _), ← List.singleton_append, getLast?_space hname]
  · rfl

theorem toList_usingLine (halias : ∀ a ∈ u.alias?, a ≠ "") : (Layout.usingLine u).toList =
    withWord u.isGlobal "global" ("using".toList ++ ' ' :: withWord u.isStatic "static" u.stated) ++
      [';'] := by
  obtain ⟨name, alias?, isStatic, isGlobal⟩ := u
  cases alias? with
  | none =>
    cases isStatic
    all_goals
      cases isGlobal
      all_goals simp [Layout.usingLine, joinWith, withWord, stated]
  | some a =>
    have ha : a ≠ "" := halias a rfl
    cases isStatic
    all_goals
      cases isGlobal
      all_goals simp [Layout.usingLine, joinWith, withWord, stated, ha]

namespace Tidy

theorem neat_stated (h : u.Tidy) (halias : ∀ a ∈ u.alias?, a ≠ "") :
    Neat u.stated ∧ u.stated ≠ [] := by
  have hname := u.toList_name_ne_nil
  unfold stated
  cases hcase : u.alias? with
  | none => exact ⟨h.name, hname⟩
  | some a =>
    have ha : a.toList ≠ [] := fun hnil => halias a hcase (String.toList_eq_nil_iff.mp hnil)
    have hassign : Neat ['='] := .word (not_isBlank_of_all (by decide))
    exact ⟨(h.aliasName a hcase).1.append_space (hassign.append_space h.name (by simp) hname) ha
      (by simp), by simp⟩

/-- A directive that is not static does not begin with the word of those that are. -/
theorem not_prefix_stated (h : u.Tidy) (hstatic : u.isStatic = false)
    (halias : ∀ a ∈ u.alias?, a ≠ "static") : ¬ "static".toList ++ [' '] <+: u.stated := by
  intro hpre
  have hlead := h.noStatic hstatic
  cases hcase : u.alias? with
  | none =>
    rw [lead, hcase] at hlead
    rw [stated, hcase] at hpre
    exact hlead hpre
  | some a =>
    rw [lead, hcase] at hlead
    rw [stated, hcase] at hpre
    obtain ⟨more, hmore⟩ := hpre
    rcases List.append_eq_append_iff.mp hmore with ⟨rest, hrest, _⟩ | ⟨rest, hrest, hspace⟩
    · exact hlead ⟨rest, hrest.symm⟩
    · cases rest with
      | nil => exact hlead ⟨[], by rw [hrest, List.append_nil, List.append_nil]⟩
      | cons c rest =>
        obtain ⟨rfl, _⟩ := List.cons.inj hspace
        have hsplit : "static".toList ++ ' ' :: [] = a.toList ++ ' ' :: rest := hrest
        rw [List.append_cons_inj_of_notMem (by decide) List.not_mem_nil] at hsplit
        exact halias a hcase (String.toList_inj.mp hsplit.1.symm)

theorem aliasAndName_stated (h : u.Tidy) : aliasAndName u.stated =
    (u.alias?, u.name.text.toList) := by
  unfold stated
  cases hcase : u.alias? with
  | none => exact aliasAndName_of_not_mem (h.noAlias hcase)
  | some a =>
    obtain ⟨hneat, hassign⟩ := h.aliasName a hcase
    dsimp only
    have hsplit : a.toList ++ ' ' :: '=' :: ' ' :: u.name.text.toList =
        (a.toList ++ [' ']) ++ '=' :: ' ' :: u.name.text.toList := by simp
    rw [hsplit, aliasAndName_append (by simpa using hassign), hneat.trim_append_space,
      h.name.trim_space_cons, String.ofList_toList]

/-- A line is read back also where a static directive has the word of these as its alias. -/
theorem usingOfText?_line (h : u.Tidy) (halias : ∀ a ∈ u.alias?, a ≠ "")
    (hword : u.isStatic = false → ∀ a ∈ u.alias?, a ≠ "static")
    (hname : u.name.text.toList.getLast? ≠ some ';') :
    usingOfText? (Layout.usingLine u) = some u := by
  obtain ⟨hstated, hne⟩ := h.neat_stated halias
  obtain ⟨hstatic, hstaticne⟩ := neat_withWord u.isStatic "static" hstated hne
    ⟨by decide, not_isBlank_of_all (by decide)⟩
  have hneat : Neat "using".toList := .word (not_isBlank_of_all (by decide))
  have husing := hneat.append_space hstatic (by decide) hstaticne
  obtain ⟨hglobal, _⟩ := neat_withWord u.isGlobal "global" husing (by simp)
    ⟨by decide, not_isBlank_of_all (by decide)⟩
  have hline := toList_usingLine halias
  have hsqueeze : squeeze (Layout.usingLine u) = Layout.usingLine u := by
    refine Neat.squeeze ?_
    rw [hline]
    exact hglobal.append (.word (not_isBlank_of_all (by decide)))
  have hlast : (withWord u.isGlobal "global" ("using".toList ++ ' ' ::
      withWord u.isStatic "static" u.stated)).getLast? ≠ some ';' := by
    rw [getLast?_withWord _ _ (by simp), getLast?_space hstaticne, getLast?_withWord _ _ hne,
      getLast?_stated]
    exact hname
  have hlead : ¬ "global".toList ++ [' '] <+:
      "using".toList ++ ' ' :: withWord u.isStatic "static" u.stated := by
    simp
  have hdrop : ("using".toList ++ ' ' :: withWord u.isStatic "static" u.stated).drop "using".length =
      ' ' :: withWord u.isStatic "static" u.stated :=
    List.drop_left' String.length_toList
  rw [usingOfText?_eq, hsqueeze, hline, withoutSemicolons_append hlast, hglobal.trim]
  simp only [leadWord_withWord husing fun _ => hlead, hdrop, hstatic.trim_space_cons,
    leadWord_withWord hstated fun hfalse => h.not_prefix_stated hfalse (hword hfalse),
    h.aliasAndName_stated, String.ofList_toList, Name.ofString?_text, Option.map_some]

/-- **What a directive states is read back from its line.** -/
theorem usingOfText?_usingLine (h : u.Tidy) (hclear : u.Clear) :
    usingOfText? (Layout.usingLine u) = some u :=
  h.usingOfText?_line (fun a ha => (hclear.aliasName a ha).1)
    (fun _ a ha => (hclear.aliasName a ha).2) hclear.name

end Tidy

end Source.Using

end TestScaffold
