/-
  TestScaffold/Proofs/Settings/Readings.lean
  ==========================================
  **Plain texts that are printed values are read as these values.**

  The readings of a plain text overlap and are tried in a fixed order, so a law
  about one of them has to hold against all that come before it.  The decimal text
  of an integer has a digit, which no switch word has, and no point
  (`Datum.ofPlain_toString`).  Items between commas are no switch word and no
  number, whatever the single items look like, since neither has a comma
  (`Datum.ofPlain_joinWith`).  What is none of these stays as it is, and every text
  has a reading (`Datum.ofPlain_reads`).
-/
import Mathlib.Data.List.Forall2
import TestScaffold.Proofs.Settings.PlainText
import TestScaffold.Proofs.Text.Blanks

namespace TestScaffold

open TestScaffold.Text

/-! ### Decimal texts of integers -/

namespace Numeral

theorem isAsciiDigit_iff {c : Char} : isAsciiDigit c = true ↔ 48 ≤ c.toNat ∧ c.toNat ≤ 57 := by
  simp only [isAsciiDigit, Bool.and_eq_true, decide_eq_true_eq]
  exact Iff.rfl

/-- The characters of numbers are ASCII characters and no blanks. -/
theorem ascii_of_isNumeralChar {c : Char} (h : isNumeralChar c = true) :
    c.toNat < 128 ∧ isSpace c = false := by
  rw [isNumeralChar, Bool.or_eq_true] at h
  rcases h with hdigit | hmark
  · obtain ⟨hlow, hhigh⟩ := isAsciiDigit_iff.mp hdigit
    have hne : c ≠ ' ' := by
      rintro rfl
      revert hlow
      decide
    refine ⟨by omega, ?_⟩
    simp only [isSpace, Bool.or_eq_false_iff, beq_eq_false_iff_ne, Bool.and_eq_false_iff,
      decide_eq_false_iff_not]
    exact ⟨hne, .inr (by omega)⟩
  · have hall : ['_', '-', '+', '.', 'e', 'E'].all (fun c => c.toNat < 128 && !isSpace c) = true :=
      rfl
    simpa using List.all_eq_true.mp hall c (by simpa using hmark)

theorem dropWhile_isSpace {cs : List Char} (h : ∀ c ∈ cs, isSpace c = false) :
    cs.dropWhile isSpace = cs := by
  cases cs with
  | nil => rfl
  | cons c rest => exact List.dropWhile_cons_of_neg (by simp [h c List.mem_cons_self])

/-- A text with nothing but characters of numbers has no blanks around it. -/
theorem bare_eq_toList {s : String} (h : ∀ c ∈ s.toList, isNumeralChar c = true) :
    bare s = s.toList := by
  have hplain : s.toList.map plain = s.toList := by
    refine (List.map_congr_left fun c hc => ?_).trans (List.map_id' _)
    exact if_pos (ascii_of_isNumeralChar (h c hc)).1
  have hspace : ∀ c ∈ s.toList, isSpace c = false := fun c hc =>
    (ascii_of_isNumeralChar (h c hc)).2
  rw [bare, hplain, dropWhile_isSpace hspace, dropWhile_isSpace (by simpa using hspace),
    List.reverse_reverse]

theorem toList_toString (n : Int) :
    (toString n).toList = (if n < 0 then ['-'] else []) ++ Nat.toDigits 10 n.natAbs := by
  cases n with
  | ofNat m => simp [toString, Int.repr]
  | negSucc m => simp [toString, Int.repr, Int.negSucc_lt_zero]

theorem allDigits_toDigits (n : Nat) : AllDigits (Nat.toDigits 10 n) := by
  intro c hc
  have hdigit : c.isDigit = true := Nat.isDigit_of_mem_toDigits (by decide) (by decide) hc
  exact hdigit

theorem isNumeralChar_of_mem_toString {n : Int} : ∀ c ∈ (toString n).toList,
    isNumeralChar c = true := by
  intro c hc
  rw [toList_toString, List.mem_append] at hc
  rcases hc with hsign | hdigit
  · split at hsign
    · cases List.mem_singleton.mp hsign
      rfl
    · cases hsign
  · exact (allDigits_toDigits _).isNumeralChar c hdigit

theorem sign_toString (n : Int) :
    sign (toString n).toList = (decide (n < 0), Nat.toDigits 10 n.natAbs) := by
  rw [toList_toString]
  by_cases hneg : n < 0
  · rw [if_pos hneg, decide_eq_true hneg]
    rfl
  · rw [if_neg hneg, decide_eq_false hneg, List.nil_append]
    unfold sign
    split
    · rename_i rest hdigits
      exact absurd rfl ((allDigits_toDigits _).head_not_sign '-' (by rw [hdigits]; rfl)).1
    · rename_i rest hdigits
      exact absurd rfl ((allDigits_toDigits _).head_not_sign '+' (by rw [hdigits]; rfl)).2
    · rfl

theorem AllDigits.underscore_notMem {cs : List Char} (h : AllDigits cs) : '_' ∉ cs := by
  intro hmem
  have hdigit := h '_' hmem
  revert hdigit
  decide

theorem AllDigits.goodUnderscores {cs : List Char} (h : AllDigits cs) :
    Numeral.goodUnderscores false cs = true := by
  rw [goodUnderscores_iff_isSpaced]
  rintro before after rfl
  exact absurd (List.mem_append_right _ List.mem_cons_self) h.underscore_notMem

theorem valueOf_toDigits (n : Nat) : valueOf (Nat.toDigits 10 n) = n :=
  Nat.ofDigitChars_ten_toDigits

/-- **The decimal text of an integer is read as the integer**, if it is not too long to be read. -/
theorem integer?_toString {n : Int} (h : (Nat.toDigits 10 n.natAbs).length ≤ maxDigits) :
    integer? (toString n) = some n := by
  have hdigits := allDigits_toDigits n.natAbs
  have hfilter : (Nat.toDigits 10 n.natAbs).filter (· != '_') = Nat.toDigits 10 n.natAbs := by
    refine List.filter_eq_self.mpr fun c hc => ?_
    have hne : c ≠ '_' := by
      rintro rfl
      exact hdigits.underscore_notMem hc
    simpa using hne
  have hsome : (Nat.toDigits 10 n.natAbs).isEmpty = false :=
    List.isEmpty_eq_false_iff.mpr Nat.toDigits_ne_nil
  have hall : (Nat.toDigits 10 n.natAbs).all isAsciiDigit = true := List.all_eq_true.mpr hdigits
  simp only [integer?, bare_eq_toList isNumeralChar_of_mem_toString, sign_toString, hfilter, hsome,
    hall, hdigits.goodUnderscores, h, valueOf_toDigits, Bool.not_false, Bool.and_self, decide_true,
    if_true, decide_eq_true_eq, Option.some.injEq]
  split <;> omega

end Numeral

namespace Datum

open Numeral

theorem toSmall_of_isAsciiDigit {c : Char} (h : isAsciiDigit c = true) : toSmall c = [c] := by
  obtain ⟨hlow, hhigh⟩ := isAsciiDigit_iff.mp h
  have hupper : isAsciiUpper c = false := by
    simp only [isAsciiUpper, Bool.and_eq_false_iff, decide_eq_false_iff_not]
    refine .inl fun hle => ?_
    have hcode : 65 ≤ c.toNat := hle
    omega
  simp [toSmall, hupper, show c.toNat < 128 by omega]

/-- No switch word has a digit. -/
theorem switchOf?_of_digit {s : String} {c : Char} (hc : c ∈ s.toList)
    (hdigit : isAsciiDigit c = true) : switchOf? s = none := by
  rw [switchOf?_eq_none_iff]
  intro hword
  have hlower : c ∈ (lower s).toList := by
    rw [lower, String.toList_ofList]
    refine mem_lowerFrom (toSmall_of_isAsciiDigit hdigit) ?_ hc
    rintro rfl
    revert hdigit
    decide
  have hwords : switchWords.all (fun word => word.toList.all (!isAsciiDigit ·)) = true := by decide
  have hplain := List.all_eq_true.mp (List.all_eq_true.mp hwords _ hword) c hlower
  rw [hdigit] at hplain
  cases hplain

/-- **The decimal text of an integer means the integer.** -/
theorem ofPlain_toString {n : Int} (h : (Nat.toDigits 10 n.natAbs).length ≤ maxDigits) :
    ofPlain (toString n) = int n := by
  obtain ⟨c, hc⟩ : ∃ c, c ∈ Nat.toDigits 10 n.natAbs :=
    List.exists_mem_of_ne_nil _ Nat.toDigits_ne_nil
  have hswitch : switchOf? (toString n) = none := by
    refine switchOf?_of_digit ?_ (allDigits_toDigits _ c hc)
    rw [toList_toString]
    exact List.mem_append_right _ hc
  have hpoint : hasChar '.' (toString n) = false := by
    have hnone : '.' ∉ (toString n).toList := by
      rw [toList_toString, List.mem_append, not_or]
      refine ⟨?_, point_notMem_of_allDigits (allDigits_toDigits _)⟩
      split <;> decide
    simpa [hasChar] using hnone
  have hnumber : numberOf? (toString n) = some (int n) := by
    rw [numberOf?, hpoint, if_neg Bool.false_ne_true, integer?_toString h]
    rfl
  simp only [ofPlain, hswitch, hnumber]

/-! ### Items with blanks around them -/

/-- An item between commas, with any blanks around it. -/
def Padded (item cell : String) : Prop :=
  ∃ front back, isBlankText front = true ∧ isBlankText back = true ∧ cell = front ++ item ++ back

theorem Padded.trim {item cell : String} (h : Padded item cell) (hitem : IsItem item) :
    trim cell = item := by
  obtain ⟨front, back, hfront, hback, rfl⟩ := h
  rw [Text.trim, String.toList_append, String.toList_append,
    trimChars_pad (List.all_eq_true.mp hfront) (List.all_eq_true.mp hback)]
  exact hitem.trim

theorem Padded.comma_notMem {item cell : String} (h : Padded item cell) (hitem : IsItem item) :
    ',' ∉ cell.toList := by
  obtain ⟨front, back, hfront, hback, rfl⟩ := h
  have hblank : ∀ {s : String}, isBlankText s = true → ',' ∉ s.toList := by
    intro s hs hmem
    have hcomma := List.all_eq_true.mp hs ',' hmem
    revert hcomma
    decide
  simp [hblank hfront, hblank hback, hitem.noComma]

theorem trim_of_padded {items cells : List String} (hcells : List.Forall₂ Padded items cells)
    (hitems : ∀ item ∈ items, IsItem item) :
    (∀ cell ∈ cells, ',' ∉ cell.toList) ∧ cells.map trim = items := by
  induction hcells with
  | nil => exact ⟨by simp, rfl⟩
  | cons hpadded _ ih =>
    obtain ⟨hitem, hrest⟩ := List.forall_mem_cons.mp hitems
    obtain ⟨hcomma, htrim⟩ := ih hrest
    refine ⟨List.forall_mem_cons.mpr ⟨hpadded.comma_notMem hitem, hcomma⟩, ?_⟩
    rw [List.map_cons, hpadded.trim hitem, htrim]

/-- **Two items or more come back from the text that joins them**, whatever they look like. -/
theorem ofPlain_joinWith {items cells : List String} (hcount : 2 ≤ items.length)
    (hitems : ∀ item ∈ items, IsItem item) (hcells : List.Forall₂ Padded items cells) :
    ofPlain (joinWith "," cells) = list (items.map str) := by
  obtain ⟨hcomma, htrim⟩ := trim_of_padded hcells hitems
  rw [hcells.length_eq] at hcount
  match cells with
  | first :: second :: rest =>
    have hsplit : splitOn ',' (joinWith "," (first :: second :: rest)) = first :: second :: rest :=
      splitOn_joinWith (List.cons_ne_nil _ _) hcomma
    rw [ofPlain_of_comma (by simp [joinWith]), itemsOf, hsplit, htrim]

/-! ### All readings -/

/-- A text is read as itself if and only if it stands for nothing else. -/
theorem ofPlain_eq_str_iff {s : String} : ofPlain s = str s ↔ IsItself s := by
  refine ⟨fun h => ?_, ofPlain_of_isItself⟩
  rcases ofPlain_cases s with ⟨hitself, _⟩ | ⟨_, hlist⟩ | ⟨_, _, ⟨b, hb⟩ | ⟨n, hn⟩ | ⟨x, hx⟩⟩
  · exact hitself
  all_goals simp_all

/-- **Every text has a reading, and printed values are read back**: integers from their decimal
text, two items or more from the text that joins them, and a text itself unless it is a switch word,
a number or a list. -/
theorem ofPlain_reads :
    (∀ s, ofPlain s = str s ∨ (∃ items : List String, ofPlain s = list (items.map str)) ∨
      (∃ b, ofPlain s = bool b) ∨ (∃ n, ofPlain s = int n) ∨ ∃ x, ofPlain s = float x) ∧
    (∀ n : Int, (Nat.toDigits 10 n.natAbs).length ≤ maxDigits → ofPlain (toString n) = int n) ∧
    (∀ items cells : List String, 2 ≤ items.length → (∀ item ∈ items, IsItem item) →
      List.Forall₂ Padded items cells → ofPlain (joinWith "," cells) = list (items.map str)) ∧
    ∀ s, ofPlain s = str s ↔ IsItself s := by
  refine ⟨fun s => ?_, fun n => ofPlain_toString, fun items cells => ofPlain_joinWith,
    fun s => ofPlain_eq_str_iff⟩
  rcases ofPlain_cases s with ⟨_, h⟩ | ⟨_, h⟩ | ⟨_, _, h⟩
  · exact .inl h
  · exact .inr (.inl ⟨_, h⟩)
  · exact .inr (.inr h)

/-- A negative integer, items that look like a number and a switch word with blanks around them, and
a text with a sign and a point that is no number. -/
theorem ofPlain_reads_samples :
    ofPlain (toString (-120 : Int)) = int (-120) ∧
      ofPlain " 7 ,on\t" = list [str "7", str "on"] ∧ ofPlain "+1.2.3" = str "+1.2.3" := by
  have hcells : List.Forall₂ Padded ["7", "on"] [" 7 ", "on\t"] :=
    .cons ⟨" ", " ", by decide, by decide, by decide⟩
      (.cons ⟨"", "\t", by decide, by decide, by decide⟩ .nil)
  refine ⟨ofPlain_reads.2.1 (-120) (by decide), ?_, ?_⟩
  · exact ofPlain_reads.2.2.1 ["7", "on"] [" 7 ", "on\t"] (by decide) (by decide) hcells
  · exact (ofPlain_reads.2.2.2 "+1.2.3").mpr
      ⟨by decide, numberOf?_eq_none_iff.mp (by decide), by decide⟩

end Datum

end TestScaffold
