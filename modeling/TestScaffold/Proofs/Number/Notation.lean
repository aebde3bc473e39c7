/-
  TestScaffold/Proofs/Number/Notation.lean
  ========================================
  **Which texts are numbers.**

  The readers of numbers go through the characters of a text; here is what they
  accept, said without them.  Underscores stand between digits (`IsSpaced`).
  Without them a number is digits behind a sign, or digits with a point and
  perhaps a power of ten (`Written`).  A text is read as a number if and only if
  it is written like this (`integer?_isSome_iff`, `decimal?_isSome_iff`), and so
  no other characters than these stand in numbers
  (`IsNumeral.isNumeralChar`).
-/
import Mathlib.Data.List.TakeWhile
import TestScaffold.Number.Numeral

namespace TestScaffold.Numeral

open TestScaffold.Text

/-! ### Underscores -/

/-- Every underscore stands between two digits. -/
def IsSpaced (cs : List Char) : Prop := ∀ before after, cs = before ++ '_' :: after →
  before.getLast?.any isAsciiDigit = true ∧ after.head?.any isAsciiDigit = true

theorem goodUnderscores_cons (previous : Bool) (c : Char) (rest : List Char) :
    goodUnderscores previous (c :: rest) =
      ((c != '_' || previous && rest.head?.any isAsciiDigit) &&
        goodUnderscores (isAsciiDigit c) rest) := by
  by_cases hc : c = '_'
  · subst hc
    cases rest with
    | nil => simp [goodUnderscores]
    | cons d rest => simp [goodUnderscores, show isAsciiDigit '_' = false from by decide]
  · rw [goodUnderscores]
    · simp [hc]
    · exact fun h => hc h

/-- The induction is on the characters that are left; those before them only count for the last
one. -/
theorem goodUnderscores_iff {rest : List Char} : ∀ {front : List Char},
    goodUnderscores (front.getLast?.any isAsciiDigit) rest = true ↔
      ∀ before after, rest = before ++ '_' :: after →
        (front ++ before).getLast?.any isAsciiDigit = true ∧
          after.head?.any isAsciiDigit = true := by
  induction rest with
  | nil => simp [goodUnderscores]
  | cons c rest ih =>
    intro front
    have hnext := @ih (front ++ [c])
    rw [List.getLast?_concat, Option.any_some] at hnext
    rw [goodUnderscores_cons, Bool.and_eq_true, hnext]
    constructor
    · rintro ⟨hhere, hlater⟩ before after hsplit
      rcases List.cons_eq_append_iff.mp hsplit with ⟨rfl, hcons⟩ | ⟨more, rfl, hrest⟩
      · cases hcons
        simpa using hhere
      · simpa using hlater more after hrest
    · intro h
      refine ⟨?_, fun before after hsplit => ?_⟩
      · by_cases hc : c = '_'
        · simpa [hc] using h [] rest (by rw [hc]; rfl)
        · simp [hc]
      · simpa using h (c :: before) after (by rw [hsplit]; rfl)

theorem goodUnderscores_iff_isSpaced {cs : List Char} :
    goodUnderscores false cs = true ↔ IsSpaced cs :=
  @goodUnderscores_iff cs []

/-! ### Signs and powers -/

/-- What may stand before the digits of a number. -/
def signs : List (List Char) := [[], ['-'], ['+']]

theorem mem_signs_iff {front : List Char} :
    front ∈ signs ↔ front = [] ∨ front = ['-'] ∨ front = ['+'] := by
  simp [signs]

theorem exists_sign (cs : List Char) : ∃ front ∈ signs, cs = front ++ (sign cs).2 := by
  unfold sign
  split
  · exact ⟨['-'], by decide, rfl⟩
  · exact ⟨['+'], by decide, rfl⟩
  · exact ⟨[], by decide, rfl⟩

/-- One sign is taken away, and no other one is if none follows. -/
theorem sign_append {front rest : List Char} (hfront : front ∈ signs)
    (hrest : ∀ c ∈ rest.head?, c ≠ '-' ∧ c ≠ '+') : (sign (front ++ rest)).2 = rest := by
  rcases mem_signs_iff.mp hfront with rfl | rfl | rfl
  · rw [List.nil_append]
    unfold sign
    split
    · exact absurd rfl (hrest '-' rfl).1
    · exact absurd rfl (hrest '+' rfl).2
    · rfl
  · rfl
  · rfl

/-- Nothing but digits. -/
def AllDigits (cs : List Char) : Prop := ∀ c ∈ cs, isAsciiDigit c = true

theorem AllDigits.head_not_sign {cs : List Char} (h : AllDigits cs) :
    ∀ c ∈ cs.head?, c ≠ '-' ∧ c ≠ '+' := by
  intro c hc
  have hdigit := h c (List.mem_of_mem_head? hc)
  constructor <;> rintro rfl <;> revert hdigit <;> decide

/-- A power of ten behind a number, if any: a letter and an integer. -/
inductive Power : List Char → Prop
  | one : Power []
  | ten {letter : Char} {front digits : List Char} : letter ∈ ['e', 'E'] → front ∈ signs →
      digits ≠ [] → AllDigits digits → Power (letter :: (front ++ digits))

theorem exponent?_isSome_iff {cs : List Char} : (exponent? cs).isSome = true ↔ Power cs := by
  constructor
  · intro h
    cases cs with
    | nil => exact .one
    | cons letter rest =>
      simp only [exponent?] at h
      split at h
      · rename_i hletter
        split at h
        · rename_i hdigits
          obtain ⟨front, hfront, hrest⟩ := exists_sign rest
          rw [hrest]
          simp only [Bool.and_eq_true, Bool.not_eq_true', List.isEmpty_eq_false_iff,
            List.all_eq_true] at hdigits
          exact .ten (by simpa using hletter) hfront hdigits.1 hdigits.2
        · cases h
      · cases h
  · rintro (_ | ⟨hletter, hfront, hne, hdigits⟩)
    · rfl
    · rename_i letter front digits
      have hsign := sign_append hfront hdigits.head_not_sign
      have hall : digits.all isAsciiDigit = true := List.all_eq_true.mpr hdigits
      simp only [exponent?]
      rw [if_pos (by simpa using hletter)]
      simp [hsign, hne, hall]

/-! ### Numbers -/

/-- How numbers are written, but for the underscores: integers that are not too long, and digits
with a point. -/
inductive Written : List Char → Prop
  | integer {front digits : List Char} : front ∈ signs → digits ≠ [] → AllDigits digits →
      digits.length ≤ maxDigits → Written (front ++ digits)
  | decimal {front whole fraction power : List Char} : front ∈ signs → AllDigits whole →
      AllDigits fraction → ¬ (whole = [] ∧ fraction = []) → Power power →
      Written (front ++ (whole ++ '.' :: (fraction ++ power)))

/-- How numbers are written. -/
structure IsNumeral (cs : List Char) : Prop where
  isSpaced : IsSpaced cs
  written : Written (cs.filter (· != '_'))

theorem goodUnderscores_sign (cs : List Char) :
    goodUnderscores false (sign cs).2 = goodUnderscores false cs := by
  unfold sign
  split
  · rw [goodUnderscores_cons]
    rfl
  · rw [goodUnderscores_cons]
    rfl
  · rfl

/-- No underscore comes before the sign, so it is the same without underscores. -/
theorem sign_filter {cs : List Char} (h : IsSpaced cs) :
    (sign (cs.filter (· != '_'))).2 = (sign cs).2.filter (· != '_') := by
  cases cs with
  | nil => rfl
  | cons c rest =>
    have hc : c ≠ '_' := by
      rintro rfl
      cases (h [] rest rfl).1
    rw [List.filter_cons_of_pos (by simpa using hc)]
    unfold sign
    split <;> split <;> simp_all

theorem point_notMem_of_allDigits {cs : List Char} (h : AllDigits cs) : '.' ∉ cs := by
  intro hmem
  have hdigit := h '.' hmem
  revert hdigit
  decide

theorem point_notMem_of_mem_signs {front : List Char} (h : front ∈ signs) : '.' ∉ front := by
  rcases mem_signs_iff.mp h with rfl | rfl | rfl <;> decide

theorem Power.point_notMem {cs : List Char} (h : Power cs) : '.' ∉ cs := by
  cases h with
  | one => simp
  | ten hletter hfront _ hdigits =>
    rw [List.mem_cons, List.mem_append]
    rintro (rfl | hmem | hmem)
    · revert hletter
      decide
    · exact point_notMem_of_mem_signs hfront hmem
    · exact point_notMem_of_allDigits hdigits hmem

theorem Power.takeWhile_digits {cs : List Char} (h : Power cs) : cs.takeWhile isAsciiDigit = [] := by
  cases h with
  | one => rfl
  | ten hletter _ _ _ =>
    rw [List.mem_cons, List.mem_singleton] at hletter
    rcases hletter with rfl | rfl <;> rfl

theorem Power.dropWhile_digits {cs : List Char} (h : Power cs) : cs.dropWhile isAsciiDigit = cs := by
  have hparts := cs.takeWhile_append_dropWhile (p := isAsciiDigit)
  rwa [h.takeWhile_digits, List.nil_append] at hparts

/-- A text without a point is an integer or no number. -/
theorem integer?_isSome_iff {s : String} (hpoint : '.' ∉ bare s) :
    (integer? s).isSome = true ↔ IsNumeral (bare s) := by
  have hsome : (integer? s).isSome = true ↔ goodUnderscores false (bare s) = true ∧
      ((sign (bare s)).2.filter (· != '_') ≠ [] ∧
        AllDigits ((sign (bare s)).2.filter (· != '_')) ∧
          ((sign (bare s)).2.filter (· != '_')).length ≤ maxDigits) := by
    rw [← goodUnderscores_sign, AllDigits, ← List.all_eq_true]
    simp only [integer?]
    generalize (sign (bare s)).2.filter (· != '_') = digits
    cases goodUnderscores false (sign (bare s)).2 <;> cases digits <;> simp
  rw [hsome, goodUnderscores_iff_isSpaced]
  constructor
  · rintro ⟨hspaced, hdigits⟩
    rw [← sign_filter hspaced] at hdigits
    obtain ⟨front, hfront, hsplit⟩ := exists_sign ((bare s).filter (· != '_'))
    refine ⟨hspaced, ?_⟩
    rw [hsplit]
    exact .integer hfront hdigits.1 hdigits.2.1 hdigits.2.2
  · rintro ⟨hspaced, hwritten⟩
    refine ⟨hspaced, ?_⟩
    rw [← sign_filter hspaced]
    generalize hcs : (bare s).filter (· != '_') = cs at hwritten
    cases hwritten with
    | integer hfront hne hdigits hlength =>
      rw [sign_append hfront hdigits.head_not_sign]
      exact ⟨hne, hdigits, hlength⟩
    | decimal =>
      refine absurd (List.mem_filter.mp (?_ : '.' ∈ (bare s).filter (· != '_'))).1 hpoint
      simp [hcs]

theorem decimal?_isSome_iff_of_tail {s : String} {rest : List Char}
    (hrest : rest = (sign ((bare s).filter (· != '_'))).2) {tail : List Char}
    (htail : rest.dropWhile isAsciiDigit = '.' :: tail) : (decimal? s).isSome = true ↔
      goodUnderscores false (bare s) = true ∧
        ¬ (rest.takeWhile isAsciiDigit = [] ∧ tail.takeWhile isAsciiDigit = []) ∧
          Power (tail.dropWhile isAsciiDigit) := by
  rw [← exponent?_isSome_iff]
  simp only [decimal?, ← hrest, htail]
  cases goodUnderscores false (bare s) <;>
    cases rest.takeWhile isAsciiDigit <;> cases tail.takeWhile isAsciiDigit <;> simp

theorem power_of_decimal? {s : String} {rest : List Char}
    (hrest : rest = (sign ((bare s).filter (· != '_'))).2)
    (htail : ∀ tail, rest.dropWhile isAsciiDigit ≠ '.' :: tail) (h : (decimal? s).isSome = true) :
    Power (rest.dropWhile isAsciiDigit) := by
  rw [← exponent?_isSome_iff]
  simp only [decimal?, ← hrest] at h
  generalize rest.dropWhile isAsciiDigit = cs at htail h
  split at h
  · cases h
  · split at h
    · cases h
    · simpa using h

/-- With a point somewhere, the point stands behind the leading digits. -/
theorem isNumeral_of_decimal? {s : String} (hpoint : '.' ∈ bare s)
    (h : (decimal? s).isSome = true) : IsNumeral (bare s) := by
  obtain ⟨front, hfront, hsplit⟩ := exists_sign ((bare s).filter (· != '_'))
  generalize hrest : (sign ((bare s).filter (· != '_'))).2 = rest at hsplit
  have hparts := rest.takeWhile_append_dropWhile (p := isAsciiDigit)
  have hwhole : AllDigits (rest.takeWhile isAsciiDigit) := fun _ => List.mem_takeWhile_imp
  by_cases htail : ∃ tail, rest.dropWhile isAsciiDigit = '.' :: tail
  · obtain ⟨tail, htail⟩ := htail
    obtain ⟨hgood, hsome, hpower⟩ := (decimal?_isSome_iff_of_tail hrest.symm htail).mp h
    refine ⟨goodUnderscores_iff_isSpaced.mp hgood, ?_⟩
    rw [hsplit, ← hparts, htail, ← tail.takeWhile_append_dropWhile (p := isAsciiDigit)]
    exact .decimal hfront hwhole (fun _ => List.mem_takeWhile_imp) hsome hpower
  · have hpower := power_of_decimal? hrest.symm (not_exists.mp htail) h
    have hpoint' : '.' ∈ (bare s).filter (· != '_') := List.mem_filter.mpr ⟨hpoint, by decide⟩
    rw [hsplit, ← hparts, List.mem_append, List.mem_append] at hpoint'
    rcases hpoint' with hmem | hmem | hmem
    · exact absurd hmem (point_notMem_of_mem_signs hfront)
    · exact absurd hmem (point_notMem_of_allDigits hwhole)
    · exact absurd hmem hpower.point_notMem

/-- A text with a point is a decimal or no number. -/
theorem decimal?_isSome_iff {s : String} (hpoint : '.' ∈ bare s) :
    (decimal? s).isSome = true ↔ IsNumeral (bare s) := by
  refine ⟨isNumeral_of_decimal? hpoint, fun h => ?_⟩
  obtain ⟨hspaced, hwritten⟩ := h
  have hpoint' : '.' ∈ (bare s).filter (· != '_') := List.mem_filter.mpr ⟨hpoint, by decide⟩
  generalize hcs : (bare s).filter (· != '_') = cs at hpoint' hwritten
  cases hwritten with
  | integer hfront _ hdigits _ =>
    rcases List.mem_append.mp hpoint' with hmem | hmem
    · exact absurd hmem (point_notMem_of_mem_signs hfront)
    · exact absurd hmem (point_notMem_of_allDigits hdigits)
  | @decimal front whole fraction power hfront hwhole hfraction hsome hpower =>
    have hrest : whole ++ '.' :: (fraction ++ power) = (sign ((bare s).filter (· != '_'))).2 := by
      rw [hcs, sign_append hfront]
      intro c hc
      cases whole with
      | nil =>
        cases hc
        decide
      | cons d whole => exact hwhole.head_not_sign c hc
    have htail : (whole ++ '.' :: (fraction ++ power)).dropWhile isAsciiDigit =
        '.' :: (fraction ++ power) := by
      rw [List.dropWhile_append_of_pos hwhole]
      rfl
    refine (decimal?_isSome_iff_of_tail hrest htail).mpr
      ⟨goodUnderscores_iff_isSpaced.mpr hspaced, ?_, ?_⟩
    · rw [List.takeWhile_append_of_pos hwhole, List.takeWhile_append_of_pos hfraction,
        hpower.takeWhile_digits, List.takeWhile_cons_of_neg (by decide), List.append_nil,
        List.append_nil]
      exact hsome
    · rw [List.dropWhile_append_of_pos hfraction, hpower.dropWhile_digits]
      exact hpower

/-! ### Marks -/

/-- The characters of numbers. -/
def isNumeralChar (c : Char) : Bool := isAsciiDigit c || c ∈ ['_', '-', '+', '.', 'e', 'E']

theorem isNumeralChar_of_mem_signs {front : List Char} (h : front ∈ signs) :
    ∀ c ∈ front, isNumeralChar c = true := by
  rcases mem_signs_iff.mp h with rfl | rfl | rfl <;> simp [isNumeralChar]

theorem AllDigits.isNumeralChar {cs : List Char} (h : AllDigits cs) :
    ∀ c ∈ cs, isNumeralChar c = true := by
  intro c hc
  rw [Numeral.isNumeralChar, h c hc, Bool.true_or]

theorem Power.isNumeralChar {cs : List Char} (h : Power cs) : ∀ c ∈ cs, isNumeralChar c = true := by
  cases h with
  | one => simp
  | ten hletter hfront _ hdigits =>
    simp only [List.mem_cons, List.mem_append]
    rintro c (rfl | hc | hc)
    · rw [List.mem_cons, List.mem_singleton] at hletter
      rcases hletter with rfl | rfl <;> rfl
    · exact isNumeralChar_of_mem_signs hfront c hc
    · exact hdigits.isNumeralChar c hc

theorem Written.isNumeralChar {cs : List Char} (h : Written cs) :
    ∀ c ∈ cs, isNumeralChar c = true := by
  cases h with
  | integer hfront _ hdigits _ =>
    intro c hc
    rcases List.mem_append.mp hc with hc | hc
    · exact isNumeralChar_of_mem_signs hfront c hc
    · exact hdigits.isNumeralChar c hc
  | decimal hfront hwhole hfraction _ hpower =>
    simp only [List.mem_append, List.mem_cons]
    rintro c (hc | hc | rfl | hc | hc)
    · exact isNumeralChar_of_mem_signs hfront c hc
    · exact hwhole.isNumeralChar c hc
    · rfl
    · exact hfraction.isNumeralChar c hc
    · exact hpower.isNumeralChar c hc

/-- A number has no other characters than digits, signs, a point and the letter of a power, and
underscores. -/
theorem IsNumeral.isNumeralChar {cs : List Char} (h : IsNumeral cs) :
    ∀ c ∈ cs, isNumeralChar c = true := by
  intro c hc
  by_cases hunderscore : c = '_'
  · rw [hunderscore]
    rfl
  · exact h.written.isNumeralChar c (List.mem_filter.mpr ⟨hc, by simpa using hunderscore⟩)

theorem sub_zeroBelow_lt {runs : List Nat} {n start : Nat} (h : zeroBelow runs n = some start) :
    n - start < 10 := by
  induction runs, n using zeroBelow.induct with
  | case1 a b rest n hlow => simp [zeroBelow, hlow] at h
  | case2 a b rest n hlow hhigh =>
    simp only [zeroBelow, hlow, hhigh, if_true, if_false, Option.some.injEq] at h
    omega
  | case3 a b rest n hlow hhigh ih =>
    simp only [zeroBelow, hlow, hhigh, if_false] at h
    exact ih h
  | case4 => simp [zeroBelow] at h

theorem digitValue?_lt {c : Char} {v : Nat} (hascii : ¬ c.toNat < 128)
    (h : digitValue? c = some v) : v < 10 := by
  simp only [digitValue?, hascii, if_false, Option.map_eq_some_iff] at h
  obtain ⟨start, hstart, rfl⟩ := h
  exact sub_zeroBelow_lt hstart

/-- An ASCII character that is neither a blank nor a digit is made from itself only. -/
theorem plain_eq_iff {c mark : Char} (hascii : mark.toNat < 128) (hspace : isSpace mark = false)
    (hdigit : isAsciiDigit mark = false) : plain c = mark ↔ c = mark := by
  unfold plain
  split
  · rfl
  · rename_i hhigh
    have hne : c ≠ mark := by
      rintro rfl
      exact hhigh hascii
    refine iff_of_false ?_ hne
    split
    · rintro rfl
      cases hspace
    · split
      · rename_i v hv
        rintro rfl
        have hdigits : ∀ v < 10, isAsciiDigit (Char.ofNat (48 + v)) = true := by decide
        rw [hdigits v (digitValue?_lt hhigh hv)] at hdigit
        cases hdigit
      · exact hne

theorem mem_dropWhile {p : Char → Bool} {c : Char} (hc : p c = false) {cs : List Char} :
    c ∈ cs.dropWhile p ↔ c ∈ cs := by
  refine ⟨fun h => (List.dropWhile_suffix p).subset h, fun h => ?_⟩
  rw [← cs.takeWhile_append_dropWhile (p := p)] at h
  rcases List.mem_append.mp h with h | h
  · exact absurd (List.mem_takeWhile_imp h) (by simp [hc])
  · exact h

/-- Such a character stands in a text where it stands in its characters without the blanks. -/
theorem mem_bare_iff {s : String} {mark : Char} (hascii : mark.toNat < 128)
    (hspace : isSpace mark = false) (hdigit : isAsciiDigit mark = false) :
    mark ∈ bare s ↔ mark ∈ s.toList := by
  rw [bare, List.mem_reverse, mem_dropWhile hspace, List.mem_reverse, mem_dropWhile hspace,
    List.mem_map]
  simp [plain_eq_iff hascii hspace hdigit]

end TestScaffold.Numeral
