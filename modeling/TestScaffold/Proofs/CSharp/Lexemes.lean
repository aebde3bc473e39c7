/-
  TestScaffold/Proofs/CSharp/Lexemes.lean
  =======================================
  **What the tokens of a source text are made of.**

  A token says in which role it is read.  The role tells something about its
  characters: a name and a keyword are words, and a conditional section begins
  with a number sign.  Of the gap before a token, what is not blank begins with a
  slash or a number sign.

  This holds of every token that is read, so of every token below the tree of a
  text.
-/
import TestScaffold.Proofs.CSharp.Soundness
import TestScaffold.Proofs.Text.Blanks

namespace TestScaffold.CSharp

open Grammar Lexer
open TestScaffold.Text

/-! ### Notes -/

/-- The characters of a comment or a directive begin with a slash or a number sign. -/
def IsNote (cs : List Char) : Prop := cs.head? = some '/' ∨ cs.head? = some '#'

/-- What is not blank in a gap is a note. -/
def Separator.Noted (s : Separator) : Prop :=
  ∀ cs, s = .comment cs ∨ s = .directive cs → IsNote cs

theorem Lexer.isNote_of_directive? {cs : List Char} {cut : Cut} (h : directive? cs = some cut) :
    IsNote cut.1 := by
  unfold directive? at h
  split at h
  · dsimp only at h
    split at h
    · split at h
      · cases h
        exact Or.inr rfl
      · cases h
    · cases h
  · cases h

theorem Lexer.noted_of_separator? {cs rest : List Char} {s : Separator}
    (h : separator? cs = some (s, rest)) : s.Noted := by
  unfold separator? at h
  split at h
  · cases h
    rintro text (heq | heq) <;> cases heq
    exact Or.inl rfl
  · obtain ⟨cut, _, hcut⟩ := Option.map_eq_some_iff.mp h
    cases hcut
    rintro text (heq | heq) <;> cases heq
    exact Or.inl rfl
  · obtain ⟨cut, hcut, heq⟩ := Option.map_eq_some_iff.mp h
    cases heq
    rintro text (heq | heq) <;> cases heq
    exact isNote_of_directive? hcut
  · split at h
    · cases h
      rintro text (heq | heq) <;> cases heq
    · cases h
  · cases h

theorem Lexer.noted_of_gap (fuel : Nat) :
    ∀ {cs : List Char}, ∀ s ∈ (gap fuel cs).1, s.Noted := by
  induction fuel with
  | zero => exact fun s hs => absurd hs List.not_mem_nil
  | succ fuel ih =>
    intro cs s hs
    unfold gap at hs
    split at hs
    · rename_i first rest hfirst
      rcases List.mem_cons.mp hs with rfl | hs
      · exact noted_of_separator? hfirst
      · exact ih s hs
    · cases hs

/-! ### Tokens -/

/-- What the role of a token says about it, and what may stand in its gap. -/
structure Token.Lexed (t : Token) : Prop where
  gap : ∀ s ∈ t.gap, s.Noted
  name : t.role = .identifier → ∃ w, t.lexeme = .word w
  keyword : ∀ k, t.role = .keyword k → ∃ w, t.lexeme = .word w ∧ Keyword.ofChars? w.chars = some k
  conditional : t.role = .directiveIf → IsNote t.lexeme.chars

theorem not_isBlank_of_isWordChar {c : Char} (h : isWordChar c = true) : isBlank c = false := by
  simp only [isWordChar, Bool.or_eq_true, beq_iff_eq] at h
  rcases h with (hpart | rfl) | rfl
  · exact not_isBlank_of_isIdentifierPart hpart
  · decide
  · decide

/-- A token that is neither a word nor the beginning of a section. -/
theorem Token.Lexed.of_role {t : Token} (hgap : ∀ s ∈ t.gap, s.Noted)
    (hname : t.role ≠ .identifier) (hkeyword : ∀ k, t.role ≠ .keyword k)
    (hsection : t.role ≠ .directiveIf) : t.Lexed :=
  ⟨hgap, fun h => absurd h hname, fun k h => absurd h (hkeyword k), fun h => absurd h hsection⟩

/-- A name, or a keyword that stands for one, is a word. -/
theorem Token.Lexed.exists_word {t : Token} (h : t.Lexed)
    (hrole : t.role ∈ .identifier :: Keyword.contextual.map .keyword) : ∃ w, t.lexeme = .word w := by
  rcases List.mem_cons.mp hrole with hrole | hrole
  · exact h.name hrole
  · obtain ⟨x, _, hx⟩ := List.mem_map.mp hrole
    obtain ⟨w, hw, _⟩ := h.keyword x hx.symm
    exact ⟨w, hw⟩

/-- The tokens of conditional sections, and the line that names an interpreter. -/
def sharpRoles : List Terminal :=
  [.shebang, .directiveIf, .directiveElif, .directiveElse, .directiveEndif]

theorem Lexer.note_of_conditional? {cs : List Char} {role : Terminal} {cut : Cut}
    (h : conditional? cs = some (role, cut)) : role ∈ sharpRoles ∧ IsNote cut.1 := by
  unfold conditional? at h
  split at h
  · cases h
    exact ⟨by decide, Or.inr rfl⟩
  · dsimp only at h
    split at h
    case h_1 | h_2 =>
      -- a directive with a condition takes the whole line
      split at h <;> [skip; cases h]
      split at h <;> [skip; cases h]
      split at h <;> [skip; cases h]
      cases h
      exact ⟨by decide, Or.inr rfl⟩
    · cases h
      exact ⟨by decide, Or.inr rfl⟩
    · cases h
      exact ⟨by decide, Or.inr rfl⟩
    · cases h
  · cases h

theorem Lexer.lexed_of_plainToken? {wants : Terminal → Bool} {texts : List Quoting}
    {before : List Separator} {cs : List Char} {t : Token} {state : State}
    (hgap : ∀ s ∈ before, s.Noted)
    (h : plainToken? wants texts before cs = some (t, state)) : t.Lexed := by
  unfold plainToken? at h
  dsimp only at h
  split at h
  · cases h
    exact .of_role hgap (by simp) (by simp) (by simp)
  split at h
  · cases h
    exact .of_role hgap (by simp) (by simp) (by simp)
  split at h
  · cases h
    exact .of_role hgap (by simp) (by simp) (by simp)
  split at h
  · rename_i chars rest hcut
    obtain ⟨w, hw, heq⟩ := Option.map_eq_some_iff.mp h
    have hchars : w.chars = chars := by
      unfold Word.ofChars? at hw
      split at hw
      · cases hw
        rfl
      · cases hw
    cases heq
    refine ⟨hgap, fun _ => ⟨w, rfl⟩, fun k hk => ⟨w, rfl, ?_⟩, fun hk => ?_⟩
    · dsimp only at hk
      split at hk
      · rename_i k' hk'
        split at hk
        · rw [hchars, hk', Terminal.keyword.inj hk]
        · cases hk
      · cases hk
    · dsimp only at hk
      split at hk
      · split at hk <;> cases hk
      · cases hk
  split at h
  · cases h
    exact .of_role hgap (by simp) (by simp) (by simp)
  split at h
  · cases h
    exact .of_role hgap (by simp) (by simp) (by simp)
  split at h
  · rename_i role cut hconditional
    cases h
    obtain ⟨hrole, hnote⟩ := note_of_conditional? hconditional
    refine ⟨hgap, ?_, ?_, fun _ => hnote⟩
    · rintro rfl
      exact absurd hrole (by decide)
    · rintro k rfl
      simp [sharpRoles] at hrole
  obtain ⟨⟨m, cut⟩, _, heq⟩ := Option.map_eq_some_iff.mp h
  cases heq
  exact .of_role hgap (by simp) (by simp) (by simp)

theorem Lexer.lexed_of_textToken? {q : Quoting} {outer : List Quoting} {cs : List Char} {t : Token}
    {state : State} (h : textToken? q outer cs = some (t, state)) : t.Lexed := by
  have hnone : ∀ s ∈ ([] : List Separator), s.Noted := fun s hs => absurd hs List.not_mem_nil
  unfold textToken? at h
  dsimp only at h
  split at h
  · cases h
    exact .of_role hnone (by simp) (by simp) (by simp)
  split at h
  · cases h
    exact .of_role hnone (by simp) (by simp) (by simp)
  obtain ⟨rest, _, heq⟩ := Option.map_eq_some_iff.mp h
  cases heq
  exact .of_role hnone (by simp) (by simp) (by simp)

theorem Lexer.lexed_of_next {wants : Terminal → Bool} {state state' : State} {t : Token}
    (h : next wants state = .token t state') : t.Lexed := by
  unfold next at h
  extract_lets ofToken isFormat inFormat at h
  -- a reading that gives a token has found it
  have hread : ∀ {found : Option (Token × State)}, ofToken found = .token t state' →
      found = some (t, state') := by
    intro found h
    cases found with
    | none => cases h
    | some pair =>
      cases h
      rfl
  split at h
  · cases h
    exact .of_role (fun s hs => absurd hs List.not_mem_nil) (by simp) (by simp) (by simp)
  · split at h
    · exact lexed_of_textToken? (hread h)
    · dsimp only at h
      split at h
      · cases h
      · exact lexed_of_plainToken? (noted_of_gap _) (hread h)

/-! ### Tokens of a text -/

theorem Scans.lexed {columns : Array Column} {items : List Item} {state : State}
    {ts : List Token} {result : Option Tree} (h : Scans columns items state ts result) :
    ∀ t ∈ ts, t.Lexed := by
  induction h with
  | finished next => exact fun t ht => absurd ht List.not_mem_nil
  | token next goes rest ih =>
    intro u hu
    rcases List.mem_cons.mp hu with rfl | hu
    · exact lexed_of_next next
    · exact ih u hu

/-- **The tree of a text reads its tokens by the category of a file.** -/
theorem Tree.exists_of_ofText? {text : String} {tree : Tree} (h : ofText? text = some tree) :
    ∃ rhs ∈ rules .compilationUnit, ∃ ts us, tree = .node .compilationUnit us ∧
      Reads rhs ts us ∧ ∀ t ∈ ts, t.Lexed := by
  unfold ofText? ofChars? at h
  split at h
  · cases h
  · obtain ⟨ts, hscan⟩ := Chart.scans_of_read _ h
    have hcolumns : SoundColumns [] #[] := ⟨rfl, fun i h => absurd h (Nat.not_lt_zero i)⟩
    obtain ⟨rhs, hrule, us, htree, hreads⟩ := hscan.sound hcolumns
      (fun item hitem => Item.sound_of_mem_start (fun _ => rfl) (fun _ ht => by cases ht) hitem)
      tree rfl
    exact ⟨rhs, hrule, ts, us, htree, hreads, hscan.lexed⟩

end TestScaffold.CSharp
