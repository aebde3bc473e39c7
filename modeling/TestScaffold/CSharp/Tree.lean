/-
  TestScaffold/CSharp/Tree.lean
  =============================
  Syntax trees: tokens below categories.

  A tree gives back the source text that it covers, and it can be walked node
  by node with a stack of subtrees that are still to come.
-/
import TestScaffold.CSharp.Grammar

namespace TestScaffold.CSharp

/-- A syntax tree. -/
inductive Tree where
  | leaf (token : Token)
  | node (category : Category) (children : List Tree)

namespace Tree

/-- The subtrees right below. -/
def children : Tree → List Tree
  | leaf _ => []
  | node _ cs => cs

/-- Whether the tree is a node of this category. -/
def isOf (c : Category) : Tree → Bool
  | leaf _ => false
  | node d _ => d == c

/-- The first subtree right below that is of a category. -/
def child? (c : Category) (t : Tree) : Option Tree := t.children.find? (isOf c)

/-- All subtrees right below that are of a category. -/
def childrenOf (c : Category) (t : Tree) : List Tree := t.children.filter (isOf c)

/-! ### Text -/

mutual

/-- The tokens in order, in front of `after`. -/
def tokensBefore (after : List Token) : Tree → List Token
  | leaf t => t :: after
  | node _ cs => tokensOfAll after cs

/-- The tokens of several trees in order, in front of `after`. -/
def tokensOfAll (after : List Token) : List Tree → List Token
  | [] => after
  | t :: ts => tokensBefore (tokensOfAll after ts) t

end

/-- The tokens in order. -/
def tokens (t : Tree) : List Token := tokensBefore [] t

/-- Source characters of tokens, without the gap before the first one. -/
def charsOfTokens : List Token → List Char
  | [] => []
  | t :: ts => t.lexeme.chars ++ ts.flatMap Token.chars

/-- The source characters that the tree covers. -/
def chars (t : Tree) : List Char := charsOfTokens t.tokens

/-- The source text that the tree covers. -/
def text (t : Tree) : String := String.ofList t.chars

/-- The comments and directives before the first token. -/
def leadingNotes (t : Tree) : List (List Char) :=
  match t.tokens with
  | first :: _ => first.gap.filterMap fun
    | .blank _ => none
    | .comment cs => some cs
    | .directive cs => some cs
  | [] => []

/-- The word that the tree consists of. -/
def word? (t : Tree) : Option Word :=
  match t.tokens with
  | [⟨_, .word w, _⟩] => some w
  | _ => none

/-! ### Walking -/

mutual

/-- The number of leaves and nodes. -/
def size : Tree → Nat
  | leaf _ => 1
  | node _ cs => sizeOfAll cs + 1

/-- The number of leaves and nodes of several trees. -/
def sizeOfAll : List Tree → Nat
  | [] => 0
  | t :: ts => size t + sizeOfAll ts

end

theorem sizeOfAll_append (ts us : List Tree) :
    sizeOfAll (ts ++ us) = sizeOfAll ts + sizeOfAll us := by
  induction ts with
  | nil => simp [sizeOfAll]
  | cons t ts ih => simp [sizeOfAll, ih, Nat.add_assoc]

theorem sizeOfAll_children (t : Tree) : sizeOfAll t.children + 1 = t.size := by
  cases t <;> simp [children, size, sizeOfAll]

/-- Visits the trees on a stack: the top one first, then what is below it, then the rest. -/
def visit : List Tree → List Tree
  | [] => []
  | t :: stack => t :: visit (t.children ++ stack)
termination_by stack => sizeOfAll stack
decreasing_by
  have := sizeOfAll_children t
  simp only [sizeOfAll_append, sizeOfAll]
  omega

/-- All trees properly below, each before its own children. -/
def walk (t : Tree) : List Tree := visit t.children

mutual

/-- All trees properly below, by recursion on the tree. -/
def preorder : Tree → List Tree
  | leaf _ => []
  | node _ cs => preorderOfAll cs

/-- Trees and all trees below them, by recursion. -/
def preorderOfAll : List Tree → List Tree
  | [] => []
  | t :: ts => t :: preorder t ++ preorderOfAll ts

end

end Tree

end TestScaffold.CSharp
