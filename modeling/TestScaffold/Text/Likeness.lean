/-
  TestScaffold/Text/Likeness.lean
  ===============================
  How alike two texts are, to guess what a mistyped word was meant to be.

  Two texts share their longest common run, and what the parts before it and
  the parts behind it share.  They are alike if at least three fifths of all
  their characters are shared.
-/

namespace TestScaffold.Text

/-- How many characters two texts begin with alike. -/
def commonLead : List Char → List Char → Nat
  | c :: cs, d :: ds => if c = d then commonLead cs ds + 1 else 0
  | _, _ => 0

/-- The first longest common run of two texts: where it begins in each, and its length. -/
def longestRun (a b : List Char) : Nat × Nat × Nat :=
  (List.range a.length).foldl (fun best i =>
    (List.range b.length).foldl (fun best j =>
      let n := commonLead (a.drop i) (b.drop j)
      if best.2.2 < n then (i, j, n) else best) best) (0, 0, 0)

/-- How many characters two texts share, where the first has at most `fuel` of them. -/
def sharedWithin : Nat → List Char → List Char → Nat
  | 0, _, _ => 0
  | fuel + 1, a, b =>
    let (i, j, n) := longestRun a b
    if n = 0 then 0
    else sharedWithin fuel (a.take i) (b.take j) + n +
      sharedWithin fuel (a.drop (i + n)) (b.drop (j + n))

/-- How many characters two texts share. -/
def shared (a b : List Char) : Nat := sharedWithin a.length a b

/-- Whether `count` characters shared by texts of these lengths make them alike. -/
def isMuch (count m n : Nat) : Bool := 3 * (m + n) ≤ 10 * count

/-- The likeness of two texts as a fraction, if they are alike. -/
def likeness? (a b : List Char) : Option (Nat × Nat) :=
  if isMuch (min a.length b.length) a.length b.length then
    let count := shared a b
    if isMuch count a.length b.length then some (2 * count, a.length + b.length) else none
  else none

/-- Whether a scored candidate goes before another: the more alike, else the greater text. -/
def scoredBefore (x y : (Nat × Nat) × String) : Bool :=
  let left := x.1.1 * y.1.2
  let right := y.1.1 * x.1.2
  right < left || (left == right && y.2 ≤ x.2)

/-- The candidates most like a word, at most three, the likest first. -/
def likest (word : String) (candidates : List String) : List String :=
  let scored := candidates.filterMap fun c =>
    (likeness? c.toList word.toList).map fun score => (score, c)
  ((scored.mergeSort scoredBefore).take 3).map (·.2)

end TestScaffold.Text
