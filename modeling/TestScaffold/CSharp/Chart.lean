/-
  TestScaffold/CSharp/Chart.lean
  ==============================
  Recognition of source text by a chart.

  The chart has one column per token boundary.  An item in a column says that
  a category was begun at an earlier boundary, what of it has been read, and
  what is still to come.  A column is closed by predicting the categories that
  may begin there and by completing those that end there; the tokens that its
  items wait for decide how the next token is read.

  Of several ways to read a category over the same stretch, the first found
  stays.
-/
import TestScaffold.CSharp.Lexer
import TestScaffold.CSharp.Tree

namespace TestScaffold.CSharp

/-- A category in progress. `rest` is empty or begins with a single symbol; `read` holds the
subtrees so far, last first. -/
structure Item where
  category : Category
  rest : List Part
  origin : Nat
  read : List Tree

namespace Item

/-- Whether two items say the same but for the subtrees. -/
def same (a b : Item) : Bool :=
  a.origin == b.origin && a.category == b.category && a.rest == b.rest

/-- The items for a category that begins at a boundary. -/
def start (here : Nat) (c : Category) : List Item :=
  (Grammar.rules c).flatMap fun parts =>
    (Grammar.unfold parts).map fun rest => ⟨c, rest, here, []⟩

/-- The items after one more symbol has been read as some subtrees, last first. -/
def advance (item : Item) (rest : List Part) (subtrees : List Tree) : List Item :=
  (Grammar.unfold rest).map fun parts =>
    { item with rest := parts, read := subtrees ++ item.read }

/-- What a complete item contributes to the category around it. -/
def result (item : Item) : List Tree :=
  if Grammar.isTransparent item.category then item.read
  else [.node item.category item.read.reverse]

/-- The items after the category `c` has been read, if the item waits for it. -/
def afterCategory (c : Category) (subtrees : List Tree) (item : Item) : List Item :=
  match item.rest with
  | .one (.category d) :: rest => if d = c then item.advance rest subtrees else []
  | _ => []

/-- The items after a token, if the item waits for it. -/
def afterToken (t : Token) (item : Item) : List Item :=
  match item.rest with
  | .one (.token terminal) :: rest =>
    if t.fits terminal then item.advance rest [.leaf t] else []
  | _ => []

/-- Whether the item waits for a terminal. -/
def wants (terminal : Terminal) (item : Item) : Bool :=
  match item.rest with
  | .one (.token u) :: _ => u == terminal
  | _ => false

end Item

/-- A closed column: the items that wait for a category, those that wait for a token, and the
whole text read up to here, if it can end here. -/
structure Column where
  forCategory : List Item := []
  forToken : List Item := []
  whole : Option Tree := none

/-- A column that is being closed. `agenda` holds the items still to be looked at, `seen` those
that were not predicted here, and the bits of `predicted` the categories that were. -/
structure Closing where
  agenda : List Item
  seen : List Item
  predicted : Nat
  column : Column

namespace Closing

/-- Adds an item unless it has been seen. -/
def push (c : Closing) (item : Item) : Closing :=
  if c.seen.any item.same then c
  else { c with agenda := item :: c.agenda, seen := item :: c.seen }

/-- Looks at one item. -/
def step (columns : Array Column) (here : Nat) (c : Closing) (item : Item) : Closing :=
  match item.rest with
  | [] =>
    let c : Closing :=
      if item.category = .compilationUnit ∧ c.column.whole.isNone then
        { c with column :=
            { c.column with whole := some (.node .compilationUnit item.read.reverse) } }
      else c
    let around := match columns[item.origin]? with
      | some column => column.forCategory
      | none => []
    let subtrees := item.result
    around.foldl
      (fun c parent => (parent.afterCategory item.category subtrees).foldl push c) c
  | .one (.category d) :: _ =>
    let c := { c with column := { c.column with forCategory := item :: c.column.forCategory } }
    if c.predicted.testBit d.ctorIdx then c
    else { c with
      agenda := Item.start here d ++ c.agenda
      predicted := c.predicted ||| (1 <<< d.ctorIdx) }
  | _ => { c with column := { c.column with forToken := item :: c.column.forToken } }

/-- Looks at items until none is left. `fuel` bounds their number. -/
def run (columns : Array Column) (here : Nat) : Nat → Closing → Column
  | 0, c => c.column
  | fuel + 1, c =>
    match c.agenda with
    | [] => c.column
    | item :: agenda => run columns here fuel (step columns here { c with agenda } item)

end Closing

namespace Chart

/-- A bound on the items of a column: every right-hand side can stand at fewer places than this,
once per earlier boundary. -/
def itemBound (here : Nat) : Nat := 100000 * (here + 1)

/-- The column for items that have been carried over a token. -/
def close (columns : Array Column) (items : List Item) : Column :=
  let here := columns.size
  let start : Closing := ⟨[], [], 0, {}⟩
  Closing.run columns here (itemBound here) (items.foldl Closing.push start)

/-- Reads tokens until the text ends. `fuel` bounds their number. -/
def read : Nat → Array Column → List Item → Lexer.State → Option Tree
  | 0, _, _, _ => none
  | fuel + 1, columns, items, state =>
    let column := close columns items
    let wants (terminal : Terminal) : Bool := column.forToken.any (Item.wants terminal)
    match Lexer.next wants state with
    | .finished => column.whole
    | .stuck => none
    | .token t state =>
      match column.forToken.flatMap (Item.afterToken t) with
      | [] => none
      | items => read fuel (columns.push column) items state

end Chart

/-- The syntax tree of a source text, if the text is in the language. -/
def Tree.ofChars? (cs : List Char) : Option Tree :=
  if cs.contains '\x00' then none
  else Chart.read (cs.length + 1) #[] (Item.start 0 .compilationUnit) ⟨[], cs⟩

/-- The syntax tree of a source text, if the text is in the language. -/
def Tree.ofText? (s : String) : Option Tree := Tree.ofChars? s.toList

end TestScaffold.CSharp
