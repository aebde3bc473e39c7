/-
  TestScaffold/Text/Lines.lean
  ============================
  Line ends of text that is read: a carriage return, with a line feed behind it
  or not, counts as a line feed.
-/

namespace TestScaffold.Text

/-- The characters with every line end made a line feed. -/
def unifyLineEnds : List Char → List Char
  | [] => []
  | '\r' :: '\n' :: rest => '\n' :: unifyLineEnds rest
  | '\r' :: rest => '\n' :: unifyLineEnds rest
  | c :: rest => c :: unifyLineEnds rest

/-- The text of bytes, with every line end made a line feed. -/
def textOfBytes? (bytes : ByteArray) : Option String :=
  (String.fromUTF8? bytes).map fun s => String.ofList (unifyLineEnds s.toList)

end TestScaffold.Text
