/-
  TestScaffold/CSharp/Token.lean
  ==============================
  The tokens of C# source text.

  A token carries its own characters and the gap before it, that is, the
  blanks, comments and directive lines that separate it from the token before.
  The characters of all gaps and tokens in order are the source text, so any
  stretch of source can be recovered from the tokens it consists of.

  The characters of a word are known to be identifier characters, which bounds
  what a declared name can hold.
-/
import TestScaffold.Text.CharClass

namespace TestScaffold.CSharp

open TestScaffold.Text

/-- Words with a meaning of their own in some places. Where such a meaning is not possible, the
word is an identifier. -/
inductive Keyword where
  | abstract_ | add_ | alias_ | allows_ | and_ | as_ | ascending_ | assembly_ | async_ | await_
  | base_ | bool_ | break_ | by_ | byte_ | case_ | catch_ | char_ | checked_ | class_ | const_
  | continue_ | decimal_ | default_ | delegate_ | descending_ | do_ | double_ | else_ | enum_
  | equals_ | event_ | explicit_ | extern_ | false_ | field_ | file_ | finally_ | fixed_ | float_
  | for_ | foreach_ | from_ | get_ | global_ | goto_ | group_ | if_ | implicit_ | in_ | init_
  | int_ | interface_ | internal_ | into_ | is_ | join_ | let_ | lock_ | long_ | managed_
  | method_ | module_ | namespace_ | new_ | nint_ | not_ | notnull_ | nuint_ | null_ | object_
  | on_ | operator_ | or_ | orderby_ | out_ | override_ | param_ | params_ | partial_ | private_
  | property_ | protected_ | public_ | readonly_ | record_ | ref_ | remove_ | required_ | return_
  | sbyte_ | scoped_ | sealed_ | select_ | set_ | short_ | sizeof_ | stackalloc_ | static_
  | string_ | struct_ | switch_ | this_ | throw_ | true_ | try_ | type_ | typeof_ | uint_
  | ulong_ | unchecked_ | unmanaged_ | unsafe_ | ushort_ | using_ | var_ | virtual_ | void_
  | volatile_ | when_ | where_ | while_ | with_ | yield_ | makeref_ | reftype_ | refvalue_
deriving DecidableEq, Repr

/-- All keywords with their characters. -/
def Keyword.table : List (List Char × Keyword) := [
  (['a', 'b', 's', 't', 'r', 'a', 'c', 't'], .abstract_),
  (['a', 'd', 'd'], .add_),
  (['a', 'l', 'i', 'a', 's'], .alias_),
  (['a', 'l', 'l', 'o', 'w', 's'], .allows_),
  (['a', 'n', 'd'], .and_),
  (['a', 's'], .as_),
  (['a', 's', 'c', 'e', 'n', 'd', 'i', 'n', 'g'], .ascending_),
  (['a', 's', 's', 'e', 'm', 'b', 'l', 'y'], .assembly_),
  (['a', 's', 'y', 'n', 'c'], .async_),
  (['a', 'w', 'a', 'i', 't'], .await_),
  (['b', 'a', 's', 'e'], .base_),
  (['b', 'o', 'o', 'l'], .bool_),
  (['b', 'r', 'e', 'a', 'k'], .break_),
  (['b', 'y'], .by_),
  (['b', 'y', 't', 'e'], .byte_),
  (['c', 'a', 's', 'e'], .case_),
  (['c', 'a', 't', 'c', 'h'], .catch_),
  (['c', 'h', 'a', 'r'], .char_),
  (['c', 'h', 'e', 'c', 'k', 'e', 'd'], .checked_),
  (['c', 'l', 'a', 's', 's'], .class_),
  (['c', 'o', 'n', 's', 't'], .const_),
  (['c', 'o', 'n', 't', 'i', 'n', 'u', 'e'], .continue_),
  (['d', 'e', 'c', 'i', 'm', 'a', 'l'], .decimal_),
  (['d', 'e', 'f', 'a', 'u', 'l', 't'], .default_),
  (['d', 'e', 'l', 'e', 'g', 'a', 't', 'e'], .delegate_),
  (['d', 'e', 's', 'c', 'e', 'n', 'd', 'i', 'n', 'g'], .descending_),
  (['d', 'o'], .do_),
  (['d', 'o', 'u', 'b', 'l', 'e'], .double_),
  (['e', 'l', 's', 'e'], .else_),
  (['e', 'n', 'u', 'm'], .enum_),
  (['e', 'q', 'u', 'a', 'l', 's'], .equals_),
  (['e', 'v', 'e', 'n', 't'], .event_),
  (['e', 'x', 'p', 'l', 'i', 'c', 'i', 't'], .explicit_),
  (['e', 'x', 't', 'e', 'r', 'n'], .extern_),
  (['f', 'a', 'l', 's', 'e'], .false_),
  (['f', 'i', 'e', 'l', 'd'], .field_),
  (['f', 'i', 'l', 'e'], .file_),
  (['f', 'i', 'n', 'a', 'l', 'l', 'y'], .finally_),
  (['f', 'i', 'x', 'e', 'd'], .fixed_),
  (['f', 'l', 'o', 'a', 't'], .float_),
  (['f', 'o', 'r'], .for_),
  (['f', 'o', 'r', 'e', 'a', 'c', 'h'], .foreach_),
  (['f', 'r', 'o', 'm'], .from_),
  (['g', 'e', 't'], .get_),
  (['g', 'l', 'o', 'b', 'a', 'l'], .global_),
  (['g', 'o', 't', 'o'], .goto_),
  (['g', 'r', 'o', 'u', 'p'], .group_),
  (['i', 'f'], .if_),
  (['i', 'm', 'p', 'l', 'i', 'c', 'i', 't'], .implicit_),
  (['i', 'n'], .in_),
  (['i', 'n', 'i', 't'], .init_),
  (['i', 'n', 't'], .int_),
  (['i', 'n', 't', 'e', 'r', 'f', 'a', 'c', 'e'], .interface_),
  (['i', 'n', 't', 'e', 'r', 'n', 'a', 'l'], .internal_),
  (['i', 'n', 't', 'o'], .into_),
  (['i', 's'], .is_),
  (['j', 'o', 'i', 'n'], .join_),
  (['l', 'e', 't'], .let_),
  (['l', 'o', 'c', 'k'], .lock_),
  (['l', 'o', 'n', 'g'], .long_),
  (['m', 'a', 'n', 'a', 'g', 'e', 'd'], .managed_),
  (['m', 'e', 't', 'h', 'o', 'd'], .method_),
  (['m', 'o', 'd', 'u', 'l', 'e'], .module_),
  (['n', 'a', 'm', 'e', 's', 'p', 'a', 'c', 'e'], .namespace_),
  (['n', 'e', 'w'], .new_),
  (['n', 'i', 'n', 't'], .nint_),
  (['n', 'o', 't'], .not_),
  (['n', 'o', 't', 'n', 'u', 'l', 'l'], .notnull_),
  (['n', 'u', 'i', 'n', 't'], .nuint_),
  (['n', 'u', 'l', 'l'], .null_),
  (['o', 'b', 'j', 'e', 'c', 't'], .object_),
  (['o', 'n'], .on_),
  (['o', 'p', 'e', 'r', 'a', 't', 'o', 'r'], .operator_),
  (['o', 'r'], .or_),
  (['o', 'r', 'd', 'e', 'r', 'b', 'y'], .orderby_),
  (['o', 'u', 't'], .out_),
  (['o', 'v', 'e', 'r', 'r', 'i', 'd', 'e'], .override_),
  (['p', 'a', 'r', 'a', 'm'], .param_),
  (['p', 'a', 'r', 'a', 'm', 's'], .params_),
  (['p', 'a', 'r', 't', 'i', 'a', 'l'], .partial_),
  (['p', 'r', 'i', 'v', 'a', 't', 'e'], .private_),
  (['p', 'r', 'o', 'p', 'e', 'r', 't', 'y'], .property_),
  (['p', 'r', 'o', 't', 'e', 'c', 't', 'e', 'd'], .protected_),
  (['p', 'u', 'b', 'l', 'i', 'c'], .public_),
  (['r', 'e', 'a', 'd', 'o', 'n', 'l', 'y'], .readonly_),
  (['r', 'e', 'c', 'o', 'r', 'd'], .record_),
  (['r', 'e', 'f'], .ref_),
  (['r', 'e', 'm', 'o', 'v', 'e'], .remove_),
  (['r', 'e', 'q', 'u', 'i', 'r', 'e', 'd'], .required_),
  (['r', 'e', 't', 'u', 'r', 'n'], .return_),
  (['s', 'b', 'y', 't', 'e'], .sbyte_),
  (['s', 'c', 'o', 'p', 'e', 'd'], .scoped_),
  (['s', 'e', 'a', 'l', 'e', 'd'], .sealed_),
  (['s', 'e', 'l', 'e', 'c', 't'], .select_),
  (['s', 'e', 't'], .set_),
  (['s', 'h', 'o', 'r', 't'], .short_),
  (['s', 'i', 'z', 'e', 'o', 'f'], .sizeof_),
  (['s', 't', 'a', 'c', 'k', 'a', 'l', 'l', 'o', 'c'], .stackalloc_),
  (['s', 't', 'a', 't', 'i', 'c'], .static_),
  (['s', 't', 'r', 'i', 'n', 'g'], .string_),
  (['s', 't', 'r', 'u', 'c', 't'], .struct_),
  (['s', 'w', 'i', 't', 'c', 'h'], .switch_),
  (['t', 'h', 'i', 's'], .this_),
  (['t', 'h', 'r', 'o', 'w'], .throw_),
  (['t', 'r', 'u', 'e'], .true_),
  (['t', 'r', 'y'], .try_),
  (['t', 'y', 'p', 'e'], .type_),
  (['t', 'y', 'p', 'e', 'o', 'f'], .typeof_),
  (['u', 'i', 'n', 't'], .uint_),
  (['u', 'l', 'o', 'n', 'g'], .ulong_),
  (['u', 'n', 'c', 'h', 'e', 'c', 'k', 'e', 'd'], .unchecked_),
  (['u', 'n', 'm', 'a', 'n', 'a', 'g', 'e', 'd'], .unmanaged_),
  (['u', 'n', 's', 'a', 'f', 'e'], .unsafe_),
  (['u', 's', 'h', 'o', 'r', 't'], .ushort_),
  (['u', 's', 'i', 'n', 'g'], .using_),
  (['v', 'a', 'r'], .var_),
  (['v', 'i', 'r', 't', 'u', 'a', 'l'], .virtual_),
  (['v', 'o', 'i', 'd'], .void_),
  (['v', 'o', 'l', 'a', 't', 'i', 'l', 'e'], .volatile_),
  (['w', 'h', 'e', 'n'], .when_),
  (['w', 'h', 'e', 'r', 'e'], .where_),
  (['w', 'h', 'i', 'l', 'e'], .while_),
  (['w', 'i', 't', 'h'], .with_),
  (['y', 'i', 'e', 'l', 'd'], .yield_),
  (['_', '_', 'm', 'a', 'k', 'e', 'r', 'e', 'f'], .makeref_),
  (['_', '_', 'r', 'e', 'f', 't', 'y', 'p', 'e'], .reftype_),
  (['_', '_', 'r', 'e', 'f', 'v', 'a', 'l', 'u', 'e'], .refvalue_)]

/-- The keyword that characters spell. -/
def Keyword.ofChars? (cs : List Char) : Option Keyword :=
  (Keyword.table.find? (·.1 = cs)).map (·.2)

/-- Punctuation. Angle brackets that close are always single; a shift is written by joined ones. -/
inductive Mark where
  | doubleQuestionAssign | shiftLeftAssign
  | doubleColon | doubleQuestion | arrow | equal | notEqual | lessEqual | andAnd | orOr
  | plusPlus | minusMinus | plusAssign | minusAssign | timesAssign | divideAssign
  | remainderAssign | andAssign | orAssign | xorAssign | shiftLeft | pointer | range
  | semicolon | comma | dot | colon | question | openParen | closeParen | openBrace | closeBrace
  | openBracket | closeBracket | less | greater | assign | plus | minus | times | divide
  | remainder | and | or | xor | not | tilde
deriving DecidableEq, Repr

/-- All punctuation with its characters, longest first. -/
def Mark.table : List (List Char × Mark) := [
  (['?', '?', '='], .doubleQuestionAssign), (['<', '<', '='], .shiftLeftAssign),
  ([':', ':'], .doubleColon), (['?', '?'], .doubleQuestion), (['=', '>'], .arrow),
  (['=', '='], .equal), (['!', '='], .notEqual), (['<', '='], .lessEqual),
  (['&', '&'], .andAnd), (['|', '|'], .orOr), (['+', '+'], .plusPlus), (['-', '-'], .minusMinus),
  (['+', '='], .plusAssign), (['-', '='], .minusAssign), (['*', '='], .timesAssign),
  (['/', '='], .divideAssign), (['%', '='], .remainderAssign), (['&', '='], .andAssign),
  (['|', '='], .orAssign), (['^', '='], .xorAssign), (['<', '<'], .shiftLeft),
  (['-', '>'], .pointer), (['.', '.'], .range),
  ([';'], .semicolon), ([','], .comma), (['.'], .dot), ([':'], .colon), (['?'], .question),
  (['('], .openParen), ([')'], .closeParen), (['\x7b'], .openBrace), (['\x7d'], .closeBrace),
  (['['], .openBracket), ([']'], .closeBracket), (['<'], .less), (['>'], .greater),
  (['='], .assign), (['+'], .plus), (['-'], .minus), (['*'], .times), (['/'], .divide),
  (['%'], .remainder), (['&'], .and), (['|'], .or), (['^'], .xor), (['!'], .not),
  (['~'], .tilde)]

/-- What the grammar asks of a token. -/
inductive Terminal where
  | keyword (k : Keyword)
  | identifier
  | mark (m : Mark)
  /-- Punctuation right behind the token before. -/
  | joined (m : Mark)
  | number
  | charLiteral
  | stringLiteral
  /-- The quotes that open an interpolated string. -/
  | textStart
  /-- Characters of an interpolated string. -/
  | textPart
  /-- The quotes that close an interpolated string. -/
  | textEnd
  /-- The brace that opens a hole of an interpolated string. -/
  | holeStart
  /-- The brace that closes a hole. -/
  | holeEnd
  /-- The format at the end of a hole. -/
  | format
  /-- A conditional directive, with its condition where it has one. -/
  | directiveIf
  | directiveElif
  | directiveElse
  | directiveEndif
  /-- The line that names an interpreter, at the start of a script. -/
  | shebang
deriving DecidableEq, Repr

/-- A character that may occur in a word: an identifier character, the at sign in front of it, or
the backslash of an escape. -/
def isWordChar (c : Char) : Bool := isIdentifierPart c || c == '@' || c == '\\'

/-- The characters of an identifier or keyword. -/
structure Word where
  chars : List Char
  nonempty : chars ≠ []
  allWord : ∀ c ∈ chars, isWordChar c = true

/-- A part of the gap between two tokens. -/
inductive Separator where
  | blank (chars : List Char)
  | comment (chars : List Char)
  | directive (chars : List Char)
deriving DecidableEq, Repr

/-- The characters of a separator. -/
def Separator.chars : Separator → List Char
  | blank cs => cs
  | comment cs => cs
  | directive cs => cs

/-- What a token is made of. -/
inductive Lexeme where
  | word (w : Word)
  | other (chars : List Char)

/-- The characters of a lexeme. -/
def Lexeme.chars : Lexeme → List Char
  | word w => w.chars
  | other cs => cs

/-- A token with the gap before it. Its role is the terminal that it is read as. -/
structure Token where
  gap : List Separator
  lexeme : Lexeme
  role : Terminal

namespace Token

/-- The characters of the gap. -/
def gapChars (t : Token) : List Char := t.gap.flatMap Separator.chars

/-- The characters of gap and token. -/
def chars (t : Token) : List Char := t.gapChars ++ t.lexeme.chars

/-- Whether the token is what the grammar asks for. -/
def fits (t : Token) : Terminal → Bool
  | .joined m => t.role == .mark m && t.gap.isEmpty
  | terminal => t.role == terminal

end Token

end TestScaffold.CSharp
