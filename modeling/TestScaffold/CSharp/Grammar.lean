/-
  TestScaffold/CSharp/Grammar.lean
  ================================
  The grammar of C# as data: for every syntactic category its right-hand sides.

  A right-hand side is a list of parts; a part is one symbol, an optional one,
  a repeated one, or a list with commas.  No category derives the empty text,
  so a category always covers at least one token.

  The grammar describes what source text may be, not how operators group: a
  chain of operands and binary operators is one level.  Categories that only
  stand for a choice are transparent, that is, they leave no node in a tree.
-/
import TestScaffold.CSharp.Token

namespace TestScaffold.CSharp

/-- The syntactic categories. -/
inductive Category where
  -- files and sections
  | compilationUnit | topLevelItem | topSection | topAlternative | externAlias | usingDirective
  | globalAttribute | globalTarget | namespaceDeclaration | fileScopedNamespace
  -- names and types
  | identifier | contextualWord | name | simpleName | typeArguments | type | plainType | simpleType
  | typeSuffix | rankSpecifier | predefinedType | tupleType | tupleElement | functionPointer
  | callingConvention | pointerParameter | pointerModifier | refType | scopedType
  | collectingType | collectingSuffix
  -- attributes and modifiers
  | attributeItem | attributeList | attributeSection | attributeAlternative | attributeTarget
  | targetWord | attributeEntry | attributeArguments | attributeArgument | modifier
  -- declarations
  | typeDeclaration | classDeclaration | structDeclaration | structModifier
  | interfaceDeclaration | recordDeclaration | recordKind | enumDeclaration | enumBody | enumItem
  | enumMember | enumSection | enumAlternative | enumLine | delegateDeclaration
  | typeBody | typeParameters | typeParameter | variance | baseList | primaryBase
  | constraintClause | constraintBound | declarationList | memberItem | memberDeclaration
  | memberSection | memberAlternative | fieldDeclaration | eventDeclaration | eventAccessors
  | propertyDeclaration | propertyBody | indexerDeclaration | accessorList | accessor
  | accessorName | methodDeclaration | returnType | explicitInterface | constructorDeclaration
  | constructorInitializer | destructorDeclaration | operatorDeclaration | operatorSign
  | conversionDeclaration | conversionKind | functionBody | arrowBody
  | parameterList | parameterItem | parameter | parameterModifier | passing | parameterType
  | parameterArray | bracketParameters | defaultValue
  | variableDeclaration | declarator | initializer | tuplePattern | tuplePart
  -- statements
  | statement | block | localDeclaration | localFunction | expressionStatement
  | statementExpression | ifStatement | elseClause | forStatement | forStart | foreachStatement
  | foreachTarget | whileStatement | doStatement | switchStatement | switchSection
  | switchLabel | whenClause | tryStatement | catchClause | catchDeclaration | catchFilter
  | finallyClause | usingStatement | resource | lockStatement | fixedStatement
  | blockStatement | labeledStatement | gotoStatement | jumpStatement | yieldStatement
  -- expressions
  | expression | expressionSection | expressionAlternative | chain | operand | unary | unarySign
  | primary | primarySuffix | atom | literal | binarySign | assignment | assignSign | assignable
  | assignedValue | parenthesized | tupleExpression | objectCreation | initializerExpression
  | initializerItem | stackAllocation | typeOperator | collectionExpression | lambda
  | lambdaModifier | lambdaParameters | lambdaBody | anonymousMethod | argumentList | argument
  | argumentValue | argumentModifier | bracketArguments | switchBody | switchArm
  | interpolatedString | textItem | hole | alignmentClause | formatClause
  -- queries
  | query | fromClause | queryBody | queryClause | ordering | queryEnd | queryContinuation
  | intoClause
  -- patterns
  | pattern | patternUnit | constantChain | relationSign | designation | positionalPattern
  | propertyPattern | subpattern | listPattern | listPatternItem
deriving DecidableEq, Repr

/-- A symbol of the grammar. -/
inductive Symbol where
  | token (t : Terminal)
  | category (c : Category)
deriving DecidableEq, Repr

/-- A part of a right-hand side. -/
inductive Part where
  | one (s : Symbol)
  | opt (s : Symbol)
  /-- Any number, one behind the other. -/
  | many (s : Symbol)
  /-- At least one, with commas between. -/
  | list (s : Symbol)
  /-- Any number, with commas between. -/
  | anyList (s : Symbol)
  /-- What may follow an item of a list: more items, each behind a comma. -/
  | more (s : Symbol)
deriving DecidableEq, Repr

namespace Grammar

instance : Coe Keyword Symbol := ⟨fun k => .token (.keyword k)⟩
instance : Coe Mark Symbol := ⟨fun m => .token (.mark m)⟩
instance : Coe Category Symbol := ⟨.category⟩
instance : Coe Symbol Part := ⟨.one⟩

/-- A keyword. -/
def k (x : Keyword) : Part := .one (.token (.keyword x))
/-- A punctuation mark. -/
def m (x : Mark) : Part := .one (.token (.mark x))
/-- A punctuation mark right behind the token before. -/
def joined (x : Mark) : Part := .one (.token (.joined x))
/-- Another terminal. -/
def t (x : Terminal) : Part := .one (.token x)
/-- A category. -/
def c (x : Category) : Part := .one (.category x)
def opt (x : Category) : Part := .opt (.category x)
def optK (x : Keyword) : Part := .opt (.token (.keyword x))
def optM (x : Mark) : Part := .opt (.token (.mark x))
def many (x : Category) : Part := .many (.category x)
def list (x : Category) : Part := .list (.category x)
def anyList (x : Category) : Part := .anyList (.category x)

/-- One right-hand side for each of some categories. -/
def oneOf (xs : List Category) : List (List Part) := xs.map fun x => [c x]
/-- One right-hand side for each of some keywords. -/
def oneKeyword (xs : List Keyword) : List (List Part) := xs.map fun x => [k x]
/-- One right-hand side for each of some marks. -/
def oneMark (xs : List Mark) : List (List Part) := xs.map fun x => [m x]

/-- Attributes and modifiers in front of a declaration. -/
def marked (rest : List Part) : List Part := many .attributeItem :: many .modifier :: rest

/-- A semicolon that may stand right behind a closing brace. -/
def endMark : Part := .opt (.token (.joined .semicolon))

/-- A choice of category, then a keyword chain in parentheses. -/
def parens (inner : List Part) : List Part := m .openParen :: inner ++ [m .closeParen]

/-- Parts in braces. -/
def braces (inner : List Part) : List Part := m .openBrace :: inner ++ [m .closeBrace]

/-- A conditional section and its alternatives. -/
def section_ (content : Part) (alternative : Category) : List (List Part) :=
  [[t .directiveIf, content, opt alternative, t .directiveEndif]]

/-- The alternatives of a conditional section. -/
def alternatives (content : Part) (alternative : Category) : List (List Part) :=
  [[t .directiveElse, content], [t .directiveElif, content, opt alternative]]

/-- The right-hand sides of a category. -/
def rules : Category → List (List Part)
  -- files and sections
  | .compilationUnit => [[.opt (.token .shebang), many .topLevelItem]]
  | .topLevelItem => oneOf [.externAlias, .usingDirective, .globalAttribute, .topSection,
      .namespaceDeclaration, .fileScopedNamespace, .typeDeclaration, .statement]
  | .topSection => section_ (many .topLevelItem) .topAlternative
  | .topAlternative => alternatives (many .topLevelItem) .topAlternative
  | .externAlias => [[k .extern_, k .alias_, c .identifier, m .semicolon]]
  | .usingDirective =>
    [[optK .global_, k .using_, optK .unsafe_, c .identifier, m .assign, c .type, m .semicolon],
     [optK .global_, k .using_, optK .static_, optK .unsafe_, c .name, m .semicolon]]
  | .globalAttribute =>
    [[m .openBracket, c .globalTarget, m .colon, list .attributeEntry, optM .comma, m .closeBracket]]
  | .globalTarget => oneKeyword [.assembly_, .module_]
  | .namespaceDeclaration => [[k .namespace_, c .name, c .declarationList, endMark]]
  | .fileScopedNamespace => [[k .namespace_, c .name, m .semicolon]]
  -- names and types
  | .identifier => [[t .identifier], [c .contextualWord]]
  | .contextualWord => oneKeyword [.alias_, .ascending_, .by_, .descending_, .equals_, .file_,
      .from_, .global_, .group_, .into_, .join_, .let_, .notnull_, .on_, .orderby_, .scoped_,
      .select_, .unmanaged_, .var_, .when_, .where_, .yield_]
  | .name => [[c .simpleName], [c .identifier, m .doubleColon, c .simpleName],
      [c .name, m .dot, c .simpleName]]
  | .simpleName => [[c .identifier], [c .identifier, c .typeArguments]]
  | .typeArguments => [[m .less, .many (.token (.mark .comma)), m .greater],
      [m .less, list .type, m .greater]]
  | .type => oneOf [.plainType, .refType, .scopedType]
  | .plainType => [[c .simpleType, many .typeSuffix]]
  | .simpleType => oneOf [.name, .predefinedType, .tupleType, .functionPointer]
  | .typeSuffix => [[m .question], [m .times], [c .rankSpecifier]]
  | .rankSpecifier => [[m .openBracket, .many (.token (.mark .comma)), m .closeBracket],
      [m .openBracket, list .expression, m .closeBracket]]
  | .predefinedType => oneKeyword [.bool_, .byte_, .char_, .decimal_, .double_, .float_, .int_,
      .long_, .object_, .sbyte_, .short_, .string_, .uint_, .ulong_, .ushort_, .nint_, .nuint_,
      .void_]
  | .tupleType => [parens [c .tupleElement, m .comma, list .tupleElement]]
  | .tupleElement => [[c .type, opt .identifier]]
  | .functionPointer =>
    [[k .delegate_, m .times, opt .callingConvention, m .less, list .pointerParameter, m .greater]]
  | .callingConvention => [[k .managed_], [k .unmanaged_],
      [k .unmanaged_, m .openBracket, list .identifier, m .closeBracket]]
  | .pointerParameter => [[many .pointerModifier, c .type]]
  | .pointerModifier => oneKeyword [.ref_, .out_, .in_, .readonly_]
  | .refType => [[k .ref_, optK .readonly_, c .type]]
  | .scopedType => [[k .scoped_, c .type]]
  | .collectingType => [[c .simpleType, many .typeSuffix, c .collectingSuffix]]
  | .collectingSuffix => [[m .question], [c .rankSpecifier]]
  -- attributes and modifiers
  | .attributeItem => oneOf [.attributeList, .attributeSection]
  | .attributeList =>
    [[m .openBracket, opt .attributeTarget, list .attributeEntry, optM .comma, m .closeBracket]]
  | .attributeSection => section_ (many .attributeItem) .attributeAlternative
  | .attributeAlternative => alternatives (many .attributeItem) .attributeAlternative
  | .attributeTarget => [[c .targetWord, m .colon]]
  | .targetWord => oneKeyword [.field_, .event_, .method_, .param_, .property_, .return_, .type_]
  | .attributeEntry => [[c .name, opt .attributeArguments]]
  | .attributeArguments => [parens [anyList .attributeArgument]]
  | .attributeArgument => [[c .expression], [c .identifier, m .colon, c .expression],
      [c .identifier, m .assign, c .expression]]
  | .modifier => oneKeyword [.abstract_, .async_, .const_, .extern_, .file_, .fixed_, .internal_,
      .new_, .override_, .partial_, .private_, .protected_, .public_, .readonly_, .required_,
      .sealed_, .static_, .unsafe_, .virtual_, .volatile_]
  -- declarations
  | .typeDeclaration => oneOf [.classDeclaration, .structDeclaration, .interfaceDeclaration,
      .recordDeclaration, .enumDeclaration, .delegateDeclaration]
  | .classDeclaration => [marked [k .class_, c .identifier, opt .typeParameters,
      opt .parameterList, opt .baseList, many .constraintClause, c .typeBody]]
  | .structDeclaration => [[many .attributeItem, many .structModifier, k .struct_, c .identifier,
      opt .typeParameters, opt .parameterList, opt .baseList, many .constraintClause, c .typeBody]]
  | .structModifier => [[c .modifier], [k .ref_]]
  | .interfaceDeclaration => [marked [k .interface_, c .identifier, opt .typeParameters,
      opt .parameterList, opt .baseList, many .constraintClause, c .typeBody]]
  | .recordDeclaration => [marked [k .record_, opt .recordKind, c .identifier,
      opt .typeParameters, opt .parameterList, opt .baseList, many .constraintClause, c .typeBody]]
  | .recordKind => oneKeyword [.class_, .struct_]
  | .typeBody => [[c .declarationList, endMark], [m .semicolon]]
  | .enumDeclaration => [marked [k .enum_, c .identifier, opt .baseList, c .enumBody, endMark]]
  | .enumBody => [braces [], braces [list .enumItem, optM .comma]]
  | .enumItem => oneOf [.enumMember, .enumSection]
  | .enumMember => [[many .attributeItem, c .identifier, opt .defaultValue]]
  | .enumSection => section_ (many .enumLine) .enumAlternative
  | .enumAlternative => alternatives (many .enumLine) .enumAlternative
  | .enumLine => [[c .enumMember, m .comma]]
  | .delegateDeclaration => [marked [k .delegate_, c .type, c .identifier, opt .typeParameters,
      c .parameterList, many .constraintClause, m .semicolon]]
  | .typeParameters => [[m .less, list .typeParameter, m .greater]]
  | .typeParameter => [[many .attributeItem, opt .variance, c .identifier]]
  | .variance => oneKeyword [.in_, .out_]
  | .baseList => [[m .colon, list .type], [m .colon, c .primaryBase],
      [m .colon, c .primaryBase, m .comma, list .type]]
  | .primaryBase => [[c .name, c .argumentList]]
  | .constraintClause => [[k .where_, c .identifier, m .colon, list .constraintBound]]
  | .constraintBound => [[k .class_, optM .question], [k .struct_], [k .notnull_], [k .unmanaged_],
      [k .default_], k .new_ :: parens [], [c .type], [k .allows_, k .ref_, k .struct_]]
  | .declarationList => [braces [many .memberItem]]
  | .memberItem => oneOf [.memberDeclaration, .memberSection]
  | .memberSection => section_ (many .memberItem) .memberAlternative
  | .memberAlternative => alternatives (many .memberItem) .memberAlternative
  | .memberDeclaration => oneOf [.typeDeclaration, .methodDeclaration, .constructorDeclaration,
      .fieldDeclaration, .propertyDeclaration, .indexerDeclaration, .eventDeclaration,
      .destructorDeclaration, .operatorDeclaration, .conversionDeclaration,
      .namespaceDeclaration, .usingDirective]
  | .fieldDeclaration => [marked [c .variableDeclaration, m .semicolon]]
  | .eventDeclaration => [marked [k .event_, c .variableDeclaration, m .semicolon],
      marked [k .event_, c .type, opt .explicitInterface, c .identifier, c .eventAccessors]]
  | .eventAccessors => [[c .accessorList], [m .semicolon]]
  | .propertyDeclaration =>
    [marked [c .type, opt .explicitInterface, c .identifier, c .propertyBody]]
  | .propertyBody => [[c .accessorList], [c .accessorList, c .defaultValue, m .semicolon],
      [c .arrowBody, m .semicolon]]
  | .indexerDeclaration => [marked [c .type, opt .explicitInterface, k .this_,
      c .bracketParameters, c .propertyBody]]
  | .accessorList => [braces [many .accessor]]
  | .accessor => [marked [c .accessorName, c .functionBody]]
  | .accessorName => [c .identifier] :: oneKeyword [.get_, .set_, .init_, .add_, .remove_]
  | .methodDeclaration => [marked [c .returnType, opt .explicitInterface, c .identifier,
      opt .typeParameters, c .parameterList, many .constraintClause, c .functionBody]]
  | .returnType => [[c .type]]
  | .explicitInterface => [[c .name, m .dot]]
  | .constructorDeclaration => [marked [c .identifier, c .parameterList,
      opt .constructorInitializer, c .functionBody]]
  | .constructorInitializer => [[m .colon, k .base_, c .argumentList],
      [m .colon, k .this_, c .argumentList]]
  | .destructorDeclaration => [[many .attributeItem, optK .extern_, m .tilde, c .identifier,
      c .parameterList, c .functionBody]]
  | .operatorDeclaration => [marked [c .type, opt .explicitInterface, k .operator_, optK .checked_,
      c .operatorSign, c .parameterList, c .functionBody]]
  | .operatorSign => oneKeyword [.true_, .false_] ++
      oneMark [.not, .tilde, .plusPlus, .minusMinus, .plus, .minus, .times, .divide, .remainder,
        .xor, .or, .and, .shiftLeft, .equal, .notEqual, .less, .lessEqual, .greater] ++
      [[m .greater, joined .greater], [m .greater, joined .greater, joined .greater],
       [m .greater, joined .assign]]
  | .conversionDeclaration => [marked [c .conversionKind, opt .explicitInterface, k .operator_,
      optK .checked_, c .type, c .parameterList, c .functionBody]]
  | .conversionKind => oneKeyword [.implicit_, .explicit_]
  | .functionBody => [[c .block], [c .arrowBody, m .semicolon], [m .semicolon]]
  | .arrowBody => [[m .arrow, c .expression]]
  | .parameterList => [parens [anyList .parameterItem]]
  | .parameterItem => oneOf [.parameter, .parameterArray]
  | .parameter => [[many .attributeItem, many .parameterModifier, c .parameterType, c .identifier,
      opt .defaultValue], [many .attributeItem, c .identifier, opt .defaultValue]]
  | .parameterModifier => [[c .passing], [k .scoped_, c .passing]]
  | .passing => oneKeyword [.this_, .ref_, .out_, .in_, .readonly_]
  | .parameterType => oneOf [.plainType, .scopedType]
  | .parameterArray => [[many .attributeItem, k .params_, c .collectingType, c .identifier]]
  | .bracketParameters => [[m .openBracket, anyList .parameterItem, m .closeBracket]]
  | .defaultValue => [[m .assign, c .expression]]
  | .variableDeclaration => [[c .type, list .declarator]]
  | .declarator => [[c .identifier, opt .bracketArguments, opt .initializer],
      [c .tuplePattern, opt .initializer]]
  | .initializer => [[m .assign, c .assignedValue]]
  | .tuplePattern => [parens [list .tuplePart]]
  | .tuplePart => oneOf [.identifier, .tuplePattern]
  -- statements
  | .statement => [m .semicolon] :: oneOf [.block, .localDeclaration, .localFunction,
      .expressionStatement, .ifStatement, .forStatement, .foreachStatement, .whileStatement,
      .doStatement, .switchStatement, .tryStatement, .usingStatement, .lockStatement,
      .fixedStatement, .blockStatement, .labeledStatement, .gotoStatement, .jumpStatement,
      .yieldStatement, .topSection]
  | .block => [braces [many .statement]]
  | .localDeclaration => [[optK .await_, optK .using_, many .modifier, c .variableDeclaration,
      m .semicolon]]
  | .localFunction => [marked [c .type, c .identifier, opt .typeParameters, c .parameterList,
      many .constraintClause, c .functionBody]]
  | .expressionStatement => [[c .statementExpression, m .semicolon]]
  | .statementExpression => [[c .assignment], [c .primary, c .argumentList],
      [c .primary, m .plusPlus], [c .primary, m .minusMinus], [c .primary, m .not],
      [c .primary, m .question, m .dot, c .simpleName], [c .unarySign, c .unary],
      [k .await_, c .unary], [c .objectCreation], [c .parenthesized]]
  | .ifStatement =>
    [k .if_ :: parens [c .expression] ++ [c .statement, opt .elseClause]]
  | .elseClause => [[k .else_, c .statement]]
  | .forStatement => [k .for_ :: parens [opt .forStart, m .semicolon, opt .expression, m .semicolon,
      anyList .expression] ++ [c .statement]]
  | .forStart => [[c .variableDeclaration], [list .expression]]
  | .foreachStatement => [optK .await_ :: k .foreach_ ::
      parens [c .foreachTarget, k .in_, c .expression] ++ [c .statement]]
  | .foreachTarget => [[c .type, c .tuplePart], [c .expression]]
  | .whileStatement => [k .while_ :: parens [c .expression] ++ [c .statement]]
  | .doStatement => [k .do_ :: c .statement :: k .while_ :: parens [c .expression] ++ [m .semicolon]]
  | .switchStatement => [k .switch_ :: parens [c .expression] ++ braces [many .switchSection],
      k .switch_ :: c .tupleExpression :: braces [many .switchSection]]
  | .switchSection => [[c .switchLabel, many .statement]]
  | .switchLabel => [[k .case_, c .expression, m .colon],
      [k .case_, c .pattern, opt .whenClause, m .colon], [k .default_, m .colon]]
  | .whenClause => [[k .when_, c .expression]]
  | .tryStatement => [[k .try_, c .block, many .catchClause, opt .finallyClause]]
  | .catchClause => [[k .catch_, opt .catchDeclaration, opt .catchFilter, c .block]]
  | .catchDeclaration => [parens [c .type, opt .identifier]]
  | .catchFilter => [k .when_ :: parens [c .expression]]
  | .finallyClause => [[k .finally_, c .block]]
  | .usingStatement => [optK .await_ :: k .using_ :: parens [c .resource] ++ [c .statement]]
  | .resource => oneOf [.variableDeclaration, .expression]
  | .lockStatement => [k .lock_ :: parens [c .expression] ++ [c .statement]]
  | .fixedStatement => [k .fixed_ :: parens [c .variableDeclaration] ++ [c .statement]]
  | .blockStatement => [[k .checked_, c .block], [k .unchecked_, c .block], [k .unsafe_, c .block]]
  | .labeledStatement => [[c .identifier, m .colon, c .statement]]
  | .gotoStatement => [[k .goto_, c .identifier, m .semicolon],
      [k .goto_, k .case_, c .expression, m .semicolon], [k .goto_, k .default_, m .semicolon]]
  | .jumpStatement => [[k .break_, m .semicolon], [k .continue_, m .semicolon],
      [k .return_, opt .expression, m .semicolon], [k .throw_, opt .expression, m .semicolon]]
  | .yieldStatement => [[k .yield_, k .return_, c .expression, m .semicolon],
      [k .yield_, k .break_, m .semicolon]]
  -- expressions
  | .expression => [[c .chain],
      [c .chain, m .question, c .expression, m .colon, c .expression], [c .expressionSection]]
  | .expressionSection => section_ (opt .expression) .expressionAlternative
  | .expressionAlternative => alternatives (opt .expression) .expressionAlternative
  | .chain => [[c .operand], [c .chain, c .binarySign, c .operand], [c .chain, k .is_, c .pattern],
      [c .chain, k .as_, c .type], [c .chain, m .range], [c .chain, m .range, c .operand], [c .chain, k .switch_, c .switchBody],
      [c .chain, k .with_, c .initializerExpression]]
  | .operand => [[c .unary], [m .range], [m .range, c .unary],
      [k .throw_, c .expression], [k .ref_, c .expression], [c .lambda], [c .anonymousMethod],
      [c .query], [c .assignment]]
  | .unary => [[c .primary], [c .unarySign, c .unary], [k .await_, c .unary],
      parens [c .type] ++ [c .unary]]
  | .unarySign => oneMark [.plusPlus, .minusMinus, .plus, .minus, .not, .tilde, .and, .times, .xor]
  | .primary => [[c .atom], [c .primary, c .primarySuffix]]
  | .primarySuffix => [[m .dot, c .simpleName], [m .pointer, c .simpleName], [c .argumentList],
      [c .bracketArguments], [m .plusPlus], [m .minusMinus], [m .not],
      [m .question, m .dot, c .simpleName], [m .question, c .bracketArguments]]
  | .atom => [[c .simpleName], [c .identifier, m .doubleColon, c .simpleName], [k .this_], [k .base_],
      [c .predefinedType, m .dot, c .simpleName]] ++
      oneOf [.literal, .interpolatedString, .parenthesized, .tupleExpression, .objectCreation,
        .stackAllocation, .typeOperator, .collectionExpression]
  | .literal => oneKeyword [.true_, .false_, .null_] ++
      [[t .number], [t .charLiteral], [t .stringLiteral]]
  | .binarySign => oneMark [.times, .divide, .remainder, .plus, .minus, .shiftLeft, .less, .greater,
      .lessEqual, .equal, .notEqual, .and, .or, .xor, .andAnd, .orOr, .doubleQuestion] ++
      [[m .greater, joined .greater], [m .greater, joined .greater, joined .greater],
       [m .greater, joined .assign]]
  | .assignment => [[c .assignable, c .assignSign, c .assignedValue]]
  | .assignSign => oneMark [.assign, .plusAssign, .minusAssign, .timesAssign, .divideAssign,
      .remainderAssign, .andAssign, .orAssign, .xorAssign, .shiftLeftAssign,
      .doubleQuestionAssign] ++
      [[m .greater, joined .greater, joined .assign],
       [m .greater, joined .greater, joined .greater, joined .assign]]
  | .assignable => [[c .simpleName], [c .identifier, m .doubleColon, c .simpleName], [k .this_],
      [c .primary, m .dot, c .simpleName], [c .primary, m .pointer, c .simpleName],
      [c .predefinedType, m .dot, c .simpleName], [c .primary, c .bracketArguments],
      [c .primary, m .question, m .dot, c .simpleName], [m .times, c .unary],
      [c .tupleExpression], [c .parenthesized], [c .bracketArguments]]
  | .assignedValue => oneOf [.expression, .initializerExpression]
  | .parenthesized => [parens [c .expression]]
  | .tupleExpression => [parens [c .argument, m .comma, list .argument]]
  | .objectCreation => [
      [k .new_, c .plainType, opt .argumentList, opt .initializerExpression],
      [k .new_, c .argumentList, opt .initializerExpression],
      [k .new_, m .openBracket, .many (.token (.mark .comma)), m .closeBracket,
        c .initializerExpression],
      [k .new_, c .initializerExpression]]
  | .initializerExpression => [braces [], braces [list .initializerItem, optM .comma]]
  | .initializerItem => oneOf [.expression, .initializerExpression]
  | .stackAllocation => [[k .stackalloc_, c .plainType, opt .initializerExpression],
      [k .stackalloc_, m .openBracket, m .closeBracket, c .initializerExpression]]
  | .typeOperator => [[k .default_], k .default_ :: parens [c .type],
      k .typeof_ :: parens [c .type], k .sizeof_ :: parens [c .type],
      k .checked_ :: parens [c .expression], k .unchecked_ :: parens [c .expression],
      k .makeref_ :: parens [c .expression], k .reftype_ :: parens [c .expression],
      k .refvalue_ :: parens [c .expression, m .comma, c .type]]
  | .collectionExpression => [[m .openBracket, m .closeBracket],
      [m .openBracket, list .expression, optM .comma, m .closeBracket]]
  | .lambda => [[many .attributeItem, many .lambdaModifier, c .lambdaParameters, m .arrow,
      c .lambdaBody], [many .attributeItem, many .lambdaModifier, c .type, c .parameterList, m .arrow,
      c .lambdaBody]]
  | .lambdaModifier => oneKeyword [.async_, .static_]
  | .lambdaParameters => oneOf [.parameterList, .identifier]
  | .lambdaBody => oneOf [.block, .expression]
  | .anonymousMethod => [[many .lambdaModifier, k .delegate_, opt .parameterList, c .block]]
  | .argumentList => [parens [anyList .argument]]
  | .argument => [[c .argumentValue], [c .identifier, m .colon, c .argumentValue]]
  | .argumentValue => [[c .expression], [c .argumentModifier, c .expression],
      [c .type, c .identifier], [c .argumentModifier, c .type, c .identifier]]
  | .argumentModifier => oneKeyword [.ref_, .out_, .in_]
  | .bracketArguments => [[m .openBracket, list .argument, m .closeBracket]]
  | .switchBody => [braces [], braces [list .switchArm, optM .comma]]
  | .switchArm => [[c .pattern, opt .whenClause, m .arrow, c .expression]]
  | .interpolatedString => [[t .textStart, many .textItem, t .textEnd]]
  | .textItem => [[t .textPart], [c .hole]]
  | .hole => [[t .holeStart, c .expression, opt .alignmentClause, opt .formatClause, t .holeEnd]]
  | .alignmentClause => [[m .comma, c .expression]]
  | .formatClause => [[m .colon, t .format]]
  -- queries
  | .query => [[c .fromClause, c .queryBody]]
  | .fromClause => [[k .from_, opt .type, c .identifier, k .in_, c .expression]]
  | .queryBody => [[many .queryClause, c .queryEnd, opt .queryContinuation]]
  | .queryClause => [[c .fromClause], [k .let_, c .identifier, m .assign, c .expression],
      [k .where_, c .expression], [k .orderby_, list .ordering],
      [k .join_, opt .type, c .identifier, k .in_, c .expression, k .on_, c .expression, k .equals_,
        c .expression, opt .intoClause]]
  | .ordering => [[c .expression], [c .expression, k .ascending_], [c .expression, k .descending_]]
  | .queryEnd => [[k .select_, c .expression], [k .group_, c .expression, k .by_, c .expression]]
  | .queryContinuation => [[c .intoClause, c .queryBody]]
  | .intoClause => [[k .into_, c .identifier]]
  -- patterns
  | .pattern => [[c .patternUnit], [c .pattern, k .and_, c .patternUnit],
      [c .pattern, k .or_, c .patternUnit]]
  | .patternUnit => [[c .constantChain], [c .type], [c .type, c .designation],
      [k .var_, c .tuplePattern], [k .not_, c .patternUnit], parens [c .pattern],
      [c .relationSign, c .constantChain], [c .listPattern, opt .identifier],
      [c .propertyPattern, opt .designation], [c .type, c .propertyPattern, opt .designation],
      [c .positionalPattern, opt .propertyPattern, opt .designation],
      [c .type, c .positionalPattern, opt .propertyPattern, opt .designation]]
  | .constantChain => [[c .unary], [c .constantChain, c .binarySign, c .unary]]
  | .relationSign => oneMark [.less, .lessEqual, .greater] ++ [[m .greater, joined .assign]]
  | .designation => oneOf [.identifier]
  | .positionalPattern => [parens [anyList .subpattern]]
  | .propertyPattern => [braces [], braces [list .subpattern, optM .comma]]
  | .subpattern => [[c .pattern], [c .expression, m .colon, c .pattern]]
  | .listPattern => [[m .openBracket, m .closeBracket],
      [m .openBracket, list .listPatternItem, optM .comma, m .closeBracket]]
  | .listPatternItem => [[c .pattern], [m .range, opt .pattern]]

/-- Categories that leave no node: a choice stands for what was chosen. -/
def isTransparent : Category → Bool
  | .topLevelItem | .typeDeclaration | .typeBody | .memberItem | .memberDeclaration | .statement
  | .attributeItem | .parameterItem | .functionBody | .lambdaParameters | .lambdaBody
  | .accessorName | .propertyBody | .eventAccessors | .resource | .tuplePart | .textItem
  | .structModifier | .contextualWord | .enumItem => true
  | _ => false

/-- The ways in which parts can begin: each result is empty or begins with a single symbol. -/
def unfold : List Part → List (List Part)
  | [] => [[]]
  | .one s :: rest => [.one s :: rest]
  | .opt s :: rest => (.one s :: rest) :: unfold rest
  | .many s :: rest => (.one s :: .many s :: rest) :: unfold rest
  | .list s :: rest => [.one s :: .more s :: rest]
  | .anyList s :: rest => (.one s :: .more s :: rest) :: unfold rest
  | .more s :: rest =>
    (.one (.token (.mark .comma)) :: .one s :: .more s :: rest) :: unfold rest

end Grammar

end TestScaffold.CSharp
