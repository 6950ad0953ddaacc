import JavaFront.Tree

/-!
# Phrases

The grammar is a finite set of rules, and the body of every rule is a phrase:
a piece of data that says what to read and which node to build from it. Phrases
call rules by name and never hold one another through a function, so what is
true of every phrase is true of the whole grammar.

A phrase runs on a cursor and on the node under construction. It succeeds, or
it gives up and leaves the cursor where it gave up; what it may look at to
decide its way is listed in `Look`.
-/

namespace JavaFront

/-- The levels of binary operators from the loosest to the tightest. -/
inductive Precedence where
  | logicalOr | logicalAnd | bitOr | bitXor | bitAnd
  | equality | relational | shift | additive | multiplicative
deriving DecidableEq, Repr

namespace Precedence

/-- The levels from the loosest to the tightest. -/
def all : List Precedence :=
  [.logicalOr, .logicalAnd, .bitOr, .bitXor, .bitAnd,
   .equality, .relational, .shift, .additive, .multiplicative]

/-- The place of a level, from one for the loosest. -/
def rank : Precedence → Nat
  | .logicalOr => 1
  | .logicalAnd => 2
  | .bitOr => 3
  | .bitXor => 4
  | .bitAnd => 5
  | .equality => 6
  | .relational => 7
  | .shift => 8
  | .additive => 9
  | .multiplicative => 10

/-- The next tighter level. -/
def tighter? : Precedence → Option Precedence
  | .logicalOr => some .logicalAnd
  | .logicalAnd => some .bitOr
  | .bitOr => some .bitXor
  | .bitXor => some .bitAnd
  | .bitAnd => some .equality
  | .equality => some .relational
  | .relational => some .shift
  | .shift => some .additive
  | .additive => some .multiplicative
  | .multiplicative => none

/-- The level of a binary operator between two operands of its own kind. The
type test binds like the relational operators but takes a type on its right. -/
def of? : Token.Kind → Option Precedence
  | .orOr => some .logicalOr
  | .andAnd => some .logicalAnd
  | .bitOr => some .bitOr
  | .bitXor => some .bitXor
  | .bitAnd => some .bitAnd
  | .equal | .notEqual => some .equality
  | .less | .greater | .lessEqual | .greaterEqual => some .relational
  | .shiftLeft | .shiftRight | .unsignedShiftRight => some .shift
  | .plus | .minus => some .additive
  | .star | .slash | .percent => some .multiplicative
  | _ => none

end Precedence

/-- The rules of the grammar. Those whose name ends in `Head` read just as much
as is needed to tell one construct from another.

Some rules are read by one other rule alone, behind a look at their first token.
That rule reads their phrase in line and does not call them. -/
inductive Rule where
  -- types
  | type | typeArguments | typeArgument | typeParameters | wildcard | resultType | dims
  | qualifiedName | wildcardHead
  -- modifiers and annotations
  | modifiers | variableModifiers | annotationUse | elementValue
  -- expressions
  | expression | conditional | binary (level : Precedence) | unary | suffixed | primary
  | arguments | arrayInit | castHead | lambdaHead | genericRefHead
  -- statements
  | blockStatement | statement | block | switchGroup | resource | localVarHead
  | localClassHead | enhancedForHead
  -- declarations
  | variableDeclarator | parameters | parameter | member | initializer | classBody | enumBody
  | typeDecl | packageDecl | importDecl | enumConstant | packageHead | compilationUnit
  -- read in line: types and annotations
  | classType | typeParameter | annotationElement | elementValueArray
  -- read in line: expressions
  | lambda | cast | primitiveLiteral | parenExpr | variableInitializer
  -- read in line: statements
  | localClassDecl | localVars | localVarDecl | expressionStatement | condition | ifStatement
  | forStatement | whileStatement | doStatement | switchStatement | switchLabel
  | returnStatement | throwStatement | tryStatement | resources | catchClause
  | synchronizedStatement | assertStatement | labeledStatement
deriving DecidableEq, Repr

namespace Rule

/-- All rules. -/
def all : List Rule :=
  ([.type, .typeArguments, .typeArgument, .typeParameters, .wildcard, .resultType, .dims,
   .qualifiedName, .wildcardHead,
   .modifiers, .variableModifiers, .annotationUse, .elementValue,
   .expression, .conditional, .unary, .suffixed, .primary, .arguments, .arrayInit, .castHead,
   .lambdaHead, .genericRefHead,
   .blockStatement, .statement, .block, .switchGroup, .resource, .localVarHead,
   .localClassHead, .enhancedForHead,
   .variableDeclarator, .parameters, .parameter, .member, .initializer, .classBody, .enumBody,
   .typeDecl, .packageDecl, .importDecl, .enumConstant, .packageHead, .compilationUnit,
   .classType, .typeParameter, .annotationElement, .elementValueArray,
   .lambda, .cast, .primitiveLiteral, .parenExpr, .variableInitializer,
   .localClassDecl, .localVars, .localVarDecl, .expressionStatement, .condition, .ifStatement,
   .forStatement, .whileStatement, .doStatement, .switchStatement, .switchLabel,
   .returnStatement, .throwStatement, .tryStatement, .resources, .catchClause,
   .synchronizedStatement, .assertStatement, .labeledStatement] :
    List Rule) ++
    Precedence.all.map .binary

/-- Rules whose nesting is limited: entering one counts as a level, and every
entry is a step at which the parse may be abandoned. -/
def isGuarded : Rule → Bool
  | .type | .typeArguments | .annotationUse | .expression | .unary | .arrayInit | .blockStatement
  | .statement | .block | .member | .classBody | .enumBody | .typeDecl => true
  | _ => false

end Rule

/-- What a phrase may look at to decide its way: the kinds of tokens ahead, the
operator they compose, the kind of the part read last, and whether the parse
has been abandoned. -/
inductive Look where
  /-- The kind of the token at the cursor. -/
  | here (accept : Token.Kind → Bool)
  /-- The kind of the token after it. -/
  | next (accept : Token.Kind → Bool)
  /-- The kind of the operator at the cursor, put together if it is composed. -/
  | operator (accept : Token.Kind → Bool)
  /-- A dotted name followed by `<`. -/
  | genericName
  /-- The kind of the part read last. -/
  | latest (kind : Node.Kind)
  /-- The part read last is a parameter that takes any number of arguments. -/
  | latestVariadic
  /-- The parse has been abandoned. -/
  | abandoned
  | not (look : Look)
  | and (first second : Look)
  | or (first second : Look)

namespace Look

/-- The token at the cursor has this kind. -/
def is (kind : Token.Kind) : Look :=
  .here (· = kind)

/-- The token at the cursor has one of these kinds. -/
def oneOf (kinds : List Token.Kind) : Look :=
  .here kinds.contains

/-- The token after the cursor has this kind. -/
def nextIs (kind : Token.Kind) : Look :=
  .next (· = kind)

end Look

/-- What to read and what to build from it. -/
inductive Phrase where
  /-- Succeeds and reads nothing. -/
  | done
  /-- Gives up without a word. -/
  | stop
  /-- Gives up, and records what would have been accepted here. -/
  | expected (texts : List String)
  | seq (first second : Phrase)
  /-- Reads a token of this kind. -/
  | token (kind : Token.Kind)
  /-- Reads a token of this kind into a leaf. -/
  | leaf (node : Node.Kind) (kind : Token.Kind)
  /-- Reads a token of one of these kinds into a leaf. -/
  | pick (node : Node.Kind) (accept : Token.Kind → Bool)
  /-- Reads a token of one of these kinds into the node under construction
  itself. -/
  | mark (accept : Token.Kind → Bool)
  /-- Reads the operator at the cursor into a leaf. -/
  | operator
  /-- Builds a node from what the body reads. -/
  | node (kind : Node.Kind) (body : Phrase)
  /-- Builds a node whose first child is the part read last. -/
  | wrap (kind : Node.Kind) (body : Phrase)
  /-- Builds a node that takes over the children of the part read last. -/
  | reopen (kind : Node.Kind) (body : Phrase)
  /-- Builds a node that covers the whole text. -/
  | cover (kind : Node.Kind) (body : Phrase)
  /-- Changes the kind of the node under construction. -/
  | rekind (kind : Node.Kind)
  | branch (look : Look) (yes no : Phrase)
  /-- Tries a rule, returns to where it started, and goes on as it went. -/
  | trial (rule : Rule) (yes no : Phrase)
  | call (rule : Rule)
  /-- Calls a rule; where it fails, reports it and skips to a place at which
  reading can be taken up again. -/
  | recover (rule : Rule)
  /-- Goes on with the second phrase from where the first gave up. -/
  | orElse (first second : Phrase)
  /-- Repeats the body for as long as the look holds. -/
  | loop (look : Look) (body : Phrase)
  /-- Attaches the documentation comment in front of the first token to the
  part that is read. -/
  | documented (body : Phrase)
  /-- Reads the token that closes a body, or marks a body that the end of the
  text cuts off. -/
  | closing (kind : Token.Kind)
  /-- Once the parse has been abandoned, ends the node under construction with
  what it has; gives up otherwise. -/
  | salvage

namespace Phrase

/-- One phrase after another. -/
def steps : List Phrase → Phrase
  | [] => .done
  | [phrase] => phrase
  | phrase :: phrases => .seq phrase (steps phrases)

/-- The phrase if the look holds. -/
def when (look : Look) (phrase : Phrase) : Phrase :=
  .branch look phrase .done

/-- The phrase, left out if the look holds. -/
def omitIf (look : Look) (phrase : Phrase) : Phrase :=
  .branch look .done phrase

/-- The phrase once or more with separators between. -/
def separated (separator : Token.Kind) (phrase : Phrase) : Phrase :=
  .seq phrase (.loop (.is separator) (.seq (.token separator) phrase))

/-- The phrase once or more with commas between. -/
def commas (phrase : Phrase) : Phrase :=
  separated .comma phrase

/-- The phrase once or more for as long as the look holds; the other phrase
where it does not hold at all. -/
def repeated (look : Look) (phrase otherwise : Phrase) : Phrase :=
  .branch look (.seq phrase (.loop look phrase)) otherwise

/-- An identifier as a leaf. -/
def ident : Phrase :=
  .leaf .identifier .ident

/-- Chooses the first case whose look holds. -/
def select (cases : List (Look × Phrase)) (otherwise : Phrase) : Phrase :=
  cases.foldr (fun choice rest => .branch choice.1 choice.2 rest) otherwise

end Phrase

end JavaFront
