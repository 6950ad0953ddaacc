import JavaFront.Grammar.Declarations

/-!
# Statements

Blocks, local declarations and statements. The statements of a block are read
with recovery: one that cannot be read costs no more than itself.
-/

namespace JavaFront.Grammar

open Phrase

/-! ## Blocks -/

/-- A statement of a block, read with recovery. -/
def recoveredStatement : Phrase :=
  .orElse (.recover .blockStatement) .salvage

/-- Statements in braces. -/
def block : Phrase :=
  .node .block (steps
    [.token .lbrace,
     .loop (.not (.oneOf [.rbrace, .eof])) recoveredStatement,
     when .abandoned .salvage,
     .closing .rbrace])

/-! ## Local declarations -/

/-- Tokens at which the declaration of a local variable may start. -/
def startsLocalVar : Token.Kind → Bool
  | .ident | .kwFinal | .atSign => true
  | kind => kind.isPrimitiveType

/-- One phrase where the declaration of a local variable starts and another
where none does. -/
def ifLocalVar (yes no : Phrase) : Phrase :=
  .branch (.here startsLocalVar) (.trial .localVarHead yes no) no

/-- The modifiers and type of a local variable, in front of a name. -/
def localVarHead : Phrase :=
  .node .localVarDecl (steps
    [.call .variableModifiers, .call .type,
     .branch (.is .ident) .done (.expected [Token.Kind.describe .ident])])

/-- The declaration of local variables without the semicolon. -/
def localVars : Phrase :=
  steps [.call .localVarHead, .reopen .localVarDecl declarators]

/-- The declaration of local variables. -/
def localVarDecl : Phrase :=
  steps
    [.call .localVarHead,
     .reopen .localVarDecl (steps [declarators, .token .semicolon])]

/-- The words that open the declaration of a local type. -/
def localTypeWords : List Token.Kind :=
  [.kwClass, .kwInterface, .kwEnum]

/-- The modifiers of a local type, in front of its opening word. -/
def localClassHead : Phrase :=
  steps [.call .modifiers, .branch (.oneOf localTypeWords) .done .stop]

/-- The declaration of a local type. -/
def localClassDecl : Phrase :=
  steps
    [.documented (steps [.call .modifiers, typeDeclRest]),
     .wrap .localClassDecl .done]

/-- A local type, a local variable or a statement, in that order of
preference. -/
def blockStatement : Phrase :=
  let variableOrStatement := ifLocalVar localVarDecl (.call .statement)
  select
    [(.oneOf localTypeWords, localClassDecl),
     (.oneOf [.kwAbstract, .kwFinal, .kwStatic, .kwStrictfp, .atSign],
      .trial .localClassHead localClassDecl variableOrStatement)]
    variableOrStatement

/-! ## Simple statements -/

/-- An expression in parentheses, without a node of its own. -/
def condition : Phrase :=
  steps [.token .lparen, .call .expression, .token .rparen]

/-- An expression and a semicolon. -/
def expressionStatement : Phrase :=
  steps [.call .expression, .wrap .exprStmt (.token .semicolon)]

/-- A semicolon alone. -/
def emptyStatement : Phrase :=
  .node .emptyStmt (.token .semicolon)

/-- `if` with an optional `else`. -/
def ifStatement : Phrase :=
  .node .ifStmt (steps
    [.token .kwIf, condition, .call .statement,
     when (.is .kwElse) (steps [.token .kwElse, .call .statement])])

/-- `while`. -/
def whileStatement : Phrase :=
  .node .whileStmt (steps [.token .kwWhile, condition, .call .statement])

/-- `do` and its condition. -/
def doStatement : Phrase :=
  .node .doStmt (steps
    [.token .kwDo, .call .statement, .token .kwWhile, condition, .token .semicolon])

/-- `return` with an optional value. -/
def returnStatement : Phrase :=
  .node .returnStmt (steps
    [.token .kwReturn, omitIf (.is .semicolon) (.call .expression), .token .semicolon])

/-- `break` or `continue` with an optional label. -/
def jumpStatement (kind : Node.Kind) (word : Token.Kind) : Phrase :=
  .node kind (steps [.token word, when (.is .ident) ident, .token .semicolon])

/-- `throw`. -/
def throwStatement : Phrase :=
  .node .throwStmt (steps [.token .kwThrow, .call .expression, .token .semicolon])

/-- `synchronized` with its lock. -/
def synchronizedStatement : Phrase :=
  .node .synchronizedStmt (steps [.token .kwSynchronized, condition, .call .block])

/-- `assert` with an optional detail. -/
def assertStatement : Phrase :=
  .node .assertStmt (steps
    [.token .kwAssert, .call .expression,
     when (.is .colon) (steps [.token .colon, .call .expression]),
     .token .semicolon])

/-- A label and its statement. -/
def labeledStatement : Phrase :=
  .node .labeledStmt (steps [ident, .token .colon, .call .statement])

/-! ## Loops -/

/-- The variable of a loop over elements, up to its colon. -/
def enhancedForHead : Phrase :=
  steps
    [.call .localVarHead, .token .ident, optionalDims,
     .branch (.is .colon) .done .stop]

/-- A loop over elements from its variable on. -/
def enhancedForRest : Phrase :=
  steps
    [.rekind .enhancedForStmt,
     .call .localVarHead, .reopen .parameter (steps [ident, optionalDims]),
     .token .colon, .call .expression, .token .rparen, .call .statement]

/-- A counting loop from its first part on. -/
def countingForRest : Phrase :=
  steps
    [.node .forInit (omitIf (.is .semicolon) (ifLocalVar localVars expressions)),
     .token .semicolon,
     omitIf (.is .semicolon) (.call .expression),
     .token .semicolon,
     .node .forUpdate (omitIf (.is .rparen) expressions),
     .token .rparen, .call .statement]

/-- Both forms of `for`. The colon behind the variable tells them apart. -/
def forStatement : Phrase :=
  .node .forStmt (steps
    [.token .kwFor, .token .lparen,
     .branch (.here startsLocalVar)
      (.trial .enhancedForHead enhancedForRest countingForRest)
      countingForRest])

/-! ## Switches -/

/-- The words that open a label. -/
def labelWords : List Token.Kind :=
  [.kwCase, .kwDefault]

/-- A label: a value behind `case`, or the word `default` itself. -/
def switchLabel : Phrase :=
  .node .switchLabel (steps
    [.branch (.is .kwDefault)
      (.mark (· = .kwDefault))
      (steps [.token .kwCase, .call .conditional]),
     .token .colon])

/-- Labels and the statements behind them. -/
def switchGroup : Phrase :=
  .node .switchGroup (steps
    [repeated (.oneOf labelWords) switchLabel
      (.expected (labelWords.map Token.Kind.describe)),
     .loop (.not (.oneOf (labelWords ++ [.rbrace, .eof]))) recoveredStatement])

/-- `switch` with its groups. -/
def switchStatement : Phrase :=
  .node .switchStmt (steps
    [.token .kwSwitch, condition, .token .lbrace,
     .loop (.not (.oneOf [.rbrace, .eof])) (steps
      [.orElse (.call .switchGroup) .salvage, when .abandoned .salvage]),
     .closing .rbrace])

/-! ## Try -/

/-- A resource: a variable with its value, or an expression. -/
def resource : Phrase :=
  ifLocalVar
    (steps
      [.call .localVarHead,
       .reopen .resource (steps [ident, .token .assign, .call .expression])])
    (.node .resource (.call .expression))

/-- Resources in parentheses; a semicolon may follow the last. -/
def resources : Phrase :=
  .node .resources (steps
    [.token .lparen, .call .resource,
     .loop (.is .semicolon)
      (steps [.token .semicolon, omitIf (.is .rparen) (.call .resource)]),
     .token .rparen])

/-- The parameter of a `catch`, whose type may be a union. -/
def catchParameter : Phrase :=
  .node .parameter (steps
    [.call .variableModifiers, .call .type,
     when (.is .bitOr)
      (.wrap .unionType
        (.loop (.is .bitOr) (steps [.token .bitOr, .call .type]))),
     ident])

/-- `catch`. -/
def catchClause : Phrase :=
  .node .catchClause (steps
    [.token .kwCatch, .token .lparen, catchParameter, .token .rparen, .call .block])

/-- Any number of `catch` clauses and an optional `finally`. -/
def handlers : Phrase :=
  steps
    [.loop (.is .kwCatch) catchClause,
     when (.is .kwFinally) (.node .finallyClause (steps [.token .kwFinally, .call .block]))]

/-- `try`. Without resources it needs a handler. -/
def tryStatement : Phrase :=
  .node .tryStmt (steps
    [.token .kwTry,
     .branch (.is .lparen)
      (steps [resources, .call .block, handlers])
      (steps
        [.call .block,
         .branch (.oneOf [.kwCatch, .kwFinally]) handlers
          (.expected [Token.Kind.describe .kwCatch, Token.Kind.describe .kwFinally])])])

/-! ## Statements -/

/-- A statement. -/
def statement : Phrase :=
  select
    [(.is .lbrace, .call .block),
     (.is .semicolon, emptyStatement),
     (.is .kwIf, ifStatement),
     (.is .kwFor, forStatement),
     (.is .kwWhile, whileStatement),
     (.is .kwDo, doStatement),
     (.is .kwSwitch, switchStatement),
     (.is .kwReturn, returnStatement),
     (.is .kwBreak, jumpStatement .breakStmt .kwBreak),
     (.is .kwContinue, jumpStatement .continueStmt .kwContinue),
     (.is .kwThrow, throwStatement),
     (.is .kwTry, tryStatement),
     (.is .kwSynchronized, synchronizedStatement),
     (.is .kwAssert, assertStatement),
     (.and (.is .ident) (.nextIs .colon), labeledStatement)]
    expressionStatement

end JavaFront.Grammar
