import JavaFront.Grammar.Types

/-!
# Expressions

Expressions from assignments down to primaries. Casts, lambdas and references
to methods of generic types start like other expressions; a trial of their
head tells them apart.
-/

namespace JavaFront.Grammar

open Phrase

/-! ## Looks -/

/-- The assignment operators. -/
def isAssignment : Token.Kind → Bool
  | .assign | .plusAssign | .minusAssign | .starAssign | .slashAssign | .percentAssign
  | .andAssign | .orAssign | .xorAssign | .shiftLeftAssign | .shiftRightAssign
  | .unsignedShiftRightAssign => true
  | _ => false

/-- The operators in front of an operand. -/
def isSign : Token.Kind → Bool
  | .increment | .decrement | .plus | .minus | .bang | .bitNot => true
  | _ => false

/-- Tokens that start an operand behind a cast to a reference type. -/
def startsOperand : Token.Kind → Bool
  | .ident | .kwThis | .kwSuper | .kwNew | .lparen | .bang | .bitNot | .kwVoid => true
  | kind => kind.isLiteral || kind.isPrimitiveType

/-- Tokens that start an operand behind a cast to a primitive type, where a sign
cannot be a binary operator. -/
def startsSignedOperand : Token.Kind → Bool
  | .plus | .minus | .increment | .decrement => true
  | kind => startsOperand kind

/-- The operators behind an operand that change it. -/
def isStep : Token.Kind → Bool
  | .increment | .decrement => true
  | _ => false

/-! ## Lambdas -/

/-- One phrase where a lambda starts and another where none does. A name in
front of an arrow settles it; a parenthesis needs a trial. -/
def ifLambda (yes no : Phrase) : Phrase :=
  select
    [(.is .ident, .branch (.nextIs .arrow) yes no),
     (.is .lparen, .trial .lambdaHead yes no)]
    no

/-- The parameters of a lambda up to, and not with, the arrow. -/
def lambdaHead : Phrase :=
  .node .lambdaParameters (steps
    [.branch (.is .ident) ident (steps
      [.token .lparen,
       omitIf (.is .rparen)
        (.branch (.and (.is .ident) (.or (.nextIs .comma) (.nextIs .rparen)))
          (commas ident)
          (commas (.call .parameter))),
       .token .rparen]),
     .branch (.is .arrow) .done (.expected [Token.Kind.describe .arrow])])

/-- A lambda with a block or an expression as its body. -/
def lambda : Phrase :=
  steps
    [.call .lambdaHead,
     .wrap .lambdaExpr (steps
      [.token .arrow, .branch (.is .lbrace) (.call .block) (.call .expression)])]

/-! ## Assignments, conditionals and binary operators -/

/-- A lambda, or a conditional expression that may be assigned to. Assignments
associate to the right. -/
def expression : Phrase :=
  ifLambda lambda (steps
    [.call .conditional,
     when (.operator isAssignment)
      (.wrap .assignExpr (steps [.operator, .call .expression]))])

/-- A conditional expression, whose last part may be a lambda. -/
def conditional : Phrase :=
  steps
    [.call (.binary .logicalOr),
     when (.is .question)
      (.wrap .ternaryExpr (steps
        [.token .question, .call .expression, .token .colon,
         ifLambda lambda (.call .conditional)]))]

/-- The right operand of a binary operator: whatever binds tighter. -/
def rightOperand (level : Precedence) : Phrase :=
  match level.tighter? with
  | some tighter => .call (.binary tighter)
  | none => .call .unary

/-- The operators of one level. -/
def isOperatorOf (level : Precedence) (kind : Token.Kind) : Bool :=
  Precedence.of? kind = some level

/-- The levels at least as tight as a given one. -/
def levelsFrom (level : Precedence) : List Precedence :=
  Precedence.all.filter fun other => level.rank ≤ other.rank

/-- Operators that bind at least as tightly as a given level, the type test
among the relational ones. -/
def bindsFrom (level : Precedence) (kind : Token.Kind) : Bool :=
  (levelsFrom level).any (isOperatorOf · kind) ||
    (kind = .kwInstanceof && level.rank ≤ Precedence.relational.rank)

/-- A type test of the operand read last. -/
def typeTest : Phrase :=
  .wrap .instanceofExpr (steps [.token .kwInstanceof, .call .type])

/-- A chain of operands with operators at least as tight as the level between
them, which associate to the left. -/
def binary (level : Precedence) : Phrase :=
  steps
    [.call .unary,
     .loop (.operator (bindsFrom level))
      (.branch (.is .kwInstanceof) typeTest
        (select
          ((levelsFrom level).map fun level =>
            (.operator (isOperatorOf level),
              .wrap .binaryExpr (steps [.operator, rightOperand level])))
          .stop))]

/-! ## Unary operators and casts -/

/-- The parenthesised type of a cast, which may be an intersection. It is one
only if the token behind it can start the operand. -/
def castHead : Phrase :=
  steps
    [.token .lparen, .call .type,
     when (.is .bitAnd)
      (.wrap .intersectionType
        (.loop (.is .bitAnd) (steps [.token .bitAnd, .call .type]))),
     .token .rparen,
     .branch (.latest .primitiveType)
      (.branch (.here startsSignedOperand) .done .stop)
      (.branch (.here startsOperand) .done .stop)]

/-- A cast and its operand, which may be a lambda. -/
def cast : Phrase :=
  .node .castExpr (steps [.call .castHead, ifLambda lambda (.call .unary)])

/-- A signed operand, a cast, or an operand with its suffixes. -/
def unary : Phrase :=
  select
    [(.here isSign, .node .unaryExpr (steps [.pick .operator isSign, .call .unary])),
     (.is .lparen, .trial .castHead cast (.call .suffixed))]
    (.call .suffixed)

/-! ## Suffixes -/

/-- A reference to a method or constructor of the part read last. -/
def methodRef : Phrase :=
  .wrap .methodRef (steps
    [.token .colonColon,
     when (.is .less) (.call .typeArguments),
     .branch (.is .kwNew) (.leaf .identifier .kwNew) ident])

/-- Expressions with commas between. -/
def expressions : Phrase :=
  commas (.call .expression)

/-- Arguments in parentheses. -/
def arguments : Phrase :=
  .node .arguments (steps [.token .lparen, omitIf (.is .rparen) expressions, .token .rparen])

/-- The dimensions of an array creation: sized ones and then empty ones, or
empty ones and an initializer. -/
def newArrayRest : Phrase :=
  .branch (.nextIs .rbracket)
    (steps [.call .dims, .call .arrayInit])
    (steps
      [.loop (.and (.is .lbracket) (.not (.nextIs .rbracket)))
        (steps [.token .lbracket, .call .expression, .token .rbracket]),
       optionalDims])

/-- The creation of an instance or an array, from the word `new` on. -/
def newRest : Phrase :=
  steps
    [.token .kwNew,
     when (.is .less) (.call .typeArguments),
     elementType,
     select
      [(.is .lbracket, steps [.rekind .newArrayExpr, newArrayRest]),
       (.latest .primitiveType, .expected [Token.Kind.describe .lbracket])]
      (steps [.call .arguments, when (.is .lbrace) (.call .classBody)])]

/-- What follows a dot behind an expression: a field, a call, the creation of an
inner instance, a class literal, or a qualified `this` or `super`. -/
def dotSuffix : Phrase :=
  .wrap .fieldAccess (steps
    [.token .dot,
     select
      [(.is .ident, steps
        [ident, when (.is .lparen) (steps [.rekind .callExpr, .call .arguments])]),
       (.is .less, steps
        [.rekind .callExpr, .call .typeArguments, ident, .call .arguments]),
       (.is .kwNew, steps [.rekind .newExpr, newRest]),
       (.is .kwClass, steps [.rekind .classLiteral, .token .kwClass]),
       (.is .kwThis, steps [.rekind .this, .mark (· = .kwThis)]),
       (.is .kwSuper, steps [.rekind .super, .mark (· = .kwSuper)])]
      (.expected [Token.Kind.describe .ident])])

/-- A class literal of the part read last. -/
def classLiteral : Phrase :=
  .wrap .classLiteral (steps [.token .dot, .token .kwClass])

/-- A dot and the word `class`. -/
def classLiteralAhead : Look :=
  .and (.is .dot) (.nextIs .kwClass)

/-- A name with empty brackets is an array type, which a class literal or a
method reference has to follow. -/
def arraySuffix : Phrase :=
  steps
    [dimensions,
     select [(classLiteralAhead, classLiteral), (.is .colonColon, methodRef)]
      (.expected ["'.class'", Token.Kind.describe .colonColon])]

/-- An element of an array. -/
def indexSuffix : Phrase :=
  .wrap .arrayAccess (steps [.token .lbracket, .call .expression, .token .rbracket])

/-- An increment or decrement behind its operand. -/
def stepSuffix : Phrase :=
  .wrap .postfixExpr (.pick .operator isStep)

/-- A primary with all its suffixes. -/
def suffixed : Phrase :=
  steps
    [.call .primary,
     .loop (.oneOf [.dot, .lbracket, .colonColon, .increment, .decrement])
      (select
        [(.is .dot, dotSuffix),
         (dimsAhead, arraySuffix),
         (.is .lbracket, indexSuffix),
         (.is .colonColon, methodRef)]
        stepSuffix)]

/-! ## Primaries -/

/-- A call of the constructor named by the part read last. -/
def constructorCall : Phrase :=
  .wrap .callExpr (.call .arguments)

/-- A generic type up to, and not with, the two colons of a method reference. -/
def genericRefHead : Phrase :=
  steps
    [.call .type,
     .branch (.is .colonColon) .done (.expected [Token.Kind.describe .colonColon])]

/-- A name or a call of a method of the current object. -/
def nameOrCall : Phrase :=
  steps [ident, when (.is .lparen) (.wrap .callExpr (.call .arguments))]

/-- A class literal or array constructor of a primitive type or `void`. -/
def primitiveLiteral : Phrase :=
  steps
    [.branch (.is .kwVoid)
      (.leaf .voidType .kwVoid)
      (steps
        [.branch (.here Token.Kind.isPrimitiveType)
          (.pick .primitiveType Token.Kind.isPrimitiveType) (.expected ["type"]),
         dimensions]),
     select
      [(classLiteralAhead, classLiteral),
       (.and (.is .colonColon) (.latest .arrayType), methodRef)]
      (.expected ["'.class'"])]

/-- An expression in parentheses. -/
def parenExpr : Phrase :=
  .node .parenExpr (steps [.token .lparen, .call .expression, .token .rparen])

/-- The operands without operators. -/
def primary : Phrase :=
  select
    [(.here Token.Kind.isLiteral, .pick .literal Token.Kind.isLiteral),
     (.is .ident,
      .branch .genericName
        (.trial .genericRefHead (steps [.call .genericRefHead, methodRef]) nameOrCall)
        nameOrCall),
     (.is .kwThis, steps [.leaf .this .kwThis, when (.is .lparen) constructorCall]),
     (.is .kwSuper, steps
      [.leaf .super .kwSuper,
       select [(.is .lparen, constructorCall), (.oneOf [.dot, .colonColon], .done)]
        (.expected [Token.Kind.describe .dot, Token.Kind.describe .colonColon])]),
     (.is .lparen, parenExpr),
     (.is .kwNew, .node .newExpr newRest),
     (.or (.here Token.Kind.isPrimitiveType) (.is .kwVoid), primitiveLiteral)]
    (.expected ["expression"])

/-! ## Initial values -/

/-- The initial value of a variable: an array initializer or an expression. -/
def variableInitializer : Phrase :=
  .branch (.is .lbrace) (.call .arrayInit) (.call .expression)

/-- An array initializer in braces; a comma may follow the last value. -/
def arrayInit : Phrase :=
  .node .arrayInit (steps
    [.token .lbrace,
     omitIf (.is .rbrace) (steps
      [variableInitializer,
       .loop (.is .comma) (steps [.token .comma, omitIf (.is .rbrace) variableInitializer])]),
     .token .rbrace])

end JavaFront.Grammar
