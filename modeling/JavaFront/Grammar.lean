import JavaFront.Grammar.Statements

/-!
# The grammar

The body of every rule.
-/

namespace JavaFront

/-- What a rule reads and builds. -/
def Rule.body : Rule → Phrase
  | .type => Grammar.type
  | .typeArguments => Grammar.typeArguments
  | .typeArgument => Grammar.typeArgument
  | .typeParameters => Grammar.typeParameters
  | .wildcard => Grammar.wildcard
  | .resultType => Grammar.resultType
  | .dims => Grammar.dims
  | .qualifiedName => Grammar.qualifiedName
  | .wildcardHead => Grammar.wildcardHead
  | .modifiers => Grammar.modifiers
  | .variableModifiers => Grammar.variableModifiers
  | .annotationUse => Grammar.annotationUse
  | .elementValue => Grammar.elementValue
  | .expression => Grammar.expression
  | .conditional => Grammar.conditional
  | .binary level => Grammar.binary level
  | .unary => Grammar.unary
  | .suffixed => Grammar.suffixed
  | .primary => Grammar.primary
  | .arguments => Grammar.arguments
  | .arrayInit => Grammar.arrayInit
  | .castHead => Grammar.castHead
  | .lambdaHead => Grammar.lambdaHead
  | .genericRefHead => Grammar.genericRefHead
  | .blockStatement => Grammar.blockStatement
  | .statement => Grammar.statement
  | .block => Grammar.block
  | .switchGroup => Grammar.switchGroup
  | .resource => Grammar.resource
  | .localVarHead => Grammar.localVarHead
  | .localClassHead => Grammar.localClassHead
  | .enhancedForHead => Grammar.enhancedForHead
  | .variableDeclarator => Grammar.variableDeclarator
  | .parameters => Grammar.parameters
  | .parameter => Grammar.parameter
  | .member => Grammar.member
  | .initializer => Grammar.initializer
  | .classBody => Grammar.classBody
  | .enumBody => Grammar.enumBody
  | .typeDecl => Grammar.typeDecl
  | .packageDecl => Grammar.packageDecl
  | .importDecl => Grammar.importDecl
  | .enumConstant => Grammar.enumConstant
  | .packageHead => Grammar.packageHead
  | .compilationUnit => Grammar.compilationUnit
  | .classType => Grammar.classType
  | .typeParameter => Grammar.typeParameter
  | .annotationElement => Grammar.annotationElement
  | .elementValueArray => Grammar.elementValueArray
  | .lambda => Grammar.lambda
  | .cast => Grammar.cast
  | .primitiveLiteral => Grammar.primitiveLiteral
  | .parenExpr => Grammar.parenExpr
  | .variableInitializer => Grammar.variableInitializer
  | .localClassDecl => Grammar.localClassDecl
  | .localVars => Grammar.localVars
  | .localVarDecl => Grammar.localVarDecl
  | .expressionStatement => Grammar.expressionStatement
  | .condition => Grammar.condition
  | .ifStatement => Grammar.ifStatement
  | .forStatement => Grammar.forStatement
  | .whileStatement => Grammar.whileStatement
  | .doStatement => Grammar.doStatement
  | .switchStatement => Grammar.switchStatement
  | .switchLabel => Grammar.switchLabel
  | .returnStatement => Grammar.returnStatement
  | .throwStatement => Grammar.throwStatement
  | .tryStatement => Grammar.tryStatement
  | .resources => Grammar.resources
  | .catchClause => Grammar.catchClause
  | .synchronizedStatement => Grammar.synchronizedStatement
  | .assertStatement => Grammar.assertStatement
  | .labeledStatement => Grammar.labeledStatement

end JavaFront
