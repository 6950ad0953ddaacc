import JavaFront.Token

/-!
# Syntax trees

A tree is made of nodes of one shape. The kind selects what a node stands for;
the children are its parts in source order; leaves carry their token. A node
for input that could not be read carries the fault, and a declaration carries
the documentation comment in front of it.
-/

namespace JavaFront

/-- What a node stands for. -/
inductive Node.Kind where
  -- input that could not be read
  | error
  -- units
  | compilationUnit | packageDecl | importDecl
  -- declarations
  | classDecl | interfaceDecl | enumDecl | annotationDecl | enumConstant | fieldDecl | methodDecl
  | initializer | variableDeclarator
  -- parts of declarations
  | modifiers | modifier | annotationUse | annotationElement | elementValueArray | typeParameters
  | typeParameter | extendsClause | implementsClause | classBody | parameters | parameter
  | throwsList | defaultValue | dims
  -- types
  | type | primitiveType | voidType | arrayType | typeArguments | wildcard | intersectionType
  | unionType
  -- statements
  | block | emptyStmt | exprStmt | localVarDecl | localClassDecl | ifStmt | forStmt | forInit
  | forUpdate | enhancedForStmt | whileStmt | doStmt | switchStmt | switchGroup | switchLabel
  | returnStmt | breakStmt | continueStmt | throwStmt | tryStmt | resources | resource
  | catchClause | finallyClause | synchronizedStmt | assertStmt | labeledStmt
  -- expressions
  | assignExpr | ternaryExpr | binaryExpr | unaryExpr | postfixExpr | castExpr | instanceofExpr
  | callExpr | arguments | methodRef | fieldAccess | arrayAccess | newExpr | newArrayExpr
  | arrayInit | lambdaExpr | lambdaParameters | parenExpr | literal | identifier | qualifiedName
  | this | super | classLiteral
  -- operators and other marks
  | operator
deriving DecidableEq, Repr

/-- The large classes of nodes. -/
inductive Node.Category where
  | other | decl | type | stmt | expr
deriving DecidableEq, Repr

/-- The name of a class of nodes. -/
def Node.Category.name : Category → String
  | .other => "other"
  | .decl => "decl"
  | .type => "type"
  | .stmt => "stmt"
  | .expr => "expr"

namespace Node.Kind

/-- All kinds, in the order of their numbers. -/
def all : List Kind :=
  [.error, .compilationUnit, .packageDecl, .importDecl, .classDecl, .interfaceDecl, .enumDecl,
   .annotationDecl, .enumConstant, .fieldDecl, .methodDecl, .initializer, .variableDeclarator,
   .modifiers, .modifier, .annotationUse, .annotationElement, .elementValueArray, .typeParameters,
   .typeParameter, .extendsClause, .implementsClause, .classBody, .parameters, .parameter,
   .throwsList, .defaultValue, .dims, .type, .primitiveType, .voidType, .arrayType,
   .typeArguments, .wildcard, .intersectionType, .unionType, .block, .emptyStmt, .exprStmt,
   .localVarDecl, .localClassDecl, .ifStmt, .forStmt, .forInit, .forUpdate, .enhancedForStmt,
   .whileStmt, .doStmt, .switchStmt, .switchGroup, .switchLabel, .returnStmt, .breakStmt,
   .continueStmt, .throwStmt, .tryStmt, .resources, .resource, .catchClause, .finallyClause,
   .synchronizedStmt, .assertStmt, .labeledStmt, .assignExpr, .ternaryExpr, .binaryExpr,
   .unaryExpr, .postfixExpr, .castExpr, .instanceofExpr, .callExpr, .arguments, .methodRef,
   .fieldAccess, .arrayAccess, .newExpr, .newArrayExpr, .arrayInit, .lambdaExpr,
   .lambdaParameters, .parenExpr, .literal, .identifier, .qualifiedName, .this, .super,
   .classLiteral, .operator]

/-- The name of a kind. -/
def name : Kind → String
  | .error => "Error"
  | .compilationUnit => "CompilationUnit"
  | .packageDecl => "PackageDecl"
  | .importDecl => "ImportDecl"
  | .classDecl => "ClassDecl"
  | .interfaceDecl => "InterfaceDecl"
  | .enumDecl => "EnumDecl"
  | .annotationDecl => "AnnotationDecl"
  | .enumConstant => "EnumConstant"
  | .fieldDecl => "FieldDecl"
  | .methodDecl => "MethodDecl"
  | .initializer => "Initializer"
  | .variableDeclarator => "VariableDeclarator"
  | .modifiers => "Modifiers"
  | .modifier => "Modifier"
  | .annotationUse => "Annotation"
  | .annotationElement => "AnnotationElement"
  | .elementValueArray => "ElementValueArray"
  | .typeParameters => "TypeParameters"
  | .typeParameter => "TypeParameter"
  | .extendsClause => "ExtendsClause"
  | .implementsClause => "ImplementsClause"
  | .classBody => "ClassBody"
  | .parameters => "Parameters"
  | .parameter => "Parameter"
  | .throwsList => "ThrowsList"
  | .defaultValue => "DefaultValue"
  | .dims => "Dims"
  | .type => "Type"
  | .primitiveType => "PrimitiveType"
  | .voidType => "VoidType"
  | .arrayType => "ArrayType"
  | .typeArguments => "TypeArguments"
  | .wildcard => "Wildcard"
  | .intersectionType => "IntersectionType"
  | .unionType => "UnionType"
  | .block => "Block"
  | .emptyStmt => "EmptyStmt"
  | .exprStmt => "ExprStmt"
  | .localVarDecl => "LocalVarDecl"
  | .localClassDecl => "LocalClassDecl"
  | .ifStmt => "IfStmt"
  | .forStmt => "ForStmt"
  | .forInit => "ForInit"
  | .forUpdate => "ForUpdate"
  | .enhancedForStmt => "EnhancedForStmt"
  | .whileStmt => "WhileStmt"
  | .doStmt => "DoStmt"
  | .switchStmt => "SwitchStmt"
  | .switchGroup => "SwitchGroup"
  | .switchLabel => "SwitchLabel"
  | .returnStmt => "ReturnStmt"
  | .breakStmt => "BreakStmt"
  | .continueStmt => "ContinueStmt"
  | .throwStmt => "ThrowStmt"
  | .tryStmt => "TryStmt"
  | .resources => "Resources"
  | .resource => "Resource"
  | .catchClause => "CatchClause"
  | .finallyClause => "FinallyClause"
  | .synchronizedStmt => "SynchronizedStmt"
  | .assertStmt => "AssertStmt"
  | .labeledStmt => "LabeledStmt"
  | .assignExpr => "AssignExpr"
  | .ternaryExpr => "TernaryExpr"
  | .binaryExpr => "BinaryExpr"
  | .unaryExpr => "UnaryExpr"
  | .postfixExpr => "PostfixExpr"
  | .castExpr => "CastExpr"
  | .instanceofExpr => "InstanceofExpr"
  | .callExpr => "CallExpr"
  | .arguments => "Arguments"
  | .methodRef => "MethodRef"
  | .fieldAccess => "FieldAccess"
  | .arrayAccess => "ArrayAccess"
  | .newExpr => "NewExpr"
  | .newArrayExpr => "NewArrayExpr"
  | .arrayInit => "ArrayInit"
  | .lambdaExpr => "LambdaExpr"
  | .lambdaParameters => "LambdaParameters"
  | .parenExpr => "ParenExpr"
  | .literal => "Literal"
  | .identifier => "Identifier"
  | .qualifiedName => "QualifiedName"
  | .this => "This"
  | .super => "Super"
  | .classLiteral => "ClassLiteral"
  | .operator => "Operator"

/-- The class a kind belongs to. -/
def category : Kind → Category
  | .compilationUnit | .packageDecl | .importDecl | .classDecl | .interfaceDecl | .enumDecl
  | .annotationDecl | .enumConstant | .fieldDecl | .methodDecl | .initializer
  | .variableDeclarator => .decl
  | .type | .primitiveType | .voidType | .arrayType | .typeArguments | .wildcard
  | .intersectionType | .unionType => .type
  | .block | .emptyStmt | .exprStmt | .localVarDecl | .localClassDecl | .ifStmt | .forStmt
  | .forInit | .forUpdate | .enhancedForStmt | .whileStmt | .doStmt | .switchStmt | .switchGroup
  | .switchLabel | .returnStmt | .breakStmt | .continueStmt | .throwStmt | .tryStmt | .resources
  | .resource | .catchClause | .finallyClause | .synchronizedStmt | .assertStmt
  | .labeledStmt => .stmt
  | .assignExpr | .ternaryExpr | .binaryExpr | .unaryExpr | .postfixExpr | .castExpr
  | .instanceofExpr | .callExpr | .arguments | .methodRef | .fieldAccess | .arrayAccess
  | .newExpr | .newArrayExpr | .arrayInit | .lambdaExpr | .lambdaParameters | .parenExpr
  | .literal | .identifier | .qualifiedName | .this | .super | .classLiteral => .expr
  | _ => .other

/-- Declarations of classes, interfaces, enums and annotation types. -/
def isTypeDecl : Kind → Bool
  | .classDecl | .interfaceDecl | .enumDecl | .annotationDecl => true
  | _ => false

end Node.Kind

/-- Why a stretch of input could not be read: the message, what would have been
accepted, and the token that was found. -/
structure Node.Fault where
  message : Bytes
  expected : List String
  got : Token
deriving DecidableEq, Repr

/-- A node of a syntax tree. -/
structure Node where
  kind : Node.Kind
  span : Span
  children : List Node := []
  token : Option Token := none
  fault : Option Node.Fault := none
  doc : Option Token := none
deriving Repr

namespace Node

/-- The leaf of a token. -/
def leaf (kind : Kind) (token : Token) : Node :=
  { kind, span := token.span, token := some token }

/-- The node stands for input that could not be read. -/
def isError (node : Node) : Bool :=
  node.kind = .error

/-- The children of one kind. -/
def childrenOf (node : Node) (kind : Kind) : List Node :=
  node.children.filter (·.kind = kind)

/-- The first child of one kind. -/
def firstOf? (node : Node) (kind : Kind) : Option Node :=
  node.children.find? (·.kind = kind)

/-- The text of a node's own token, empty without one. -/
def tokenText (node : Node) : Bytes :=
  (node.token.map Token.text).getD []

/-- The text of a node's documentation comment, empty without one. -/
def docText (node : Node) : Bytes :=
  (node.doc.map Token.text).getD []

/-- The text of the first identifier among the children: for a declaration,
the declared name. -/
def name (node : Node) : Bytes :=
  ((node.firstOf? .identifier).map tokenText).getD []

mutual

/-- The nodes of a tree with their depth, parents before children and children
in order. The children of a node are visited only if it satisfies `descend`. -/
def walk (descend : Node → Bool) (depth : Nat) : Node → List (Nat × Node)
  | ⟨kind, span, children, token, fault, doc⟩ =>
    let node : Node := ⟨kind, span, children, token, fault, doc⟩
    (depth, node) :: if descend node then walkAll descend (depth + 1) children else []

/-- The nodes of several trees in order. -/
def walkAll (descend : Node → Bool) (depth : Nat) : List Node → List (Nat × Node)
  | [] => []
  | node :: nodes => walk descend depth node ++ walkAll descend depth nodes

end

/-- All nodes of a tree with their depth, parents before children. -/
def rows (node : Node) : List (Nat × Node) :=
  node.walk (fun _ => true) 0

/-- All nodes of a tree, parents before children. -/
def nodes (node : Node) : List Node :=
  node.rows.map Prod.snd

/-- The nodes of a tree that stand for input that could not be read. -/
def errors (node : Node) : List Node :=
  node.nodes.filter isError

/-- The node at the end of a path of child indexes. -/
def at? (node : Node) : List Nat → Option Node
  | [] => some node
  | index :: path =>
    match node.children[index]? with
    | some child => child.at? path
    | none => none

end Node

end JavaFront
