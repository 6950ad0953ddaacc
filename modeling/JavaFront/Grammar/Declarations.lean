import JavaFront.Grammar.Expressions

/-!
# Declarations

Compilation units, the declarations of types and the members in their bodies.
Members, enum constants, imports and top-level declarations are read with
recovery. A declaration carries the documentation comment in front of its
first token.
-/

namespace JavaFront.Grammar

open Phrase

/-! ## Variables and parameters -/

/-- A declared variable with its dimensions and its initial value. -/
def variableDeclarator : Phrase :=
  .node .variableDeclarator (steps
    [ident, optionalDims,
     when (.is .assign) (steps [.token .assign, variableInitializer])])

/-- Declared variables with commas between. -/
def declarators : Phrase :=
  commas (.call .variableDeclarator)

/-- A parameter, which may take any number of arguments. -/
def parameter : Phrase :=
  .node .parameter (steps
    [.call .variableModifiers, .call .type,
     when (.is .ellipsis) (.leaf .operator .ellipsis),
     ident, optionalDims])

/-- Parameters in parentheses. None may follow one that takes any number of
arguments. -/
def parameters : Phrase :=
  .node .parameters (steps
    [.token .lparen,
     omitIf (.is .rparen) (steps
      [.call .parameter,
       .loop (.and (.is .comma) (.not .latestVariadic))
        (steps [.token .comma, .call .parameter])]),
     .token .rparen])

/-! ## Bodies -/

/-- A member, read with recovery. -/
def recoveredMember : Phrase :=
  .orElse (.recover .member) .salvage

/-- Members up to the closing brace; stray semicolons are skipped. -/
def members : Phrase :=
  steps
    [.loop (.not (.oneOf [.rbrace, .eof]))
      (.branch (.is .semicolon) (.token .semicolon) recoveredMember),
     when .abandoned .salvage]

/-- Members in braces. -/
def classBody : Phrase :=
  .node .classBody (steps [.token .lbrace, members, .closing .rbrace])

/-- An enum constant, read with recovery. -/
def recoveredConstant : Phrase :=
  .orElse (.recover .enumConstant) .salvage

/-- Tokens that end the constants of an enum. -/
def endsConstants : Look :=
  .oneOf [.semicolon, .rbrace, .eof]

/-- The constants of an enum, and behind a semicolon its members. -/
def enumBody : Phrase :=
  .node .classBody (steps
    [.token .lbrace,
     omitIf endsConstants (steps
      [recoveredConstant,
       .loop (.is .comma) (steps [.token .comma, omitIf endsConstants recoveredConstant])]),
     when (.is .semicolon) (steps [.token .semicolon, members]),
     when .abandoned .salvage,
     .closing .rbrace])

/-- An enum constant with its arguments and its body. -/
def enumConstant : Phrase :=
  .documented (.node .enumConstant (steps
    [annotations, ident,
     when (.is .lparen) (.call .arguments),
     when (.is .lbrace) (.call .classBody)]))

/-! ## Types -/

/-- A class from its opening word on; its modifiers have been read. -/
def classDecl : Phrase :=
  .wrap .classDecl (steps
    [.token .kwClass, ident,
     when (.is .less) (.call .typeParameters),
     when (.is .kwExtends)
      (.node .extendsClause (steps [.token .kwExtends, .call .type])),
     when (.is .kwImplements) (typeClause .implementsClause .kwImplements),
     .call .classBody])

/-- An interface from its opening word on; its modifiers have been read. -/
def interfaceDecl : Phrase :=
  .wrap .interfaceDecl (steps
    [.token .kwInterface, ident,
     when (.is .less) (.call .typeParameters),
     when (.is .kwExtends) (typeClause .extendsClause .kwExtends),
     .call .classBody])

/-- An enum from its opening word on; its modifiers have been read. -/
def enumDecl : Phrase :=
  .wrap .enumDecl (steps
    [.token .kwEnum, ident,
     when (.is .kwImplements) (typeClause .implementsClause .kwImplements),
     .call .enumBody])

/-- An annotation type from its at sign on; its modifiers have been read. -/
def annotationDecl : Phrase :=
  .wrap .annotationDecl (steps
    [.token .atSign, .token .kwInterface, ident, .call .classBody])

/-- The at sign and word that open an annotation type. -/
def annotationDeclAhead : Look :=
  .and (.is .atSign) (.nextIs .kwInterface)

/-- A type declaration behind its modifiers. -/
def typeDeclRest : Phrase :=
  select
    [(.is .kwClass, classDecl),
     (.is .kwInterface, interfaceDecl),
     (.is .kwEnum, enumDecl),
     (annotationDeclAhead, annotationDecl)]
    (.expected ["'class'", "'interface'", "'enum'", "'@interface'"])

/-- A type declaration at the top level. -/
def typeDecl : Phrase :=
  .documented (steps [.call .modifiers, typeDeclRest])

/-! ## Members -/

/-- A block that runs when its class or an instance of it is set up. -/
def initializer : Phrase :=
  .node .initializer (steps
    [when (.is .kwStatic) (.leaf .modifier .kwStatic), .call .block])

/-- A method or constructor from its name on. -/
def methodRest : Phrase :=
  steps
    [ident, .call .parameters, optionalDims,
     when (.is .kwThrows) (typeClause .throwsList .kwThrows),
     when (.is .kwDefault)
      (.node .defaultValue (steps [.token .kwDefault, .call .elementValue])),
     select [(.is .lbrace, .call .block), (.is .semicolon, .token .semicolon)]
      (.expected [Token.Kind.describe .lbrace, Token.Kind.describe .semicolon])]

/-- A name in front of a parenthesis. -/
def namedCallAhead : Look :=
  .and (.is .ident) (.nextIs .lparen)

/-- A method, a constructor or a field behind its modifiers. A constructor has
no result type; a field has no type parameters and is not `void`. -/
def methodOrField : Phrase :=
  .wrap .methodDecl
    (.branch (.is .less)
      (steps
        [.call .typeParameters,
         omitIf namedCallAhead (.call .resultType),
         methodRest])
      (.branch namedCallAhead methodRest (steps
        [.call .resultType,
         .branch
          (.and (.not (.latest .voidType)) (.and (.is .ident) (.not (.nextIs .lparen))))
          (steps [.rekind .fieldDecl, declarators, .token .semicolon])
          methodRest])))

/-- A member of a class. -/
def member : Phrase :=
  .documented
    (.branch (.or (.is .lbrace) (.and (.is .kwStatic) (.nextIs .lbrace)))
      (.call .initializer)
      (steps
        [.call .modifiers,
         .branch (.or (.oneOf [.kwClass, .kwInterface, .kwEnum]) annotationDeclAhead)
          typeDeclRest methodOrField]))

/-! ## Units -/

/-- The annotations of a package, in front of its word. -/
def packageHead : Phrase :=
  steps [annotations, .branch (.is .kwPackage) .done .stop]

/-- The declaration of the package. -/
def packageDecl : Phrase :=
  .documented (.node .packageDecl (steps
    [annotations, .token .kwPackage, .call .qualifiedName, .token .semicolon]))

/-- An import of one name or, with a star, of all names; of static members
behind the word for it. -/
def importDecl : Phrase :=
  .node .importDecl (steps
    [.token .kwImport,
     when (.is .kwStatic) (.leaf .modifier .kwStatic),
     .call .qualifiedName,
     when (.is .dot) (steps [.token .dot, .leaf .operator .star]),
     .token .semicolon])

/-- A rule read with recovery, or nothing once the parse has been abandoned. -/
def attempt (rule : Rule) : Phrase :=
  .orElse (.recover rule) .done

/-- The package, the imports and the types of a unit. Stray semicolons between
types are skipped. -/
def compilationUnit : Phrase :=
  .cover .compilationUnit (steps
    [select
      [(.is .kwPackage, attempt .packageDecl),
       (.is .atSign, .trial .packageHead (attempt .packageDecl) .done)]
      .done,
     .loop (.and (.is .kwImport) (.not .abandoned)) (attempt .importDecl),
     .loop (.and (.not (.is .eof)) (.not .abandoned))
      (.branch (.is .semicolon) (.token .semicolon) (attempt .typeDecl))])

end JavaFront.Grammar
