import JavaFront.Grammar.Phrase

/-!
# Types, names and annotations

Types with their arguments, bounds and dimensions, qualified names, and the
modifiers and annotations that stand in front of types and declarations.
-/

namespace JavaFront.Grammar

open Phrase

/-! ## Looks -/

/-- An annotation starts here, and not the declaration of an annotation type. -/
def annotationAhead : Look :=
  .and (.is .atSign) (.not (.nextIs .kwInterface))

/-- An empty pair of brackets. -/
def dimsAhead : Look :=
  .and (.is .lbracket) (.nextIs .rbracket)

/-- The words that modify declarations. -/
def isModifier : Token.Kind → Bool
  | .kwPublic | .kwProtected | .kwPrivate | .kwAbstract | .kwStatic | .kwFinal | .kwStrictfp
  | .kwNative | .kwSynchronized | .kwTransient | .kwVolatile | .kwDefault => true
  | _ => false

/-! ## Names, modifiers and annotations -/

/-- A dotted name. A dot that no identifier follows is left alone. -/
def qualifiedName : Phrase :=
  .node .qualifiedName (steps
    [ident,
     .loop (.and (.is .dot) (.nextIs .ident)) (steps [.token .dot, ident])])

/-- Any number of annotations. -/
def annotations : Phrase :=
  .loop annotationAhead (.call .annotationUse)

/-- Modifier words and annotations in any order, possibly none. -/
def modifiersOf (accept : Token.Kind → Bool) : Phrase :=
  .node .modifiers
    (.loop (.or (.here accept) annotationAhead)
      (.branch (.here accept) (.pick .modifier accept) (.call .annotationUse)))

/-- The modifiers of a declaration. -/
def modifiers : Phrase :=
  modifiersOf isModifier

/-- The modifiers of a parameter or local variable: `final` and annotations. -/
def variableModifiers : Phrase :=
  modifiersOf (· = .kwFinal)

/-- A named element of an annotation. -/
def annotationElement : Phrase :=
  .node .annotationElement (steps [ident, .token .assign, .call .elementValue])

/-- An annotation with its elements, or with one value in place of them. -/
def annotationUse : Phrase :=
  .node .annotationUse (steps
    [.token .atSign, .call .qualifiedName,
     when (.is .lparen) (steps
      [.token .lparen,
       omitIf (.is .rparen)
        (.branch (.and (.is .ident) (.nextIs .assign))
          (commas annotationElement)
          (.call .elementValue)),
       .token .rparen])])

/-- The values of an array element in braces; a comma may follow the last. -/
def elementValueArray : Phrase :=
  .node .elementValueArray (steps
    [.token .lbrace,
     omitIf (.is .rbrace) (steps
      [.call .elementValue,
       .loop (.is .comma)
        (steps [.token .comma, omitIf (.is .rbrace) (.call .elementValue)])]),
     .token .rbrace])

/-- The value of an annotation element: an annotation, an array or a
conditional expression. -/
def elementValue : Phrase :=
  select [(.is .atSign, .call .annotationUse), (.is .lbrace, elementValueArray)]
    (.call .conditional)

/-! ## Types -/

/-- One segment of a class type: a name and its type arguments. -/
def typeSegment : Phrase :=
  steps [ident, when (.is .less) (.call .typeArguments)]

/-- The segments of a class type. -/
def typeSegments : Phrase :=
  steps
    [typeSegment,
     .loop (.and (.is .dot) (.nextIs .ident)) (steps [.token .dot, typeSegment])]

/-- A class type alone. -/
def classType : Phrase :=
  .node .type typeSegments

/-- A primitive or class type with the annotations in front of it and without
dimensions. -/
def elementType : Phrase :=
  .node .type (steps
    [annotations,
     select
      [(.here Token.Kind.isPrimitiveType,
        steps [.rekind .primitiveType, .mark Token.Kind.isPrimitiveType]),
       (.is .ident, typeSegments)]
      (.expected ["type"])])

/-- One array type around the part read last for every empty pair of
brackets. -/
def dimensions : Phrase :=
  .loop dimsAhead (.wrap .arrayType (steps [.token .lbracket, .token .rbracket]))

/-- A type with its dimensions. -/
def type : Phrase :=
  steps [elementType, dimensions]

/-- The empty pairs of brackets behind a name or a parameter list; gives up
when there are none. -/
def dims : Phrase :=
  .node .dims (repeated dimsAhead (steps [.token .lbracket, .token .rbracket]) .stop)

/-- The empty pairs of brackets behind a name, if there are any. -/
def optionalDims : Phrase :=
  when dimsAhead (.call .dims)

/-- Type arguments in angle brackets, which may be empty. -/
def typeArguments : Phrase :=
  .node .typeArguments (steps
    [.token .less,
     .branch (.is .greater)
      (.token .greater)
      (steps [commas (.call .typeArgument), .token .greater])])

/-- The annotations of a wildcard up to its question mark. -/
def wildcardHead : Phrase :=
  steps [annotations, .branch (.is .question) .done .stop]

/-- A type argument: a wildcard or a type. -/
def typeArgument : Phrase :=
  select
    [(.is .question, .call .wildcard),
     (.is .atSign, .trial .wildcardHead (.call .wildcard) (.call .type))]
    (.call .type)

/-- A wildcard with its bound. -/
def wildcard : Phrase :=
  .node .wildcard (steps
    [annotations, .token .question,
     when (.oneOf [.kwExtends, .kwSuper]) (steps
      [.pick .operator [Token.Kind.kwExtends, .kwSuper].contains, .call .type])])

/-- The result type of a method, which may be `void`. -/
def resultType : Phrase :=
  .branch (.is .kwVoid) (.leaf .voidType .kwVoid) (.call .type)

/-- A type parameter with its bounds. -/
def typeParameter : Phrase :=
  .node .typeParameter (steps
    [annotations, ident,
     when (.is .kwExtends)
      (.node .extendsClause (steps
        [.token .kwExtends, separated .bitAnd (.call .type)]))])

/-- Type parameters in angle brackets. -/
def typeParameters : Phrase :=
  .node .typeParameters (steps [.token .less, commas typeParameter, .token .greater])

/-- A word and the types behind it, as one clause. -/
def typeClause (kind : Node.Kind) (word : Token.Kind) : Phrase :=
  .node kind (steps [.token word, commas (.call .type)])

end JavaFront.Grammar
