import JavaFront.Proofs.Grammar.Formula

/-!
# Types as they are written

Types are made of primitive types and class types, with type arguments and empty
brackets. They are written as words, and every type has its syntax tree.
-/

namespace JavaFront

open Formula.tree (branching leafOf)

/-! ## Types -/

/-- The word for a type without parts. -/
structure PrimitiveWord where
  kind : Token.Kind
  isPrimitive : kind.isPrimitiveType = true

/-- On which side a wildcard is bounded. -/
inductive WildcardBound where
  | upper | lower
deriving DecidableEq, Repr

/-- The word in front of the bound. -/
def WildcardBound.kind : WildcardBound → Token.Kind
  | .upper => .kwExtends
  | .lower => .kwSuper

mutual

/-- Primitive types, class types of one or more segments, and types with an empty
pair of brackets behind them. -/
inductive TypeForm where
  | primitive (word : PrimitiveWord)
  | named (first : TypeSegment) (others : List TypeSegment)
  | array (element : TypeForm)

/-- Names without type arguments, with an empty list of them, and with some. -/
inductive TypeSegment where
  | plain (name : Name)
  | diamond (name : Name)
  | generic (name : Name) (first : TypeArgument) (others : List TypeArgument)

/-- Types and wildcards. -/
inductive TypeArgument where
  | type (form : TypeForm)
  | any
  | bounded (bound : WildcardBound) (form : TypeForm)

end

/-! ## Writing types -/

mutual

/-- The words of a type in order. -/
def TypeForm.words : TypeForm → List Word
  | .primitive word => [word.kind.word]
  | .named first others => first.words ++ TypeSegment.wordsBehind others
  | .array element => element.words ++ [Token.Kind.lbracket.word, Token.Kind.rbracket.word]

def TypeSegment.words : TypeSegment → List Word
  | .plain name => [(.ident, name.text)]
  | .diamond name => [(.ident, name.text), Token.Kind.less.word, Token.Kind.greater.word]
  | .generic name first others =>
    (.ident, name.text) :: Token.Kind.less.word ::
      (first.words ++ (TypeArgument.wordsBehind others ++ [Token.Kind.greater.word]))

/-- The words of further segments, each behind a dot. -/
def TypeSegment.wordsBehind : List TypeSegment → List Word
  | [] => []
  | next :: others => Token.Kind.dot.word :: (next.words ++ TypeSegment.wordsBehind others)

def TypeArgument.words : TypeArgument → List Word
  | .type form => form.words
  | .any => [Token.Kind.question.word]
  | .bounded bound form => Token.Kind.question.word :: bound.kind.word :: form.words

/-- The words of further arguments, each behind a comma. -/
def TypeArgument.wordsBehind : List TypeArgument → List Word
  | [] => []
  | next :: others => Token.Kind.comma.word :: (next.words ++ TypeArgument.wordsBehind others)

end

mutual

/-- The syntax tree of a type, without places. -/
def TypeForm.tree : TypeForm → Node
  | .primitive word => { branching .primitiveType [] with token := some word.kind.word.token }
  | .named first others => branching .type (first.trees ++ TypeSegment.allTrees others)
  | .array element => branching .arrayType [element.tree]

/-- The name of a segment and its type arguments, if it has a list of them. -/
def TypeSegment.trees : TypeSegment → List Node
  | .plain name => [.leaf .identifier (Word.token (.ident, name.text))]
  | .diamond name =>
    [.leaf .identifier (Word.token (.ident, name.text)), branching .typeArguments []]
  | .generic name first others =>
    [.leaf .identifier (Word.token (.ident, name.text)),
     branching .typeArguments (first.tree :: TypeArgument.allTrees others)]

def TypeSegment.allTrees : List TypeSegment → List Node
  | [] => []
  | next :: others => next.trees ++ TypeSegment.allTrees others

def TypeArgument.tree : TypeArgument → Node
  | .type form => form.tree
  | .any => branching .wildcard []
  | .bounded bound form => branching .wildcard [leafOf bound.kind, form.tree]

def TypeArgument.allTrees : List TypeArgument → List Node
  | [] => []
  | next :: others => next.tree :: TypeArgument.allTrees others

end

end JavaFront
