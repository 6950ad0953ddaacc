import JavaFront.Grammar.Expressions
import JavaFront.Proofs.Token.Slices

/-!
# Formulas

Formulas are expressions made of names, operators and parentheses. A formula
fits if every operand binds tightly enough for its place, so that it can be
written down without more parentheses than it has.
-/

namespace JavaFront

open Grammar

/-! ## Parts of formulas -/

/-- The text of an identifier, which on its own is one token. -/
structure Name where
  text : Bytes
  alone : (Source.of [] text).tokens.map Token.shape = [(.ident, text), (.eof, [])]

/-- The operators in front of an operand that do not change it. -/
def isPlainSign : Token.Kind → Bool
  | .plus | .minus | .bang | .bitNot => true
  | _ => false

/-- An operator in front of its operand. -/
structure SignOperator where
  kind : Token.Kind
  isSign : isPlainSign kind = true

/-- An operator between two operands, with its level. -/
structure BinaryOperator where
  kind : Token.Kind
  level : Precedence
  binds : Precedence.of? kind = some level

/-- An operator that assigns. -/
structure AssignmentOperator where
  kind : Token.Kind
  assigns : isAssignment kind = true

/-- How tightly an expression binds. That depends on its outermost operator;
without one it binds as tightly as can be. -/
inductive Tightness where
  | assignment | conditional | binary (level : Precedence) | unary | primary
deriving DecidableEq, Repr

/-- The tightness as a number, the larger the tighter. -/
def Tightness.rank : Tightness → Nat
  | .assignment => 0
  | .conditional => 1
  | .binary level => level.rank + 1
  | .unary => 12
  | .primary => 13

/-- Expressions made of names, operators and parentheses. -/
inductive Formula where
  | name (identifier : Name)
  | parens (inner : Formula)
  | sign (operator : SignOperator) (operand : Formula)
  | binary (operator : BinaryOperator) (left right : Formula)
  | conditional (condition yes no : Formula)
  | assignment (operator : AssignmentOperator) (target value : Formula)

namespace Formula

def tightness : Formula → Tightness
  | .name _ | .parens _ => .primary
  | .sign _ _ => .unary
  | .binary operator _ _ => .binary operator.level
  | .conditional _ _ _ => .conditional
  | .assignment _ _ _ => .assignment

/-- The formula may stand where an operand has to bind so tightly. -/
def AsTightAs (formula : Formula) (least : Tightness) : Prop :=
  least.rank ≤ formula.tightness.rank

instance (formula : Formula) (least : Tightness) : Decidable (formula.AsTightAs least) :=
  inferInstanceAs (Decidable (_ ≤ _))

/-- Every operand binds tightly enough for its place. Binary operators associate
to the left, conditionals and assignments to the right. What stands in
parentheses, between the marks of a conditional or behind an assignment operator
may be anything. -/
def Fits : Formula → Prop
  | .name _ => True
  | .parens inner => inner.Fits
  | .sign _ operand => operand.AsTightAs .unary ∧ operand.Fits
  | .binary operator left right =>
    left.AsTightAs (.binary operator.level) ∧
      (Tightness.binary operator.level).rank < right.tightness.rank ∧ left.Fits ∧ right.Fits
  | .conditional condition yes no =>
    condition.AsTightAs (.binary .logicalOr) ∧ no.AsTightAs .conditional ∧
      condition.Fits ∧ yes.Fits ∧ no.Fits
  | .assignment _ target value => target.AsTightAs .conditional ∧ target.Fits ∧ value.Fits

def decideFits : (formula : Formula) → Decidable formula.Fits
  | .name _ => isTrue trivial
  | .parens inner => inner.decideFits
  | .sign _ operand =>
    have := operand.decideFits
    inferInstanceAs (Decidable (_ ∧ _))
  | .binary _ left right =>
    have := left.decideFits
    have := right.decideFits
    inferInstanceAs (Decidable (_ ∧ _ ∧ _ ∧ _))
  | .conditional condition yes no =>
    have := condition.decideFits
    have := yes.decideFits
    have := no.decideFits
    inferInstanceAs (Decidable (_ ∧ _ ∧ _ ∧ _ ∧ _))
  | .assignment _ target value =>
    have := target.decideFits
    have := value.decideFits
    inferInstanceAs (Decidable (_ ∧ _ ∧ _))

instance (formula : Formula) : Decidable formula.Fits :=
  formula.decideFits

end Formula

/-! ## Writing formulas -/

/-- What the grammar takes for one token: a token of the text, or several that
touch and compose an operator. -/
abbrev Word := Token.Kind × Bytes

/-- An operator or separator as a word. -/
def Token.Kind.word (kind : Token.Kind) : Word :=
  (kind, Bytes.ofString kind.name)

/-- A word as a token without a place. -/
def Word.token (word : Word) : Token :=
  ⟨word.1, .empty .origin, word.2⟩

namespace Formula

/-- The words of a formula in order. -/
def words : Formula → List Word
  | .name identifier => [(.ident, identifier.text)]
  | .parens inner => Token.Kind.lparen.word :: (inner.words ++ [Token.Kind.rparen.word])
  | .sign operator operand => operator.kind.word :: operand.words
  | .binary operator left right => left.words ++ operator.kind.word :: right.words
  | .conditional condition yes no =>
    condition.words ++ Token.Kind.question.word ::
      (yes.words ++ Token.Kind.colon.word :: no.words)
  | .assignment operator target value => target.words ++ operator.kind.word :: value.words

/-- The formula as a text, with one space between words and none inside of
them. -/
def text (formula : Formula) : Bytes :=
  Bytes.join [0x20] (formula.words.map Prod.snd)

/-- The syntax tree of a formula, without places. -/
def tree : Formula → Node
  | .name identifier => .leaf .identifier (Word.token (.ident, identifier.text))
  | .parens inner => branching .parenExpr [inner.tree]
  | .sign operator operand => branching .unaryExpr [leafOf operator.kind, operand.tree]
  | .binary operator left right =>
    branching .binaryExpr [left.tree, leafOf operator.kind, right.tree]
  | .conditional condition yes no =>
    branching .ternaryExpr [condition.tree, yes.tree, no.tree]
  | .assignment operator target value =>
    branching .assignExpr [target.tree, leafOf operator.kind, value.tree]
where
  /-- A node without a place. -/
  branching (kind : Node.Kind) (children : List Node) : Node :=
    { kind, span := .empty .origin, children }
  /-- The leaf of an operator. -/
  leafOf (kind : Token.Kind) : Node :=
    .leaf .operator kind.word.token

end Formula

end JavaFront
