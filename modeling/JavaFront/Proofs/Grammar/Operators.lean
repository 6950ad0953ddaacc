import JavaFront.Grammar
import JavaFront.Proofs.Grammar.Keeping
import JavaFront.Proofs.Tree.Ranks

/-!
# Operators in the grammar

Binary expressions and type tests are built by the rules for chains alone, which
`unchained` checks of all others. The rules for what stands between the operators
build exactly one node, which is none of the looser expressions: `operands` follows
that node through a phrase.
-/

namespace JavaFront

namespace Rule

/-- Rules that build one operand or one type. -/
def isOperand : Rule → Bool
  | .unary | .suffixed | .primary | .type | .genericRefHead => true
  | _ => false

end Rule

namespace Phrase

/-- The phrase builds no binary expression and no type test by itself. -/
def unchained : Phrase → Bool
  | .leaf kind _ | .pick kind _ | .rekind kind => !kind.isChain
  | .node kind body | .wrap kind body | .reopen kind body | .cover kind body =>
    !kind.isChain && body.unchained
  | .seq first second | .orElse first second => first.unchained && second.unchained
  | .branch _ yes no | .trial _ yes no => yes.unchained && no.unchained
  | .loop _ body | .documented body => body.unchained
  | _ => true

/-- If there is no part in front of the phrase or just an operand, as `before`
says, then it is as `after` says behind it. -/
def operands (before after : Bool) : Phrase → Bool
  | .leaf kind _ | .pick kind _ => !before && after && kind.isOperand
  | .node kind body => !before && after && (kind :: body.rekinds).all Node.Kind.isOperand
  | .wrap kind body => before && after && (kind :: body.rekinds).all Node.Kind.isOperand
  | .call rule => !before && after && rule.isOperand
  | .seq first second =>
    first.operands before true && second.operands true after ||
      first.operands before false && second.operands false after
  | .branch _ yes no | .trial _ yes no => yes.operands before after && no.operands before after
  | .orElse first _ => first.operands before after
  | .loop _ body => before == after && body.operands before before
  | .done | .token _ => before == after
  | .stop | .expected _ | .salvage => true
  | _ => false

end Phrase

namespace Rule

theorem body_unchained {rule : Rule} (noChain : ∀ level, rule ≠ .binary level) :
    rule.body.unchained = true := by
  cases rule with
  | binary level => exact absurd rfl (noChain level)
  | _ => decide

theorem body_operands {rule : Rule} (isOperand : rule.isOperand = true) :
    rule.body.operands false true = true := by
  revert isOperand
  cases rule with
  | binary level => exact fun isOperand => absurd isOperand Bool.false_ne_true
  | _ => decide

end Rule

end JavaFront
