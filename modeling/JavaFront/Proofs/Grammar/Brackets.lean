import JavaFront.Grammar
import JavaFront.Proofs.Grammar.Keeping
import JavaFront.Proofs.Tree.Paths

/-!
# Brackets and guards

Every guard that is entered costs a level of nesting. `bounded` adds up the
brackets that a phrase may open without entering a guard, and for the rules that
it calls the ones that these may open in front of their guards. The body of a
guarded rule opens at most two brackets more than that: an annotation with an
array of element values in it. Only such an array holds another one without a
guard in between.
-/

namespace JavaFront

namespace Rule

/-- The rule reads what may stand directly in an array of element values. -/
def isElement (rule : Rule) : Bool :=
  rule = .elementValue

/-- The brackets that a rule may open without a guard around them. -/
def excess : Rule → Nat
  | .suffixed | .primary | .arguments | .enumConstant | .parenExpr | .elementValueArray
  | .annotationElement => 1
  | _ => 0

/-- The brackets that the body of a rule may open before it enters a guard. -/
def allowance (rule : Rule) : Nat :=
  if rule.isGuarded then rule.excess + 2 else rule.excess

end Rule

namespace Phrase

/-- The phrase opens so many brackets at most before it enters a guard. The node
under construction is an array of element values where `inArray` says so, and
then the arrays directly in it do not count. -/
def bounded (inArray : Bool) (limit : Nat) : Phrase → Bool
  | .leaf kind _ | .pick kind _ => !kind.isBracketed
  | .node kind body =>
    kind.weight inArray ≤ limit && body.rekinds.all (!·.isBracketed) &&
      (body.rekinds.isEmpty || kind != .elementValueArray) &&
      body.bounded (kind = .elementValueArray) (limit - kind.weight inArray)
  | .wrap kind body | .reopen kind body | .cover kind body =>
    !inArray && !kind.isBracketed && body.rekinds.all (!·.isBracketed) && body.bounded false limit
  | .seq first second | .orElse first second =>
    first.bounded inArray limit && second.bounded inArray limit
  | .branch _ yes no | .trial _ yes no => yes.bounded inArray limit && no.bounded inArray limit
  | .call rule | .recover rule =>
    rule.excess + (if rule.isElement && !inArray then 1 else 0) ≤ limit
  | .loop _ body | .documented body => body.bounded inArray limit
  | .done | .stop | .expected _ | .token _ | .mark _ | .operator | .rekind _ | .closing _
  | .salvage => true

end Phrase

namespace Rule

theorem body_bounded (rule : Rule) : rule.body.bounded rule.isElement rule.allowance := by
  cases rule with
  | binary level => cases level <;> decide
  | _ => decide

end Rule

end JavaFront
