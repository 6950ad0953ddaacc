import JavaFront.Proofs.Grammar.Progress

/-!
# Plain rules

Types, and the heads that a trial reads, are plain: outside of annotations
nothing in them recovers from an error, so they read the same inside of a trial
and outside of one.

Where errors are recovered from, less is certain to be read. The lax form of a
phrase may leave its recoveries and the ends of its bodies out; it passes the
checks of progress all the same.
-/

namespace JavaFront

namespace Phrase

/-- The phrase as it may go where errors are recovered from: what is read with
recovery, and what closes a body, may be missing. -/
def lax : Phrase → Phrase
  | .recover rule => .branch .abandoned (.call rule) .done
  | .closing kind => .branch .abandoned (.token kind) .done
  | .seq first second => .seq first.lax second.lax
  | .node kind body => .node kind body.lax
  | .wrap kind body => .wrap kind body.lax
  | .reopen kind body => .reopen kind body.lax
  | .cover kind body => .cover kind body.lax
  | .branch look yes no => .branch look yes.lax no.lax
  | .trial rule yes no => .trial rule yes.lax no.lax
  | .orElse first second => .orElse first.lax second.lax
  | .loop look body => .loop look body.lax
  | .documented body => .documented body.lax
  | phrase => phrase

end Phrase

namespace Rule

/-- Rules of types and of the heads that trials read. An annotation counts as
plain where it is used, although its own body is not. -/
def isPlain : Rule → Bool
  | .type | .typeArguments | .typeArgument | .wildcard | .wildcardHead | .dims | .qualifiedName
  | .variableModifiers | .annotationUse | .castHead | .lambdaHead | .genericRefHead
  | .localVarHead | .parameter => true
  | _ => false

end Rule

/-- The phrase recovers from nothing and calls plain rules only. -/
def Phrase.isPlain : Phrase → Bool
  | .seq first second | .branch _ first second => first.isPlain && second.isPlain
  | .node _ body | .wrap _ body | .reopen _ body | .cover _ body | .documented body
  | .loop _ body => body.isPlain
  | .trial rule yes no => rule.isPlain && yes.isPlain && no.isPlain
  | .call rule => rule.isPlain
  | .recover _ | .orElse _ _ | .closing _ | .salvage => false
  | _ => true

namespace Rule

theorem body_lax_consumes {rule : Rule} (consumes : rule.consumes) : rule.body.lax.consumes := by
  revert consumes
  cases rule with
  | binary level => cases level <;> decide
  | _ => decide

theorem body_lax_leads (rule : Rule) : rule.body.lax.leads rule.rank := by
  cases rule with
  | binary level => cases level <;> decide
  | _ => decide

theorem body_isPlain {rule : Rule} (plain : rule.isPlain) (other : rule ≠ .annotationUse) :
    rule.body.isPlain := by
  revert plain other
  cases rule with
  | binary level => cases level <;> decide
  | _ => decide

end Rule

end JavaFront
