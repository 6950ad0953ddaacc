import JavaFront.Proofs.Grammar.Marking

/-!
# Progress in the face of errors

Where errors are recovered from, and once a parse has been abandoned, phrases
succeed that have not read what they should. A body may be closed by the end of
the text, a node may end with what it has, and recovery skips nothing at the
end. `forward` says that a phrase moves on all the same: whenever it succeeds,
and whenever it ends the node under construction. There may be a token ahead of
the phrase, which `ahead` says.

The bodies of the rules pass the checks of progress in this form, too: `descends`
says that the rules called before the first token have a lower rank, and `turns`
that no loop goes round without moving on, unless the parse has been abandoned
and the loop looks for that.
-/

namespace JavaFront

/-- The look fails once the parse has been abandoned. -/
def Look.minds : Look → Bool
  | .not .abandoned => true
  | .and first second => first.minds || second.minds
  | _ => false

namespace Phrase

/-- The phrase moves the cursor on whenever it succeeds or, where `ended` says
so, whenever it ends the node under construction. -/
def forward (ended ahead : Bool) : Phrase → Bool
  | .stop | .expected _ => true
  | .salvage => !ended
  | .done | .operator | .rekind _ | .closing _ => ended
  | .token kind | .leaf _ kind => ended || kind != .eof
  | .pick _ accept | .mark accept => ended || !accept .eof
  | .seq first second =>
    (!ended || first.forward true ahead) &&
      (first.forward false ahead || second.forward ended false)
  | .node _ body | .wrap _ body | .reopen _ body | .cover _ body =>
    ended || (body.forward false ahead && body.forward true ahead)
  | .documented body => body.forward ended ahead
  | .branch look yes no =>
    yes.forward ended (ahead || look.shows true) && no.forward ended (ahead || look.shows false)
  | .trial _ yes no => yes.forward ended ahead && no.forward ended ahead
  | .call rule => ended || rule.consumes
  | .recover rule => ended || (ahead && rule.consumes)
  | .orElse first second => first.forward ended ahead && second.forward ended false
  | .loop look body => ended && body.forward true (look.shows true)

/-- Outside of trials the phrase moves the cursor on whenever it succeeds, or
the parse has been abandoned. -/
def attempts (ahead : Bool) : Phrase → Bool
  | .orElse (.recover rule) .done => ahead && rule.consumes
  | .branch look yes no =>
    yes.attempts (ahead || look.shows true) && no.attempts (ahead || look.shows false)
  | phrase => phrase.forward false ahead

/-- The rules that the phrase may call before the cursor has moved have a rank
below the limit. -/
def descends (limit : Nat) : Phrase → Bool
  | .seq first second =>
    first.descends limit && (first.forward false false || second.descends limit)
  | .node _ body | .wrap _ body | .reopen _ body | .cover _ body | .documented body
  | .loop _ body => body.descends limit
  | .branch _ yes no | .orElse yes no => yes.descends limit && no.descends limit
  | .trial rule yes no => rule.rank < limit && yes.descends limit && no.descends limit
  | .call rule | .recover rule => rule.rank < limit
  | _ => true

/-- Every loop of the phrase moves the cursor on in every round or, outside of
trials, ends with the round in which the parse is abandoned. No phrase calls the
rule for a unit. -/
def turns (trying : Bool) : Phrase → Bool
  | .loop look body =>
    body.turns trying && (body.forward false (look.shows true) ||
      !trying && look.minds && body.attempts (look.shows true))
  | .seq first second | .branch _ first second | .orElse first second =>
    first.turns trying && second.turns trying
  | .node _ body | .wrap _ body | .reopen _ body | .cover _ body | .documented body =>
    body.turns trying
  | .trial rule yes no => rule != .compilationUnit && yes.turns trying && no.turns trying
  | .call rule | .recover rule => rule != .compilationUnit
  | _ => true

end Phrase

namespace Rule

/-- A rule that reads a token whenever it succeeds moves the cursor on whenever
a part comes of it. -/
theorem body_forward {rule : Rule} (consumes : rule.consumes) (ended : Bool) :
    rule.body.forward ended false := by
  revert consumes
  cases rule with
  | binary level => cases level <;> cases ended <;> decide
  | _ => cases ended <;> decide

theorem body_descends (rule : Rule) : rule.body.descends rule.rank := by
  cases rule with
  | binary level => cases level <;> decide
  | _ => decide

theorem body_turns {rule : Rule} (trying : Bool)
    (inner : trying = true → rule ≠ .compilationUnit) : rule.body.turns trying := by
  revert inner
  cases rule with
  | binary level => cases level <;> cases trying <;> decide
  | _ => cases trying <;> decide

end Rule

end JavaFront
