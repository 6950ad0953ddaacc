import JavaFront.Proofs.Grammar.Ending
import JavaFront.Proofs.Grammar.Plain

/-!
# Where the grammar leaves error marks

A body that the end of the text cuts off ends with an empty error node. Only
`closing` leaves one, and it is always the last phrase of a node for a body in
braces. Recovery leaves none: it is tried only where a token is ahead, and what
it skips is never empty there. `embeds` checks that, and with `dangles` that the
part read last is a token or does not matter.
-/

namespace JavaFront

/-- Nodes with a body in braces that the end of the text may cut off. -/
def Node.Kind.isBody : Node.Kind → Bool
  | .block | .classBody | .switchStmt => true
  | _ => false

/-- Where the look says so, there is a token ahead, and not the end. -/
def Look.shows (answer : Bool) : Look → Bool
  | .here accept => accept .eof != answer
  | .not look => look.shows !answer
  | .and first second =>
    if answer then first.shows true || second.shows true
    else first.shows false && second.shows false
  | .or first second =>
    if answer then first.shows true && second.shows true
    else first.shows false || second.shows false
  | _ => false

namespace Phrase

/-- The phrase may leave an error mark in the node under construction. -/
def marks : Phrase → Bool
  | .closing _ => true
  | .seq _ second => second.marks
  | .branch _ yes no | .trial _ yes no => yes.marks || no.marks
  | .orElse first _ => first.marks
  | .loop _ body | .documented body => body.marks
  | _ => false

/-- A node ends with what may be missing in it only if it is a body. -/
def fills (body : Phrase) (kind : Node.Kind) : Bool :=
  !body.lax.dangles && (!body.marks || kind.isBody && body.rekinds.isEmpty)

/-- Error marks come last and in bodies only, no part that may be empty ends a
node, no node covers more than what was read for it, and recovery has a token
ahead. There is one ahead of the phrase where `ahead` says so. -/
def embeds (ahead : Bool) : Phrase → Bool
  | .node kind body | .wrap kind body | .reopen kind body => body.fills kind && body.embeds ahead
  | .documented body => body.embeds ahead
  | .cover _ _ => false
  | .seq first second => !first.marks && first.embeds ahead && second.embeds false
  | .branch look yes no =>
    yes.embeds (ahead || look.shows true) && no.embeds (ahead || look.shows false)
  | .trial _ yes no => yes.embeds ahead && no.embeds ahead
  | .call rule => rule != .compilationUnit && (rule.dangles || rule.consumes)
  | .recover rule => ahead && rule != .compilationUnit && (rule.dangles || rule.consumes)
  | .orElse first _ => first.embeds ahead
  | .loop look body => !body.marks && body.embeds (look.shows true)
  | _ => true

end Phrase

namespace Rule

/-- Only a unit covers the whole text. -/
theorem body_embeds {rule : Rule} (inner : rule ≠ .compilationUnit) :
    rule.body.embeds false := by
  revert inner
  cases rule with
  | binary level => cases level <;> decide
  | _ => decide

/-- A unit covers the whole text and keeps to the rest. -/
theorem compilationUnit_embeds : ∃ body, Rule.compilationUnit.body = .cover .compilationUnit body ∧
    body.embeds false ∧ body.keeps false ∧ body.marks = false :=
  ⟨_, rfl, by decide, by decide, rfl⟩

theorem body_marks (rule : Rule) : rule.body.marks = false := by
  cases rule with
  | binary level => cases level <;> decide
  | _ => decide

theorem body_lax_dangles {rule : Rule} (firm : rule.dangles = false) :
    rule.body.lax.dangles = false := by
  revert firm
  cases rule with
  | binary level => cases level <;> decide
  | _ => decide

end Rule

end JavaFront
