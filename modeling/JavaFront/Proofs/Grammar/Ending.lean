import JavaFront.Proofs.Grammar.Keeping

/-!
# How the nodes of the grammar end

A node ends with the last token that was read for it. Two checks on the phrases
make sure that this is also where its last child ends or before that, and that
this token is no dot. `dangles` says that the part read last may be empty and
stand in front of the next token, and `dotted` that the token read last may be a
dot. Neither happens at the end of a node.
-/

namespace JavaFront

/-- Rules whose last part may be empty. -/
def Rule.dangles : Rule → Bool
  | .modifiers | .variableModifiers | .localClassHead | .compilationUnit => true
  | _ => false

namespace Phrase

/-- Behind the phrase the part it has read last may be empty. -/
def dangles : Phrase → Bool
  | .leaf _ kind => kind = .eof
  | .pick _ accept => accept .eof
  | .operator | .cover _ _ => true
  | .node _ body => !body.consumes
  | .seq first second => second.dangles || first.dangles && !second.consumes
  | .branch _ yes no | .trial _ yes no => yes.dangles || no.dangles
  | .call rule | .recover rule => rule.dangles
  | .orElse first _ => first.dangles
  | .loop _ body | .documented body => body.dangles
  | .done | .stop | .expected _ | .token _ | .mark _ | .wrap _ _ | .reopen _ _ | .rekind _
  | .closing _ | .salvage => false

/-- Behind the phrase the token it has read last may be a dot. -/
def dotted : Phrase → Bool
  | .token kind | .leaf _ kind | .closing kind => kind = .dot
  | .pick _ accept | .mark accept => accept .dot
  | .operator => true
  | .node _ body | .wrap _ body | .reopen _ body | .cover _ body | .loop _ body
  | .documented body => body.dotted
  | .seq first second => second.dotted || first.dotted && !second.consumes
  | .branch _ yes no | .trial _ yes no => yes.dotted || no.dotted
  | .orElse first _ => first.dotted
  | .done | .stop | .expected _ | .rekind _ | .call _ | .recover _ | .salvage => false

/-- No node of the phrase ends with an empty part or with a dot, and none covers
more than what was read for it. The token in front of the phrase may be a dot
where `dot` says so. -/
def closes (dot : Bool) : Phrase → Bool
  | .node _ body => !body.dangles && !body.dotted && body.closes false
  | .wrap _ body | .reopen _ body =>
    (!dot || body.consumes) && !body.dangles && !body.dotted && body.closes dot
  | .cover _ _ => false
  | .seq first second =>
    first.closes dot && second.closes (first.dotted || dot && !first.consumes)
  | .branch _ yes no | .trial _ yes no => yes.closes dot && no.closes dot
  | .call rule | .recover rule => rule != .compilationUnit
  | .orElse first _ => first.closes dot
  | .loop _ body => body.closes true
  | .documented body => body.closes dot
  | _ => true

end Phrase

namespace Rule

theorem body_dangles {rule : Rule} (firm : rule.dangles = false) : rule.body.dangles = false := by
  revert firm
  cases rule with
  | binary level => cases level <;> decide
  | _ => decide

theorem body_dotted (rule : Rule) : rule.body.dotted = false := by
  cases rule with
  | binary level => cases level <;> decide
  | _ => decide

/-- Only a unit covers the whole text. -/
theorem body_closes {rule : Rule} (inner : rule ≠ .compilationUnit) :
    rule.body.closes false := by
  revert inner
  cases rule with
  | binary level => cases level <;> decide
  | _ => decide

/-- A unit covers the whole text and leaves nothing else to be desired. -/
theorem body_compilationUnit : ∃ body, Rule.compilationUnit.body = .cover .compilationUnit body ∧
    body.closes false ∧ body.rekinds = [] :=
  ⟨_, rfl, by decide, rfl⟩

end Rule

end JavaFront
