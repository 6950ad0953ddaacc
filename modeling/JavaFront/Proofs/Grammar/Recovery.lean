import JavaFront.Proofs.Grammar.Keeping

/-!
# The grammar in the face of errors

Two checks on the phrases say what happens to a text with errors. The grammar
has no use for a token that matches no lexical rule: no phrase passes one, but
for the phrases that skip input. Only the phrase for an operator takes whatever
stands at the cursor, so `passes` follows what the looks in front of it have
found there.

Whatever the text, a unit is read. Its phrases are `steady`: they call rules
with recovery only and go on where that is of no use any more.
-/

namespace JavaFront

/-- Where the look holds, the token at the cursor matches a lexical rule. -/
def Look.isRegular : Look → Bool
  | .here accept | .operator accept => !accept .error
  | _ => false

namespace Phrase

/-- The phrase passes no token that matches no lexical rule, unless it skips
input. The token at the cursor is known to match one where `known` says so. -/
def passes (known : Bool) : Phrase → Bool
  | .token kind | .leaf _ kind | .closing kind => kind != .error
  | .pick _ accept | .mark accept => !accept .error
  | .operator => known
  | .seq first second => first.passes known && second.passes false
  | .node _ body | .wrap _ body | .reopen _ body | .cover _ body | .documented body =>
    body.passes known
  | .branch look yes no => yes.passes (known || look.isRegular) && no.passes known
  | .trial _ yes no => yes.passes known && no.passes known
  | .orElse first _ => first.passes known
  | .loop look body => body.passes look.isRegular
  | .done | .stop | .expected _ | .rekind _ | .call _ | .recover _ | .salvage => true

/-- The phrase never gives up. -/
def steady : Phrase → Bool
  | .done | .operator | .rekind _ => true
  | .seq first second => first.steady && second.steady
  | .node _ body | .cover _ body | .loop _ body | .documented body => body.steady
  | .branch (.here accept) (.token kind) no =>
    (Token.Kind.all.all fun other => !accept other || other == kind) && no.steady
  | .branch _ yes no | .trial _ yes no => yes.steady && no.steady
  | .orElse first second => first.steady || second.steady
  | _ => false

/-- A steady branch is steady on both sides, or it reads a token that it has
looked at. -/
theorem steady_branch {look : Look} {yes no : Phrase} (steady : (branch look yes no).steady) :
    no.steady ∧ (yes.steady ∨ ∃ accept kind, look = .here accept ∧ yes = .token kind ∧
      ∀ other, accept other = true → other = kind) := by
  unfold Phrase.steady at steady
  split at steady
  case h_9 accept kind _ same =>
    cases same
    simp only [Bool.and_eq_true, List.all_eq_true] at steady
    refine ⟨steady.2, .inr ⟨accept, kind, rfl, rfl, ?_⟩⟩
    intro other accepted
    simpa [accepted] using steady.1 other other.mem_all
  all_goals simp_all

/-- Where the phrase goes on after another gave up, that is a call, so the node
under construction is what it was. -/
def restores : Phrase → Bool
  | .seq first second => first.restores && second.restores
  | .branch _ yes no | .trial _ yes no => yes.restores && no.restores
  | .node _ body | .wrap _ body | .reopen _ body | .cover _ body | .loop _ body
  | .documented body => body.restores
  | .orElse (.call _) second | .orElse (.recover _) second => second.restores
  | .orElse _ _ => false
  | _ => true

theorem restores_orElse {first second : Phrase}
    (restores : (Phrase.orElse first second).restores) :
    (∃ rule, first = .call rule ∨ first = .recover rule) ∧ second.restores := by
  unfold Phrase.restores at restores
  split at restores <;> simp_all

end Phrase

namespace Rule

theorem body_restores (rule : Rule) : rule.body.restores := by
  cases rule with
  | binary level => cases level <;> decide
  | _ => decide

theorem body_passes (rule : Rule) : rule.body.passes false := by
  cases rule with
  | binary level => cases level <;> decide
  | _ => decide

theorem compilationUnit_steady : Rule.compilationUnit.body.steady := by
  decide

end Rule

end JavaFront
