import JavaFront.Grammar
import JavaFront.Proofs.Grammar.Keeping
import JavaFront.Proofs.Tree.Names
import JavaFront.Proofs.Token.Words

/-!
# Names in the grammar

Declarations are called by the words that are read for them. `names` checks that
identifiers and modifiers are read from words and that a node is not built
without the names it needs. For that, `supplies` says that a phrase leaves a
part of a kind in any case, even where the parse is abandoned; `takes` that it
may take parts away, and `salvages` that it may leave out what follows it.

`pushes` says which kinds of parts a phrase leaves, and with it what may stand
directly in a unit.
-/

namespace JavaFront

open Node (Kind)

theorem Node.Kind.mem_all (kind : Kind) : kind ∈ Kind.all := by
  cases kind <;> decide

/-- Neither a parameter nor the mark of one that takes any number of arguments. -/
def Node.Kind.isUnmarked (kind : Kind) : Bool :=
  kind != .parameter && kind != .operator

namespace Rule

/-- A part that is among those of the rule in any case. -/
def supplies (rule : Rule) (kind : Kind) : Bool :=
  rule = .qualifiedName && kind = .qualifiedName

/-- The rule builds one part at most. -/
def isFew (rule : Rule) : Bool :=
  rule = .packageDecl || rule = .importDecl

/-- The kinds of parts that the rule leaves, as far as it matters for units and for
parameters. -/
def makes : Rule → Kind → Bool
  | .packageDecl => (· = .packageDecl)
  | .importDecl => (· = .importDecl)
  | .modifiers => (· = .modifiers)
  | .typeDecl => fun kind => kind.isTypeDecl || kind = .modifiers
  | .parameter => (· = .parameter)
  | _ => Kind.isUnmarked

end Rule

namespace Phrase

/-- The phrase may end the node under construction. -/
def salvages : Phrase → Bool
  | .salvage => true
  | .seq first second | .orElse first second => first.salvages || second.salvages
  | .branch _ yes no | .trial _ yes no => yes.salvages || no.salvages
  | .loop _ body | .documented body => body.salvages
  | _ => false

/-- The phrase may take parts away from the node under construction. -/
def takes : Phrase → Bool
  | .wrap _ _ | .reopen _ _ => true
  | .seq first second | .orElse first second => first.takes || second.takes
  | .branch _ yes no | .trial _ yes no => yes.takes || no.takes
  | .loop _ body | .documented body => body.takes
  | _ => false

/-- The phrase leaves a part of this kind in any case. -/
def supplies (kind : Kind) : Phrase → Bool
  | .leaf part _ | .pick part _ => part = kind
  | .node part body => part = kind && body.rekinds.isEmpty
  | .seq first second =>
    first.supplies kind && !second.takes || second.supplies kind && !first.salvages
  | .branch _ yes no | .trial _ yes no => yes.supplies kind && no.supplies kind
  | .documented body => body.supplies kind
  | .call rule => rule.supplies kind
  | _ => false

/-- Identifiers and modifiers are read from words, and nodes have the names that
they need. -/
def names : Phrase → Bool
  | .leaf part kind => part.needs.isEmpty && (!part.isSpelled || kind.isWord)
  | .pick part accept =>
    part.needs.isEmpty &&
      (!part.isSpelled || Token.Kind.all.all fun kind => !accept kind || kind.isWord)
  | .node kind body | .wrap kind body | .reopen kind body | .cover kind body =>
    ((kind :: body.rekinds).all fun kind => !kind.isSpelled && kind.needs.all (body.supplies ·)) &&
      body.names
  | .seq first second | .orElse first second => first.names && second.names
  | .branch _ yes no | .trial _ yes no => yes.names && no.names
  | .loop _ body | .documented body => body.names
  | _ => true

/-- The parts that the phrase leaves are of these kinds. -/
def pushes (allowed : Kind → Bool) : Phrase → Bool
  | .leaf kind _ | .pick kind _ => allowed kind
  | .operator => allowed .operator
  | .node kind body | .wrap kind body | .reopen kind body | .cover kind body =>
    (kind :: body.rekinds).all allowed
  | .call rule => Kind.all.all fun kind => !rule.makes kind || allowed kind
  | .recover rule => allowed .error && Kind.all.all fun kind => !rule.makes kind || allowed kind
  | .closing _ | .salvage => allowed .error
  | .seq first second | .orElse first second => first.pushes allowed && second.pushes allowed
  | .branch _ yes no | .trial _ yes no => yes.pushes allowed && no.pushes allowed
  | .loop _ body | .documented body => body.pushes allowed
  | .done | .stop | .expected _ | .token _ | .mark _ | .rekind _ => true

/-- The phrase adds one part at most. -/
def isFew : Phrase → Bool
  | .done | .leaf _ _ | .pick _ _ | .operator | .node _ _ | .cover _ _ => true
  | .branch _ first second | .trial _ first second | .orElse first second =>
    first.isFew && second.isFew
  | .documented body => body.isFew
  | .call rule | .recover rule => rule.isFew
  | _ => false

theorem pushes_any (phrase : Phrase) : phrase.pushes (fun _ => true) = true := by
  induction phrase <;> simp_all [pushes]

end Phrase

namespace Rule

theorem body_names (rule : Rule) : rule.body.names = true := by
  cases rule with
  | binary level => cases level <;> decide
  | _ => decide

theorem body_supplies {rule : Rule} {kind : Kind} (supplied : rule.supplies kind = true) :
    rule.body.supplies kind = true := by
  simp only [supplies, Bool.and_eq_true, decide_eq_true_eq] at supplied
  obtain ⟨rfl, rfl⟩ := supplied
  decide

theorem body_isFew {rule : Rule} (few : rule.isFew = true) : rule.body.isFew = true := by
  simp only [isFew, Bool.or_eq_true, decide_eq_true_eq] at few
  rcases few with rfl | rfl <;> decide

theorem body_pushes (rule : Rule) : rule.body.pushes rule.makes = true := by
  cases rule with
  | binary level => cases level <;> decide
  | _ => decide

/-- A unit reads its package first, and then what may follow it. -/
theorem compilationUnit_body : ∃ first others,
    Rule.compilationUnit.body = .cover .compilationUnit (.seq first others) ∧
      first.isFew = true ∧ first.salvages = false ∧
      first.pushes (fun kind => kind = .packageDecl || kind = .error) = true ∧
      others.takes = false ∧ others.pushes Kind.followsPackage = true ∧
      (Phrase.seq first others).rekinds = [] :=
  ⟨_, _, rfl, by decide, by decide, by decide, by decide, by decide, rfl⟩

end Rule

end JavaFront
