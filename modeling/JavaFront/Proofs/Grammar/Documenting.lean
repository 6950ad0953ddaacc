import JavaFront.Proofs.Grammar.Forward

/-!
# Where the grammar documents declarations

A declaration is documented by the phrase that has read it, with the comment in
front of the token at which that phrase started. Three checks on the phrases
make sure that this is the token at which the declaration starts, and that no
other node starts there that is documented. `opens` says that a phrase leaves a
declaration behind that lacks its comment, `dates` that this happens inside of
`documented` only, and `defers` that no declaration starts with the first token
of a phrase.
-/

namespace JavaFront

/-- Declarations that carry a documentation comment. -/
def Node.Kind.isDeclared : Node.Kind → Bool
  | .packageDecl | .classDecl | .interfaceDecl | .enumDecl | .annotationDecl | .methodDecl
  | .fieldDecl | .initializer | .enumConstant => true
  | _ => false

/-- Rules whose declarations all start behind their first token. -/
def Rule.defers : Rule → Bool
  | .blockStatement | .member | .initializer | .typeDecl | .packageDecl | .enumConstant
  | .compilationUnit | .localClassDecl => false
  | _ => true

namespace Phrase

/-- Declarations that the phrase reads all start behind the first token it
reads. -/
def defers : Phrase → Bool
  | .seq first second => first.defers && (first.forward false false || second.defers)
  | .node _ body | .wrap _ body | .reopen _ body | .cover _ body | .loop _ body => body.defers
  | .branch _ yes no | .trial _ yes no | .orElse yes no => yes.defers && no.defers
  | .call rule | .recover rule => rule.defers
  | .documented _ => false
  | _ => true

/-- The kinds of the node that a phrase fills are all, or none of them, those of
declarations. -/
def declares (declared : Bool) (kind : Node.Kind) (body : Phrase) : Bool :=
  (kind :: body.rekinds).all (·.isDeclared == declared)

mutual

/-- A declaration is left without its comment only as `opens` says, and there it
is documented at once. -/
def dates : Phrase → Bool
  | .leaf kind _ | .pick kind _ => !kind.isDeclared
  | .node kind body | .wrap kind body | .reopen kind body | .cover kind body =>
    declares false kind body && body.dates
  | .seq first second | .branch _ first second | .trial _ first second
  | .orElse first second => first.dates && second.dates
  | .loop _ body => body.dates
  | .call rule | .recover rule => rule != .initializer
  | .documented body => body.opens false
  | _ => true

/-- Whenever the phrase succeeds, it leaves a declaration without its comment,
which starts where the phrase does or, where `head` says so, with the part read
last. -/
def opens (head : Bool) : Phrase → Bool
  | .node kind body => !head && declares true kind body && body.dates && body.defers &&
      body.forward false false && body.forward true false
  | .wrap kind body => head && declares true kind body && body.dates && body.defers &&
      body.forward false false && body.forward true false
  | .seq (.call .modifiers) second => !head && second.opens true
  | .branch _ yes no => yes.opens head && no.opens head
  | .call rule => !head && rule == .initializer
  | .stop | .expected _ => true
  | _ => false

end

theorem opens_seq {head : Bool} {first second : Phrase}
    (opens : (Phrase.seq first second).opens head = true) : first = .call .modifiers := by
  unfold Phrase.opens at opens
  split at opens <;> simp_all

theorem opens_call {head : Bool} {rule : Rule} (opens : (Phrase.call rule).opens head = true) :
    rule = .initializer := by
  simp only [Phrase.opens, Bool.and_eq_true, beq_iff_eq] at opens
  exact opens.2

end Phrase

namespace Rule

theorem body_defers {rule : Rule} (defers : rule.defers) : rule.body.defers := by
  revert defers
  cases rule with
  | binary level => cases level <;> decide
  | _ => decide

/-- All rules but one document what they declare. -/
theorem body_dates {rule : Rule} (other : rule ≠ .initializer) : rule.body.dates := by
  revert other
  cases rule with
  | binary level => cases level <;> decide
  | _ => decide

/-- What an initializer leaves is documented by the rule for members. -/
theorem initializer_opens : Rule.initializer.body.opens false := by
  decide

end Rule

end JavaFront
