import JavaFront.Grammar

/-!
# Progress of the grammar

No rule reaches itself, directly or through others, before a token has been
read, and no loop goes round without reading one. Both are read off the
phrases: `consumes` says that a phrase reads at least one token whenever it
succeeds, and `leads` that the rules it may call before it has read one are of
a lower rank.

The bodies of all rules pass these checks, so a nesting of calls never gets
deeper than one round of ranks for every token.
-/

namespace JavaFront

namespace Rule

/-- Rules that read at least one token whenever they succeed. -/
def consumes : Rule → Bool
  | .modifiers | .variableModifiers | .wildcardHead | .localClassHead | .packageHead
  | .compilationUnit => false
  | _ => true

/-- The rank of a rule. A rule calls only rules of a lower rank before it has
read a token. -/
def rank : Rule → Nat
  | .qualifiedName | .annotationUse | .typeArguments | .typeParameters | .arguments | .parameters
  | .dims | .arrayInit | .castHead | .block | .classBody | .enumBody | .importDecl
  | .variableDeclarator | .lambdaHead | .classType | .annotationElement | .elementValueArray
  | .primitiveLiteral | .parenExpr | .condition | .ifStatement | .forStatement | .whileStatement
  | .doStatement | .switchStatement | .switchLabel | .returnStatement | .throwStatement
  | .tryStatement | .resources | .catchClause | .synchronizedStatement | .assertStatement
  | .labeledStatement => 0
  | .modifiers | .variableModifiers | .type | .wildcardHead | .wildcard | .packageHead
  | .packageDecl | .enumConstant | .initializer | .typeParameter | .lambda | .cast => 1
  | .resultType | .typeArgument | .genericRefHead | .parameter | .localVarHead | .localClassHead
  | .typeDecl | .localClassDecl => 2
  | .primary | .enhancedForHead | .member | .compilationUnit | .localVars | .localVarDecl => 3
  | .suffixed => 4
  | .unary => 5
  | .binary _ => 6
  | .conditional => 7
  | .expression | .elementValue => 8
  | .resource | .statement | .variableInitializer | .expressionStatement => 9
  | .blockStatement => 10
  | .switchGroup => 11

/-- The number of ranks. -/
def ranks : Nat := 12

theorem rank_lt_ranks (rule : Rule) : rule.rank < ranks := by
  cases rule <;> simp [rank, ranks]

end Rule

namespace Phrase

/-- The phrase reads at least one token whenever it succeeds. -/
def consumes : Phrase → Bool
  | .stop | .expected _ | .salvage => true
  | .token kind | .leaf _ kind | .closing kind => kind != .eof
  | .pick _ accept | .mark accept => !accept .eof
  | .seq first second => first.consumes || second.consumes
  | .node _ body | .wrap _ body | .reopen _ body | .cover _ body | .documented body =>
    body.consumes
  | .branch _ yes no | .trial _ yes no => yes.consumes && no.consumes
  | .call rule | .recover rule => rule.consumes
  | .orElse first _ => first.consumes
  | .done | .operator | .rekind _ | .loop _ _ => false

/-- The rules that the phrase may call before it has read a token have a rank
below the limit. -/
def leads (limit : Nat) : Phrase → Bool
  | .seq first second => first.leads limit && (first.consumes || second.leads limit)
  | .node _ body | .wrap _ body | .reopen _ body | .cover _ body | .documented body
  | .loop _ body => body.leads limit
  | .branch _ yes no | .orElse yes no => yes.leads limit && no.leads limit
  | .trial rule yes no => rule.rank < limit && yes.leads limit && no.leads limit
  | .call rule | .recover rule => rule.rank < limit
  | _ => true

/-- Every loop of the phrase reads a token in every round, no phrase but the
whole calls the rule for a unit, and where a phrase goes on after another gave
up, the parse has been abandoned or, inside of a trial, it gives up too. -/
def settled (trying : Bool) : Phrase → Bool
  | .seq first second => first.settled trying && second.settled trying
  | .node _ body | .wrap _ body | .reopen _ body | .cover _ body | .documented body =>
    body.settled trying
  | .loop _ body => body.consumes && body.settled trying
  | .branch _ yes no => yes.settled trying && no.settled trying
  | .trial rule yes no => rule != .compilationUnit && yes.settled trying && no.settled trying
  | .call rule | .recover rule => rule != .compilationUnit
  | .orElse first .salvage => first.settled trying
  | .orElse (.recover rule) .done => !trying && rule != .compilationUnit
  | .orElse _ _ => false
  | _ => true

/-- After a phrase that gave up, a settled phrase goes on in one of two ways. -/
theorem settled_orElse {trying : Bool} {first second : Phrase}
    (settled : (Phrase.orElse first second).settled trying) :
    (second = .salvage ∧ first.settled trying) ∨
      (second = .done ∧ trying = false ∧
        ∃ rule, first = .recover rule ∧ rule ≠ .compilationUnit) := by
  unfold Phrase.settled at settled
  split at settled <;> simp_all

end Phrase

namespace Rule

theorem body_consumes {rule : Rule} (consumes : rule.consumes) : rule.body.consumes := by
  revert consumes
  cases rule with
  | binary level => cases level <;> decide
  | _ => decide

theorem body_leads (rule : Rule) : rule.body.leads rule.rank := by
  cases rule with
  | binary level => cases level <;> decide
  | _ => decide

/-- All rules but the one for a unit may be tried. -/
theorem body_settled {rule : Rule} (trying : Bool)
    (inner : trying = true → rule ≠ .compilationUnit) : rule.body.settled trying := by
  revert inner
  cases rule with
  | binary level => cases level <;> cases trying <;> decide
  | _ => cases trying <;> decide

end Rule

end JavaFront
