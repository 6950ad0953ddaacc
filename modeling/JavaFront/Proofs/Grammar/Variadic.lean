import JavaFront.Proofs.Grammar.Naming
import JavaFront.Proofs.Tree.Variadic

/-!
# Variadic parameters in the grammar

Only the rule for a parameter leaves one that may take any number of arguments.
`spreads` follows through a phrase where among the parts of the node under
construction such a parameter may stand. A loop that stops behind a variadic
parameter reads its body behind other parts only. There is no such loop for the
parameters of a lambda, and nothing is asked of the order in which they stand.

The variable of a loop over elements is a parameter as well. It takes over the
children of the head of a local variable, and no mark is among those.
-/

namespace JavaFront

open Node (Kind)

/-- The look fails behind a variadic parameter. -/
def Look.bars : Look → Bool
  | .not .latestVariadic => true
  | .and first second => first.bars || second.bars
  | _ => false

namespace Spread

/-- Where variadic parameters may stand among the children of a node that is of
one of these kinds in the end. -/
def inside (kinds : List Kind) : Spread :=
  if kinds.all (· = .lambdaParameters) then .anywhere else .last

/-- Where variadic parameters may stand if the look holds. -/
def behind (before : Spread) (look : Look) : Spread :=
  if before = .last && look.bars then .nowhere else before

end Spread

/-- Where variadic parameters may stand among the parts of the rule. -/
def Rule.spread (rule : Rule) : Spread :=
  if rule = .parameter then .last else .nowhere

namespace Phrase

/-- The phrase leaves the head of a local variable as the part read last. -/
def isLocalHead : Phrase → Bool
  | .call rule => rule = .localVarHead
  | _ => false

/-- Where variadic parameters may stand if the only part is a node that the phrase
fills: the node is one, or it is none. -/
def spread (kind : Kind) (body : Phrase) : Spread :=
  if (kind :: body.rekinds).contains .parameter && !body.pushes Kind.isUnmarked then .last
  else .nowhere

/-- If variadic parameters stand in front of the phrase as `before` says, then
they do as `after` says behind it. The part read last is known to be the head of
a local variable where `head` says so. -/
def spreads (head : Bool) (before after : Spread) : Phrase → Bool
  | .done | .token _ | .mark _ | .rekind _ => before.within after
  | .leaf _ _ | .pick _ _ | .operator | .closing _ => before.joins .nowhere after
  | .node kind body | .cover kind body =>
    body.spreads false .nowhere (.inside (kind :: body.rekinds)) &&
      before.joins (body.spread kind) after
  | .wrap kind body =>
    before = .nowhere && body.spreads false .nowhere (.inside (kind :: body.rekinds)) &&
      !(kind :: body.rekinds).contains .parameter
  | .reopen kind body =>
    head && before = .nowhere && body.spreads false .nowhere (.inside (kind :: body.rekinds)) &&
      before.joins (body.spread kind) after
  | .seq first second =>
    Spread.all.any fun middle =>
      first.spreads head before middle && second.spreads first.isLocalHead middle after
  | .branch _ yes no | .trial _ yes no =>
    yes.spreads head before after && no.spreads head before after
  | .call rule | .recover rule => before.joins rule.spread after
  | .orElse first _ => first.spreads head before after
  | .loop look body => before.within after && body.spreads false (before.behind look) before
  | .documented body => body.spreads head before after
  | .stop | .expected _ | .salvage => true

end Phrase

namespace Rule

theorem body_spreads (rule : Rule) : rule.body.spreads false .nowhere rule.spread = true := by
  cases rule with
  | binary level => cases level <;> decide
  | _ => decide

/-- The head of a local variable holds neither parameters nor marks. -/
theorem localVarHead_body : ∃ body, Rule.localVarHead.body = .node .localVarDecl body ∧
    body.pushes Kind.isUnmarked = true :=
  ⟨_, rfl, by decide⟩

end Rule

end JavaFront
