import JavaFront.Proofs.Grammar.Keeping
import JavaFront.Proofs.Token.Significant

/-!
# Giving up with a word

A parse that stops has to tell what it would have accepted. A few phrases give up
without a word, and so they must stand where they cannot fail: behind a look that
has settled what the token is, in a frame that has a part, or behind a trial of
the very rule. A `Sight` is what is known in front of a phrase, and `explains`
follows it through the phrase.

The heads that are only tried are mute, and so is the head of a cast, which is
called behind a trial, and with it the cast. The rule for dimensions counts on a pair
of brackets.
-/

namespace JavaFront

/-- What is known in front of a phrase: the kinds that the token at the cursor,
the one after it and the operator at the cursor may have, whether there is a part
in the frame, and the rule that was just tried with success. -/
structure Sight where
  here : Token.Kind → Bool := fun _ => true
  next : Token.Kind → Bool := fun _ => true
  operator : Token.Kind → Bool := fun _ => true
  filled : Bool := false
  tried : Option Rule := none

namespace Sight

/-- No token is left that could stand there. -/
def isVoid (sight : Sight) : Bool :=
  Token.Kind.all.all (fun kind => !sight.here kind) ||
    Token.Kind.all.all (fun kind => !sight.next kind) ||
      Token.Kind.all.all fun kind => !sight.operator kind

/-- What is known where one of two things is known. -/
def either (sight other : Sight) : Sight :=
  { sight with
    here := fun kind => sight.here kind || other.here kind
    next := fun kind => sight.next kind || other.next kind
    operator := fun kind => sight.operator kind || other.operator kind }

/-- What is known behind a look. An operator that is not composed is the token at
the cursor. The parse has not been abandoned. -/
def narrow (sight : Sight) (answer : Bool) : Look → Sight
  | .here accept =>
    { sight with
      here := fun kind => sight.here kind && accept kind == answer
      operator := fun kind =>
        sight.operator kind && (Stream.isComposed kind || accept kind == answer) }
  | .next accept => { sight with next := fun kind => sight.next kind && accept kind == answer }
  | .operator accept =>
    { sight with operator := fun kind => sight.operator kind && accept kind == answer }
  | .abandoned => if answer then { sight with here := fun _ => false } else sight
  | .not look => sight.narrow (!answer) look
  | .and first second =>
    if answer then (sight.narrow true first).narrow true second
    else if (sight.narrow false first).isVoid then sight.narrow false second
    else sight
  | .or first second =>
    if answer then (sight.narrow true first).either (sight.narrow true second)
    else (sight.narrow false first).narrow false second
  | .genericName | .latest _ | .latestVariadic => sight

end Sight

namespace Rule

/-- Rules that may give up without a word. -/
def isMute : Rule → Bool
  | .castHead | .cast | .wildcardHead | .localClassHead | .enhancedForHead | .packageHead => true
  | _ => false

/-- What a rule counts on. -/
def sight : Rule → Sight
  | .dims => { here := (· = .lbracket), next := (· = .rbracket) }
  | _ => {}

/-- A rule counts on tokens alone. -/
theorem sight_plain (rule : Rule) : rule.sight.filled = false ∧ rule.sight.tried = none := by
  cases rule <;> exact ⟨rfl, rfl⟩

end Rule

/-- The rule is called where it may be. -/
def Sight.suits (sight : Sight) (rule : Rule) : Bool :=
  !rule.isMute && Token.Kind.all.all fun kind =>
    (rule.sight.here kind || !sight.here kind) && (rule.sight.next kind || !sight.next kind)

namespace Phrase

/-- Behind the phrase the frame has a part, if it has one in front of it where
`filled` says so. -/
def leaves (filled : Bool) : Phrase → Bool
  | .done | .token _ | .mark _ | .rekind _ | .closing _ | .salvage | .loop _ _ => filled
  | .stop | .expected _ | .leaf _ _ | .pick _ _ | .operator | .node _ _ | .wrap _ _
  | .reopen _ _ | .cover _ _ => true
  | .seq first second => second.leaves (first.leaves filled)
  | .branch _ yes no | .trial _ yes no => yes.leaves filled && no.leaves filled
  | .call rule | .recover rule => filled || rule.isSingle
  | .orElse first _ => first.leaves filled
  | .documented body => body.leaves filled

/-- No phrase empties a frame. -/
theorem leaves_true (phrase : Phrase) : phrase.leaves true = true := by
  induction phrase with
  | seq first second firstIh secondIh => rw [leaves, firstIh, secondIh]
  | branch look yes no yesIh noIh | trial rule yes no yesIh noIh => rw [leaves, yesIh, noIh]; rfl
  | orElse first second firstIh _ => rw [leaves, firstIh]
  | documented body ih => rw [leaves, ih]
  | _ => rfl

/-- What is known behind the phrase. -/
def behind (sight : Sight) : Phrase → Sight
  | .rekind _ => sight
  | phrase => { filled := phrase.leaves sight.filled }

/-- Outside of trials the phrase tells what it would have accepted wherever it
gives up. -/
def explains (sight : Sight) : Phrase → Bool
  | .done | .token _ | .leaf _ _ | .operator | .rekind _ | .closing _ => true
  | .stop | .salvage => sight.isVoid
  | .expected texts => !texts.isEmpty
  | .pick _ accept | .mark accept =>
    Token.Kind.all.all fun kind => accept kind || !sight.here kind
  | .seq first second => first.explains sight && second.explains (first.behind sight)
  | .node _ body | .cover _ body => body.explains { sight with filled := false }
  | .wrap _ body => sight.filled && body.explains sight
  | .reopen _ body => sight.filled && body.explains { sight with filled := false }
  | .branch look yes no =>
    yes.explains (sight.narrow true look) && no.explains (sight.narrow false look)
  | .trial rule yes no =>
    yes.explains { sight with tried := some rule } && no.explains { sight with tried := none }
  | .call rule => sight.tried == some rule || sight.suits rule
  | .recover rule => sight.suits rule
  | .orElse first .salvage => first.explains sight
  | .orElse (.recover rule) .done => sight.suits rule
  | .orElse _ _ => false
  | .loop look body => body.explains (Sight.narrow { filled := sight.filled } true look)
  | .documented body => body.explains sight

end Phrase

namespace Rule

theorem body_leaves {rule : Rule} (single : rule.isSingle = true) :
    rule.body.leaves false = true := by
  revert single
  cases rule with
  | binary level => cases level <;> decide
  | _ => decide

theorem body_explains {rule : Rule} (speaks : rule.isMute = false) :
    rule.body.explains rule.sight = true := by
  revert speaks
  cases rule with
  | binary level => cases level <;> decide +kernel
  | _ => decide +kernel

end Rule

end JavaFront
