import JavaFront.Proofs.Grammar.Progress

/-!
# What the grammar keeps

Names and literals are kept: a phrase that reads one puts it into a leaf. The
check is made on the phrases. A token that is read without a leaf is neither a
name nor a literal, a node is never taken for an error, and a node whose
children are taken over has no token of its own to lose.

Such nodes are the heads of local variables. `yields` says that the part that
was read last is one, and `keeps` follows that through a phrase. `adds` counts
the parts that a phrase builds, and `ends` says that it leaves no token unread.
-/

namespace JavaFront

theorem Token.Kind.mem_all (kind : Kind) : kind ∈ Kind.all := by
  cases kind <;> decide

/-- Names and literals, the words among them included. -/
def Token.Kind.isNamed (kind : Kind) : Bool :=
  kind = .ident || kind.isLiteral

namespace Rule

/-- Rules that build exactly one node. -/
def isSingle : Rule → Bool
  | .wildcardHead | .packageHead | .enhancedForHead => false
  | _ => true

end Rule

/-- The look fails at the end of the text and nowhere else, unless the parse has
been abandoned. -/
def Look.untilEnd : Look → Bool
  | .and (.not (.here accept)) (.not .abandoned) =>
    Token.Kind.all.all fun kind => accept kind == (kind == .eof)
  | _ => false

namespace Phrase

/-- The phrase builds exactly so many parts whenever it succeeds. -/
def adds (count : Nat) : Phrase → Bool
  | .done | .token _ | .mark _ | .rekind _ | .wrap _ _ | .reopen _ _ => count = 0
  | .leaf _ _ | .pick _ _ | .operator | .node _ _ | .cover _ _ => count = 1
  | .seq first second =>
    (List.range (count + 1)).any fun early => first.adds early && second.adds (count - early)
  | .branch _ yes no | .trial _ yes no => yes.adds count && no.adds count
  | .call rule | .recover rule => count = 1 && rule.isSingle
  | .orElse first _ => first.adds count
  | .loop _ body => count = 0 && body.adds 0
  | .documented body => body.adds count
  | .stop | .expected _ | .salvage => true
  | .closing _ => false

/-- A call adds the parts that the rule builds. -/
theorem eq_length_of_adds {rule : Rule} {parts : List Node}
    (single : rule.isSingle = true → parts.length = 1) (count : Nat)
    (added : (Phrase.call rule).adds count = true) : count = parts.length := by
  simp only [adds, Bool.and_eq_true, decide_eq_true_eq] at added
  rw [added.1, single added.2]

/-- Whenever the phrase succeeds, it has read all tokens. -/
def ends : Phrase → Bool
  | .seq _ second => second.ends
  | .cover _ body => body.ends
  | .loop look body => look.untilEnd && body.consumes
  | _ => false

/-- The kinds that the phrase may give to the node under construction. -/
def rekinds : Phrase → List Node.Kind
  | .rekind kind => [kind]
  | .seq first second | .orElse first second => first.rekinds ++ second.rekinds
  | .branch _ yes no | .trial _ yes no => yes.rekinds ++ no.rekinds
  | .loop _ body | .documented body => body.rekinds
  | _ => []

/-- Behind the phrase the part read last is the head of a local variable. -/
def yields : Phrase → Bool
  | .call rule => rule = .localVarHead
  | .node kind body => kind = .localVarDecl && body.rekinds.isEmpty
  | _ => false

/-- No name and no literal that the phrase reads gets lost. The part read last
is known to be the head of a local variable where `head` says so. -/
def keeps (head : Bool) : Phrase → Bool
  | .token kind | .closing kind => !kind.isNamed
  | .mark accept => Token.Kind.all.all fun kind => !(accept kind && kind.isNamed)
  | .leaf part _ | .pick part _ => part != .error && part != .localVarDecl
  | .node kind body | .wrap kind body | .cover kind body =>
    !(kind :: body.rekinds).contains .error && body.keeps false
  | .reopen kind body => head && !(kind :: body.rekinds).contains .error && body.keeps false
  | .seq first second => first.keeps head && second.keeps first.yields
  | .branch _ yes no | .trial _ yes no => yes.keeps head && no.keeps head
  | .call rule | .recover rule => rule != .enhancedForHead
  | .orElse first _ => first.keeps head
  | .loop _ body => body.keeps false
  | .documented body => body.keeps head
  | .done | .stop | .expected _ | .operator | .rekind _ | .salvage => true

theorem unnamed_of_mark {head : Bool} {accept : Token.Kind → Bool} {kind : Token.Kind}
    (keeps : (Phrase.mark accept).keeps head = true) (accepted : accept kind = true) :
    kind.isNamed = false := by
  simp only [Phrase.keeps, List.all_eq_true] at keeps
  simpa [accepted] using keeps kind kind.mem_all

end Phrase

namespace Rule

/-- All rules keep what they read, but for the one that is only tried. -/
theorem body_keeps {rule : Rule} (kept : rule ≠ .enhancedForHead) : rule.body.keeps false := by
  revert kept
  cases rule with
  | binary level => cases level <;> decide
  | _ => decide

theorem body_adds {rule : Rule} (single : rule.isSingle) : rule.body.adds 1 := by
  revert single
  cases rule with
  | binary level => cases level <;> decide
  | _ => decide

theorem compilationUnit_ends : Rule.compilationUnit.body.ends := by
  decide

theorem localVarHead_yields : Rule.localVarHead.body.yields := by
  decide

end Rule

end JavaFront
