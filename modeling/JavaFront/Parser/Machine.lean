import JavaFront.Grammar
import JavaFront.Parser.State

/-!
# Running phrases and rules

`Setup.run` runs a phrase on a state and a frame, given a way to call rules;
`Setup.call` calls a rule by running its body on a frame of its own, inside its
guard and behind the memo table. A budget bounds the nesting of calls. No rule
calls itself, directly or through others, before a token has been read, so a
budget of one round of all rules per token is never used up.

A phrase that gives up leaves the cursor where it gave up. A rule that fails
leaves the frame of its caller as it was.
-/

namespace JavaFront.Parser

/-- How a phrase ended: it succeeded, it gave up, or it succeeded and ends the
node under construction with it. -/
inductive Verdict where
  | ok | failed | ended
deriving DecidableEq, Repr

/-- What a phrase leaves behind. -/
structure Outcome where
  verdict : Verdict
  state : State
  frame : Frame

/-- What a rule leaves behind: the parts it built, latest first, unless it
failed, and the state. -/
structure Reply where
  parts? : Option (List Node)
  state : State

/-- A way to call rules. -/
abbrev Caller := Rule → State → Reply

/-! ## Looks -/

/-- A dotted name followed by `<` starts at an index. -/
def Setup.genericNameAt (setup : Setup) : (budget index : Nat) → Bool
  | 0, _ => false
  | budget + 1, index =>
    if setup.stream.kind index = .ident then
      match setup.stream.kind (index + 1) with
      | .less => true
      | .dot => setup.genericNameAt budget (index + 2)
      | _ => false
    else false

/-- A parameter that takes any number of arguments. -/
def isVariadic (part : Node) : Bool :=
  part.children.any fun child =>
    child.kind = .operator && child.token.any (·.kind = .ellipsis)

/-- The look holds in a state and a frame. -/
def Setup.holds (setup : Setup) (state : State) (frame : Frame) : Look → Bool
  | .here accept => accept (setup.stream.kind state.pos)
  | .next accept => accept (setup.stream.kind (state.pos + 1))
  | .operator accept => accept (setup.stream.operator state.pos).1
  | .genericName => setup.genericNameAt (setup.stream.size - state.pos) state.pos
  | .latest kind => frame.parts.head?.any (·.kind = kind)
  | .latestVariadic => frame.parts.head?.any isVariadic
  | .abandoned => state.fatal.isSome
  | .not look => !setup.holds state frame look
  | .and first second => setup.holds state frame first && setup.holds state frame second
  | .or first second => setup.holds state frame first || setup.holds state frame second

/-! ## Rules in their settings -/

/-- Runs a rule inside its guard. -/
def Setup.guarded (setup : Setup) (rule : State → Reply) (state : State) : Reply :=
  match setup.enter state with
  | (false, state) => ⟨none, state⟩
  | (true, state) =>
    let reply := rule state
    ⟨reply.parts?, reply.state.leave⟩

/-- Runs a rule on a failure record of its own and keeps its outcome, unless
the parse has been abandoned. -/
def remember (key : Memo.Key) (rule : State → Reply) (state : State) : Reply :=
  let reply := rule { state with furthest := .none }
  let after := { reply.state with furthest := state.furthest.merge reply.state.furthest }
  if after.fatal.isSome then ⟨reply.parts?, after⟩
  else
    let stop := if reply.parts?.isSome then after.pos else key.pos
    let outcome : Memo.Outcome := ⟨reply.parts?, stop, reply.state.furthest⟩
    ⟨reply.parts?, { after with memo := after.memo.put key outcome }⟩

/-- Runs a rule through the memo table. A kept success is taken over at any
time; a kept failure only during a trial, because outside of one the rule may
recover where a trial gives up. -/
def memoized (slot : Memo.Slot) (rule : State → Reply) (state : State) : Reply :=
  let key : Memo.Key := ⟨slot, state.pos⟩
  let (found, memo) := state.memo.get key
  let state := { state with memo }
  match found with
  | some ⟨some parts, stop, furthest⟩ =>
    ⟨some parts, { state with pos := stop, furthest := state.furthest.merge furthest }⟩
  | some ⟨none, _, furthest⟩ =>
    if 0 < state.speculating then
      ⟨none, { state with furthest := state.furthest.merge furthest }⟩
    else remember key rule state
  | none => remember key rule state

/-- Tries a rule without recovery, returns to where it started and forgets the
failures it met. -/
def trial (rule : State → Reply) (state : State) : Bool × State :=
  let reply := rule { state with speculating := state.speculating + 1 }
  (reply.parts?.isSome,
    { reply.state with
      speculating := reply.state.speculating - 1
      pos := state.pos
      furthest := state.furthest
      speculations := reply.state.speculations + 1 })

/-- Runs a rule at a point of resynchronisation. Outside of trials a failure is
reported and the input skipped; the error node stands for it. -/
def Setup.recovered (setup : Setup) (rule : State → Reply) (state : State) : Reply :=
  let reply := rule { state with furthest := .none }
  let after := reply.state
  match reply.parts? with
  | some parts => ⟨some parts, { after with furthest := state.furthest }⟩
  | none =>
    if 0 < after.speculating || after.fatal.isSome then
      ⟨none, { after with furthest := state.furthest.merge after.furthest }⟩
    else
      let diagnostic := setup.diagnose after after.furthest
      let reported := setup.report after after.furthest
      let (node, resumed) :=
        setup.skip { reported with furthest := state.furthest, pos := state.pos }
          diagnostic.message diagnostic.expected
      ⟨some [node], resumed⟩

/-- Reads the token that closes a body. Where the end of the text cuts the body
off, outside of trials, that is reported and marked by an empty error node. -/
def Setup.close (setup : Setup) (kind : Token.Kind) (state : State) (frame : Frame) : Outcome :=
  if setup.stream.kind state.pos = kind then ⟨.ok, setup.advance state, frame⟩
  else
    let state := state.fail kind.describe
    if 0 < state.speculating || state.fatal.isSome || setup.stream.kind state.pos != .eof then
      ⟨.failed, state, frame⟩
    else
      let diagnostic := setup.diagnose state state.furthest
      let reported := { setup.report state state.furthest with furthest := .none }
      ⟨.ok, reported,
        frame.push (setup.errorMark reported diagnostic.message diagnostic.expected)⟩

/-- Ends the node under construction once the parse has been abandoned. The
innermost node gets an empty error node where reading stopped. -/
def Setup.salvage (setup : Setup) (state : State) (frame : Frame) : Outcome :=
  match state.fatal with
  | none => ⟨.failed, state, frame⟩
  | some reason =>
    if 0 < state.speculating then ⟨.failed, state, frame⟩
    else if state.cut then ⟨.ended, state, frame⟩
    else
      ⟨.ended, { state with cut := true },
        frame.push (setup.errorMark state reason.notice [])⟩

/-! ## Phrases -/

/-- Adds the finished node of `inner` to the caller's frame, unless the phrase
that filled it gave up. -/
def Setup.enclose (setup : Setup) (outer : Frame) (outcome : Outcome) (kept : Frame) : Outcome :=
  match outcome.verdict with
  | .failed => ⟨.failed, outcome.state, kept⟩
  | _ => ⟨.ok, outcome.state, outer.push (setup.finish outcome.state outcome.frame)⟩

/-- Repeats a step for as long as a test holds, at most `budget` times. -/
def repeatWhile (test : State → Frame → Bool) (step : State → Frame → Outcome) :
    (budget : Nat) → State → Frame → Outcome
  | 0, state, frame => ⟨.ok, state, frame⟩
  | budget + 1, state, frame =>
    if test state frame then
      match step state frame with
      | ⟨.ok, state, frame⟩ => repeatWhile test step budget state frame
      | outcome => outcome
    else ⟨.ok, state, frame⟩

/-- Runs a phrase, calling rules with `call`. -/
def Setup.run (setup : Setup) (call : Caller) : Phrase → State → Frame → Outcome
  | .done, state, frame => ⟨.ok, state, frame⟩
  | .stop, state, frame => ⟨.failed, state, frame⟩
  | .expected texts, state, frame => ⟨.failed, state.failAll texts, frame⟩
  | .seq first second, state, frame =>
    match setup.run call first state frame with
    | ⟨.ok, state, frame⟩ => setup.run call second state frame
    | outcome => outcome
  | .token kind, state, frame =>
    if setup.stream.kind state.pos = kind then ⟨.ok, setup.advance state, frame⟩
    else ⟨.failed, state.fail kind.describe, frame⟩
  | .leaf node kind, state, frame =>
    if setup.stream.kind state.pos = kind then
      ⟨.ok, setup.advance state, frame.push (.leaf node (setup.current state))⟩
    else ⟨.failed, state.fail kind.describe, frame⟩
  | .pick node accept, state, frame =>
    if accept (setup.stream.kind state.pos) then
      ⟨.ok, setup.advance state, frame.push (.leaf node (setup.current state))⟩
    else ⟨.failed, state, frame⟩
  | .mark accept, state, frame =>
    if accept (setup.stream.kind state.pos) then
      ⟨.ok, setup.advance state, { frame with token := some (setup.current state) }⟩
    else ⟨.failed, state, frame⟩
  | .operator, state, frame =>
    ⟨.ok, { state with pos := setup.stream.afterOperator state.pos },
      frame.push (.leaf .operator (setup.stream.operatorToken state.pos))⟩
  | .node kind body, state, frame =>
    setup.enclose frame (setup.run call body state (setup.frame state kind)) frame
  | .wrap kind body, state, frame =>
    match frame.parts with
    | [] => ⟨.failed, state, frame⟩
    | first :: others =>
      let inner : Frame := { kind, start := first.span.start, parts := [first] }
      setup.enclose { frame with parts := others } (setup.run call body state inner) frame
  | .reopen kind body, state, frame =>
    match frame.parts with
    | [] => ⟨.failed, state, frame⟩
    | head :: others =>
      let inner : Frame := { kind, start := head.span.start, parts := head.children.reverse }
      setup.enclose { frame with parts := others } (setup.run call body state inner) frame
  | .cover kind body, state, frame =>
    let outcome := setup.run call body state { kind, start := .origin }
    match outcome.verdict with
    | .failed => ⟨.failed, outcome.state, frame⟩
    | _ =>
      let stop := (setup.stream.get setup.stream.last).span.stop
      ⟨.ok, outcome.state, frame.push (outcome.frame.toNode stop)⟩
  | .rekind kind, state, frame => ⟨.ok, state, { frame with kind }⟩
  | .branch look yes no, state, frame =>
    if setup.holds state frame look then setup.run call yes state frame
    else setup.run call no state frame
  | .trial rule yes no, state, frame =>
    match trial (call rule) state with
    | (true, state) => setup.run call yes state frame
    | (false, state) => setup.run call no state frame
  | .call rule, state, frame =>
    match call rule state with
    | ⟨some parts, state⟩ => ⟨.ok, state, frame.pushAll parts⟩
    | ⟨none, state⟩ => ⟨.failed, state, frame⟩
  | .recover rule, state, frame =>
    match setup.recovered (call rule) state with
    | ⟨some parts, state⟩ => ⟨.ok, state, frame.pushAll parts⟩
    | ⟨none, state⟩ => ⟨.failed, state, frame⟩
  | .orElse first second, state, frame =>
    match setup.run call first state frame with
    | ⟨.failed, state, frame⟩ => setup.run call second state frame
    | outcome => outcome
  | .loop look body, state, frame =>
    repeatWhile (fun state frame => setup.holds state frame look)
      (fun state frame => setup.run call body state frame)
      (setup.stream.size - state.pos) state frame
  | .documented body, state, frame =>
    match setup.run call body state frame with
    | ⟨.ok, after, frame⟩ => ⟨.ok, after, frame.document (setup.stream.docBefore? state.pos)⟩
    | outcome => outcome
  | .closing kind, state, frame => setup.close kind state frame
  | .salvage, state, frame => setup.salvage state frame

/-! ## Rules -/

/-- Runs the body of a rule on a frame of its own. -/
def Setup.runBody (setup : Setup) (call : Caller) (rule : Rule) (state : State) : Reply :=
  let outcome := setup.run call rule.body state (setup.frame state .error)
  match outcome.verdict with
  | .failed => ⟨none, outcome.state⟩
  | _ => ⟨some outcome.frame.parts, outcome.state⟩

/-- Runs a rule behind the memo table, if it is kept there and the table is in
use, and inside its guard, if it has one. -/
def Setup.runRule (setup : Setup) (call : Caller) (rule : Rule) (state : State) : Reply :=
  let body (state : State) : Reply :=
    if rule.isGuarded then setup.guarded (setup.runBody call rule) state
    else setup.runBody call rule state
  match Memo.Slot.of? rule with
  | some slot => if setup.options.memo then memoized slot body state else body state
  | none => body state

/-- Calls a rule with a budget for the nesting of calls. -/
def Setup.callWith (setup : Setup) : (budget : Nat) → Rule → State → Reply
  | 0, _, state => ⟨none, state⟩
  | budget + 1, rule, state => setup.runRule (setup.callWith budget) rule state

/-- A budget that is never used up: one round of all rules for every token. -/
def Setup.budget (setup : Setup) : Nat :=
  Rule.all.length * (setup.stream.size + 1)

/-- Calls a rule. -/
def Setup.call (setup : Setup) (rule : Rule) (state : State) : Reply :=
  setup.callWith setup.budget rule state

end JavaFront.Parser
