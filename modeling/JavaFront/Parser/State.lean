import JavaFront.Diagnostic
import JavaFront.Parser.Memo
import JavaFront.Token.Operator

/-!
# The state of a parse

What a parse works on, what it may not exceed, and all that changes while it
runs: the cursor, the furthest failure, the counters of the guards, the
diagnostics and the memo table. The node under construction is kept apart, in
a frame, because a rule that fails leaves its caller's frame as it was.
-/

namespace JavaFront

/-- Why a parse was abandoned. -/
inductive Abandonment where
  | tooDeep (limit : Int)
  | tooLarge (file : Bytes) (size : Nat) (limit : Int)
  | canceled
deriving DecidableEq, Repr

/-- The wording of an abandonment. -/
def Abandonment.message : Abandonment → Bytes
  | .tooDeep limit =>
    Bytes.ofString "nesting too deep: more than " ++ Bytes.ofInt limit ++ Bytes.ofString " levels"
  | .tooLarge file size limit =>
    file ++ Bytes.ofString ": input too large: " ++ Bytes.ofNat size ++
      Bytes.ofString " bytes exceeds limit of " ++ Bytes.ofInt limit
  | .canceled => "context canceled"

/-- The message of the diagnostic that reports an abandonment. -/
def Abandonment.notice (reason : Abandonment) : Bytes :=
  Bytes.ofString "parse abandoned: " ++ reason.message

/-- The limits of a parse. A parse is canceled at the first poll after as many
polls as it has patience for, and never without that limit; a size limit that
is not positive does not hold. -/
structure Options where
  maxDepth : Int := 1000
  maxSize : Int := 16777216
  comments : Bool := false
  memo : Bool := true
  patience : Option Int := none
deriving DecidableEq, Repr

namespace Parser

/-- What a parse reads and under which limits. -/
structure Setup where
  file : Bytes
  stream : Stream
  options : Options

/-- The number of guarded entries between two polls for cancellation. -/
def pollInterval : Nat := 256

/-- All that changes while a parse runs, the frames apart. -/
structure State where
  pos : Nat := 0
  furthest : Failure := .none
  speculating : Int := 0
  depth : Nat := 0
  steps : Nat := 0
  fatal : Option Abandonment := none
  cut : Bool := false
  diagnostics : Array Diagnostic := #[]
  speculations : Nat := 0
  memo : Memo := {}

/-- A node under construction: its kind, where it starts, its own token and its
children, the latest first. -/
structure Frame where
  kind : Node.Kind
  start : Pos
  token : Option Token := none
  parts : List Node := []

/-! ## Frames -/

namespace Frame

/-- The frame with one more child. -/
def push (frame : Frame) (part : Node) : Frame :=
  { frame with parts := part :: frame.parts }

/-- The frame with more children, given the latest first. -/
def pushAll (frame : Frame) (parts : List Node) : Frame :=
  { frame with parts := parts ++ frame.parts }

/-- The node of a frame that ends at `stop`. -/
def toNode (frame : Frame) (stop : Pos) : Node :=
  { kind := frame.kind, span := ⟨frame.start, stop⟩, token := frame.token,
    children := frame.parts.reverse }

/-- Attaches a documentation comment to the latest child. -/
def document (frame : Frame) (doc : Option Token) : Frame :=
  match frame.parts with
  | [] => frame
  | latest :: others => { frame with parts := { latest with doc } :: others }

end Frame

/-- A frame for a node of the given kind that starts at the cursor. -/
def Setup.frame (setup : Setup) (state : State) (kind : Node.Kind) : Frame :=
  { kind, start := (setup.stream.get state.pos).span.start }

/-- Where a node ends that starts at `start`: at the end of the last token
read, or where it starts if it has read none. -/
def Setup.stopFrom (setup : Setup) (state : State) (start : Pos) : Pos :=
  if state.pos = 0 then start
  else
    let stop := (setup.stream.get (state.pos - 1)).span.stop
    if start.offset < stop.offset then stop else start

/-- The finished node of a frame. -/
def Setup.finish (setup : Setup) (state : State) (frame : Frame) : Node :=
  frame.toNode (setup.stopFrom state frame.start)

/-! ## Reading and failing -/

/-- The token at the cursor. -/
def Setup.current (setup : Setup) (state : State) : Token :=
  setup.stream.get state.pos

/-- The state behind the token at the cursor. -/
def Setup.advance (setup : Setup) (state : State) : State :=
  { state with pos := setup.stream.succ state.pos }

/-- Records what would have been accepted at the cursor. -/
def State.fail (state : State) (text : String) : State :=
  { state with furthest := state.furthest.record state.pos text }

/-- Records several things that would have been accepted at the cursor. -/
def State.failAll (state : State) (texts : List String) : State :=
  { state with furthest := state.furthest.recordAll state.pos texts }

/-! ## Reports -/

/-- The diagnostic for a failure: what was found at the furthest token and what
would have been accepted. Without a failure it is about the cursor. -/
def Setup.diagnose (setup : Setup) (state : State) (failure : Failure) : Diagnostic :=
  let found := setup.stream.get (if failure.pos < 0 then state.pos else failure.pos.toNat)
  { file := setup.file
    start := found.span.start.toPlace
    stop := found.span.stop.toPlace
    message := Diagnostic.unexpected failure.expected found
    found := found.describe
    expected := failure.expected }

/-- Reports a failure. A failure at a lexical error is not reported again. -/
def Setup.report (setup : Setup) (state : State) (failure : Failure) : State :=
  let index := if failure.pos < 0 then state.pos else failure.pos.toNat
  if setup.stream.kind index = .error then state
  else { state with diagnostics := state.diagnostics.push (setup.diagnose state failure) }

/-- Abandons the parse at the cursor. Only the first reason counts. -/
def Setup.abandon (setup : Setup) (state : State) (reason : Abandonment) : State :=
  if state.fatal.isSome then state
  else
    let found := setup.current state
    { state with
      fatal := some reason
      diagnostics := state.diagnostics.push
        { file := setup.file
          start := found.span.start.toPlace
          stop := found.span.stop.toPlace
          message := reason.notice
          found := found.describe } }

/-- An empty error node at the cursor. -/
def Setup.errorMark (setup : Setup) (state : State) (message : Bytes)
    (expected : List String) : Node :=
  let got := setup.current state
  { kind := .error, span := .empty got.span.start, fault := some ⟨message, expected, got⟩ }

/-! ## Guards -/

/-- The parse is canceled at this number of steps. -/
def Setup.canceledAt (setup : Setup) (steps : Nat) : Bool :=
  match setup.options.patience with
  | some polls => steps % pollInterval = 0 && polls < (steps / pollInterval : Nat)
  | none => false

/-- Enters a guarded rule, unless the parse is or thereby becomes abandoned. -/
def Setup.enter (setup : Setup) (state : State) : Bool × State :=
  if state.fatal.isSome then (false, state)
  else if setup.options.maxDepth ≤ state.depth then
    (false, setup.abandon state (.tooDeep setup.options.maxDepth))
  else
    let state := { state with steps := state.steps + 1 }
    if setup.canceledAt state.steps then (false, setup.abandon state .canceled)
    else (true, { state with depth := state.depth + 1 })

/-- Leaves a guarded rule. -/
def State.leave (state : State) : State :=
  { state with depth := state.depth - 1 }

/-! ## Resynchronisation -/

/-- The index at which reading can be taken up again after trouble at
`start`: behind a semicolon or a balanced group in braces, or in front of a
brace that closes what is around. A closing brace right at `start` is passed.
`depth` is the number of open braces, and `budget` the number of tokens left. -/
def Setup.resume (setup : Setup) (start : Nat) : (budget depth pos : Nat) → Nat
  | 0, _, pos => pos
  | budget + 1, depth, pos =>
    let after := setup.stream.succ pos
    match setup.stream.kind pos with
    | .eof => pos
    | .lbrace => setup.resume start budget (depth + 1) after
    | .rbrace =>
      if depth = 0 then if pos = start then after else pos
      else if depth = 1 then after
      else setup.resume start budget (depth - 1) after
    | .semicolon => if depth = 0 then after else setup.resume start budget depth after
    | _ => setup.resume start budget depth after

/-- Skips to where reading can be taken up again. What is skipped becomes an
error node with the given message. -/
def Setup.skip (setup : Setup) (state : State) (message : Bytes)
    (expected : List String) : Node × State :=
  let got := setup.current state
  let after := { state with
    pos := setup.resume state.pos (setup.stream.size - state.pos) 0 state.pos }
  let span : Span := ⟨got.span.start, setup.stopFrom after got.span.start⟩
  ({ kind := .error, span, fault := some ⟨message, expected, got⟩ }, after)

end Parser

end JavaFront
