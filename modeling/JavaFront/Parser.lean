import JavaFront.Parser.Machine

/-!
# Parsing

A source is parsed as a compilation unit, as one expression or as one block
statement. The result holds the tree, if there is one, the diagnostics, the
work done and, for a parse that was abandoned, the reason.
-/

namespace JavaFront

/-- What a text holds as a whole. -/
inductive Entry where
  | unit | expression | statement
deriving DecidableEq, Repr

/-- The work done on one source. -/
structure Stats where
  tokens : Nat := 0
  steps : Nat := 0
  speculations : Nat := 0
  memoEntries : Nat := 0
  memoHits : Nat := 0
  memoMisses : Nat := 0
deriving DecidableEq, Repr

/-- What became of a parse. The tree of an abandoned parse holds what was built
before. -/
structure Parsed where
  tree : Option Node := none
  diagnostics : List Diagnostic := []
  comments : List Token := []
  stats : Stats := {}
  abandoned : Option Abandonment := none

namespace Parsed

/-- The parse was abandoned or has something to report. -/
def hasErrors (parsed : Parsed) : Bool :=
  parsed.abandoned.isSome || !parsed.diagnostics.isEmpty

end Parsed

namespace Parser

/-- What is parsed under the given options. -/
def Setup.ofSource (source : Source) (options : Options) : Setup :=
  { file := source.file, stream := .ofSource source, options }

/-- The diagnostic for a token that matches no lexical rule. -/
def Setup.lexicalError (setup : Setup) (token : Token) : Diagnostic :=
  { file := setup.file
    start := token.span.start.toPlace
    stop := token.span.stop.toPlace
    message := Bytes.ofString "unrecognized input " ++ token.text.quoted
    found := token.describe }

/-- The state at the start of a parse: lexical errors are reported first. -/
def Setup.initial (setup : Setup) : State :=
  { diagnostics := (setup.stream.lexicalErrors.map setup.lexicalError).toArray }

/-- Applies a rule to the whole text. If it fails or leaves tokens unread, the
furthest failure is reported; what an abandoned parse has built is kept. -/
def Setup.whole (setup : Setup) (rule : Rule) (state : State) : Option Node × State :=
  let reply := setup.call rule state
  let node? := reply.parts?.bind List.head?
  let after := reply.state
  if after.fatal.isSome then (node?, after)
  else if node?.isSome && setup.stream.kind after.pos = .eof then (node?, after)
  else
    let failed := if node?.isSome then after.fail (Token.Kind.describe .eof) else after
    (none, setup.report failed failed.furthest)

/-- Parses the whole text as what the entry says. -/
def Setup.enterAt (setup : Setup) (entry : Entry) : Option Node × State :=
  match entry with
  | .unit =>
    let reply := setup.call .compilationUnit setup.initial
    (reply.parts?.bind List.head?, reply.state)
  | .expression => setup.whole .expression setup.initial
  | .statement => setup.whole .blockStatement setup.initial

/-- The work a state accounts for. -/
def Setup.stats (setup : Setup) (state : State) : Stats :=
  { tokens := setup.stream.size
    steps := state.steps
    speculations := state.speculations
    memoEntries := state.memo.size
    memoHits := state.memo.hits
    memoMisses := state.memo.misses }

end Parser

namespace Source

/-- The result for a source that is too large to be looked at. -/
def refuse (source : Source) (limit : Int) : Parsed :=
  let reason := Abandonment.tooLarge source.file source.size limit
  let place := Pos.origin.toPlace
  { diagnostics :=
      [{ file := source.file, start := place, stop := place, message := reason.notice }]
    abandoned := some reason }

/-- Parses a source. -/
def parse (source : Source) (entry : Entry := .unit) (options : Options := {}) : Parsed :=
  if 0 < options.maxSize && options.maxSize < source.size then source.refuse options.maxSize
  else
    let setup := Parser.Setup.ofSource source options
    let (tree, state) := setup.enterAt entry
    { tree
      diagnostics := state.diagnostics.toList
      comments := if options.comments then setup.stream.comments else []
      stats := setup.stats state
      abandoned := state.fatal }

end Source

end JavaFront
