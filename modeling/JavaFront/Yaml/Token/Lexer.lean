import JavaFront.Yaml.Token

/-!
# Reading tokens

A mapping shows itself only at the colon behind its first key, so the place of
every token that may turn out to be a key is remembered, and the marks are put
in front of it later.

Tokens are handed out in order. Two tokens are always read beyond the one handed
out, and a token that may still turn out to be a key is held back. It is held
back no longer once brackets between which no key was possible are closed, even
if it is what they start with. If a colon follows all the same, the marks come
too late and are put behind the tokens read.
-/

namespace JavaFront.Yaml

/-- A token that may turn out to be a key: its number and its place. A required
key is one that stands where only a key can stand. -/
structure Candidate where
  possible : Bool := false
  required : Bool := false
  number : Nat := 0
  mark : Mark := {}
deriving DecidableEq, Repr

/-- A text being cut into tokens: what is left of it, whether its start has been
told, the number of open brackets and braces, the columns of the open blocks and
the possible keys on each level of brackets, the innermost first, whether a key
may start here, the tokens read and not yet handed out, the number of those that
have been, and the numbers of the tokens to be held back, each with the level of
brackets whose possible key it is. -/
structure Lexer where
  cursor : Cursor
  started : Bool := false
  flow : Nat := 0
  indent : Int := -1
  outer : List Int := []
  keys : List Candidate := [{}]
  keyAllowed : Bool := true
  queue : List Token := []
  taken : Nat := 0
  held : List (Nat × Nat) := []
deriving Repr

namespace Lexer

/-- The tokens of a text are about to be read. -/
def ofText (text : Bytes) : Lexer :=
  { cursor := .ofText text }

/-- Adds a token behind the others. -/
def push (lexer : Lexer) (kind : Token.Kind) (start stop : Mark) : Lexer :=
  { lexer with queue := lexer.queue ++ [⟨kind, start, stop⟩] }

/-- Adds a token that is only a place in front of the token of a number, or behind
all others if that one has been handed out. -/
def insert (lexer : Lexer) (kind : Token.Kind) (mark : Mark) (number : Nat) : Lexer :=
  if number < lexer.taken then lexer.push kind mark mark
  else
    let before := number - lexer.taken
    { lexer with
      queue := lexer.queue.take before ++ [⟨kind, mark, mark⟩] ++ lexer.queue.drop before }

/-- The number of the next token. -/
def nextNumber (lexer : Lexer) : Nat :=
  lexer.taken + lexer.queue.length

/-- Hands the first token out. -/
def pop (lexer : Lexer) : Lexer :=
  { lexer with
    queue := lexer.queue.drop 1
    taken := lexer.taken + 1
    held := lexer.held.filter fun (number, _) => number ≠ lexer.taken }

/-- The possible key of the innermost brackets. -/
def candidate (lexer : Lexer) : Candidate :=
  lexer.keys.headD {}

/-- The possible key on a level of brackets. -/
def candidateOn (lexer : Lexer) (level : Nat) : Candidate :=
  (lexer.keys[lexer.flow - level]?).getD {}

/-- The possible key on a level of brackets is none after all. -/
def rejectOn (lexer : Lexer) (level : Nat) : Lexer :=
  { lexer with
    keys := lexer.keys.modify (lexer.flow - level) fun key => { key with possible := false } }

/-- The token of a number need not be held back. -/
def release (lexer : Lexer) (number : Nat) : Lexer :=
  { lexer with held := lexer.held.filter fun entry => entry.1 ≠ number }

/-- The innermost possible key is settled, one way or the other. -/
def settle (lexer : Lexer) : Lexer :=
  (lexer.rejectOn lexer.flow).release lexer.candidate.number

end Lexer

/-- Reading tokens, which may meet a problem. -/
abbrev Lex := StateT Lexer (Except Problem)

namespace Lex

open CursorM (need)

/-- Reads with the cursor. -/
def scan {α : Type} (reader : CursorM α) : Lex α := do
  let lexer ← get
  match reader.run lexer.cursor with
  | .error problem => throw problem
  | .ok (value, cursor) =>
    set { lexer with cursor }
    return value

/-- The place of the cursor. -/
def place : Lex Mark :=
  return (← get).cursor.mark

/-- Reports a problem met here with a token that starts at a place. -/
def fail {α : Type} (start : Mark) (text : Bytes) : Lex α :=
  scan (CursorM.fail start text)

/-- Says whether a key may start here. -/
def allowKey (allowed : Bool) : Lex Unit :=
  modify fun lexer => { lexer with keyAllowed := allowed }

/-- Adds a token that reaches from a place to the cursor. -/
def emit (kind : Token.Kind) (start : Mark) : Lex Unit :=
  modify fun lexer => lexer.push kind start lexer.cursor.mark

/-! ## Possible keys -/

/-- The longest distance between a key and its colon. -/
def longestKey : Nat := 1024

/-- The key on a level is still possible: its colon would have to stand on the same
line and not too far away. -/
def isLive (level : Nat) : Lex Bool := do
  let lexer ← get
  let candidate := lexer.candidateOn level
  let place := lexer.cursor.mark
  if !candidate.possible then return false
  else if candidate.mark.line < place.line || candidate.mark.index + longestKey < place.index then
    if candidate.required then fail candidate.mark "could not find expected ':'"
    set (lexer.rejectOn level)
    return false
  else return true

/-- The innermost possible key is none after all. -/
def dropCandidate : Lex Unit := do
  let lexer ← get
  let candidate := lexer.candidate
  if candidate.possible then
    if candidate.required then fail candidate.mark "could not find expected ':'"
    set lexer.settle

/-- Remembers that the token about to be read may be a key. -/
def saveCandidate : Lex Unit := do
  if (← get).keyAllowed then
    dropCandidate
    modify fun lexer =>
      let candidate : Candidate :=
        { possible := true
          required := lexer.flow = 0 && lexer.indent = lexer.cursor.mark.column
          number := lexer.nextNumber
          mark := lexer.cursor.mark }
      { lexer with
        keys := candidate :: lexer.keys.drop 1
        held := (candidate.number, lexer.flow) :: lexer.held }

/-! ## Indentation -/

/-- The number of blocks or brackets that may be open at a time. -/
def mostOpen : Nat := 10000

/-- Opens a block at a column unless one is open there. Its mark is put in front
of the token of a number. -/
def openBlock (column number : Nat) (kind : Token.Kind) (mark : Mark) : Lex Unit := do
  let lexer ← get
  if lexer.flow = 0 && lexer.indent < column then
    if mostOpen ≤ lexer.outer.length then
      fail lexer.candidate.mark "exceeded max depth of 10000"
    set ({ lexer with indent := column, outer := lexer.indent :: lexer.outer }.insert
      kind mark number)

/-- Closes the blocks at columns right of the given one, given those of the
blocks around them. -/
def closeFrom (column : Int) (mark : Mark) : (outer : List Int) → Lexer → Lexer
  | [], lexer => lexer
  | next :: outer, lexer =>
    if lexer.indent ≤ column then lexer
    else
      closeFrom column mark outer
        ({ lexer with indent := next, outer := outer }.push .blockEnd mark mark)

/-- Closes the blocks at columns right of the given one. Between brackets there
are none. -/
def closeBlocks (column : Int) (mark : Mark) : Lex Unit :=
  modify fun lexer =>
    if lexer.flow ≠ 0 then lexer else closeFrom column mark lexer.outer lexer

/-- Closes all blocks and lets no key start. -/
def closeAll : Lex Unit := do
  closeBlocks (-1) (← place)
  dropCandidate
  allowKey false

/-! ## Blanks -/

/-- Passes blanks, comments and line ends up to the next token. Tabs count as
blanks only where no key may start. Where the characters at hand start with a
byte-order mark, the first place of a line is passed whatever stands there. -/
def toNextToken : (fuel : Nat) → Lex Unit
  | 0 => pure ()
  | fuel + 1 => do
    scan (need 1)
    let lexer ← get
    if lexer.cursor.mark.column = 0 && lexer.cursor.marked then scan CursorM.pass
    let tabs := lexer.flow ≠ 0 || !lexer.keyAllowed
    let _ ← scan (CursorM.takeWhile fun c => c = ' ' || (tabs && c = '\t'))
    if (← get).cursor.sees '#' then
      scan do CursorM.passComments (← CursorM.fuel) 0
    if (← get).cursor.atBreak then
      scan CursorM.passBreak
      if lexer.flow = 0 then allowKey true
      toNextToken fuel

/-! ## Single tokens -/

/-- Reads an indicator of one character. -/
def readIndicator (kind : Token.Kind) : Lex Unit := do
  let start ← place
  scan CursorM.pass
  emit kind start

/-- Reads an opening bracket or brace, which may be the start of a key. -/
def readOpening (kind : Token.Kind) : Lex Unit := do
  saveCandidate
  let lexer ← get
  if mostOpen ≤ lexer.flow then fail lexer.cursor.mark "exceeded max depth of 10000"
  let inner : Candidate := { number := lexer.nextNumber, mark := lexer.cursor.mark }
  set { lexer with flow := lexer.flow + 1, keys := inner :: lexer.keys, keyAllowed := true }
  readIndicator kind

/-- Reads a closing bracket or brace. -/
def readClosing (kind : Token.Kind) : Lex Unit := do
  dropCandidate
  modify fun lexer =>
    if lexer.flow = 0 then lexer
    else
      { lexer.release lexer.candidate.number with
        flow := lexer.flow - 1
        keys := lexer.keys.drop 1 }
  allowKey false
  readIndicator kind

/-- Reads a comma. -/
def readComma : Lex Unit := do
  dropCandidate
  allowKey true
  readIndicator .flowEntry

/-- Reads the hyphen before an entry of a sequence. -/
def readHyphen : Lex Unit := do
  let mark ← place
  let lexer ← get
  if lexer.flow = 0 && !lexer.keyAllowed then
    fail mark "block sequence entries are not allowed in this context"
  openBlock mark.column lexer.nextNumber .blockSequence mark
  dropCandidate
  allowKey true
  readIndicator .blockEntry

/-- Reads the question mark before a key. -/
def readQuestion : Lex Unit := do
  let mark ← place
  let lexer ← get
  if lexer.flow = 0 && !lexer.keyAllowed then
    fail mark "mapping keys are not allowed in this context"
  openBlock mark.column lexer.nextNumber .blockMapping mark
  dropCandidate
  allowKey (lexer.flow = 0)
  readIndicator .key

/-- Reads the colon before a value. If a possible key precedes it, that is one
now, and perhaps the first of a mapping. -/
def readColon : Lex Unit := do
  let mark ← place
  let lexer ← get
  let candidate := lexer.candidate
  if ← isLive lexer.flow then
    modify fun lexer => lexer.insert .key candidate.mark candidate.number
    openBlock candidate.mark.column candidate.number .blockMapping candidate.mark
    modify Lexer.settle
    allowKey false
  else
    if lexer.flow = 0 && !lexer.keyAllowed then
      fail mark "mapping values are not allowed in this context"
    openBlock mark.column lexer.nextNumber .blockMapping mark
    allowKey (lexer.flow = 0)
  readIndicator .value

/-- Characters that may stand right behind the name of an anchor, blanks and
line ends apart. -/
def isNameEnd (c : Char) : Bool :=
  "?:,]\x7d%@`".toList.contains c

/-- Reads the name of an anchor or of an alias to one. -/
def readAnchor (kind : List Char → Token.Kind) : Lex Unit := do
  saveCandidate
  allowKey false
  let start ← place
  scan CursorM.pass
  let name ← scan (CursorM.takeWhile isWord)
  let cursor := (← get).cursor
  if name.isEmpty || !(cursor.atGap || cursor.peek.any isNameEnd) then
    fail start "did not find expected alphabetic or numeric character"
  emit (kind name) start

/-- Reads a tag. -/
def readTag : Lex Unit := do
  saveCandidate
  allowKey false
  let start ← place
  let (handle, suffix) ← scan Yaml.readTag
  emit (.tag handle suffix) start

/-- Reads a line that starts with a percent sign. -/
def readDirective : Lex Unit := do
  closeAll
  let start ← place
  let (directive, stop) ← scan Yaml.readDirective
  modify fun lexer => lexer.push (.directive directive) start stop

/-- Reads a mark between documents, which closes all that is open. -/
def readDocumentMark (kind : Token.Kind) : Lex Unit := do
  closeAll
  let start ← place
  scan (CursorM.passMany 3)
  emit kind start

/-- Ends the last line and closes all that is open. -/
def readEnd : Lex Unit := do
  modify fun lexer =>
    let mark := lexer.cursor.mark
    if mark.column = 0 then lexer
    else
      { lexer with cursor := { lexer.cursor with
          mark := { mark with line := mark.line + 1, column := 0 } } }
  closeAll
  emit .streamEnd (← place)

/-- Reads a plain scalar, which may be a key. A line end behind it lets a key
start. -/
def readPlain : Lex Unit := do
  saveCandidate
  allowKey false
  let start ← place
  let lexer ← get
  let (text, broken) ← scan (Yaml.readPlain (lexer.indent + 1) (lexer.flow ≠ 0))
  if broken then allowKey true
  emit (.scalar text .plain) start

/-- Reads a quoted scalar, which may be a key. -/
def readQuoted (single : Bool) : Lex Unit := do
  saveCandidate
  allowKey false
  let start ← place
  let text ← scan (Yaml.readQuoted single)
  emit (.scalar text .quoted) start

/-- Reads a block scalar, which is no key. -/
def readBlock (literal : Bool) : Lex Unit := do
  dropCandidate
  allowKey true
  let start ← place
  let text ← scan (Yaml.readBlock literal (← get).indent)
  emit (.scalar text .quoted) start

/-- Characters that no plain scalar starts with, blanks and line ends apart. -/
def isIndicator (c : Char) : Bool :=
  "-?:,[]\x7b\x7d#&*!|>'\"%@`".toList.contains c

/-- A plain scalar may start with `c` at a cursor. -/
def startsPlain (flow : Nat) (cursor : Cursor) (c : Char) : Bool :=
  !(isBlank c || isBreak c || isIndicator c) || (c = '-' && !(cursor.peek 1).any isBlank) ||
    (flow = 0 && (c = '?' || c = ':') && !cursor.atGap 1)

/-- Reads the token that starts with `c`. -/
def readToken (c : Char) : Lex Unit := do
  let flow := (← get).flow
  let cursor := (← get).cursor
  let indicates := flow ≠ 0 || cursor.atGap 1
  if c = '[' then readOpening .sequenceStart
  else if c = '\x7b' then readOpening .mappingStart
  else if c = ']' then readClosing .sequenceEnd
  else if c = '\x7d' then readClosing .mappingEnd
  else if c = ',' then readComma
  else if c = '-' && cursor.atGap 1 then readHyphen
  else if c = '?' && indicates then readQuestion
  else if c = ':' && indicates then readColon
  else if c = '*' then readAnchor .alias
  else if c = '&' then readAnchor .anchor
  else if c = '!' then readTag
  else if c = '|' && flow = 0 then readBlock true
  else if c = '>' && flow = 0 then readBlock false
  else if c = '\'' then readQuoted true
  else if c = '"' then readQuoted false
  else if startsPlain flow cursor c then readPlain
  else fail cursor.mark "found character that cannot start any token"

/-- Reads the next token, with the marks of the blocks that end before it and the
comment behind it. A comment behind a hyphen belongs to what follows. -/
def readNext : Lex Unit := do
  scan (need 1)
  if !(← get).started then
    modify fun lexer => { lexer.push .streamStart {} {} with started := true }
  else
    let before ← place
    toNextToken (← get).cursor.size
    closeBlocks (← place).column before
    scan (need 4)
    let cursor := (← get).cursor
    match cursor.peek with
    | none => readEnd
    | some c =>
      if c = '%' && cursor.mark.column = 0 then readDirective
      else if cursor.atDocumentMark '-' then readDocumentMark .documentStart
      else if cursor.atDocumentMark '.' then readDocumentMark .documentEnd
      else
        readToken c
        if (← get).queue.getLast?.any fun token => token.kind ≠ .blockEntry then
          scan CursorM.passCommentBehind

/-- Reads on until the first token can be handed out, and shows it. -/
def peekFrom : (fuel : Nat) → Lex Token
  | 0 => throw .unknown
  | fuel + 1 => do
    let lexer ← get
    match lexer.queue with
    | token :: _ :: _ :: _ =>
      match lexer.held.lookup lexer.taken with
      | none => return token
      | some level =>
        if ← isLive level then
          readNext
          peekFrom fuel
        else return token
    | _ =>
      readNext
      peekFrom fuel

/-- Shows the next token. -/
def peek : Lex Token := do
  peekFrom (← get).cursor.size

end Lex

end JavaFront.Yaml
