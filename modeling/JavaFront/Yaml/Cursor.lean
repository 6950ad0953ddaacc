import JavaFront.Yaml.Encoding

/-!
# Reading a YAML text

A YAML text is read character by character. A cursor holds the characters that
are decoded and not yet passed, and what is still to be decoded. A further piece
of the text is decoded only when a reader asks for more characters than there
are. So a byte that cannot be decoded is a problem only for a reader who comes
near it, and a problem that a reader meets before is told in its place.

Looking for a comment is the one thing that never fails. What is wrong with the
bytes looked at is kept, and told later unless something else goes wrong first.
-/

namespace JavaFront.Yaml

/-! ## Classes of characters -/

/-- Blanks inside a line. -/
def isBlank (c : Char) : Bool :=
  c = ' ' || c = '\t'

/-- Characters that end a line. -/
def isBreak (c : Char) : Bool :=
  c = '\n' || c = '\r' || c = '\u0085' || c = '\u2028' || c = '\u2029'

/-- Characters that end a line and take a single byte. -/
def isShortBreak (c : Char) : Bool :=
  c = '\n' || c = '\r'

/-- Characters of names. -/
def isWord (c : Char) : Bool :=
  c.isAlphanum || c = '_' || c = '-'

/-- The value of a hexadecimal digit. -/
def hexValue? (c : Char) : Option Nat :=
  if c.isDigit then some (c.toNat - 48)
  else if 'a' ≤ c && c ≤ 'f' then some (c.toNat - 87)
  else if 'A' ≤ c && c ≤ 'F' then some (c.toNat - 55)
  else none

/-- The mark of the byte order, which may also stand inside a text. -/
def byteOrderMark : Char := '\ufeff'

/-! ## The cursor -/

/-- A text being read: the characters decoded and not yet passed, how many of the
places behind the last character have been asked for, the rest of the piece
being decoded, the bytes behind it, and whether these are known to be used up.

`marked` says whether the characters decoded last were, when that was done,
behind a byte-order mark. `broken` says whether only blanks have been passed
since a line ended. `missed` is a problem met while looking for a comment. No
reader takes more than `size` steps. -/
structure Cursor where
  ahead : List Char := []
  beyond : Nat := 0
  piece : Bytes := []
  later : Bytes := []
  encoding : Encoding := .utf8
  exhausted : Bool := false
  marked : Bool := false
  mark : Mark := {}
  broken : Bool := false
  missed : Option Problem := none
  size : Nat := 0
deriving Repr

namespace Cursor

/-- The number of bytes of a piece. -/
def pieceSize : Nat := 512

/-- A text about to be read. -/
def ofText (text : Bytes) : Cursor :=
  let (encoding, skipped) := Encoding.ofText text
  { piece := (text.take pieceSize).drop skipped
    later := text.drop pieceSize
    encoding
    exhausted := text.length < 3
    size := text.length + 8 }

/-- At least `count` places are at hand, those behind the end included. -/
def holds (cursor : Cursor) (count : Nat) : Bool :=
  count ≤ (cursor.ahead.take count).length + cursor.beyond

/-- Takes a further piece behind what is left of the one before. -/
def fill (cursor : Cursor) : Cursor :=
  if cursor.later.isEmpty then { cursor with exhausted := true }
  else
    let room := pieceSize - cursor.piece.length
    { cursor with
      piece := cursor.piece ++ cursor.later.take room
      later := cursor.later.drop room }

/-- Decodes pieces until `count` places are at hand or the text is over. A piece
is taken for the first time only if none is left. -/
def decodeUntil (count : Nat) : (fuel : Nat) → (first : Bool) → Cursor → Cursor × Option Problem
  | 0, _, cursor => (cursor, none)
  | fuel + 1, first, cursor =>
    if cursor.holds count then (cursor, none)
    else
      let filled := if first && !cursor.piece.isEmpty then cursor else cursor.fill
      let decoded := filled.encoding.decode filled.exhausted filled.piece
      let next := { filled with
        ahead := filled.ahead ++ decoded.characters
        piece := decoded.rest }
      if decoded.problem.isSome then (next, decoded.problem)
      else if next.exhausted then ({ next with beyond := next.beyond + 1 }, none)
      else decodeUntil count fuel false next

/-- Sees to it that `count` places are at hand, unless the text is over or
something is wrong with it. -/
def demand (cursor : Cursor) (count : Nat) : Cursor × Option Problem :=
  if cursor.holds count then (cursor, none)
  else
    let (next, problem) := decodeUntil count (count + 4) true cursor
    ({ next with marked := next.ahead.head? = some byteOrderMark }, problem)

/-- The character `distance` places ahead, if the text goes on so far. -/
def peek (cursor : Cursor) (distance : Nat := 0) : Option Char :=
  cursor.ahead[distance]?

/-- The character `distance` places ahead is the given one. -/
def sees (cursor : Cursor) (c : Char) (distance : Nat := 0) : Bool :=
  cursor.peek distance = some c

/-- The text ends here. -/
def atEnd (cursor : Cursor) : Bool :=
  cursor.ahead.isEmpty

/-- A blank comes next. -/
def atBlank (cursor : Cursor) : Bool :=
  cursor.peek.any isBlank

/-- The line ends `distance` places ahead, and another one follows. -/
def atBreak (cursor : Cursor) (distance : Nat := 0) : Bool :=
  (cursor.peek distance).any isBreak

/-- The line or the text ends here. -/
def atLineEnd (cursor : Cursor) : Bool :=
  cursor.peek.all isBreak

/-- A blank, a line end or the end comes `distance` places ahead. -/
def atGap (cursor : Cursor) (distance : Nat := 0) : Bool :=
  (cursor.peek distance).all fun c => isBlank c || isBreak c

/-- One of the marks between documents comes next, at the start of a line. -/
def atDocumentMark (cursor : Cursor) (c : Char) : Bool :=
  cursor.mark.column = 0 && cursor.ahead.take 3 = [c, c, c] && cursor.atGap 3

/-- A mark between documents comes next. -/
def atAnyDocumentMark (cursor : Cursor) : Bool :=
  cursor.atDocumentMark '-' || cursor.atDocumentMark '.'

/-- Passes one place of the line. -/
def pass (cursor : Cursor) : Cursor :=
  { cursor with
    ahead := cursor.ahead.drop 1
    beyond := if cursor.ahead.isEmpty then cursor.beyond - 1 else cursor.beyond
    mark := { cursor.mark with
      index := cursor.mark.index + 1
      column := cursor.mark.column + 1 }
    broken := cursor.broken && cursor.atBlank }

/-- Passes what ends a line, if that comes next. A carriage return and a line feed
end it together. -/
def passBreak (cursor : Cursor) : Cursor :=
  if !cursor.atBreak then cursor
  else
    let count := if cursor.sees '\r' && cursor.sees '\n' 1 then 2 else 1
    { cursor with
      ahead := cursor.ahead.drop count
      mark := ⟨cursor.mark.index + count, cursor.mark.line + 1, 0⟩
      broken := true }

/-- What ends a line here, as it counts in a text. -/
def breakText (cursor : Cursor) : List Char :=
  match cursor.peek with
  | some '\u2028' => ['\u2028']
  | some '\u2029' => ['\u2029']
  | some c => if isBreak c then ['\n'] else []
  | none => []

end Cursor

/-! ## Readers -/

/-- A reader moves a cursor and may meet a problem. -/
abbrev CursorM := StateT Cursor (Except Problem)

namespace CursorM

/-- Sees to it that `count` places are at hand. -/
def need (count : Nat) : CursorM Unit := do
  let (cursor, problem) := (← get).demand count
  set cursor
  match problem with
  | some problem => throw problem
  | none => pure ()

/-- Sees to it that `count` places are at hand, or else keeps the problem and says
no. -/
def tryNeed (count : Nat) : CursorM Bool := do
  let (cursor, problem) := (← get).demand count
  match problem with
  | none =>
    set cursor
    return true
  | some problem =>
    set { cursor with missed := some problem }
    return false

/-- What a cursor shows. -/
def look {α : Type} (view : Cursor → α) : CursorM α :=
  return view (← get)

/-- The place of the cursor. -/
def place : CursorM Mark :=
  look Cursor.mark

/-- The number of steps that no reader exceeds. -/
def fuel : CursorM Nat :=
  look Cursor.size

/-- Reports a problem met here with a token that starts at a place. -/
def fail {α : Type} (start : Mark) (text : Bytes) : CursorM α := do
  throw (.spelling start (← place) text)

/-- Passes one place of the line. -/
def pass : CursorM Unit :=
  modify Cursor.pass

/-- Passes places of the line. -/
def passMany : (count : Nat) → CursorM Unit
  | 0 => pure ()
  | count + 1 => do
    pass
    passMany count

/-- Passes what ends a line. -/
def passBreak : CursorM Unit := do
  need 2
  modify Cursor.passBreak

/-- Passes what ends a line, and tells what it counts as. -/
def takeBreak : CursorM (List Char) := do
  need 2
  let cursor ← get
  set cursor.passBreak
  return cursor.breakText

/-- Passes the characters that satisfy `test`, none of which ends a line, and tells
them behind `taken`, the last one first. -/
def takeWhileFrom (test : Char → Bool) : (fuel : Nat) → (taken : List Char) → CursorM (List Char)
  | 0, taken => return taken
  | fuel + 1, taken => do
    match (← get).peek with
    | none => return taken
    | some c =>
      if test c then
        pass
        need 1
        takeWhileFrom test fuel (c :: taken)
      else return taken

/-- Passes and tells the characters that satisfy `test`, none of which ends a
line. -/
def takeWhile (test : Char → Bool) : CursorM (List Char) := do
  need 1
  return (← takeWhileFrom test (← fuel) []).reverse

/-- Passes blanks. -/
def passBlanks : CursorM Unit := do
  let _ ← takeWhile isBlank

/-- Passes the rest of the line. -/
def passLine : CursorM Unit := do
  let _ ← takeWhile fun c => !isBreak c

/-! ## Comments -/

/-- The number of places ahead that are looked at for a comment. -/
def commentReach : Nat := 512

/-- Passes what stands before the place of an index, and then the rest of the
line. -/
def passComment (index : Nat) : (fuel : Nat) → CursorM Unit
  | 0 => pure ()
  | fuel + 1 => do
    need 1
    let cursor ← get
    if cursor.atLineEnd then
      if cursor.mark.index < index then
        passBreak
        passComment index fuel
    else
      pass
      passComment index fuel

/-- The distance of a comment that only blanks separate from the cursor, looked for
from a distance on. -/
def commentBehind : (fuel : Nat) → (distance : Nat) → CursorM (Option Nat)
  | 0, _ => return none
  | fuel + 1, distance => do
    if !(← tryNeed (distance + 1)) then return none
    match (← get).peek distance with
    | none => return none
    | some c =>
      if isBlank c then commentBehind fuel (distance + 1)
      else return if c = '#' then some distance else none

/-- Passes a comment behind a token, unless the line has ended since. -/
def passCommentBehind : CursorM Unit := do
  if !(← get).broken then
    match ← commentBehind commentReach 0 with
    | none => pure ()
    | some distance => passComment ((← place).index + distance) (← fuel)

/-- The distance of a comment that only blanks and line ends separate from the
cursor, looked for from a distance on. What lies behind a line end of more than
one byte is not looked at. -/
def commentBelow : (fuel : Nat) → (distance : Nat) → CursorM (Option Nat)
  | 0, _ => return none
  | fuel + 1, distance => do
    if !(← tryNeed (distance + 1)) then return none
    let cursor ← get
    match cursor.peek (distance - 1), cursor.peek distance with
    | some before, some c =>
      if isBreak before && !isShortBreak before then return none
      else if isBlank c || isBreak c then commentBelow fuel (distance + 1)
      else return if c = '#' then some distance else none
    | _, _ => return none

/-- Passes the comment that comes next and those on the lines below it, up to the
end of the line of the last one. -/
def passComments : (fuel : Nat) → (distance : Nat) → CursorM Unit
  | 0, _ => pure ()
  | steps + 1, distance => do
    passComment ((← place).index + distance) (← fuel)
    match ← commentBelow (commentReach - 1) 1 with
    | none => pure ()
    | some distance => passComments steps distance

end CursorM

end JavaFront.Yaml
