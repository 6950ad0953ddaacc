import JavaFront.Text.Bytes

/-!
# Source texts and positions

A source is the immutable text of one compilation unit together with the index
of its line starts. Lines end at a line feed, at a carriage return, or at the
two in a row, which count once.

Positions arise in two ways. `Pos.advance` walks a position over the bytes it
passes; `Source.position` looks an offset up in the line index. Both count a
carriage return that is followed by a line feed as part of the line it ends.
-/

namespace JavaFront

/-- A place in a text: the offset in bytes from zero, line and column from one.
Columns count bytes. -/
structure Pos where
  offset : Nat
  line : Nat
  column : Nat
deriving DecidableEq, Repr

namespace Pos

/-- The start of every text. -/
def origin : Pos := ⟨0, 1, 1⟩

/-- The place after one byte, given the byte that follows it. -/
def step (pos : Pos) (byte : UInt8) (next? : Option UInt8) : Pos :=
  if byte = 0x0a || (byte = 0x0d && next? != some 0x0a) then
    ⟨pos.offset + 1, pos.line + 1, 1⟩
  else
    ⟨pos.offset + 1, pos.line, pos.column + 1⟩

/-- The place after the bytes `passed`, which `rest` follows in the text. -/
def advance (pos : Pos) : (passed rest : Bytes) → Pos
  | [], _ => pos
  | byte :: passed, rest =>
    advance (pos.step byte (passed.head?.or rest.head?)) passed rest

end Pos

/-- The half-open stretch of text from `start` up to `stop`. -/
structure Span where
  start : Pos
  stop : Pos
deriving DecidableEq, Repr

namespace Span

/-- The empty stretch at a place. -/
def empty (pos : Pos) : Span := ⟨pos, pos⟩

/-- The signed number of bytes from the start to the stop. -/
def length (span : Span) : Int :=
  (span.stop.offset : Int) - span.start.offset

/-- The other stretch lies inside this one. -/
def contains (span other : Span) : Bool :=
  span.start.offset ≤ other.start.offset && other.stop.offset ≤ span.stop.offset

end Span

/-- A position as messages show it: file name, line and column, or line and
column alone for a text without a name. -/
def showPlace (file : Bytes) (line column : Int) : Bytes :=
  let place := Bytes.ofInt line ++ [0x3a] ++ Bytes.ofInt column
  if file.isEmpty then place else file ++ [0x3a] ++ place

/-- The offsets at which lines start after the first, in a text whose first
byte has the given offset. -/
def lineStartsFrom (offset : Nat) : Bytes → List Nat
  | [] => []
  | byte :: rest =>
    if byte = 0x0a || (byte = 0x0d && rest.head? != some 0x0a) then
      (offset + 1) :: lineStartsFrom (offset + 1) rest
    else
      lineStartsFrom (offset + 1) rest

/-- The offsets at which the lines of a text start. -/
def lineStarts (text : Bytes) : List Nat :=
  0 :: lineStartsFrom 0 text

/-- The text of one compilation unit, its name and its line index. -/
structure Source where
  file : Bytes
  text : Bytes
  starts : List Nat := lineStarts text
  starts_eq : starts = lineStarts text := by rfl

namespace Source

/-- The source with the given name and text. -/
def of (file text : Bytes) : Source :=
  { file, text }

/-- The number of bytes. -/
def size (source : Source) : Nat :=
  source.text.length

/-- The number of lines; a text always has at least one. -/
def lineCount (source : Source) : Nat :=
  source.starts.length

/-- An offset moved to the nearest one inside the text. -/
def clamp (source : Source) (offset : Int) : Nat :=
  min offset.toNat source.size

/-- The full position of an offset, which is first moved into the text. -/
def position (source : Source) (offset : Int) : Pos :=
  let offset := source.clamp offset
  let passed := source.starts.takeWhile (· ≤ offset)
  ⟨offset, passed.length, offset - passed.getLastD 0 + 1⟩

/-- The text between two offsets as far as it lies inside the source. -/
def slice (source : Source) (start stop : Int) : Bytes :=
  source.text.slice start.toNat stop.toNat

/-- A byte that ends a line or is part of what ends it. -/
def isLineEnd (byte : UInt8) : Bool :=
  byte = 0x0a || byte = 0x0d

/-- The text of a line, counted from one, without what ends it. Lines that do
not exist are empty. -/
def line (source : Source) (number : Int) : Bytes :=
  if number < 1 then []
  else
    match source.starts.drop (number.toNat - 1) with
    | [] => []
    | [start] => Bytes.trimEnd isLineEnd (source.text.drop start)
    | start :: stop :: _ => Bytes.trimEnd isLineEnd (source.text.slice start stop)

end Source

end JavaFront
