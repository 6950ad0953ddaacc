import JavaFront.Token

/-!
# Diagnostics

A diagnostic says what is wrong at a place of a file. The places of parse
diagnostics are those of tokens; diagnostics from elsewhere may name any place,
so places are integers.
-/

namespace JavaFront

/-- A place a diagnostic points at. -/
structure Place where
  offset : Int
  line : Int
  column : Int
deriving DecidableEq, Repr

/-- A position as a place. -/
def Pos.toPlace (pos : Pos) : Place :=
  ⟨pos.offset, pos.line, pos.column⟩

/-- One problem in a file: where it is, what it is and, for a parse problem,
what was found and what would have been accepted. -/
structure Diagnostic where
  file : Bytes
  start : Place
  stop : Place
  message : Bytes
  found : Bytes := []
  expected : List String := []
deriving DecidableEq, Repr

namespace Diagnostic

/-- Texts as alternatives in order: `a, b or c`. -/
def alternatives (texts : List String) : Bytes :=
  let sorted := (texts.mergeSort fun first second => decide (first ≤ second)).map Bytes.ofString
  match sorted.reverse with
  | [] => []
  | [only] => only
  | final :: others => Bytes.join ", " others.reverse ++ Bytes.ofString " or " ++ final

/-- The message for a token found where others would have been accepted. -/
def unexpected (expected : List String) (found : Token) : Bytes :=
  if expected.isEmpty then Bytes.ofString "unexpected " ++ found.describe
  else
    Bytes.ofString "expected " ++ alternatives expected ++ Bytes.ofString ", found " ++
      found.describe

/-- The message line of a diagnostic: its place and its message. -/
def line (diagnostic : Diagnostic) : Bytes :=
  showPlace diagnostic.file diagnostic.start.line diagnostic.start.column ++
    Bytes.ofString ": " ++ diagnostic.message

end Diagnostic

end JavaFront
