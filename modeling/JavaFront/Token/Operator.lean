import JavaFront.Token.Stream

/-!
# Composed operators

The lexer reads `<`, `>` and `=` apart so that a `>` can close a list of type
arguments whatever follows it. Where an operator is wanted, runs of them that
touch in the text are put together again, the longest first.
-/

namespace JavaFront.Stream

/-- The token `ahead` places after an index has the given kind and touches the
one before it. -/
def follows (stream : Stream) (index ahead : Nat) (kind : Token.Kind) : Bool :=
  stream.adjacent (index + ahead - 1) && stream.kind (index + ahead) = kind

/-- The operator at an index and the number of tokens it is made of. A token
that starts no composed operator stands for itself. -/
def operator (stream : Stream) (index : Nat) : Token.Kind × Nat :=
  let follows := stream.follows index
  match stream.kind index with
  | .less =>
    if follows 1 .less then
      if follows 2 .assign then (.shiftLeftAssign, 3) else (.shiftLeft, 2)
    else if follows 1 .assign then (.lessEqual, 2)
    else (.less, 1)
  | .greater =>
    if follows 1 .greater then
      if follows 2 .greater then
        if follows 3 .assign then (.unsignedShiftRightAssign, 4) else (.unsignedShiftRight, 3)
      else if follows 2 .assign then (.shiftRightAssign, 3)
      else (.shiftRight, 2)
    else if follows 1 .assign then (.greaterEqual, 2)
    else (.greater, 1)
  | kind => (kind, 1)

/-- The index after some steps, which stops at the end token. -/
def advance (stream : Stream) (index : Nat) : (steps : Nat) → Nat
  | 0 => index
  | steps + 1 => stream.advance (stream.succ index) steps

/-- Several tokens from an index on as one token of the given kind: it runs
from the first to the last of them and its text is theirs in a row. -/
def fuse (stream : Stream) (index : Nat) (kind : Token.Kind) (count : Nat) : Token :=
  let first := stream.get index
  let final := stream.get (stream.advance index (count - 1))
  let parts := (List.range count).map fun ahead => (stream.get (index + ahead)).text
  ⟨kind, ⟨first.span.start, final.span.stop⟩, parts.flatten⟩

/-- The operator at an index as one token. -/
def operatorToken (stream : Stream) (index : Nat) : Token :=
  let (kind, count) := stream.operator index
  stream.fuse index kind count

/-- The index behind the operator at an index. -/
def afterOperator (stream : Stream) (index : Nat) : Nat :=
  stream.advance index (stream.operator index).2

end JavaFront.Stream
