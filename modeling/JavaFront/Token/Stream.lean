import JavaFront.Token.Lexer

/-!
# Token streams

The grammar sees the significant tokens of a source: blanks are dropped, and
each comment is filed with the significant token it stands in front of. A
stream ends with the end token, and reading past it finds it again, so every
index has a token.
-/

namespace JavaFront

/-- A significant token with the comments between it and the one before. -/
structure Stream.Entry where
  token : Token
  comments : List Token
deriving DecidableEq, Repr

/-- The significant tokens of a source: the entries in order, and the end token
behind them. -/
structure Stream where
  entries : Array Stream.Entry
  final : Stream.Entry
deriving DecidableEq, Repr

namespace Stream

/-- Files comments with the significant tokens they precede. The comments met
since the last significant token are `waiting`, the latest first; a list
without an end token gets one at `finish`. -/
def file (finish : Pos) (waiting : List Token) (done : Array Entry) : List Token → Stream
  | [] => ⟨done, ⟨⟨.eof, .empty finish, []⟩, waiting.reverse⟩⟩
  | token :: tokens =>
    if token.kind = .eof then ⟨done, ⟨token, waiting.reverse⟩⟩
    else if token.kind = .whitespace then file finish waiting done tokens
    else if token.kind.isTrivia then file finish (token :: waiting) done tokens
    else file finish [] (done.push ⟨token, waiting.reverse⟩) tokens

/-- The stream of a source. -/
def ofSource (source : Source) : Stream :=
  file (source.position source.size) [] #[] source.tokens

/-- The index of the end token. -/
def last (stream : Stream) : Nat :=
  stream.entries.size

/-- The number of significant tokens, the end token included. -/
def size (stream : Stream) : Nat :=
  stream.last + 1

/-- The entry at an index; indexes past the end find the end token. -/
def entry (stream : Stream) (index : Nat) : Entry :=
  stream.entries[index]?.getD stream.final

/-- The token at an index; indexes past the end find the end token. -/
def get (stream : Stream) (index : Nat) : Token :=
  (stream.entry index).token

/-- The kind of the token at an index. -/
def kind (stream : Stream) (index : Nat) : Token.Kind :=
  (stream.get index).kind

/-- The index after one, which stops at the end token. -/
def succ (stream : Stream) (index : Nat) : Nat :=
  if index < stream.last then index + 1 else index

/-- The tokens at an index and the next one touch in the text. -/
def adjacent (stream : Stream) (index : Nat) : Bool :=
  index < stream.last &&
    (stream.get index).span.stop.offset = (stream.get (index + 1)).span.start.offset

/-- The comments between the token at an index and the one before. -/
def commentsBefore (stream : Stream) (index : Nat) : List Token :=
  if index ≤ stream.last then (stream.entry index).comments else []

/-- The last documentation comment directly in front of the token at an
index. -/
def docBefore? (stream : Stream) (index : Nat) : Option Token :=
  (stream.commentsBefore index).reverse.find? Token.isDoc

/-- All comments in order. -/
def comments (stream : Stream) : List Token :=
  stream.entries.toList.flatMap Entry.comments ++ stream.final.comments

/-- The tokens that match no lexical rule, in order. -/
def lexicalErrors (stream : Stream) : List Token :=
  (stream.entries.toList.map Entry.token).filter (·.kind = .error)

end Stream

/-- A place in a stream. -/
structure Cursor where
  stream : Stream
  index : Nat := 0

namespace Cursor

/-- The token some steps ahead, or behind for a negative number of steps. -/
def peek (cursor : Cursor) (ahead : Int) : Token :=
  cursor.stream.get (cursor.index + ahead).toNat

/-- The cursor on the next token. It never leaves the stream. -/
def advance (cursor : Cursor) : Cursor :=
  { cursor with index := cursor.stream.succ cursor.index }

end Cursor

end JavaFront
