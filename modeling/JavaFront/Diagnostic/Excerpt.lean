import JavaFront.Diagnostic
import JavaFront.Text.Cluster

/-!
# Excerpts

A diagnostic is shown as a message line and, when its source is at hand, the
offending line of text with a caret under the place and tildes under the rest
of what it is about. Tabs are replaced by blanks up to the next tab stop, and
all widths are counted in terminal cells, so that the caret stands under the
place whatever is in front of it. The cells of a text are counted by a function
that is given, `Bytes.width` unless another one is named.
-/

namespace JavaFront

namespace Excerpt

/-- The distance of tab stops in cells. -/
def tabWidth : Nat := 4

/-- Pieces of a line that had tabs between them, with blanks up to the next tab
stop in place of each tab, and the column reached when starting at `column`. -/
def expandPieces (width : Bytes → Nat) (column : Nat) : List Bytes → Bytes × Nat
  | [] => ([], column)
  | [piece] => (piece, column + width piece)
  | piece :: pieces =>
    let reached := column + width piece
    let pad := tabWidth - reached % tabWidth
    let (text, column) := expandPieces width (reached + pad) pieces
    (piece ++ List.replicate pad 0x20 ++ text, column)

/-- A stretch of a line with its tabs replaced, and the column reached when
starting at `column`. -/
def expandTabs (width : Bytes → Nat) (column : Nat) (text : Bytes) : Bytes × Nat :=
  expandPieces width column (text.splitOn 0x09)

/-- A line as it is shown, and the marker under it: a caret under the byte at
`column`, counted from one, and tildes up to `length` bytes. -/
def ofLine (line : Bytes) (column length : Int) (width : Bytes → Nat := Bytes.width) :
    Bytes × Bytes :=
  let start := min (column - 1).toNat line.length
  let stop := (min (start + length) line.length).toNat
  let (first, before) := expandTabs width 0 (line.take start)
  let (marked, reached) := expandTabs width before (line.slice start stop)
  let (final, _) := expandTabs width reached (line.drop stop)
  let tildes := reached - before - 1
  (first ++ marked ++ final,
    List.replicate before 0x20 ++ [0x5e] ++ List.replicate tildes 0x7e)

end Excerpt

namespace Diagnostic

/-- The number of bytes of its line a diagnostic is about, at least one. -/
def underline (diagnostic : Diagnostic) (line : Bytes) : Int :=
  let start := diagnostic.start.column - 1
  let covered :=
    if diagnostic.stop.line = diagnostic.start.line &&
        diagnostic.start.offset < diagnostic.stop.offset then
      diagnostic.stop.offset - diagnostic.start.offset
    else 1
  let inside := if line.length < start + covered then line.length - start else covered
  max inside 1

/-- A diagnostic as it is shown, with the excerpt if its source is known and
has the line. -/
def render (sources : Bytes → Option Source) (diagnostic : Diagnostic)
    (width : Bytes → Nat := Bytes.width) : Bytes :=
  let header := diagnostic.line ++ [0x0a]
  match sources diagnostic.file with
  | none => header
  | some source =>
    if diagnostic.start.line < 1 || source.lineCount < diagnostic.start.line then header
    else
      let line := source.line diagnostic.start.line
      let (text, marker) :=
        Excerpt.ofLine line diagnostic.start.column (diagnostic.underline line) width
      let indent : Bytes := List.replicate 4 0x20
      header ++ indent ++ text ++ [0x0a] ++ indent ++ marker ++ [0x0a]

/-- Diagnostics as they are shown one after another. -/
def renderAll (sources : Bytes → Option Source) (diagnostics : List Diagnostic)
    (width : Bytes → Nat := Bytes.width) : Bytes :=
  diagnostics.flatMap fun diagnostic => diagnostic.render sources width

end Diagnostic

end JavaFront
