import JavaFront.Text.Bytes

/-!
# The distance of words

The distance of two words is the least number of bytes to insert, delete or
replace that turns one into the other. It is computed row by row: the row of a
word holds its distances to all endings of the other word, the longest first.
-/

namespace JavaFront.Bytes

/-- The distances of the empty word to all endings of a word. -/
def emptyRow : Bytes → List Nat
  | [] => [0]
  | _ :: rest => (rest.length + 1) :: emptyRow rest

/-- The row of a word with a byte in front, from the row of the word. -/
def nextRow (byte : UInt8) : Bytes → List Nat → List Nat
  | other :: rest, distance :: row =>
    let shorter := nextRow byte rest row
    let replaced := row.headD 0
    let least := min distance (min (shorter.headD 0) replaced)
    (if byte = other then replaced else least + 1) :: shorter
  | _, row => row.map (· + 1)

/-- The least number of changes that turn one word into another. -/
def distance (first second : Bytes) : Nat :=
  (first.foldr (fun byte row => nextRow byte second row) (emptyRow second)).headD 0

end JavaFront.Bytes
