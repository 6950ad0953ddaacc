import JavaFront.Text.Bytes

/-!
# Lists in one line

A list of texts is written as one record of fields with commas between them. A
field that holds a comma, a quote or a line break stands between quotes, and a
quote inside it is written twice.

Lines end with a line feed, with or without a carriage return before it. Empty
lines before the record are passed over, and what follows the record is not
looked at.
-/

namespace JavaFront

namespace Csv

abbrev comma : UInt8 := 0x2c
abbrev quote : UInt8 := 0x22
abbrev lineFeed : UInt8 := 0x0a
abbrev carriageReturn : UInt8 := 0x0d

/-- A place in a text: its line and the byte in that line, both counted from
one. -/
structure Spot where
  line : Nat
  column : Nat
deriving DecidableEq, Repr

/-- The place behind a byte. A line starts only if there is something in it. -/
def Spot.past (spot : Spot) (byte : UInt8) (rest : Bytes) : Spot :=
  if byte = lineFeed && !rest.isEmpty then ⟨spot.line + 1, 1⟩
  else ⟨spot.line, spot.column + 1⟩

/-- Why a text holds no record. Misplaced quotes are told with the line at which
the record starts. -/
inductive Fault where
  | noRecord
  | bareQuote (record : Nat) (spot : Spot)
  | strayQuote (record : Nat) (spot : Spot)
deriving DecidableEq, Repr

/-- The wording of where a record breaks off. -/
def showSpot (record : Nat) (spot : Spot) : Bytes :=
  (if record = spot.line then []
    else Bytes.ofString "record on line " ++ Bytes.ofNat record ++ Bytes.ofString "; ") ++
  Bytes.ofString "parse error on line " ++ Bytes.ofNat spot.line ++
    Bytes.ofString ", column " ++ Bytes.ofNat spot.column ++ Bytes.ofString ": "

/-- The wording of why a text holds no record. -/
def Fault.message : Fault → Bytes
  | .noRecord => "EOF"
  | .bareQuote record spot =>
    showSpot record spot ++ Bytes.ofString "bare \" in non-quoted-field"
  | .strayQuote record spot =>
    showSpot record spot ++ Bytes.ofString "extraneous or missing \" in quoted-field"

/-- A text whose lines end with line feeds alone. A carriage return at the very
end is dropped too. -/
def withLineFeeds : Bytes → Bytes
  | [] => []
  | [byte] => if byte = carriageReturn then [] else [byte]
  | byte :: next :: rest =>
    if byte = carriageReturn && next = lineFeed then lineFeed :: withLineFeeds rest
    else byte :: withLineFeeds (next :: rest)

/-- Where in a field the reading is: before its first byte, among bytes without
quotes, between quotes, or behind a quote that ends the field or stands for
itself. -/
inductive Stage where
  | start | bare | quoted | closing
deriving DecidableEq, Repr

/-- Reads the record that starts at line `record`, given the fields before the
present one and what has been read of that. -/
def fields (record : Nat) : Stage → Spot → List Bytes → Bytes → Bytes →
    Except Fault (List Bytes)
  | .quoted, spot, _, _, [] => .error (.strayQuote record spot)
  | _, _, done, field, [] => .ok (done ++ [field])
  | .quoted, spot, done, field, byte :: rest =>
    let next := spot.past byte rest
    if byte = quote then fields record .closing next done field rest
    else fields record .quoted next done (field ++ [byte]) rest
  | .closing, spot, done, field, byte :: rest =>
    let next := spot.past byte rest
    if byte = quote then fields record .quoted next done (field ++ [byte]) rest
    else if byte = comma then fields record .start next (done ++ [field]) [] rest
    else if byte = lineFeed then .ok (done ++ [field])
    else .error (.strayQuote record ⟨spot.line, spot.column - 1⟩)
  | stage, spot, done, field, byte :: rest =>
    let next := spot.past byte rest
    if byte = comma then fields record .start next (done ++ [field]) [] rest
    else if byte = lineFeed then .ok (done ++ [field])
    else if byte ≠ quote then fields record .bare next done (field ++ [byte]) rest
    else if stage = .start then fields record .quoted next done field rest
    else .error (.bareQuote record spot)

/-- Reads the first record at or after the line. -/
def record (line : Nat) : Bytes → Except Fault (List Bytes)
  | [] => .error .noRecord
  | byte :: rest =>
    if byte = lineFeed then record (line + 1) rest
    else fields line .start ⟨line, 1⟩ [] [] (byte :: rest)

/-- The texts of a list in one line. An empty text is the empty list. -/
def read (text : Bytes) : Except Fault (List Bytes) :=
  if text.isEmpty then .ok [] else record 1 (withLineFeeds text)

end Csv

end JavaFront
