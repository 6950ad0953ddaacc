import JavaFront.Listing.Json
import JavaFront.Text.Number

/-!
# A reader for JSON

JSON texts as RFC 8259 has them, read without any knowledge of how they were
written. The reader is strict: it takes no text that the grammar of JSON does
not have, no malformed character and no half of a surrogate pair, and nothing
may stand behind the value.

The budget of a reader is spent on one part of the text each time, so the length
of the text is always enough.
-/

namespace JavaFront.Listing.Json

/-- A value as a JSON text spells it. A number is a whole number and the power of
ten it counts in. The members of an object are kept in order. -/
inductive Value where
  | null
  | truth (value : Bool)
  | number (digits exponent : Int)
  | text (value : Bytes)
  | list (items : List Value)
  | object (members : List (Bytes × Value))

namespace Reader

/-- The characters that may stand between the parts of a value. -/
def isBlank (byte : UInt8) : Bool :=
  byte = 0x20 || byte = 0x09 || byte = 0x0a || byte = 0x0d

/-- The text behind a mark, if only blanks stand in front of the mark. -/
def behind? (mark : UInt8) (text : Bytes) : Option Bytes :=
  match text.dropWhile isBlank with
  | [] => none
  | byte :: rest => if byte = mark then some rest else none

/-! ## Strings -/

/-- The number that four hexadecimal digits spell. -/
def codeUnit? : Bytes → Option (Nat × Bytes)
  | first :: second :: third :: fourth :: rest =>
    let digits := [first, second, third, fourth]
    if digits.all Bytes.isHexDigit then
      some (digits.foldl (fun value digit => value * 16 + Bytes.hexValue digit) 0, rest)
    else none
  | _ => none

/-- The code point that one escape by number spells, or two that make a
surrogate pair. -/
def codePoint? (text : Bytes) : Option (Nat × Bytes) := do
  let (unit, rest) ← codeUnit? text
  if 0xd800 ≤ unit ∧ unit < 0xdc00 then
    let rest ← Bytes.after? "\\u" rest
    let (low, rest) ← codeUnit? rest
    if 0xdc00 ≤ low ∧ low < 0xe000 then
      some (0x10000 + (unit - 0xd800) * 0x400 + (low - 0xdc00), rest)
    else none
  else if 0xdc00 ≤ unit ∧ unit < 0xe000 then none
  else some (unit, rest)

/-- The escapes by letter, each with the character it stands for. -/
def letterEscapes : List (UInt8 × UInt8) :=
  [(0x22, 0x22), (0x5c, 0x5c), (0x2f, 0x2f), (0x62, 0x08), (0x66, 0x0c), (0x6e, 0x0a),
   (0x72, 0x0d), (0x74, 0x09)]

/-- The character that an escape stands for, from behind the backslash. -/
def escape? : Bytes → Option (Bytes × Bytes)
  | [] => none
  | letter :: rest =>
    if letter = 0x75 then (codePoint? rest).map fun (code, rest) => (Rune.encode code, rest)
    else (letterEscapes.lookup letter).map fun character => ([character], rest)

/-- The character at the front of the rest of a string. -/
def character? : Bytes → Option (Bytes × Bytes)
  | [] => none
  | first :: rest =>
    if first = 0x5c then escape? rest
    else if first < 0x20 || first = 0x22 then none
    else
      let rune := Rune.decode first rest
      if rune.wellFormed then
        some ((first :: rest).take rune.size, (first :: rest).drop rune.size)
      else none

/-- The characters of a string up to the quote that closes it. -/
def characters? : (budget : Nat) → Bytes → Option (Bytes × Bytes)
  | 0, _ => none
  | budget + 1, source =>
    if source.head? = some 0x22 then some ([], source.tail)
    else do
      let (character, rest) ← character? source
      let (characters, rest) ← characters? budget rest
      some (character ++ characters, rest)

/-! ## Numbers -/

/-- The digits behind a point, none without a point. -/
def fraction? : Bytes → Option (Bytes × Bytes)
  | [] => some ([], [])
  | mark :: behind =>
    if mark = 0x2e then
      let (digits, rest) := behind.span Bytes.isDigit
      if digits.isEmpty then none else some (digits, rest)
    else some ([], mark :: behind)

/-- The exponent behind its mark, zero without one. -/
def exponent? : Bytes → Option (Int × Bytes)
  | [] => some (0, [])
  | mark :: behind =>
    if mark = 0x65 || mark = 0x45 then
      let (negative, unsigned) := Bytes.splitSign behind
      let (digits, rest) := unsigned.span Bytes.isDigit
      if digits.isEmpty then none
      else
        let size : Int := Bytes.decimalValue digits
        some (if negative then -size else size, rest)
    else some (0, mark :: behind)

/-- A number without its sign. -/
def magnitude? (text : Bytes) : Option ((Nat × Int) × Bytes) := do
  let (whole, rest) := text.span Bytes.isDigit
  if whole.isEmpty || (whole.head? = some 0x30 && 1 < whole.length) then none
  else
    let (fraction, rest) ← fraction? rest
    let (exponent, rest) ← exponent? rest
    some ((Bytes.decimalValue (whole ++ fraction), exponent - fraction.length), rest)

/-- A number. -/
def number? : Bytes → Option (Value × Bytes)
  | [] => none
  | first :: rest =>
    if first = 0x2d then
      (magnitude? rest).map fun ((digits, exponent), rest) => (.number (-digits) exponent, rest)
    else
      (magnitude? (first :: rest)).map fun ((digits, exponent), rest) =>
        (.number digits exponent, rest)

/-! ## Values -/

/-- A word or a number. -/
def plain? (text : Bytes) : Option (Value × Bytes) :=
  if let some rest := Bytes.after? "null" text then some (.null, rest)
  else if let some rest := Bytes.after? "true" text then some (.truth true, rest)
  else if let some rest := Bytes.after? "false" text then some (.truth false, rest)
  else number? text

mutual

/-- The value at the front of a text, and the text behind it. -/
def value? : (budget : Nat) → Bytes → Option (Value × Bytes)
  | 0, _ => none
  | budget + 1, source =>
    if let some rest := behind? 0x22 source then
      (characters? budget rest).map fun (value, rest) => (.text value, rest)
    else if let some rest := behind? 0x5b source then
      if let some rest := behind? 0x5d rest then some (.list [], rest)
      else (items? budget rest).map fun (items, rest) => (.list items, rest)
    else if let some rest := behind? 0x7b source then
      if let some rest := behind? 0x7d rest then some (.object [], rest)
      else (members? budget rest).map fun (members, rest) => (.object members, rest)
    else plain? (source.dropWhile isBlank)

/-- The elements of a list up to the bracket that closes it. -/
def items? : (budget : Nat) → Bytes → Option (List Value × Bytes)
  | 0, _ => none
  | budget + 1, source => do
    let (item, rest) ← value? budget source
    if let some rest := behind? 0x2c rest then
      (items? budget rest).map fun (items, rest) => (item :: items, rest)
    else (behind? 0x5d rest).map fun rest => ([item], rest)

/-- The members of an object up to the brace that closes it. -/
def members? : (budget : Nat) → Bytes → Option (List (Bytes × Value) × Bytes)
  | 0, _ => none
  | budget + 1, source => do
    let rest ← behind? 0x22 source
    let (name, rest) ← characters? budget rest
    let rest ← behind? 0x3a rest
    let (value, rest) ← value? budget rest
    if let some rest := behind? 0x2c rest then
      (members? budget rest).map fun (members, rest) => ((name, value) :: members, rest)
    else (behind? 0x7d rest).map fun rest => ([(name, value)], rest)

end

end Reader

open Reader

/-- The value that a whole text spells. -/
def read? (text : Bytes) : Option Value := do
  let (value, rest) ← value? (text.length + 1) text
  if (rest.dropWhile isBlank).isEmpty then some value else none

end JavaFront.Listing.Json
