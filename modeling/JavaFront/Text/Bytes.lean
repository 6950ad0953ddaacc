/-!
# Texts as byte strings

Source texts, file names and messages are byte strings. A text may hold bytes
that decode to no character, and every operation that cuts or compares texts
counts bytes, so the byte is the unit throughout the library.
-/

namespace JavaFront

/-- A text: its bytes in order. -/
abbrev Bytes := List UInt8

namespace Bytes

/-- The bytes that encode a character string. -/
def ofString (text : String) : Bytes :=
  text.toUTF8.data.toList

instance : Coe String Bytes where
  coe := ofString

/-- The decimal digits of a natural number. -/
def ofNat (n : Nat) : Bytes :=
  (Nat.toDigits 10 n).map fun digit => digit.toNat.toUInt8

/-- The decimal digits of an integer, after a minus sign if it is negative. -/
def ofInt : Int → Bytes
  | .ofNat n => ofNat n
  | .negSucc n => 0x2d :: ofNat (n + 1)

/-- The lower-case hexadecimal digit of a number below sixteen. -/
def hexDigit (n : Nat) : UInt8 :=
  if n < 10 then (0x30 + n).toUInt8 else (0x57 + n).toUInt8

/-- A number as exactly `width` lower-case hexadecimal digits, high digits first. -/
def hex : (width : Nat) → Nat → Bytes
  | 0, _ => []
  | width + 1, n => hex width (n / 16) ++ [hexDigit (n % 16)]

/-- Texts one after another with `separator` between neighbours. -/
def join (separator : Bytes) (parts : List Bytes) : Bytes :=
  separator.intercalate parts

/-- The pieces of a text between the occurrences of one byte. There is always
at least one piece. -/
def splitOn (separator : UInt8) : Bytes → List Bytes
  | [] => [[]]
  | byte :: rest =>
    if byte = separator then [] :: splitOn separator rest
    else
      match splitOn separator rest with
      | [] => [[byte]]
      | piece :: pieces => (byte :: piece) :: pieces

/-- The bytes from offset `start` up to, but not including, offset `stop`. -/
def slice (text : Bytes) (start stop : Nat) : Bytes :=
  (text.drop start).take (stop - start)

/-- The text after `beginning` when it starts with it. -/
def after? (beginning : Bytes) (text : Bytes) : Option Bytes :=
  if beginning.isPrefixOf text then some (text.drop beginning.length) else none

/-- The text without `ending` when it stops with it. -/
def before? (ending : Bytes) (text : Bytes) : Option Bytes :=
  if ending.isSuffixOf text then some (text.take (text.length - ending.length)) else none

/-- The offset at which `part` first occurs. -/
def find? (part : Bytes) : Bytes → Option Nat
  | [] => if part.isEmpty then some 0 else none
  | byte :: rest =>
    if part.isPrefixOf (byte :: rest) then some 0 else (find? part rest).map (· + 1)

/-- The text without the longest ending whose bytes all satisfy `drop`. -/
def trimEnd (drop : UInt8 → Bool) (text : Bytes) : Bytes :=
  (text.reverse.dropWhile drop).reverse

/-- A one-byte decimal digit. -/
def isDigit (byte : UInt8) : Bool :=
  0x30 ≤ byte && byte ≤ 0x39

/-- A one-byte hexadecimal digit of either case. -/
def isHexDigit (byte : UInt8) : Bool :=
  isDigit byte || (0x61 ≤ byte && byte ≤ 0x66) || (0x41 ≤ byte && byte ≤ 0x46)

/-- An unaccented letter of either case. -/
def isLetter (byte : UInt8) : Bool :=
  (0x61 ≤ byte && byte ≤ 0x7a) || (0x41 ≤ byte && byte ≤ 0x5a)

/-- The value of a hexadecimal digit; zero for any other byte. -/
def hexValue (byte : UInt8) : Nat :=
  if isDigit byte then byte.toNat - 0x30
  else if 0x61 ≤ byte && byte ≤ 0x66 then byte.toNat - 0x57
  else if 0x41 ≤ byte && byte ≤ 0x46 then byte.toNat - 0x37
  else 0

/-- Unaccented capital letters made small, all other bytes kept. -/
def toLower (text : Bytes) : Bytes :=
  text.map fun byte => if 0x41 ≤ byte && byte ≤ 0x5a then byte + 0x20 else byte

/-- Texts in byte order. -/
def sort (texts : List Bytes) : List Bytes :=
  texts.mergeSort fun first second => decide (first ≤ second)

/-- The texts without those that repeat the one before them. -/
def distinct : List Bytes → List Bytes
  | [] => []
  | [text] => [text]
  | first :: second :: texts =>
    if first = second then distinct (second :: texts) else first :: distinct (second :: texts)

end Bytes

end JavaFront
