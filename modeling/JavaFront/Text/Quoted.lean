import JavaFront.Text.Printable
import JavaFront.Text.Utf8

/-!
# Quoted texts

A text in a message stands between double quotes. Printable characters stay as
they are; the quote, the backslash and everything that would not show is
written with an escape, so that a message is always one line of readable text.
-/

namespace JavaFront.Bytes

/-- The escape letter of a control character that has one. -/
def escapeLetter? (code : Nat) : Option UInt8 :=
  match code with
  | 0x07 => some 0x61
  | 0x08 => some 0x62
  | 0x0c => some 0x66
  | 0x0a => some 0x6e
  | 0x0d => some 0x72
  | 0x09 => some 0x74
  | 0x0b => some 0x76
  | _ => none

/-- One rune as it stands between quotes of the given kind. -/
def quoteRune (mark : UInt8) (rune : Rune) (spelling : Bytes) : Bytes :=
  if !rune.wellFormed then ofString "\\x" ++ spelling.flatMap fun byte => hex 2 byte.toNat
  else if rune.code = mark.toNat || rune.code = 0x5c then 0x5c :: spelling
  else if isPrintable rune.code then spelling
  else
    match escapeLetter? rune.code with
    | some letter => [0x5c, letter]
    | none =>
      if rune.code < 0x20 || rune.code = 0x7f then ofString "\\x" ++ hex 2 rune.code
      else if rune.code < 0x10000 then ofString "\\u" ++ hex 4 rune.code
      else ofString "\\U" ++ hex 8 rune.code

/-- A text between double quotes with escapes for all that would not show. -/
def quoted (text : Bytes) : Bytes :=
  [0x22] ++ (text.spelledRunes.flatMap fun unit => quoteRune 0x22 unit.1 unit.2) ++ [0x22]

/-- A character between single quotes with an escape if it would not show. -/
def quotedCharacter (code : Nat) : Bytes :=
  let spelling := Rune.encode code
  [0x27] ++ quoteRune 0x27 ⟨code, spelling.length, true⟩ spelling ++ [0x27]

end JavaFront.Bytes
