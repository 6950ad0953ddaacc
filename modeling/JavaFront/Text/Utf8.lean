import JavaFront.Text.Bytes

/-!
# Reading characters out of bytes

A text is read as a sequence of runes. Each rune is either one well-formed
encoded character or a single byte that starts none: overlong forms,
surrogates, numbers above the last code point and cut-off sequences all fall
into the second class. Every rune covers at least one byte, so the runes of a
text cover it exactly.
-/

namespace JavaFront

/-- One unit of reading: the code point, the number of bytes it covers and
whether those bytes are well formed. A malformed unit is one byte that stands
for the replacement character. -/
structure Rune where
  code : Nat
  size : Nat
  wellFormed : Bool
deriving DecidableEq, Repr

namespace Rune

/-- The code point that stands for a byte that starts no character. -/
def replacement : Nat := 0xfffd

/-- The unit for a byte that starts no character. -/
def malformed : Rune := ⟨replacement, 1, false⟩

/-- A byte that continues a character, with its six payload bits. -/
def continuation? (low high byte : UInt8) : Option Nat :=
  if low ≤ byte && byte ≤ high then some (byte.toNat % 64) else none

/-- The unit at the front of a text that starts with `first`. -/
def decode (first : UInt8) (rest : Bytes) : Rune :=
  let lead := first.toNat
  if first < 0x80 then ⟨lead, 1, true⟩
  else if 0xc2 ≤ first && first ≤ 0xdf then
    match rest with
    | second :: _ =>
      match continuation? 0x80 0xbf second with
      | some low => ⟨lead % 32 * 64 + low, 2, true⟩
      | none => malformed
    | [] => malformed
  else if 0xe0 ≤ first && first ≤ 0xef then
    let low : UInt8 := if first = 0xe0 then 0xa0 else 0x80
    let high : UInt8 := if first = 0xed then 0x9f else 0xbf
    match rest with
    | second :: third :: _ =>
      match continuation? low high second, continuation? 0x80 0xbf third with
      | some middle, some last => ⟨(lead % 16 * 64 + middle) * 64 + last, 3, true⟩
      | _, _ => malformed
    | _ => malformed
  else if 0xf0 ≤ first && first ≤ 0xf4 then
    let low : UInt8 := if first = 0xf0 then 0x90 else 0x80
    let high : UInt8 := if first = 0xf4 then 0x8f else 0xbf
    match rest with
    | second :: third :: fourth :: _ =>
      match continuation? low high second, continuation? 0x80 0xbf third,
          continuation? 0x80 0xbf fourth with
      | some upper, some middle, some last =>
        ⟨((lead % 8 * 64 + upper) * 64 + middle) * 64 + last, 4, true⟩
      | _, _, _ => malformed
    | _ => malformed
  else malformed

/-- The bytes that encode a code point. -/
def encode (code : Nat) : Bytes :=
  if code < 0x80 then [code.toUInt8]
  else if code < 0x800 then [(0xc0 + code / 64).toUInt8, (0x80 + code % 64).toUInt8]
  else if code < 0x10000 then
    [(0xe0 + code / 4096).toUInt8, (0x80 + code / 64 % 64).toUInt8, (0x80 + code % 64).toUInt8]
  else
    [(0xf0 + code / 262144).toUInt8, (0x80 + code / 4096 % 64).toUInt8,
      (0x80 + code / 64 % 64).toUInt8, (0x80 + code % 64).toUInt8]

/-- The number of UTF-16 units a code point takes. -/
def units16 (rune : Rune) : Nat :=
  if rune.code < 0x10000 then 1 else 2

end Rune

namespace Bytes

/-- The runes of a text whose first `skipped` bytes belong to a rune already
read. -/
def runesAfter : (skipped : Nat) → Bytes → List (Rune × Bytes)
  | _, [] => []
  | skipped + 1, _ :: rest => runesAfter skipped rest
  | 0, first :: rest =>
    let rune := Rune.decode first rest
    (rune, (first :: rest).take rune.size) :: runesAfter (rune.size - 1) rest

/-- The runes of a text in order, each with the bytes it covers. -/
def spelledRunes (text : Bytes) : List (Rune × Bytes) :=
  runesAfter 0 text

/-- The runes of a text in order. -/
def runes (text : Bytes) : List Rune :=
  text.spelledRunes.map Prod.fst

/-- Every byte belongs to a well-formed character. -/
def isValid (text : Bytes) : Bool :=
  text.runes.all (·.wellFormed)

end Bytes

end JavaFront
