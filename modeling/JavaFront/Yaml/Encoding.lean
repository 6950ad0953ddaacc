import JavaFront.Yaml.Problem

/-!
# Encodings of YAML texts

A text is encoded in UTF-8, or in UTF-16 if it starts with a byte-order mark
that says so. It is decoded piece by piece. A character that a piece cuts off is
left for the next one, and is a problem only when there is none.

Control characters other than line ends and tabs may not stand in a text.
-/

namespace JavaFront.Yaml

/-- The encodings of a text. -/
inductive Encoding where
  | utf8
  | utf16 (lowFirst : Bool)
deriving DecidableEq, Repr

/-- What decoding a piece gives: its characters, the bytes left of it, and what is
wrong with the first of these, if anything is. -/
structure Decoded where
  characters : List Char := []
  rest : Bytes := []
  problem : Option Problem := none
deriving DecidableEq, Repr

namespace Decoded

/-- Decoding stops in front of bytes. -/
def stop (rest : Bytes) (problem : Option Problem) : Decoded :=
  { rest, problem }

/-- A character in front of what is decoded behind it. -/
def cons (c : Char) (behind : Decoded) : Decoded :=
  { behind with characters := c :: behind.characters }

end Decoded

/-! ## Characters -/

/-- Code points that may stand in a text. -/
def isAllowed (code : Nat) : Bool :=
  code = 0x09 || code = 0x0a || code = 0x0d || (0x20 ≤ code && code ≤ 0x7e) || code = 0x85 ||
    (0xa0 ≤ code && code ≤ 0xd7ff) || (0xe000 ≤ code && code ≤ 0xfffd) ||
    (0x10000 ≤ code && code ≤ 0x10ffff)

/-- The character of a code point, if it may stand in a text. -/
def permitted (code : Nat) : Except Problem Char :=
  if isAllowed code then .ok (Char.ofNat code)
  else .error { text := "control characters are not allowed" }

/-- The number of bytes a character takes in UTF-8, read off its first byte. -/
def width (first : UInt8) : Nat :=
  if first < 0x80 then 1
  else if 0xc0 ≤ first && first < 0xe0 then 2
  else if 0xe0 ≤ first && first < 0xf0 then 3
  else if 0xf0 ≤ first && first < 0xf8 then 4
  else 0

/-- The payload of the first byte of a character. -/
def payload (first : UInt8) : Nat :=
  match width first with
  | 1 => first.toNat
  | 2 => first.toNat % 32
  | 3 => first.toNat % 16
  | _ => first.toNat % 8

/-- The character encoded by a first byte and as many further ones as it calls
for. -/
def character (first : UInt8) (others : Bytes) : Except Problem Char :=
  if others.any fun byte => byte < 0x80 || 0xc0 ≤ byte then
    .error { text := "invalid trailing UTF-8 octet" }
  else
    let code := others.foldl (fun code byte => code * 64 + byte.toNat % 64) (payload first)
    let least := match others.length with | 0 => 0 | 1 => 0x80 | 2 => 0x800 | _ => 0x10000
    if code < least then .error { text := "invalid length of a UTF-8 sequence" }
    else if (0xd800 ≤ code && code ≤ 0xdfff) || 0x10ffff < code then
      .error { text := "invalid Unicode character" }
    else permitted code

/-- A unit of sixteen bits is the first half of a pair. -/
def isHighHalf (unit : Nat) : Bool :=
  0xd800 ≤ unit && unit < 0xdc00

/-- A unit of sixteen bits is the second half of a pair. -/
def isLowHalf (unit : Nat) : Bool :=
  0xdc00 ≤ unit && unit < 0xe000

/-! ## Pieces -/

/-- Decodes a piece in UTF-8 whose first `skipped` bytes have been read. -/
def decodeUtf8 (last : Bool) : (skipped : Nat) → Bytes → Decoded
  | _, [] => {}
  | skipped + 1, _ :: rest => decodeUtf8 last skipped rest
  | 0, first :: rest =>
    let others := rest.take (width first - 1)
    if width first = 0 then
      .stop (first :: rest) (some { text := "invalid leading UTF-8 octet" })
    else if others.length + 1 < width first then
      .stop (first :: rest)
        (if last then some { text := "incomplete UTF-8 octet sequence" } else none)
    else
      match character first others with
      | .error problem => .stop (first :: rest) (some problem)
      | .ok c => .cons c (decodeUtf8 last (width first - 1) rest)

/-- Decodes a piece in UTF-16. -/
def decodeUtf16 (lowFirst last : Bool) : Bytes → Decoded
  | [] => {}
  | [byte] =>
    .stop [byte] (if last then some { text := "incomplete UTF-16 character" } else none)
  | first :: second :: rest =>
    let unit (first second : UInt8) : Nat :=
      if lowFirst then second.toNat * 256 + first.toNat else first.toNat * 256 + second.toNat
    let high := unit first second
    if isLowHalf high then
      .stop (first :: second :: rest) (some { text := "unexpected low surrogate area" })
    else if isHighHalf high then
      match rest with
      | third :: fourth :: behind =>
        let low := unit third fourth
        if !isLowHalf low then
          .stop (first :: second :: rest) (some { text := "expected low surrogate area" })
        else
          match permitted (0x10000 + high % 1024 * 1024 + low % 1024) with
          | .error problem => .stop (first :: second :: rest) (some problem)
          | .ok c => .cons c (decodeUtf16 lowFirst last behind)
      | _ =>
        .stop (first :: second :: rest)
          (if last then some { text := "incomplete UTF-16 surrogate pair" } else none)
    else
      match permitted high with
      | .error problem => .stop (first :: second :: rest) (some problem)
      | .ok c => .cons c (decodeUtf16 lowFirst last rest)

namespace Encoding

/-- Decodes a piece of a text, the last one or not. -/
def decode (encoding : Encoding) (last : Bool) (piece : Bytes) : Decoded :=
  match encoding with
  | .utf8 => decodeUtf8 last 0 piece
  | .utf16 lowFirst => decodeUtf16 lowFirst last piece

/-- The encoding of a text, and the number of bytes of the mark that tells it. -/
def ofText : Bytes → Encoding × Nat
  | 0xff :: 0xfe :: _ => (.utf16 true, 2)
  | 0xfe :: 0xff :: _ => (.utf16 false, 2)
  | 0xef :: 0xbb :: 0xbf :: _ => (.utf8, 3)
  | _ => (.utf8, 0)

end Encoding

end JavaFront.Yaml
