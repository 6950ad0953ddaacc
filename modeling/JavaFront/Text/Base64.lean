import JavaFront.Text.Bytes

/-!
# Bytes in base sixty-four

Three bytes are written as four characters of six bits each, and the last group
is filled up with equals signs. Line ends between the characters do not count.
-/

namespace JavaFront.Bytes

/-- The six bits of a character. -/
def sextet? (byte : UInt8) : Option Nat :=
  if 0x41 ≤ byte && byte ≤ 0x5a then some (byte.toNat - 0x41)
  else if 0x61 ≤ byte && byte ≤ 0x7a then some (byte.toNat - 0x61 + 26)
  else if isDigit byte then some (byte.toNat - 0x30 + 52)
  else if byte = 0x2b then some 62
  else if byte = 0x2f then some 63
  else none

/-- The bytes that groups of four characters stand for. -/
def ofGroups : Bytes → Option Bytes
  | [] => some []
  | [a, b, 0x3d, 0x3d] => do
    let value := (← sextet? a) * 64 + (← sextet? b)
    return [(value / 16).toUInt8]
  | [a, b, c, 0x3d] => do
    let value := ((← sextet? a) * 64 + (← sextet? b)) * 64 + (← sextet? c)
    return [(value / 1024).toUInt8, (value / 4).toUInt8]
  | a :: b :: c :: d :: rest => do
    let value := (((← sextet? a) * 64 + (← sextet? b)) * 64 + (← sextet? c)) * 64 + (← sextet? d)
    return (value / 65536).toUInt8 :: (value / 256).toUInt8 :: value.toUInt8 :: (← ofGroups rest)
  | _ => none

/-- The bytes a text in base sixty-four stands for. -/
def ofBase64? (text : Bytes) : Option Bytes :=
  ofGroups (text.filter fun byte => byte ≠ 0x0a && byte ≠ 0x0d)

end JavaFront.Bytes
