import JavaFront.Text.Number
import JavaFront.Text.Utf8

/-!
# Spans of time in texts

A span of time is written as numbers with units, such as `1m30s` or `2.5h`, and
read into nanoseconds.
-/

namespace JavaFront

namespace Duration

/-- Why a text is no span of time. -/
inductive Fault where
  | malformed
  | missingUnit
  | unknownUnit (unit : Bytes)
deriving DecidableEq, Repr

/-- One byte of a text between quotes in a message about a span of time. -/
def quoteByte (byte : UInt8) : Bytes :=
  if byte < 0x20 || 0x80 ≤ byte then Bytes.ofString "\\x" ++ Bytes.hex 2 byte.toNat
  else if byte = 0x22 || byte = 0x5c then [0x5c, byte]
  else [byte]

/-- A text between quotes in a message about a span of time. -/
def quote (text : Bytes) : Bytes :=
  [0x22] ++ text.flatMap quoteByte ++ [0x22]

/-- The wording of why a text is no span of time. -/
def Fault.message (text : Bytes) : Fault → Bytes
  | .malformed => Bytes.ofString "time: invalid duration " ++ quote text
  | .missingUnit => Bytes.ofString "time: missing unit in duration " ++ quote text
  | .unknownUnit unit =>
    Bytes.ofString "time: unknown unit " ++ quote unit ++ Bytes.ofString " in duration " ++
      quote text

/-- The nanoseconds of a unit. -/
def unit? (name : Bytes) : Option Nat :=
  ([("ns", 1), ("us", 1000), ("\u00b5s", 1000), ("\u03bcs", 1000), ("ms", 1000000),
    ("s", 1000000000), ("m", 60000000000), ("h", 3600000000000)].find? fun unit =>
      Bytes.ofString unit.1 = name).map Prod.snd

/-- The largest number of nanoseconds, and of any unit. -/
def limit : Nat := 9223372036854775808

/-- The digits of a fraction as far as they fit into a word, and the power of ten
they count in. -/
def fraction : (value : Nat) → (scale : Float) → Bytes → Nat × Float
  | value, scale, [] => (value, scale)
  | value, scale, byte :: rest =>
    let next := value * 10 + (byte.toNat - 0x30)
    if (limit - 1) / 10 < value || limit < next then (value, scale)
    else fraction next (scale * 10) rest

/-- A byte of a number with a fraction. -/
def isNumeric (byte : UInt8) : Bool :=
  byte = 0x2e || Bytes.isDigit byte

/-- The nanoseconds of the numbers with units in a text, added to `total`. -/
def sum : (fuel : Nat) → (total : Nat) → Bytes → Except Fault Nat
  | 0, _, _ => .error .malformed
  | fuel + 1, total, text =>
    if text.isEmpty then .ok total
    else
      let (whole, rest) := text.span Bytes.isDigit
      let (decimals, rest) :=
        match rest with
        | byte :: behind => if byte = 0x2e then behind.span Bytes.isDigit else ([], rest)
        | [] => ([], rest)
      if limit < Bytes.decimalValue whole || (whole.isEmpty && decimals.isEmpty) then
        .error .malformed
      else
        let (name, rest) := rest.span fun byte => !isNumeric byte
        if name.isEmpty then .error .missingUnit
        else
          match unit? name with
          | none => .error (.unknownUnit name)
          | some unit =>
            let (part, scale) := fraction 0 1.0 decimals
            let extra := (Float.ofNat part * (Float.ofNat unit / scale)).toUInt64.toNat
            let count := Bytes.decimalValue whole
            let value := count * unit + extra
            if limit / unit < count || limit < value || limit < total + value then
              .error .malformed
            else sum fuel (total + value) rest

end Duration

/-- The nanoseconds of a span of time. -/
def Bytes.toDuration (text : Bytes) : Except Duration.Fault Int :=
  let (negative, unsigned) := splitSign text
  if unsigned = Bytes.ofString "0" then .ok 0
  else if unsigned.isEmpty then .error .malformed
  else
    match Duration.sum (unsigned.length + 1) 0 unsigned with
    | .error fault => .error fault
    | .ok total =>
      if negative then .ok (-(total : Int))
      else if Duration.limit ≤ total then .error .malformed
      else .ok total

end JavaFront
