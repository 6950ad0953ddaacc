import JavaFront.Text.Bytes

/-!
# Numbers in texts

Whole numbers are written in base two, eight, ten or sixteen, as the beginning
of the text says, and may have underscores between their digits. They are read
into words of sixty-four bits. Decimal fractions are read into the nearest
double.
-/

namespace JavaFront

/-- Why a text is no number. -/
inductive NumberFault where
  | malformed | outOfRange
deriving DecidableEq, Repr

/-- The wording of why a text is no number. -/
def NumberFault.message : NumberFault → String
  | .malformed => "invalid syntax"
  | .outOfRange => "value out of range"

namespace Bytes

abbrev underscore : UInt8 := 0x5f
abbrev minus : UInt8 := 0x2d
abbrev plus : UInt8 := 0x2b

/-- A sign in front of a text, and the text behind it. -/
def splitSign : Bytes → Bool × Bytes
  | [] => (false, [])
  | byte :: rest =>
    if byte = minus then (true, rest)
    else if byte = plus then (false, rest)
    else (false, byte :: rest)

/-- The base of a number by its beginning, and its digits. A zero alone makes a
number octal. -/
def splitBase : Bytes → Nat × Bytes
  | 0x30 :: mark :: digit :: rest =>
    if mark = 0x62 || mark = 0x42 then (2, digit :: rest)
    else if mark = 0x6f || mark = 0x4f then (8, digit :: rest)
    else if mark = 0x78 || mark = 0x58 then (16, digit :: rest)
    else (8, mark :: digit :: rest)
  | 0x30 :: rest => (8, rest)
  | text => (10, text)

/-- The value of a digit in bases of up to thirty-six. -/
def digitValue? (byte : UInt8) : Option Nat :=
  if isDigit byte then some (byte.toNat - 0x30)
  else if 0x61 ≤ byte && byte ≤ 0x7a then some (byte.toNat - 0x57)
  else if 0x41 ≤ byte && byte ≤ 0x5a then some (byte.toNat - 0x37)
  else none

/-- One more than the largest word. -/
def wordLimit : Nat := 18446744073709551616

/-- The value of digits behind those that make `value`. Underscores are passed
over if they are allowed. -/
def digitsFrom (base : Nat) (underscores : Bool) : (value : Nat) → Bytes → Except NumberFault Nat
  | value, [] => .ok value
  | value, byte :: rest =>
    if underscores && byte = underscore then digitsFrom base underscores value rest
    else
      match digitValue? byte with
      | none => .error .malformed
      | some digit =>
        if base ≤ digit then .error .malformed
        else if wordLimit ≤ value * base + digit then .error .outOfRange
        else digitsFrom base underscores (value * base + digit) rest

/-- Every underscore stands behind a digit and before one. -/
def underscoresSeparate (isDigit : UInt8 → Bool) : (afterDigit : Bool) → Bytes → Bool
  | _, [] => true
  | _, [byte] => byte ≠ underscore
  | afterDigit, byte :: next :: rest =>
    (byte ≠ underscore || (afterDigit && isDigit next)) &&
      underscoresSeparate isDigit (isDigit byte) (next :: rest)

/-- The underscores of a number stand between digits, or between the mark of its
base and a digit. -/
def underscoresFit (text : Bytes) : Bool :=
  let (base, digits) := splitBase (splitSign text).2
  let marked := base = 2 || base = 16 || (base = 8 && digits.length + 2 = (splitSign text).2.length)
  if marked then
    underscoresSeparate (if base = 16 then isHexDigit else isDigit) true digits
  else underscoresSeparate isDigit false (splitSign text).2

/-- The natural number a text spells in the base it names. -/
def toWord (text : Bytes) : Except NumberFault Nat :=
  if text.isEmpty then .error .malformed
  else
    let (base, digits) := splitBase text
    match digitsFrom base true 0 digits with
    | .error fault => .error fault
    | .ok value =>
      if text.contains underscore && !underscoresFit text then .error .malformed else .ok value

/-- An integer of sixty-four bits by its sign and the outcome of reading its
digits. -/
def signedWord (negative : Bool) : Except NumberFault Nat → Except NumberFault Int
  | .error fault => .error fault
  | .ok value =>
    if negative then
      if value ≤ 9223372036854775808 then .ok (-(value : Int)) else .error .outOfRange
    else if value < 9223372036854775808 then .ok value
    else .error .outOfRange

/-- The integer of sixty-four bits a text spells in the base it names. -/
def toInt (text : Bytes) : Except NumberFault Int :=
  let (negative, digits) := splitSign text
  signedWord negative (toWord digits)

/-- The integer of sixty-four bits a text spells in a given base. -/
def toIntIn (base : Nat) (text : Bytes) : Except NumberFault Int :=
  let (negative, digits) := splitSign text
  if digits.isEmpty then .error .malformed
  else signedWord negative (digitsFrom base false 0 digits)

/-! ## Decimal fractions -/

/-- A decimal number: its sign, its digits and the power of ten they count in. -/
structure Decimal where
  negative : Bool
  digits : Nat
  exponent : Int
deriving DecidableEq, Repr

/-- The value of decimal digits. -/
def decimalValue (digits : Bytes) : Nat :=
  digits.foldl (fun value byte => value * 10 + (byte.toNat - 0x30)) 0

/-- The exponent at the end of a decimal number; zero without one. -/
def exponent? : Bytes → Option Int
  | [] => some 0
  | mark :: rest =>
    if mark = 0x65 || mark = 0x45 then
      let (negative, digits) := splitSign rest
      if digits.isEmpty || !digits.all isDigit then none
      else some (if negative then -(decimalValue digits : Int) else decimalValue digits)
    else none

/-- The decimal number a text spells: a sign, digits with a point before, between
or behind them, and an exponent. -/
def toDecimal? (text : Bytes) : Option Decimal :=
  let (negative, unsigned) := splitSign text
  let (whole, rest) := unsigned.span isDigit
  let (fraction, rest) :=
    match rest with
    | byte :: behind => if byte = 0x2e then behind.span isDigit else ([], rest)
    | [] => ([], rest)
  if whole.isEmpty && fraction.isEmpty then none
  else
    (exponent? rest).map fun exponent =>
      { negative
        digits := decimalValue (whole ++ fraction)
        exponent := exponent - fraction.length }

/-- The double nearest to a decimal number; none if it is too large. -/
def Decimal.toDouble? (decimal : Decimal) : Option Float :=
  let size : Int := (ofNat decimal.digits).length
  let magnitude :=
    if decimal.digits = 0 || decimal.exponent + size < -400 then 0.0
    else if 400 < decimal.exponent + size then 1.0 / 0.0
    else if 0 ≤ decimal.exponent then
      Float.ofScientific (decimal.digits * Nat.pow 10 decimal.exponent.toNat) false 0
    else Float.ofScientific decimal.digits true (-decimal.exponent).toNat
  if magnitude = 1.0 / 0.0 then none else some (if decimal.negative then -magnitude else magnitude)

end Bytes

end JavaFront
