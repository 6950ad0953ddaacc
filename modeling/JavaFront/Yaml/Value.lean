import JavaFront.Text.Number
import JavaFront.Yaml.Problem

/-!
# Values of scalars

A plain scalar means what it looks like: nothing, a truth value, a number, a
date or else a text. A tag in front of a scalar fixes what it means, and a
scalar that cannot mean that is refused. Tags of other kinds leave the text as
it is.
-/

namespace JavaFront.Yaml

/-- What a scalar means. -/
inductive Value where
  | null
  | bool (value : Bool)
  | int (value : Int)
  | float (value : Float)
  | time
  | text (value : Bytes)

/-- The tag of what a scalar means. -/
def Value.tag : Value → Bytes
  | .null => "!!null"
  | .bool _ => "!!bool"
  | .int _ => "!!int"
  | .float _ => "!!float"
  | .time => "!!timestamp"
  | .text _ => "!!str"

/-! ## Dates -/

/-- A number of one or two digits at the front of a text. -/
def shortNumber? : Bytes → Option (Nat × Bytes)
  | [] => none
  | first :: rest =>
    if !Bytes.isDigit first then none
    else
      match rest with
      | second :: behind =>
        if Bytes.isDigit second then
          some ((first.toNat - 0x30) * 10 + (second.toNat - 0x30), behind)
        else some (first.toNat - 0x30, rest)
      | [] => some (first.toNat - 0x30, [])

/-- The number of days of a month. -/
def daysIn (year month : Nat) : Nat :=
  if month = 2 then
    if year % 4 = 0 && (year % 100 ≠ 0 || year % 400 = 0) then 29 else 28
  else if month = 4 || month = 6 || month = 9 || month = 11 then 30
  else 31

/-- The text behind a byte that has to come next. -/
def behindByte? (byte : UInt8) : Bytes → Option Bytes
  | [] => none
  | first :: rest => if first = byte then some rest else none

/-- The text behind a date at its front. -/
def behindDate? (text : Bytes) : Option Bytes := do
  let (year, rest) := text.span Bytes.isDigit
  if year.length ≠ 4 then none
  else
    let (month, rest) ← shortNumber? (← behindByte? 0x2d rest)
    if month < 1 || 12 < month then none
    else
      let (day, rest) ← shortNumber? (← behindByte? 0x2d rest)
      if day < 1 || daysIn (Bytes.decimalValue year) month < day then none else some rest

/-- The text behind a time of day at its front. -/
def behindClock? (text : Bytes) : Option Bytes := do
  let (hour, rest) ← shortNumber? text
  let (minute, rest) ← shortNumber? (← behindByte? 0x3a rest)
  let (second, rest) ← shortNumber? (← behindByte? 0x3a rest)
  if 24 ≤ hour || 60 ≤ minute || 60 ≤ second then none
  else
    match rest with
    | point :: digit :: behind =>
      if (point = 0x2e || point = 0x2c) && Bytes.isDigit digit then
        some (behind.dropWhile Bytes.isDigit)
      else some rest
    | _ => some rest

/-- A text is the offset of a time zone. -/
def isZone (text : Bytes) : Bool :=
  match text with
  | [0x5a] => true
  | [sign, h, hh, colon, m, mm] =>
    (sign = Bytes.plus || sign = Bytes.minus) && colon = 0x3a &&
      [h, hh, m, mm].all Bytes.isDigit && Bytes.decimalValue [h, hh] ≤ 24 &&
      Bytes.decimalValue [m, mm] ≤ 60
  | _ => false

/-- A text is a date, or a date with a time of day behind blanks or, with a time
zone, behind the letter that divides them. -/
def isTime (text : Bytes) : Bool :=
  match behindDate? text with
  | none => false
  | some [] => true
  | some (separator :: clock) =>
    if separator = 0x20 then behindClock? (clock.dropWhile (· = 0x20)) = some []
    else (separator = 0x54 || separator = 0x74) && (behindClock? clock).any isZone

/-! ## Plain scalars -/

/-- The texts that stand for something other than themselves, numbers apart. -/
def word? (text : Bytes) : Option Value :=
  let isOneOf (words : List String) : Bool := words.any fun word => Bytes.ofString word = text
  if isOneOf ["true", "True", "TRUE"] then some (.bool true)
  else if isOneOf ["false", "False", "FALSE"] then some (.bool false)
  else if isOneOf ["", "~", "null", "Null", "NULL"] then some .null
  else if isOneOf [".nan", ".NaN", ".NAN"] then some (.float (0.0 / 0.0))
  else if isOneOf [".inf", ".Inf", ".INF", "+.inf", "+.Inf", "+.INF"] then
    some (.float (1.0 / 0.0))
  else if isOneOf ["-.inf", "-.Inf", "-.INF"] then some (.float (-1.0 / 0.0))
  else none

/-- The whole number a text without underscores spells. -/
def whole? (text : Bytes) : Option Int :=
  match text.toInt with
  | .ok value => some value
  | .error _ =>
    match text.toWord with
    | .ok value => some value
    | .error _ => none

/-- The whole number a text spells behind the mark of base two or eight. -/
def marked? (text : Bytes) : Option Int :=
  let behind (mark : String) (base : Nat) : Option Int :=
    (Bytes.after? mark text).bind fun digits => (Bytes.toIntIn base digits).toOption
  (behind "0b" 2).or (behind "0o" 8)

/-- The number a text spells that starts with a sign or a digit. -/
def number? (text : Bytes) : Option Value :=
  let plain := text.filter (· ≠ Bytes.underscore)
  match whole? plain with
  | some value => some (.int value)
  | none =>
    match (Bytes.toDecimal? plain).bind Bytes.Decimal.toDouble? with
    | some value => some (.float value)
    | none => (marked? plain).map Value.int

/-- What a plain scalar means. Dates are looked for only if `dates` says so. -/
def plainValue (dates : Bool) (text : Bytes) : Value :=
  match word? text with
  | some value => value
  | none =>
    match text with
    | [] => .null
    | first :: _ =>
      if first = 0x2e then
        let plain := text.filter (· ≠ Bytes.underscore)
        if !Bytes.underscoresFit text then .text text
        else
          match (Bytes.toDecimal? plain).bind Bytes.Decimal.toDouble? with
          | some value => .float value
          | none => .text text
      else if Bytes.isDigit first || first = Bytes.plus || first = Bytes.minus then
        if dates && isTime text then .time
        else (number? text).getD (.text text)
      else .text text

/-! ## Tags -/

/-- The tag of a plain scalar that stands for the keys of another mapping. -/
def mergeTag : Bytes := "!!merge"

/-- The tag of texts. -/
def textTag : Bytes := Value.tag (.text [])

/-- The tag of dates. -/
def timeTag : Bytes := Value.tag .time

/-- The tag of numbers that need not be whole. -/
def floatTag : Bytes := Value.tag (.float 0)

/-- The tags that fix what a scalar means, that of texts apart. -/
def definiteTags : List Bytes :=
  [Value.tag (.bool true), Value.tag (.int 0), floatTag, Value.tag .null, timeTag]

/-- What a scalar with a tag means. -/
def valueOf (tag text : Bytes) : Except Problem Value :=
  if !definiteTags.contains tag then .ok (.text text)
  else
    let value := plainValue (tag = timeTag) text
    if value.tag = tag then .ok value
    else
      match value with
      | .int n =>
        if tag = floatTag && -9223372036854775808 ≤ n && n ≤ 9223372036854775807 then
          .ok (.float (Float.ofInt n))
        else .error (refusal value)
      | _ => .error (refusal value)
where
  refusal (value : Value) : Problem :=
    { text := Bytes.ofString "cannot decode " ++ value.tag ++ Bytes.ofString " `" ++ text ++
        Bytes.ofString "` as a " ++ tag }

end JavaFront.Yaml
