import JavaFront.Yaml.Scalar

/-!
# Spellings of tags and directives

A tag is an address, written in full between angles or as a handle and a suffix.
What a handle stands for is told by a directive in front of the document. Bytes
of an address can be written as a percent sign and two hexadecimal digits; they
have the outer form of an encoded character, and need not encode one.
-/

namespace JavaFront.Yaml

open CursorM

/-- Characters as a text. -/
def textOf (characters : List Char) : Bytes :=
  Bytes.ofString (String.ofList characters)

/-! ## Handles and addresses -/

/-- Reads the handle of a tag: a word between exclamation marks, or only the
first mark and what follows it. -/
def readHandle (directive : Bool) (start : Mark) : CursorM Bytes := do
  need 1
  if !(← get).sees '!' then fail start "did not find expected '!'"
  else
    pass
    let word ← takeWhile isWord
    if (← get).sees '!' then
      pass
      return textOf ('!' :: word ++ ['!'])
    else if directive && !word.isEmpty then fail start "did not find expected '!'"
    else return textOf ('!' :: word)

/-- Characters of addresses. -/
def isAddressCharacter (c : Char) : Bool :=
  isWord c || ";/?:@&=+$,.!~*'()[]%".toList.contains c

/-- Reads a byte written as a percent sign and two hexadecimal digits. -/
def readEscapedByte (start : Mark) : CursorM UInt8 := do
  need 3
  let cursor ← get
  match cursor.sees '%', hexNumber? 2 0 (cursor.ahead.drop 1) with
  | true, some value => return value.toUInt8
  | _, _ => fail start "did not find URI escaped octet"

/-- Reads the further bytes of an escaped character behind `text`, the last byte
first. -/
def readFurtherBytes (start : Mark) : (count : Nat) → (text : Bytes) → CursorM Bytes
  | 0, text => return text
  | count + 1, text => do
    let byte ← readEscapedByte start
    if byte < 0x80 || 0xc0 ≤ byte then fail start "found an incorrect trailing UTF-8 octet"
    else
      passMany 3
      readFurtherBytes start count (byte :: text)

/-- Reads a character written byte by byte behind `text`, the last byte first. -/
def readEscapedCharacter (start : Mark) (text : Bytes) : CursorM Bytes := do
  let first ← readEscapedByte start
  if width first = 0 then fail start "found an incorrect leading UTF-8 octet"
  else
    passMany 3
    readFurtherBytes start (width first - 1) (first :: text)

/-- Reads the rest of an address behind the text read so far, the last byte first,
and tells whether there is any. -/
def readAddressFrom (start : Mark) :
    (fuel : Nat) → (found : Bool) → (text : Bytes) → CursorM (Bytes × Bool)
  | 0, found, text => return (text, found)
  | fuel + 1, found, text => do
    match (← get).peek with
    | none => return (text, found)
    | some c =>
      if !isAddressCharacter c then return (text, found)
      else
        let text ←
          if c = '%' then readEscapedCharacter start text
          else do
            pass
            pure (c.toNat.toUInt8 :: text)
        need 1
        readAddressFrom start fuel true text

/-- Reads an address that follows `head`, of which the first mark does not
count. -/
def readAddress (start : Mark) (head : Bytes) : CursorM Bytes := do
  need 1
  let (text, found) ← readAddressFrom start (← fuel) (!head.isEmpty) (head.drop 1).reverse
  if !found then fail start "did not find expected tag URI"
  return text.reverse

/-- Reads a tag: its handle and its suffix. A tag written in full has no handle. -/
def readTagParts (start : Mark) : CursorM (Bytes × Bytes) := do
  need 2
  if (← get).sees '<' 1 then
    passMany 2
    let address ← readAddress start []
    if !(← get).sees '>' then fail start "did not find the expected '>'"
    pass
    return ([], address)
  else
    let handle ← readHandle false start
    if 1 < handle.length && handle.getLast? = some 0x21 then
      return (handle, ← readAddress start [])
    else
      let suffix ← readAddress start handle
      return if suffix.isEmpty then ([], handle) else ([0x21], suffix)

/-- Reads a tag, which a blank or a line end has to follow. -/
def readTag : CursorM (Bytes × Bytes) := do
  let start ← place
  let parts ← readTagParts start
  need 1
  if !(← get).atGap then fail start "did not find expected whitespace or line break"
  return parts

/-! ## Directives -/

/-- What a line that starts with a percent sign says. -/
inductive Directive where
  | version (major minor : Nat)
  | shorthand (handle address : Bytes)
deriving DecidableEq, Repr

/-- Reads the digits of one part of the number of a version. -/
def readVersionDigits (start : Mark) : (fuel : Nat) → (length value : Nat) → CursorM (Nat × Nat)
  | 0, length, value => return (length, value)
  | fuel + 1, length, value => do
    match (← get).peek with
    | none => return (length, value)
    | some c =>
      if !c.isDigit then return (length, value)
      else if 2 ≤ length then fail start "found extremely long version number"
      else
        pass
        need 1
        readVersionDigits start fuel (length + 1) (value * 10 + (c.toNat - 48))

/-- Reads one part of the number of a version. -/
def readVersionPart (start : Mark) : CursorM Nat := do
  need 1
  let (length, value) ← readVersionDigits start 3 0 0
  if length = 0 then fail start "did not find expected version number"
  return value

/-- Reads what follows the name of a directive. -/
def readDirectiveValue (start : Mark) (name : List Char) : CursorM Directive := do
  if name = "YAML".toList then
    passBlanks
    let major ← readVersionPart start
    if !(← get).sees '.' then fail start "did not find expected digit or '.' character"
    pass
    return .version major (← readVersionPart start)
  else if name = "TAG".toList then
    passBlanks
    let handle ← readHandle true start
    need 1
    if !(← get).atBlank then fail start "did not find expected whitespace"
    passBlanks
    let address ← readAddress start []
    need 1
    if !(← get).atGap then fail start "did not find expected whitespace or line break"
    return .shorthand handle address
  else fail start "found unknown directive name"

/-- Reads a line that starts with a percent sign, and tells where what it says
ends. -/
def readDirective : CursorM (Directive × Mark) := do
  let start ← place
  pass
  let name ← takeWhile isWord
  if name.isEmpty then fail start "could not find expected directive name"
  if !(← get).atGap then fail start "found unexpected non-alphabetical character"
  let directive ← readDirectiveValue start name
  let stop ← place
  passBlanks
  if (← get).sees '#' then passLine
  if !(← get).atLineEnd then fail start "did not find expected comment or line break"
  if (← get).atBreak then passBreak
  return (directive, stop)

end JavaFront.Yaml
