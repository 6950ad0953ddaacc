import JavaFront.Text.Quoted

/-!
# Numeric addresses of hosts

A host may be named by numbers. A short address is four decimal numbers below
256 with points between them. A long address is eight groups of at most four
hexadecimal digits with colons between them; two colons in a row stand, once, for
as many groups of zeros as are missing, a short address may take the place of the
last two groups, and a percent sign and the name of a zone may follow.

Nothing here asks for the numbers themselves: reading an address tells whether
it is a short or a long one, or the first thing that is wrong with it.
-/

namespace JavaFront.NetworkAddress

abbrev point : UInt8 := 0x2e
abbrev colon : UInt8 := 0x3a
abbrev percent : UInt8 := 0x25

/-- The two forms of an address. -/
inductive Form where
  | short | long
deriving DecidableEq, Repr

/-- What is wrong with an address. -/
inductive Fault where
  | noAddress | unreadable
  | leadingZero | largeNumber | emptyNumber | manyNumbers | fewNumbers | foreign
  | emptyZone | longGroup | emptyGroup | fewGroups | surplus
  | misplacedNumbers | crowdedNumbers
  | noColon | lastColon | secondGap | emptyGap
deriving DecidableEq, Repr

/-- The wording of what is wrong. -/
def Fault.message : Fault → Bytes
  | .noAddress => "missing IPv6 address"
  | .unreadable => "unable to parse IP"
  | .leadingZero => "IPv4 field has octet with leading zero"
  | .largeNumber => "IPv4 field has value >255"
  | .emptyNumber => "IPv4 field must have at least one digit"
  | .manyNumbers => "IPv4 address too long"
  | .fewNumbers => "IPv4 address too short"
  | .foreign => "unexpected character"
  | .emptyZone => "zone must be a non-empty string"
  | .longGroup => "each group must have 4 or fewer digits"
  | .emptyGroup => "each colon-separated field must have at least one digit"
  | .fewGroups => "address string too short"
  | .surplus => "trailing garbage after address"
  | .misplacedNumbers => "embedded IPv4 address must replace the final 2 fields of the address"
  | .crowdedNumbers => "too many hex fields to fit an embedded IPv4 at the end of the address"
  | .noColon => "unexpected character, want colon"
  | .lastColon => "colon must be followed by more characters"
  | .secondGap => "multiple :: in address"
  | .emptyGap => "the :: must expand to at least one field of zeros"

/-- A fault, and the text from where it was met on; no text if the address as a
whole is at fault. -/
structure Flaw where
  fault : Fault
  rest : Bytes := []
deriving DecidableEq, Repr

/-- A faulty address. -/
structure Error where
  address : Bytes
  flaw : Flaw
deriving DecidableEq, Repr

/-- The wording of a faulty address. -/
def Error.message (error : Error) : Bytes :=
  let place :=
    if error.flaw.rest.isEmpty then []
    else Bytes.ofString " (at " ++ error.flaw.rest.quoted ++ Bytes.ofString ")"
  Bytes.ofString "ParseAddr(" ++ error.address.quoted ++ Bytes.ofString "): " ++
    error.flaw.fault.message ++ place

/-! ## Short addresses -/

/-- Checks the rest of a short address, behind `points` points and the digits of
`number`, if there are any since the last point. -/
def checkNumbers : (points : Nat) → (number : Option Nat) → Bytes → Except Flaw Unit
  | points, _, [] => if points < 3 then .error ⟨.fewNumbers, []⟩ else .ok ()
  | points, number, byte :: rest =>
    if Bytes.isDigit byte then
      let value := number.getD 0 * 10 + Bytes.hexValue byte
      if number = some 0 then .error ⟨.leadingZero, []⟩
      else if 255 < value then .error ⟨.largeNumber, []⟩
      else checkNumbers points (some value) rest
    else if byte = point then
      if number.isNone || rest.isEmpty then .error ⟨.emptyNumber, byte :: rest⟩
      else if points = 3 then .error ⟨.manyNumbers, []⟩
      else checkNumbers (points + 1) none rest
    else .error ⟨.foreign, byte :: rest⟩

/-! ## Long addresses -/

/-- Checks the end of a long address: nothing may be left, and groups are
missing exactly if there is a gap for them. -/
def checkEnd (missing : Nat) (gap : Bool) (rest : Bytes) : Except Flaw Unit :=
  if !rest.isEmpty then .error ⟨.surplus, rest⟩
  else if missing = 0 then
    if gap then .error ⟨.emptyGap, []⟩ else .ok ()
  else if gap then .ok () else .error ⟨.fewGroups, []⟩

/-- Checks the rest of a long address from the start of a group, with `missing`
groups still to come and `gap` telling whether two colons in a row were met. -/
def checkGroups : (missing : Nat) → (gap : Bool) → Bytes → Except Flaw Unit
  | 0, gap, text => checkEnd 0 gap text
  | missing + 1, gap, text =>
    let (digits, rest) := text.span Bytes.isHexDigit
    if 4 < digits.length then .error ⟨.longGroup, text⟩
    else if digits.isEmpty then .error ⟨.emptyGroup, text⟩
    else
      match rest with
      | [] => checkEnd missing gap []
      | byte :: behind =>
        if byte = point then
          if !gap && missing ≠ 1 then .error ⟨.misplacedNumbers, text⟩
          else if missing = 0 then .error ⟨.crowdedNumbers, text⟩
          else do
            checkNumbers 0 none text
            checkEnd (missing - 1) gap []
        else if byte ≠ colon then .error ⟨.noColon, rest⟩
        else
          match behind with
          | [] => .error ⟨.lastColon, rest⟩
          | next :: further =>
            if next ≠ colon then checkGroups missing gap behind
            else if gap then .error ⟨.secondGap, behind⟩
            else if further.isEmpty then checkEnd missing true []
            else checkGroups missing true further

/-- Checks a long address, which may start with a gap and end with a zone. -/
def checkLong (text : Bytes) : Except Flaw Unit :=
  let (groups, zone) := text.span (· ≠ percent)
  if zone = [percent] then .error ⟨.emptyZone, []⟩
  else
    match Bytes.after? [colon, colon] groups with
    | some [] => .ok ()
    | some rest => checkGroups 8 true rest
    | none => checkGroups 8 false groups

/-! ## Both forms -/

/-- The form of an address. The first point, colon or percent sign decides which
form it is read as. -/
def formOf (text : Bytes) : Except Error Form :=
  let flawed := Except.mapError (Error.mk text)
  match List.find? (fun byte => byte = point || byte = colon || byte = percent) text with
  | none => flawed (.error ⟨.unreadable, []⟩)
  | some byte =>
    if byte = point then flawed ((checkNumbers 0 none text).map fun _ => .short)
    else if byte = colon then flawed ((checkLong text).map fun _ => .long)
    else flawed (.error ⟨.noAddress, []⟩)

end JavaFront.NetworkAddress
