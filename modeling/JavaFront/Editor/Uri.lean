import JavaFront.Editor.NetworkAddress
import JavaFront.Path

/-!
# Addresses of documents

An editor names its documents by addresses. An address that starts with
`file://` names a file: what follows is a host, which is checked and then
ignored, and the path of the file, in which a percent sign and two hexadecimal
digits stand for a byte. A query and a fragment are cut off. Every other address
is taken as a name as it is.
-/

namespace JavaFront.Uri

abbrev percent : UInt8 := 0x25
abbrev colon : UInt8 := 0x3a
abbrev atSign : UInt8 := 0x40

/-- What is wrong with the address of a file. -/
inductive Fault where
  | control
  | escape (text : Bytes)
  | afterHost (text : Bytes)
  | bracket
  | literal
  | address (error : NetworkAddress.Error)
  | hostByte (byte : UInt8)
  | user
deriving DecidableEq, Repr

/-- The wording of what is wrong. -/
def Fault.message : Fault → Bytes
  | .control => "net/url: invalid control character in URL"
  | .escape text => Bytes.ofString "invalid URL escape " ++ text.quoted
  | .afterHost text =>
    Bytes.ofString "invalid port " ++ text.quoted ++ Bytes.ofString " after host"
  | .bracket => "missing ']' in host"
  | .literal => "invalid IP-literal"
  | .address error => Bytes.ofString "invalid host: " ++ error.message
  | .hostByte byte =>
    Bytes.ofString "invalid character " ++ Bytes.quoted [byte] ++ Bytes.ofString " in host name"
  | .user => "net/url: invalid userinfo"

/-- A faulty address: the part of it that was read, and the fault. -/
structure Error where
  uri : Bytes
  fault : Fault
deriving DecidableEq, Repr

/-- The wording of a faulty address. -/
def Error.message (error : Error) : Bytes :=
  Bytes.ofString "parse " ++ error.uri.quoted ++ Bytes.ofString ": " ++ error.fault.message

/-! ## Escapes -/

/-- Parts of an address with rules of their own on what may stand in them. -/
inductive Part where
  | host | zone | free
deriving DecidableEq, Repr

/-- A byte that may stand in a host as it is. -/
def isHostByte (byte : UInt8) : Bool :=
  Bytes.isLetter byte || Bytes.isDigit byte || 0x80 ≤ byte ||
    (Bytes.ofString "!$&'()*+,;=:[]<>\"-_.~").contains byte

/-- A byte that may stand in a part as it is. -/
def Part.takes (part : Part) (byte : UInt8) : Bool :=
  part = .free || isHostByte byte

/-- A byte that may be written with an escape in a part. In a host that is so
for bytes beyond the first half and the percent sign; in the name of a zone
also for blanks and what a host may hold. -/
def Part.takesEscaped (part : Part) (byte : UInt8) : Bool :=
  match part with
  | .free => true
  | .host => 0x80 ≤ byte || byte = percent
  | .zone => byte = percent || byte = 0x20 || (isHostByte byte && byte < 0x80)

/-- A part of an address with its escapes replaced by the bytes they stand for. -/
def decode (part : Part) : Bytes → Except Fault Bytes
  | [] => .ok []
  | byte :: rest =>
    if byte = percent then
      match rest with
      | high :: low :: behind =>
        if Bytes.isHexDigit high && Bytes.isHexDigit low then
          let value := (Bytes.hexValue high * 16 + Bytes.hexValue low).toUInt8
          if part.takesEscaped value then (decode part behind).map (value :: ·)
          else .error (.escape [byte, high, low])
        else .error (.escape [byte, high, low])
      | _ => .error (.escape (byte :: rest))
    else if part.takes byte then (decode part rest).map (byte :: ·)
    else .error (.hostByte byte)

/-! ## Hosts -/

/-- The text before and behind the last occurrence of a byte. -/
def splitLast? (byte : UInt8) (text : Bytes) : Option (Bytes × Bytes) :=
  match text.reverse.span (· ≠ byte) with
  | (_, []) => none
  | (behind, _ :: before) => some (before.reverse, behind.reverse)

/-- What may follow the name of a host: nothing, or a colon and digits. -/
def mayFollowHost : Bytes → Bool
  | [] => true
  | byte :: digits => byte = colon && digits.all Bytes.isDigit

/-- A numeric address with its escapes replaced. What follows the first escaped
percent sign is the name of a zone. -/
def decodeNumeric (text : Bytes) : Except Fault Bytes :=
  match Bytes.find? "%25" text with
  | none => decode .host text
  | some zone => do
    let numbers ← decode .host (text.take zone)
    let zone ← decode .zone (text.drop zone)
    return numbers ++ zone

/-- Checks a host from behind its opening bracket: a long numeric address, the
closing bracket, and perhaps a colon and digits. -/
def checkBracketed (text : Bytes) : Except Fault Unit :=
  match splitLast? 0x5d text with
  | none => .error .bracket
  | some (inside, after) =>
    if !mayFollowHost after then .error (.afterHost after)
    else do
      let numeric ← decodeNumeric inside
      match NetworkAddress.formOf numeric with
      | .error error => throw (.address error)
      | .ok .short => throw .literal
      | .ok .long => return ()

/-- Checks the host of an address: a name or a numeric address in brackets, and
perhaps a colon and digits. An opening bracket may stand only at the start. -/
def checkHost (host : Bytes) : Except Fault Unit :=
  match splitLast? 0x5b host with
  | some ([], text) => checkBracketed text
  | some _ => .error .literal
  | none =>
    match splitLast? colon host with
    | some (_, digits) =>
      if mayFollowHost (colon :: digits) then (decode .host host).map fun _ => ()
      else .error (.afterHost (colon :: digits))
    | none => (decode .host host).map fun _ => ()

/-- A byte that may stand in the name or the password of a user. -/
def isUserByte (byte : UInt8) : Bool :=
  Bytes.isLetter byte || Bytes.isDigit byte ||
    (Bytes.ofString "-._:~!$&'()*+,;=%@").contains byte

/-- Checks what stands between the two slashes and the path: perhaps a user, and
the host. -/
def checkAuthority (authority : Bytes) : Except Fault Unit :=
  match splitLast? atSign authority with
  | none => checkHost authority
  | some (user, host) => do
    checkHost host
    if !user.all isUserByte then throw .user
    let (name, password) := user.span (· ≠ colon)
    let _ ← decode .free name
    let _ ← decode .free (password.drop 1)

/-! ## Paths -/

/-- The beginning of an address that names a file. -/
def fileScheme : Bytes := "file://"

/-- A byte that may not stand in an address. -/
def isControl (byte : UInt8) : Bool :=
  byte < 0x20 || byte = 0x7f

/-- The path of the file an address names, from behind its two slashes, with
`whole` the address without its fragment. -/
def filePath (whole rest : Bytes) : Except Fault Bytes :=
  if whole.any isControl then .error .control
  else do
    let (authority, path) := (rest.takeWhile (· ≠ 0x3f)).span (· ≠ Path.slash)
    checkAuthority authority
    decode .free path

/-- The name of the document at an address. -/
def toPath (uri : Bytes) : Except Error Bytes :=
  match Bytes.after? fileScheme uri with
  | none => .ok uri
  | some _ => do
    let (whole, fragment) := uri.span (· ≠ 0x23)
    let path ← (filePath whole (whole.drop fileScheme.length)).mapError (⟨whole, ·⟩)
    let _ ← (decode .free (fragment.drop 1)).mapError (⟨uri, ·⟩)
    return Path.clean path

end JavaFront.Uri
