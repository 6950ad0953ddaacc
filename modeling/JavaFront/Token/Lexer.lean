import JavaFront.Text.Category
import JavaFront.Token

/-!
# Reading tokens

`Lexer.scan` reads the one token at the front of a non-empty text and splits
the text there: the token's bytes followed by the rest are the text itself.
It never fails; what matches no rule becomes an error token.

Each reader below takes the text from where it starts and returns what it read
together with the rest. Where alternatives overlap the longest one wins.
-/

namespace JavaFront

/-- A token read from the front of a text: its kind, its bytes and the bytes
that follow it. -/
structure Scan where
  kind : Token.Kind
  text : Bytes
  rest : Bytes
deriving DecidableEq, Repr

namespace Lexer

/-! ## Classes of bytes and characters -/

/-- Blanks between tokens. -/
def isBlank (byte : UInt8) : Bool :=
  byte = 0x20 || byte = 0x09 || byte = 0x0d || byte = 0x0a || byte = 0x0c

/-- Characters at which an identifier may start. -/
def isWordStart (code : Nat) : Bool :=
  if code < 0x80 then
    (0x61 ≤ code && code ≤ 0x7a) || (0x41 ≤ code && code ≤ 0x5a) || code = 0x5f || code = 0x24
  else
    Category.letter.has code || Category.currencySign.has code || Category.connector.has code ||
      Category.letterNumber.has code

/-- Characters with which an identifier may go on. -/
def isWordPart (code : Nat) : Bool :=
  if code < 0x80 then
    isWordStart code || (0x30 ≤ code && code ≤ 0x39) || code ≤ 0x08 ||
      (0x0e ≤ code && code ≤ 0x1b) || code = 0x7f
  else
    isWordStart code || Category.decimalDigit.has code || Category.nonspacingMark.has code ||
      Category.spacingMark.has code || Category.formatControl.has code

/-- A byte after a number and a dot that makes the dot a token of its own: it
starts a name, and is neither an exponent mark nor a suffix. -/
def isFractionStop (byte : UInt8) : Bool :=
  if byte = 0x65 || byte = 0x45 || byte = 0x66 || byte = 0x46 || byte = 0x64 || byte = 0x44 then
    false
  else
    byte = 0x5f || byte = 0x24 || Bytes.isLetter byte || 0x80 ≤ byte

/-- Octal digits. -/
def isOctalDigit (byte : UInt8) : Bool :=
  0x30 ≤ byte && byte ≤ 0x37

/-- Binary digits. -/
def isBinaryDigit (byte : UInt8) : Bool :=
  byte = 0x30 || byte = 0x31

/-- The first byte of a text, or zero at its end. -/
def front (text : Bytes) : UInt8 :=
  text.headD 0

/-- One of two spellings of a letter in front of a text. -/
def startsWith (small capital : UInt8) (text : Bytes) : Bool :=
  front text = small || front text = capital

/-! ## Blanks and comments -/

/-- The longest run of blanks. -/
def blanks (text : Bytes) : Bytes × Bytes :=
  text.span isBlank

/-- A comment up to the end of its line, from behind its two slashes. -/
def lineRest (text : Bytes) : Bytes × Bytes :=
  text.span fun byte => byte != 0x0a && byte != 0x0d

/-- The text up to and with the next asterisk and slash, if there is one. -/
def commentRest? : Bytes → Option (Bytes × Bytes)
  | [] => none
  | byte :: text =>
    if byte = 0x2a && text.head? = some 0x2f then some ([byte, 0x2f], text.drop 1)
    else (commentRest? text).map fun (read, rest) => (byte :: read, rest)

/-! ## Words -/

/-- The longest run of identifier characters. The first `skipped` bytes belong
to a character already accepted. -/
def wordRun : (skipped : Nat) → Bytes → Bytes × Bytes
  | _, [] => ([], [])
  | skipped + 1, byte :: text =>
    let (read, rest) := wordRun skipped text
    (byte :: read, rest)
  | 0, byte :: text =>
    let rune := Rune.decode byte text
    if rune.wellFormed && isWordPart rune.code then
      let (read, rest) := wordRun (rune.size - 1) text
      (byte :: read, rest)
    else
      ([], byte :: text)

/-- An identifier or a reserved word. -/
def word (text : Bytes) : Scan :=
  let (read, rest) := wordRun 0 text
  ⟨.ofWord read, read, rest⟩

/-! ## Numbers -/

/-- The longest run of accepted digits with underscores among them. -/
def digitRun (accept : UInt8 → Bool) (text : Bytes) : Bytes × Bytes :=
  text.span fun byte => accept byte || byte = 0x5f

/-- A run of digits holds a digit and not underscores alone. -/
def hasDigit (run : Bytes) : Bool :=
  run.any (· != 0x5f)

/-- A plus or a minus sign, if one stands in front. -/
def sign : Bytes → Bytes × Bytes
  | byte :: text => if byte = 0x2b || byte = 0x2d then ([byte], text) else ([], byte :: text)
  | [] => ([], [])

/-- The mark, sign and digits of an exponent from its mark on. The flag tells
whether there was a digit. -/
def exponent (text : Bytes) : Bool × Bytes × Bytes :=
  let (signed, rest) := sign (text.drop 1)
  if Bytes.isDigit (front rest) then
    let (digits, rest) := digitRun Bytes.isDigit rest
    (true, text.take 1 ++ signed ++ digits, rest)
  else
    (false, text.take 1 ++ signed, rest)

/-- The dot and digits behind the whole part of a decimal number, if the dot
belongs to the number. -/
def fraction (text : Bytes) : Bytes × Bytes :=
  if front text = 0x2e && front (text.drop 1) != 0x2e && !isFractionStop (front (text.drop 1)) then
    let (digits, rest) := digitRun Bytes.isDigit (text.drop 1)
    (0x2e :: digits, rest)
  else
    ([], text)

/-- The suffix of a decimal number and the kind that follows from it. -/
def decimalSuffix (fractional : Bool) (read text : Bytes) : Scan :=
  if startsWith 0x66 0x46 text then ⟨.floatLiteral, read ++ text.take 1, text.drop 1⟩
  else if startsWith 0x64 0x44 text then ⟨.doubleLiteral, read ++ text.take 1, text.drop 1⟩
  else if startsWith 0x6c 0x4c text && !fractional then
    ⟨.longLiteral, read ++ text.take 1, text.drop 1⟩
  else if fractional then ⟨.doubleLiteral, read, text⟩
  else ⟨.intLiteral, read, text⟩

/-- A decimal number: digits, fraction, exponent and suffix. -/
def decimal (text : Bytes) : Scan :=
  let (whole, text) := digitRun Bytes.isDigit text
  let (decimals, text) := fraction text
  if startsWith 0x65 0x45 text then
    let (complete, power, text) := exponent text
    if complete then decimalSuffix true (whole ++ decimals ++ power) text
    else ⟨.error, whole ++ decimals ++ power, text⟩
  else
    decimalSuffix (!decimals.isEmpty) (whole ++ decimals) text

/-- The dot and digits behind the whole part of a hexadecimal number. -/
def hexFraction (text : Bytes) : Bytes × Bytes :=
  if front text = 0x2e then
    let (digits, rest) := digitRun Bytes.isHexDigit (text.drop 1)
    (0x2e :: digits, rest)
  else ([], text)

/-- A hexadecimal number from its leading zero on. A point needs a binary
exponent, and there has to be a digit on one side of it. -/
def hexadecimal (text : Bytes) : Scan :=
  let (whole, rest) := digitRun Bytes.isHexDigit (text.drop 2)
  let (decimals, rest) := hexFraction rest
  let read := text.take 2 ++ whole ++ decimals
  let checked (kind : Token.Kind) : Token.Kind :=
    if hasDigit whole || hasDigit (decimals.drop 1) then kind else .error
  if startsWith 0x70 0x50 rest then
    let (complete, power, rest) := exponent rest
    let read := read ++ power
    if !complete then ⟨.error, read, rest⟩
    else if startsWith 0x66 0x46 rest then
      ⟨checked .floatLiteral, read ++ rest.take 1, rest.drop 1⟩
    else if startsWith 0x64 0x44 rest then
      ⟨checked .doubleLiteral, read ++ rest.take 1, rest.drop 1⟩
    else ⟨checked .doubleLiteral, read, rest⟩
  else if !decimals.isEmpty then ⟨.error, read, rest⟩
  else if startsWith 0x6c 0x4c rest then
    ⟨checked .longLiteral, read ++ rest.take 1, rest.drop 1⟩
  else ⟨checked .intLiteral, read, rest⟩

/-- A binary number from its leading zero on. -/
def binary (text : Bytes) : Scan :=
  let (digits, rest) := digitRun isBinaryDigit (text.drop 2)
  let read := text.take 2 ++ digits
  let checked (kind : Token.Kind) : Token.Kind := if hasDigit digits then kind else .error
  if startsWith 0x6c 0x4c rest then ⟨checked .longLiteral, read ++ rest.take 1, rest.drop 1⟩
  else ⟨checked .intLiteral, read, rest⟩

/-- A number. -/
def number (text : Bytes) : Scan :=
  if front text = 0x30 && startsWith 0x78 0x58 (text.drop 1) then hexadecimal text
  else if front text = 0x30 && startsWith 0x62 0x42 (text.drop 1) then binary text
  else decimal text

/-! ## Quoted literals -/

/-- Letters that make a one-letter escape. -/
def isEscapeLetter (byte : UInt8) : Bool :=
  byte = 0x62 || byte = 0x74 || byte = 0x6e || byte = 0x66 || byte = 0x72 || byte = 0x73 ||
    byte = 0x22 || byte = 0x27 || byte = 0x5c

/-- An escape from its backslash on, and whether it is a proper one: a letter,
up to three octal digits, or the letter u once or more and four hexadecimal
digits. -/
def escape (text : Bytes) : Bool × Bytes × Bytes :=
  let mark := text.take 1
  let rest := text.drop 1
  let head := front rest
  if isEscapeLetter head then (true, mark ++ rest.take 1, rest.drop 1)
  else if head = 0x75 then
    let (letters, rest) := rest.span (· = 0x75)
    let digits := (rest.take 4).takeWhile Bytes.isHexDigit
    (digits.length = 4, mark ++ letters ++ digits, rest.drop digits.length)
  else if isOctalDigit head then
    let digits := (rest.take (if head ≤ 0x33 then 3 else 2)).takeWhile isOctalDigit
    (true, mark ++ digits, rest.drop digits.length)
  else (false, mark, rest)

/-- The inside of a character literal: one character or one escape, with
whether that is what was found. -/
def character : Bytes → Bool × Bytes × Bytes
  | [] => (false, [], [])
  | byte :: text =>
    if byte = 0x27 || byte = 0x0a || byte = 0x0d then (false, [], byte :: text)
    else if byte = 0x5c then escape (byte :: text)
    else
      let size := (Rune.decode byte text).size
      (true, (byte :: text).take size, (byte :: text).drop size)

/-- A character literal from its opening quote on. Anything but one character
makes an error token up to the closing quote or the end of the line. -/
def characterLiteral (text : Bytes) : Scan :=
  let (proper, inside, rest) := character (text.drop 1)
  let read := text.take 1 ++ inside
  if proper && front rest = 0x27 then ⟨.charLiteral, read ++ rest.take 1, rest.drop 1⟩
  else
    let (skipped, rest) :=
      rest.span fun byte => byte != 0x27 && byte != 0x0a && byte != 0x0d
    if front rest = 0x27 then ⟨.error, read ++ skipped ++ rest.take 1, rest.drop 1⟩
    else ⟨.error, read ++ skipped, rest⟩

/-- A string from behind its opening quote up to and with the closing one, with
whether there is one on the line. A backslash takes the next byte with it. -/
def stringRest : Bytes → Bool × Bytes × Bytes
  | [] => (false, [], [])
  | 0x5c :: escaped :: text =>
    let (closed, read, rest) := stringRest text
    (closed, 0x5c :: escaped :: read, rest)
  | byte :: text =>
    if byte = 0x22 then (true, [byte], text)
    else if byte = 0x0a || byte = 0x0d then (false, [], byte :: text)
    else
      let (closed, read, rest) := stringRest text
      (closed, byte :: read, rest)

/-- A text block from behind its opening quotes up to and with the closing
three, with whether they are there. A backslash takes the next byte with it. -/
def blockRest : Bytes → Bool × Bytes × Bytes
  | [] => (false, [], [])
  | 0x5c :: escaped :: text =>
    let (closed, read, rest) := blockRest text
    (closed, 0x5c :: escaped :: read, rest)
  | byte :: text =>
    if byte = 0x22 && text.take 2 = [0x22, 0x22] then (true, [byte, 0x22, 0x22], text.drop 2)
    else
      let (closed, read, rest) := blockRest text
      (closed, byte :: read, rest)

/-- A string or a text block from its first quote on. -/
def stringLiteral (text : Bytes) : Scan :=
  let opening := if text.take 3 = [0x22, 0x22, 0x22] then 3 else 1
  let (closed, read, rest) :=
    if opening = 3 then blockRest (text.drop 3) else stringRest (text.drop 1)
  ⟨if closed then .stringLiteral else .error, text.take opening ++ read, rest⟩

/-! ## Separators and operators -/

/-- The separators and operators, longer spellings before their beginnings. -/
def operators : List Token.Kind :=
  [.ellipsis,
   .colonColon, .equal, .notEqual, .xorAssign, .starAssign, .slashAssign, .percentAssign,
   .andAnd, .andAssign, .orOr, .orAssign, .increment, .plusAssign, .decrement, .arrow,
   .minusAssign,
   .lparen, .rparen, .lbrace, .rbrace, .lbracket, .rbracket, .semicolon, .comma, .atSign,
   .bitNot, .question, .less, .greater, .dot, .colon, .assign, .bang, .bitXor, .star, .slash,
   .percent, .bitAnd, .bitOr, .plus, .minus]

/-- The longest separator or operator in front, or one byte that is none. -/
def operator (text : Bytes) : Scan :=
  match operators.find? fun kind => (Bytes.ofString kind.name).isPrefixOf text with
  | some kind => ⟨kind, text.take kind.name.utf8ByteSize, text.drop kind.name.utf8ByteSize⟩
  | none => ⟨.error, text.take 1, text.drop 1⟩

/-! ## Tokens -/

/-- The token at the front of a text whose first byte starts a character of
several bytes, or none. -/
def scanWide (byte : UInt8) (rest : Bytes) : Scan :=
  let rune := Rune.decode byte rest
  let text := byte :: rest
  if rune.wellFormed && isWordStart rune.code then word text
  else ⟨.error, text.take rune.size, text.drop rune.size⟩

/-- The token at the front of the non-empty text `byte :: rest`. -/
def scan (byte : UInt8) (rest : Bytes) : Scan :=
  let text := byte :: rest
  if byte = 0x2f && front rest = 0x2f then
    let (read, rest) := lineRest (rest.drop 1)
    ⟨.lineComment, text.take 2 ++ read, rest⟩
  else if byte = 0x2f && front rest = 0x2a then
    match commentRest? (rest.drop 1) with
    | some (read, rest) => ⟨.comment, text.take 2 ++ read, rest⟩
    | none => ⟨.error, text, []⟩
  else if isBlank byte then
    let (read, rest) := blanks text
    ⟨.whitespace, read, rest⟩
  else if 0x80 ≤ byte then scanWide byte rest
  else if isWordStart byte.toNat then word text
  else if Bytes.isDigit byte || (byte = 0x2e && Bytes.isDigit (front rest)) then number text
  else if byte = 0x27 then characterLiteral text
  else if byte = 0x22 then stringLiteral text
  else operator text

end Lexer

namespace Token

/-- The token at the front of a text that starts at `pos`, and the text behind
it. At the end of the text that is the empty end token. -/
def next (pos : Pos) : Bytes → Token × Bytes
  | [] => (⟨.eof, .empty pos, []⟩, [])
  | byte :: text =>
    let scan := Lexer.scan byte text
    (⟨scan.kind, ⟨pos, pos.advance scan.text scan.rest⟩, scan.text⟩, scan.rest)

/-- The tokens of a text that starts at `pos`, the end token last. Every other
token takes at least one byte, so a budget of one step per byte is enough. -/
def listFrom : (budget : Nat) → (pos : Pos) → Bytes → List Token
  | 0, pos, _ => [⟨.eof, .empty pos, []⟩]
  | _ + 1, pos, [] => [⟨.eof, .empty pos, []⟩]
  | budget + 1, pos, byte :: text =>
    let (token, rest) := next pos (byte :: text)
    token :: listFrom budget token.span.stop rest

end Token

namespace Source

/-- Every token of a source, the text between tokens included, the end token
last. -/
def tokens (source : Source) : List Token :=
  Token.listFrom source.size .origin source.text

/-- The one token that starts at an offset, which is first moved into the
text, and the offset behind it. -/
def tokenAt (source : Source) (offset : Int) : Token × Nat :=
  let pos := source.position offset
  let token := (Token.next pos (source.text.drop pos.offset)).1
  (token, token.span.stop.offset)

end Source

end JavaFront
