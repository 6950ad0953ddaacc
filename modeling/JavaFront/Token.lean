import JavaFront.Source
import JavaFront.Text.Quoted

/-!
# Tokens

The lexical vocabulary: the kinds of tokens, their names and classes, and
tokens as kinds with a stretch of text.

The lexer reads `<` and `>` always as tokens of their own. The comparison and
shift operators made of them, and their assignment forms, are composed later
from tokens that touch; their kinds come last.
-/

namespace JavaFront

/-- What a token is. -/
inductive Token.Kind where
  -- end of input, text that matches nothing, and text between tokens
  | eof | error | whitespace | comment | lineComment
  -- names and literals
  | ident | intLiteral | longLiteral | floatLiteral | doubleLiteral | charLiteral | stringLiteral
  | trueLiteral | falseLiteral | nullLiteral
  -- reserved words
  | kwAbstract | kwAssert | kwBoolean | kwBreak | kwByte | kwCase | kwCatch | kwChar | kwClass
  | kwConst | kwContinue | kwDefault | kwDo | kwDouble | kwElse | kwEnum | kwExtends | kwFinal
  | kwFinally | kwFloat | kwFor | kwGoto | kwIf | kwImplements | kwImport | kwInstanceof | kwInt
  | kwInterface | kwLong | kwNative | kwNew | kwPackage | kwPrivate | kwProtected | kwPublic
  | kwReturn | kwShort | kwStatic | kwStrictfp | kwSuper | kwSwitch | kwSynchronized | kwThis
  | kwThrow | kwThrows | kwTransient | kwTry | kwVoid | kwVolatile | kwWhile
  -- separators and operators
  | lparen | rparen | lbrace | rbrace | lbracket | rbracket | semicolon | comma | dot | ellipsis
  | atSign | colonColon | assign | equal | notEqual | less | greater | andAnd | orOr | bang
  | bitAnd | bitOr | bitXor | bitNot | plus | minus | star | slash | percent | increment
  | decrement | question | colon | arrow | plusAssign | minusAssign | starAssign | slashAssign
  | percentAssign | andAssign | orAssign | xorAssign
  -- operators composed of touching tokens
  | lessEqual | greaterEqual | shiftLeft | shiftRight | unsignedShiftRight | shiftLeftAssign
  | shiftRightAssign | unsignedShiftRightAssign
deriving DecidableEq, Repr

namespace Token.Kind

/-- All kinds, in the order of their numbers. -/
def all : List Kind :=
  [.eof, .error, .whitespace, .comment, .lineComment, .ident, .intLiteral, .longLiteral,
   .floatLiteral, .doubleLiteral, .charLiteral, .stringLiteral, .trueLiteral, .falseLiteral,
   .nullLiteral, .kwAbstract, .kwAssert, .kwBoolean, .kwBreak, .kwByte, .kwCase, .kwCatch,
   .kwChar, .kwClass, .kwConst, .kwContinue, .kwDefault, .kwDo, .kwDouble, .kwElse, .kwEnum,
   .kwExtends, .kwFinal, .kwFinally, .kwFloat, .kwFor, .kwGoto, .kwIf, .kwImplements, .kwImport,
   .kwInstanceof, .kwInt, .kwInterface, .kwLong, .kwNative, .kwNew, .kwPackage, .kwPrivate,
   .kwProtected, .kwPublic, .kwReturn, .kwShort, .kwStatic, .kwStrictfp, .kwSuper, .kwSwitch,
   .kwSynchronized, .kwThis, .kwThrow, .kwThrows, .kwTransient, .kwTry, .kwVoid, .kwVolatile,
   .kwWhile, .lparen, .rparen, .lbrace, .rbrace, .lbracket, .rbracket, .semicolon, .comma, .dot,
   .ellipsis, .atSign, .colonColon, .assign, .equal, .notEqual, .less, .greater, .andAnd, .orOr,
   .bang, .bitAnd, .bitOr, .bitXor, .bitNot, .plus, .minus, .star, .slash, .percent, .increment,
   .decrement, .question, .colon, .arrow, .plusAssign, .minusAssign, .starAssign, .slashAssign,
   .percentAssign, .andAssign, .orAssign, .xorAssign, .lessEqual, .greaterEqual, .shiftLeft,
   .shiftRight, .unsignedShiftRight, .shiftLeftAssign, .shiftRightAssign,
   .unsignedShiftRightAssign]

/-- The name of a kind: the spelling of words and operators, a word for the
classes. -/
def name : Kind → String
  | .eof => "EOF"
  | .error => "Error"
  | .whitespace => "Whitespace"
  | .comment => "Comment"
  | .lineComment => "LineComment"
  | .ident => "Identifier"
  | .intLiteral => "IntLiteral"
  | .longLiteral => "LongLiteral"
  | .floatLiteral => "FloatLiteral"
  | .doubleLiteral => "DoubleLiteral"
  | .charLiteral => "CharLiteral"
  | .stringLiteral => "StringLiteral"
  | .trueLiteral => "true"
  | .falseLiteral => "false"
  | .nullLiteral => "null"
  | .kwAbstract => "abstract"
  | .kwAssert => "assert"
  | .kwBoolean => "boolean"
  | .kwBreak => "break"
  | .kwByte => "byte"
  | .kwCase => "case"
  | .kwCatch => "catch"
  | .kwChar => "char"
  | .kwClass => "class"
  | .kwConst => "const"
  | .kwContinue => "continue"
  | .kwDefault => "default"
  | .kwDo => "do"
  | .kwDouble => "double"
  | .kwElse => "else"
  | .kwEnum => "enum"
  | .kwExtends => "extends"
  | .kwFinal => "final"
  | .kwFinally => "finally"
  | .kwFloat => "float"
  | .kwFor => "for"
  | .kwGoto => "goto"
  | .kwIf => "if"
  | .kwImplements => "implements"
  | .kwImport => "import"
  | .kwInstanceof => "instanceof"
  | .kwInt => "int"
  | .kwInterface => "interface"
  | .kwLong => "long"
  | .kwNative => "native"
  | .kwNew => "new"
  | .kwPackage => "package"
  | .kwPrivate => "private"
  | .kwProtected => "protected"
  | .kwPublic => "public"
  | .kwReturn => "return"
  | .kwShort => "short"
  | .kwStatic => "static"
  | .kwStrictfp => "strictfp"
  | .kwSuper => "super"
  | .kwSwitch => "switch"
  | .kwSynchronized => "synchronized"
  | .kwThis => "this"
  | .kwThrow => "throw"
  | .kwThrows => "throws"
  | .kwTransient => "transient"
  | .kwTry => "try"
  | .kwVoid => "void"
  | .kwVolatile => "volatile"
  | .kwWhile => "while"
  | .lparen => "("
  | .rparen => ")"
  | .lbrace => "\x7b"
  | .rbrace => "\x7d"
  | .lbracket => "["
  | .rbracket => "]"
  | .semicolon => ";"
  | .comma => ","
  | .dot => "."
  | .ellipsis => "..."
  | .atSign => "@"
  | .colonColon => "::"
  | .assign => "="
  | .equal => "=="
  | .notEqual => "!="
  | .less => "<"
  | .greater => ">"
  | .andAnd => "&&"
  | .orOr => "||"
  | .bang => "!"
  | .bitAnd => "&"
  | .bitOr => "|"
  | .bitXor => "^"
  | .bitNot => "~"
  | .plus => "+"
  | .minus => "-"
  | .star => "*"
  | .slash => "/"
  | .percent => "%"
  | .increment => "++"
  | .decrement => "--"
  | .question => "?"
  | .colon => ":"
  | .arrow => "->"
  | .plusAssign => "+="
  | .minusAssign => "-="
  | .starAssign => "*="
  | .slashAssign => "/="
  | .percentAssign => "%="
  | .andAssign => "&="
  | .orAssign => "|="
  | .xorAssign => "^="
  | .lessEqual => "<="
  | .greaterEqual => ">="
  | .shiftLeft => "<<"
  | .shiftRight => ">>"
  | .unsignedShiftRight => ">>>"
  | .shiftLeftAssign => "<<="
  | .shiftRightAssign => ">>="
  | .unsignedShiftRightAssign => ">>>="

/-- The reserved words, without the words for literals. -/
def keywords : List Kind :=
  [.kwAbstract, .kwAssert, .kwBoolean, .kwBreak, .kwByte, .kwCase, .kwCatch, .kwChar, .kwClass,
   .kwConst, .kwContinue, .kwDefault, .kwDo, .kwDouble, .kwElse, .kwEnum, .kwExtends, .kwFinal,
   .kwFinally, .kwFloat, .kwFor, .kwGoto, .kwIf, .kwImplements, .kwImport, .kwInstanceof, .kwInt,
   .kwInterface, .kwLong, .kwNative, .kwNew, .kwPackage, .kwPrivate, .kwProtected, .kwPublic,
   .kwReturn, .kwShort, .kwStatic, .kwStrictfp, .kwSuper, .kwSwitch, .kwSynchronized, .kwThis,
   .kwThrow, .kwThrows, .kwTransient, .kwTry, .kwVoid, .kwVolatile, .kwWhile]

/-- Text between tokens, which the grammar does not see. -/
def isTrivia : Kind → Bool
  | .whitespace | .comment | .lineComment => true
  | _ => false

/-- Literals, the words among them included. -/
def isLiteral : Kind → Bool
  | .intLiteral | .longLiteral | .floatLiteral | .doubleLiteral | .charLiteral
  | .stringLiteral | .trueLiteral | .falseLiteral | .nullLiteral => true
  | _ => false

/-- Literals spelled as words. -/
def isWordLiteral : Kind → Bool
  | .trueLiteral | .falseLiteral | .nullLiteral => true
  | _ => false

/-- Reserved words, without the words for literals. -/
def isKeyword (kind : Kind) : Bool :=
  keywords.contains kind

/-- The words for types without parts. -/
def isPrimitiveType : Kind → Bool
  | .kwBoolean | .kwByte | .kwChar | .kwShort | .kwInt | .kwLong | .kwFloat | .kwDouble => true
  | _ => false

/-- The words that are not identifiers: reserved words and word literals. -/
def words : List Kind :=
  keywords ++ [.trueLiteral, .falseLiteral, .nullLiteral]

/-- The kind of a word: its own when it is reserved, else an identifier. -/
def ofWord (word : Bytes) : Kind :=
  (words.find? fun kind => Bytes.ofString kind.name == word).getD .ident

/-- How a message names a kind that would have been accepted. -/
def describe : Kind → String
  | .ident => "identifier"
  | .eof => "end of file"
  | kind => "'" ++ kind.name ++ "'"

end Token.Kind

/-- A kind with the stretch of text it was read from. -/
structure Token where
  kind : Token.Kind
  span : Span
  text : Bytes
deriving DecidableEq, Repr

namespace Token

/-- How a message names a token that was found. -/
def describe (token : Token) : Bytes :=
  if token.kind = .eof then "end of file"
  else if token.kind = .ident || token.kind = .error then
    Bytes.ofString token.kind.name ++ [0x20] ++ token.text.quoted
  else if token.kind.isLiteral && !token.kind.isWordLiteral then
    Bytes.ofString token.kind.name ++ [0x20] ++ token.text
  else
    [0x27] ++ Bytes.ofString token.kind.name ++ [0x27]

/-- A comment that documents what follows it: it opens with two asterisks and
has room for both ends. -/
def isDoc (token : Token) : Bool :=
  token.kind = .comment && 5 ≤ token.text.length && (Bytes.ofString "/**").isPrefixOf token.text

end Token

end JavaFront
