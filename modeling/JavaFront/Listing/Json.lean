import JavaFront.Tree

/-!
# JSON

Trees as JSON texts for other tools. Members of objects keep their order, every
member and element stands on a line of its own, and empty texts and lists are
left out. Strings are written so that they are safe inside a web page: the
characters that could open a tag or an entity are escaped, and bytes that start
no character are written as the replacement character.
-/

namespace JavaFront.Listing

/-- A JSON value of the kinds that occur. -/
inductive Json where
  | text (value : Bytes)
  | number (value : Int)
  | list (items : List Json)
  | object (members : List (String × Json))

namespace Json

/-- An escape by code point, with four digits. -/
def codeEscape (code : Nat) : Bytes :=
  Bytes.ofString "\\u" ++ Bytes.hex 4 code

/-- A rune as it stands in a string. -/
def escapeRune (rune : Rune) (spelling : Bytes) : Bytes :=
  if !rune.wellFormed then Rune.encode Rune.replacement
  else
    match rune.code with
    | 0x22 => [0x5c, 0x22]
    | 0x5c => [0x5c, 0x5c]
    | 0x08 => [0x5c, 0x62]
    | 0x0c => [0x5c, 0x66]
    | 0x0a => [0x5c, 0x6e]
    | 0x0d => [0x5c, 0x72]
    | 0x09 => [0x5c, 0x74]
    | code =>
      if code < 0x20 || code = 0x3c || code = 0x3e || code = 0x26 || code = 0x2028 ||
          code = 0x2029 then codeEscape code
      else spelling

/-- A text as a string. -/
def string (text : Bytes) : Bytes :=
  [0x22] ++ (text.spelledRunes.flatMap fun unit => escapeRune unit.1 unit.2) ++ [0x22]

/-- The line break and blanks in front of something at a depth. -/
def newline (depth : Nat) : Bytes :=
  0x0a :: List.replicate (2 * depth) 0x20

mutual

/-- A value at a depth. -/
def render (depth : Nat) : Json → Bytes
  | .text value => string value
  | .number value => Bytes.ofInt value
  | .list [] => [0x5b, 0x5d]
  | .list (item :: items) =>
    [0x5b] ++ newline (depth + 1) ++ render (depth + 1) item ++ renderItems depth items ++
      newline depth ++ [0x5d]
  | .object [] => [0x7b, 0x7d]
  | .object ((key, value) :: members) =>
    [0x7b] ++ newline (depth + 1) ++ string (Bytes.ofString key) ++ [0x3a, 0x20] ++
      render (depth + 1) value ++ renderMembers depth members ++ newline depth ++ [0x7d]

/-- The further elements of a list, each behind a comma. -/
def renderItems (depth : Nat) : List Json → Bytes
  | [] => []
  | item :: items =>
    [0x2c] ++ newline (depth + 1) ++ render (depth + 1) item ++ renderItems depth items

/-- The further members of an object, each behind a comma. -/
def renderMembers (depth : Nat) : List (String × Json) → Bytes
  | [] => []
  | (key, value) :: members =>
    [0x2c] ++ newline (depth + 1) ++ string (Bytes.ofString key) ++ [0x3a, 0x20] ++
      render (depth + 1) value ++ renderMembers depth members

end

/-- A member that is left out when its text is empty. -/
def textMember (key : String) (value : Bytes) : List (String × Json) :=
  if value.isEmpty then [] else [(key, .text value)]

/-- A member that is left out when its list is empty. -/
def listMember (key : String) (items : List Json) : List (String × Json) :=
  if items.isEmpty then [] else [(key, .list items)]

/-- A position. -/
def ofPos (pos : Pos) : Json :=
  .object [("offset", .number pos.offset), ("line", .number pos.line),
    ("column", .number pos.column)]

/-- The fault of an error node. -/
def ofFault (fault : Node.Fault) : Json :=
  .object ([("message", .text fault.message)] ++
    listMember "expected" (fault.expected.map fun text => .text (Bytes.ofString text)) ++
    textMember "got" fault.got.text)

mutual

/-- A tree. -/
def ofNode : Node → Json
  | ⟨kind, span, children, token, fault, doc⟩ =>
    let node : Node := ⟨kind, span, children, token, fault, doc⟩
    .object ([("kind", .text kind.name), ("category", .text kind.category.name),
      ("span", .object [("start", ofPos span.start), ("end", ofPos span.stop)])] ++
      textMember "token" node.tokenText ++
      textMember "doc" node.docText ++
      (fault.map fun fault => ("error", ofFault fault)).toList ++
      listMember "children" (ofNodes children))

/-- Several trees. -/
def ofNodes : List Node → List Json
  | [] => []
  | node :: nodes => ofNode node :: ofNodes nodes

end

/-- The text for an optional tree, on lines of its own. -/
def document (tree : Option Node) : Bytes :=
  match tree with
  | some node => (ofNode node).render 0 ++ [0x0a]
  | none => "null\n"

end Json

end JavaFront.Listing
