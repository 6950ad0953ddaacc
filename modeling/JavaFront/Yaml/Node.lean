import JavaFront.Yaml.Token.Lexer
import JavaFront.Yaml.Value

/-!
# Documents

A document is one node: a scalar, a sequence, a mapping or an alias, which
stands for the node that carries its anchor. `load` reads the first document of
a text, and of the text only as much as it takes to know that the document ends.

Nodes are built in steps while tokens are read, so that of two problems the one
that comes first in the text is told. What was found to be wrong with the bytes
while a comment was looked for is told at the end of a step.
-/

namespace JavaFront.Yaml

/-- A node with the line on which it starts, counted from one. The anchor of an
alias may be on a node around it, of which only the tag and the line are kept. -/
inductive Node where
  | scalar (line : Nat) (tag text : Bytes)
  | sequence (line : Nat) (tag : Bytes) (items : List Node)
  | mapping (line : Nat) (tag : Bytes) (pairs : List (Node × Node))
  | alias (line : Nat) (name : Bytes) (target : Node)
  | enclosing (line : Nat) (tag : Bytes) (isMapping : Bool)

namespace Node

/-- The line on which a node starts. -/
def line : Node → Nat
  | .scalar line .. | .sequence line .. | .mapping line .. | .alias line ..
  | .enclosing line .. => line

/-- The tag of a sequence that is given none. -/
def sequenceTag : Bytes := "!!seq"

/-- The tag of a mapping that is given none. -/
def mappingTag : Bytes := "!!map"

end Node

/-- A node that carries an anchor, with the place where it starts. -/
structure Anchored where
  name : Bytes
  index : Nat
  node : Node

/-- The tokens left, the handles of tags with what they stand for, and the nodes
with anchors, the last one first. -/
structure Composer where
  lexer : Lexer
  handles : List (Bytes × Bytes) := []
  anchors : List Anchored := []

/-- Reading with a composer, which may meet a problem. -/
abbrev Compose := StateT Composer (Except Problem)

namespace Compose

/-- Shows the next token. -/
def peek : Compose Token := do
  let composer ← get
  match Lex.peek.run composer.lexer with
  | .error problem => throw problem
  | .ok (token, lexer) =>
    set { composer with lexer }
    return token

/-- Passes the next token. -/
def pop : Compose Unit :=
  modify fun composer => { composer with lexer := composer.lexer.pop }

/-- Passes the next token and shows the one after it. -/
def next : Compose Token := do
  pop
  peek

/-- Ends a step. -/
def finish : Compose Unit := do
  match (← get).lexer.cursor.missed with
  | some problem => throw problem
  | none => pure ()

/-- Passes the next token and ends a step. -/
def popLast : Compose Unit := do
  pop
  finish

/-- Reports a problem with the order of tokens. -/
def fail {α : Type} (start met : Mark) (text : Bytes) : Compose α :=
  throw (.order start met text)

/-- Remembers the anchor of a node that starts at a place. -/
def anchor (name : Option (List Char)) (start : Mark) (node : Node) : Compose Unit :=
  match name with
  | none => pure ()
  | some name => modify fun composer =>
    { composer with anchors := ⟨textOf name, start.index, node⟩ :: composer.anchors }

/-- Completes the node that was remembered when it started. -/
def complete (name : Option (List Char)) (start : Mark) (node : Node) : Compose Node :=
  match name with
  | none => pure node
  | some _ => do
    modify fun composer =>
      { composer with anchors := composer.anchors.map fun anchored =>
          if anchored.index = start.index then { anchored with node } else anchored }
    return node

/-! ## Tags -/

/-- The beginning of the tags of the standard. -/
def standardTag : Bytes := "tag:yaml.org,2002:"

/-- A tag in its short form. -/
def shortTag (tag : Bytes) : Bytes :=
  match Bytes.after? standardTag tag with
  | some name => Bytes.ofString "!!" ++ name
  | none => tag

/-- The full tag of a handle and a suffix. -/
def resolveTag (start met : Mark) (handle suffix : Bytes) : Compose Bytes := do
  if handle.isEmpty then return suffix
  match (← get).handles.lookup handle with
  | some address =>
    if (address ++ suffix).isEmpty then fail start met "found undefined tag handle"
    else return address ++ suffix
  | none => fail start met "found undefined tag handle"

/-- The tag of a node: the one given to it, unless that is empty, or else the one
of its kind. -/
def tagOr (given default : Bytes) : Bytes :=
  if given.isEmpty || given = "!" then default else shortTag given

/-- The tag of a scalar. -/
def scalarTag (given : Bytes) (style : Style) (text : Bytes) : Bytes :=
  tagOr given <|
    match style with
    | .quoted => textTag
    | .plain => if text = "<<" then mergeTag else (plainValue true text).tag

/-- Ends a step that gives an empty scalar at a place. -/
def empty (mark : Mark) : Compose Node := do
  finish
  return .scalar (mark.line + 1) (Value.tag .null) []

/-! ## Nodes -/

/-- The anchor and the tag in front of a node: the anchor, the tag, and the place
where the first of them starts. -/
structure Properties where
  anchor : Option (List Char) := none
  tag : Bytes := []
  start : Mark

/-- Reads the anchor and the tag in front of a node, in either order. -/
def properties : Compose Properties := do
  let first ← peek
  let start := first.start
  match first.kind with
  | .anchor name =>
    match ← next with
    | ⟨.tag handle suffix, mark, _⟩ =>
      let _ ← next
      return { anchor := some name, tag := ← resolveTag start mark handle suffix, start }
    | _ => return { anchor := some name, start }
  | .tag handle suffix =>
    match ← next with
    | ⟨.anchor name, _, _⟩ =>
      let _ ← next
      return { anchor := some name, tag := ← resolveTag start start handle suffix, start }
    | _ => return { tag := ← resolveTag start start handle suffix, start }
  | _ => return { start }

/-- The node an alias stands for. -/
def resolveAlias (token : Token) (name : List Char) : Compose Node := do
  popLast
  match (← get).anchors.find? (·.name = textOf name) with
  | some anchored => return .alias (token.start.line + 1) (textOf name) anchored.node
  | none =>
    throw { text := Bytes.ofString "unknown anchor '" ++ textOf name ++
      Bytes.ofString "' referenced" }

mutual

/-- Reads a node. Blocks are allowed unless brackets are around it; a sequence
may stand at the column of the mapping around it if `indentless` says so. -/
def node (block indentless : Bool) : (fuel : Nat) → Compose Node
  | 0 => throw .unknown
  | fuel + 1 => do
    let first ← peek
    if let .alias name := first.kind then return ← resolveAlias first name
    let given ← properties
    let token ← peek
    let line := given.start.line + 1
    let sequenceTag := tagOr given.tag Node.sequenceTag
    let mappingTag := tagOr given.tag Node.mappingTag
    let asSequence (read : Compose (List Node)) : Compose Node := do
      finish
      anchor given.anchor given.start (.enclosing line sequenceTag false)
      complete given.anchor given.start (.sequence line sequenceTag (← read))
    let asMapping (read : Compose (List (Node × Node))) : Compose Node := do
      finish
      anchor given.anchor given.start (.enclosing line mappingTag true)
      complete given.anchor given.start (.mapping line mappingTag (← read))
    match token.kind with
    | .scalar text style =>
      let text := textOf text
      let node := Node.scalar line (scalarTag given.tag style text) text
      popLast
      anchor given.anchor given.start node
      return node
    | .sequenceStart => asSequence (do pop; flowItems true token.start fuel)
    | .mappingStart => asMapping (do pop; flowPairs true token.start fuel)
    | kind =>
      if indentless && kind = .blockEntry then asSequence (indentlessItems fuel)
      else if block && kind = .blockSequence then
        asSequence (do pop; blockItems token.start fuel)
      else if block && kind = .blockMapping then
        asMapping (do pop; blockPairs token.start fuel)
      else if given.anchor.isSome || !given.tag.isEmpty then
        let node := Node.scalar line (scalarTag given.tag .plain []) []
        finish
        anchor given.anchor given.start node
        return node
      else fail given.start token.start "did not find expected node content"

/-- Reads the items of a block sequence that starts at a place. -/
def blockItems (start : Mark) : (fuel : Nat) → Compose (List Node)
  | 0 => throw .unknown
  | fuel + 1 => do
    let token ← peek
    match token.kind with
    | .blockEntry =>
      let item ←
        match (← next).kind with
        | .blockEntry | .blockEnd => empty token.stop
        | _ => node true false fuel
      return item :: (← blockItems start fuel)
    | .blockEnd => do
      popLast
      return []
    | _ => fail start token.start "did not find expected '-' indicator"

/-- Reads the items of a sequence at the column of the mapping around it. -/
def indentlessItems : (fuel : Nat) → Compose (List Node)
  | 0 => throw .unknown
  | fuel + 1 => do
    let token ← peek
    match token.kind with
    | .blockEntry =>
      let item ←
        match (← next).kind with
        | .blockEntry | .key | .value | .blockEnd => empty token.stop
        | _ => node true false fuel
      return item :: (← indentlessItems fuel)
    | _ => do
      finish
      return []

/-- Reads the pairs of a block mapping that starts at a place. -/
def blockPairs (start : Mark) : (fuel : Nat) → Compose (List (Node × Node))
  | 0 => throw .unknown
  | fuel + 1 => do
    let token ← peek
    match token.kind with
    | .key =>
      let key ←
        match (← next).kind with
        | .key | .value | .blockEnd => empty token.stop
        | _ => node true true fuel
      let value ← blockValue fuel
      return (key, value) :: (← blockPairs start fuel)
    | .blockEnd => do
      popLast
      return []
    | _ => fail start token.start "did not find expected key"

/-- Reads the value of a pair of a block mapping. -/
def blockValue : (fuel : Nat) → Compose Node
  | 0 => throw .unknown
  | fuel + 1 => do
    let token ← peek
    match token.kind with
    | .value =>
      match (← next).kind with
      | .key | .value | .blockEnd => empty token.stop
      | _ => node true true fuel
    | _ => empty token.start

/-- Reads the items of a sequence in brackets that starts at a place. -/
def flowItems (first : Bool) (start : Mark) : (fuel : Nat) → Compose (List Node)
  | 0 => throw .unknown
  | fuel + 1 => do
    let mut token ← peek
    if token.kind ≠ .sequenceEnd && !first then
      if token.kind = .flowEntry then token ← next
      else fail start token.start "did not find expected ',' or ']'"
    match token.kind with
    | .sequenceEnd => do
      popLast
      return []
    | .key => do
      popLast
      let key ← flowKey fuel
      let value ← flowItemValue fuel
      let _ ← peek
      finish
      let pair := Node.mapping (token.start.line + 1) Node.mappingTag [(key, value)]
      return pair :: (← flowItems false start fuel)
    | _ =>
      let item ← node false false fuel
      return item :: (← flowItems false start fuel)

/-- Reads the key of a single pair in brackets. What stands in place of a missing
key is passed with it. -/
def flowKey : (fuel : Nat) → Compose Node
  | 0 => throw .unknown
  | fuel + 1 => do
    let token ← peek
    match token.kind with
    | .value | .flowEntry | .sequenceEnd => do
      pop
      empty token.stop
    | _ => node false false fuel

/-- Reads the value of a single pair in brackets. -/
def flowItemValue : (fuel : Nat) → Compose Node
  | 0 => throw .unknown
  | fuel + 1 => do
    let token ← peek
    match token.kind with
    | .value =>
      match (← next).kind with
      | .flowEntry | .sequenceEnd => empty token.start
      | _ => node false false fuel
    | _ => empty token.start

/-- Reads the pairs of a mapping in braces that starts at a place. -/
def flowPairs (first : Bool) (start : Mark) : (fuel : Nat) → Compose (List (Node × Node))
  | 0 => throw .unknown
  | fuel + 1 => do
    let mut token ← peek
    if token.kind ≠ .mappingEnd && !first then
      if token.kind = .flowEntry then token ← next
      else fail start token.start "did not find expected ',' or '\x7d'"
    match token.kind with
    | .mappingEnd => do
      popLast
      return []
    | .key => do
      let inner ← next
      let key ←
        match inner.kind with
        | .value | .flowEntry | .mappingEnd => empty inner.start
        | _ => node false false fuel
      let value ← flowPairValue fuel
      return (key, value) :: (← flowPairs false start fuel)
    | _ =>
      let key ← node false false fuel
      let value ← empty (← peek).start
      return (key, value) :: (← flowPairs false start fuel)

/-- Reads the value of a pair in braces. -/
def flowPairValue : (fuel : Nat) → Compose Node
  | 0 => throw .unknown
  | fuel + 1 => do
    let token ← peek
    match token.kind with
    | .value =>
      let inner ← next
      match inner.kind with
      | .flowEntry | .mappingEnd => empty inner.start
      | _ => node false false fuel
    | _ => empty token.start

end

/-! ## Documents -/

/-- The handles that every document knows. -/
def standardHandles : List (Bytes × Bytes) :=
  [("!", "!"), ("!!", standardTag)]

/-- Reads the directives in front of a document. -/
def directives : (fuel : Nat) → (versioned : Bool) → Compose Unit
  | 0, _ => throw .unknown
  | fuel + 1, versioned => do
    let token ← peek
    match token.kind with
    | .directive (.version major minor) =>
      if versioned then fail {} token.start "found duplicate %YAML directive"
      if major ≠ 1 || minor ≠ 1 then fail {} token.start "found incompatible YAML document"
      pop
      directives fuel true
    | .directive (.shorthand handle address) =>
      if (← get).handles.any (·.1 = handle) then
        fail {} token.start "found duplicate %TAG directive"
      modify fun composer => { composer with handles := composer.handles ++ [(handle, address)] }
      pop
      directives fuel versioned
    | _ => modify fun composer => { composer with handles := composer.handles ++ standardHandles }

/-- Reads the content of a document behind the mark of its start. -/
def content (fuel : Nat) : Compose Node := do
  let token ← peek
  match token.kind with
  | .directive _ | .documentStart | .documentEnd | .streamEnd => empty token.start
  | _ => node true false fuel

/-- Ends a document with its content. -/
def close (root : Node) : Compose (Option Node) := do
  let _ ← peek
  finish
  return some root

/-- Reads the first document, if there is one, and the token behind it. -/
def document (fuel : Nat) : Compose (Option Node) := do
  let _ ← peek
  popLast
  match (← peek).kind with
  | .streamEnd =>
    finish
    return none
  | .directive _ | .documentStart =>
    directives fuel false
    let token ← peek
    if token.kind ≠ .documentStart then
      fail {} token.start "did not find expected <document start>"
    popLast
    close (← content fuel)
  | _ =>
    directives fuel false
    finish
    close (← node true false fuel)

end Compose

/-- The first document of a text, if there is one. -/
def load (text : Bytes) : Except Problem (Option Node) := do
  let (root, _) ← (Compose.document (4 * text.length + 16)).run { lexer := .ofText text }
  return root

end JavaFront.Yaml
