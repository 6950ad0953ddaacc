import JavaFront.Tree

/-!
# Outlines

A tree as an indented list of nodes, one on each line, with kinds, the texts of
tokens and the messages of errors, and on request with positions.
-/

namespace JavaFront.Node

/-- The line of one node without its indentation. Positions name the file. -/
def outlineLine (file : Bytes) (positions : Bool) (node : Node) : Bytes :=
  let place (pos : Pos) := showPlace file pos.line pos.column
  let stretch :=
    if positions then
      Bytes.ofString " [" ++ place node.span.start ++ [0x2d] ++ place node.span.stop ++ [0x5d]
    else []
  let token := (node.token.map fun token => 0x20 :: token.text).getD []
  let fault := (node.fault.map fun fault => Bytes.ofString " ERROR: " ++ fault.message).getD []
  Bytes.ofString node.kind.name ++ stretch ++ token ++ fault ++ [0x0a]

/-- A tree as an indented list of its nodes. -/
def outline (file : Bytes) (positions : Bool) (node : Node) : Bytes :=
  node.rows.flatMap fun (depth, node) =>
    List.replicate (2 * depth) 0x20 ++ node.outlineLine file positions

end JavaFront.Node
