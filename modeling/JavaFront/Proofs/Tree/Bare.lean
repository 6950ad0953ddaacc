import JavaFront.Parser.Machine
import JavaFront.Proofs.Token.Layout

/-!
# What is left without places

A tree or a diagnostic is bare if it says nothing about where in a file it comes
from. Comments are part of the layout as well, so a bare tree carries none.
-/

namespace JavaFront

/-! ## Trees -/

namespace Node

/-- A fault without the place of the token that was found. -/
def Fault.bare (fault : Fault) : Fault :=
  { fault with got := fault.got.bare }

mutual

/-- A tree without places and comments. -/
def bare : Node → Node
  | ⟨kind, _, children, token, fault, _⟩ =>
    { kind, span := .empty .origin, children := bareAll children, token := token.map Token.bare,
      fault := fault.map Fault.bare }

/-- Trees without places and comments. -/
def bareAll : List Node → List Node
  | [] => []
  | node :: nodes => bare node :: bareAll nodes

end

@[simp]
theorem bareAll_eq (nodes : List Node) : bareAll nodes = nodes.map bare := by
  induction nodes with
  | nil => rfl
  | cons node nodes ih => rw [bareAll, ih, List.map_cons]

theorem bare_eq (node : Node) : node.bare =
    { kind := node.kind, span := .empty .origin, children := node.children.map bare,
      token := node.token.map Token.bare, fault := node.fault.map Fault.bare } := by
  obtain ⟨kind, span, children, token, fault, doc⟩ := node
  rw [bare, bareAll_eq]

variable {node other : Node}

theorem kind_of_bare (same : node.bare = other.bare) : node.kind = other.kind := by
  simp only [bare_eq, Node.mk.injEq] at same
  exact same.1

theorem children_of_bare (same : node.bare = other.bare) :
    node.children.map bare = other.children.map bare := by
  simp only [bare_eq, Node.mk.injEq] at same
  exact same.2.2.1

theorem bare_leaf (kind : Kind) {token twin : Token} (same : token.bare = twin.bare) :
    (leaf kind token).bare = (leaf kind twin).bare := by
  simp only [bare_eq, leaf, Option.map_some, same]

/-- A comment makes no difference to a bare tree. -/
theorem bare_doc (node : Node) (doc : Option Token) : { node with doc }.bare = node.bare := by
  rw [bare_eq, bare_eq node]

end Node

/-- Whether a parameter takes any number of arguments is seen on its bare
tree. -/
theorem Parser.isVariadic_of_bare {node other : Node} (same : node.bare = other.bare) :
    isVariadic node = isVariadic other := by
  have onBare : ∀ node : Node, isVariadic node = isVariadic node.bare := by
    intro node
    rw [Node.bare_eq]
    simp only [isVariadic, List.any_map]
    congr 1
    funext child
    simp only [Function.comp_apply, Node.bare_eq child, Option.any_map]
    rfl
  rw [onBare, onBare other, same]

/-! ## Diagnostics -/

/-- A diagnostic without its place. -/
def Diagnostic.bare (diagnostic : Diagnostic) : Diagnostic :=
  { diagnostic with file := [], start := Pos.origin.toPlace, stop := Pos.origin.toPlace }

end JavaFront
