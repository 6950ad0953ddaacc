import JavaFront.Proofs.Text.Lines
import JavaFront.Proofs.Tree.Walk

/-!
# Names in trees

A tree is named if its identifiers and modifiers are words and no declaration is
without the name that it needs. In a unit the package stands in front of the
other declarations.
-/

namespace JavaFront.Node

open Bytes (IsInline)

/-- Leaves that are spelled as words. -/
def Kind.isSpelled (kind : Kind) : Bool :=
  kind = .identifier || kind = .modifier

/-- What the children of a node hold in any case: the name of a type, a package
or a qualified name. -/
def Kind.needs : Kind → List Kind
  | .classDecl | .interfaceDecl | .enumDecl | .annotationDecl | .qualifiedName => [.identifier]
  | .packageDecl => [.qualifiedName]
  | _ => []

/-- Names and modifiers are spelled as words, and a name is where it is needed. -/
structure Named (node : Node) : Prop where
  spelled : node.kind.isSpelled = true → node.tokenText ≠ [] ∧ node.tokenText.IsInline
  holds : ∀ kind ∈ node.kind.needs, ∃ child ∈ node.children, child.kind = kind

/-- All nodes of a tree are named. -/
def AllNamed (node : Node) : Prop :=
  ∀ inner ∈ node.nodes, inner.Named

theorem of_firstOf? {node child : Node} {kind : Kind} (found : node.firstOf? kind = some child) :
    child ∈ node.children ∧ child.kind = kind :=
  ⟨List.mem_of_find?_eq_some found, by simpa using List.find?_some found⟩

namespace AllNamed

variable {node : Node}

/-- A tree is named if its root and the trees of its children are. -/
theorem of_children (named : node.Named) (all : ∀ child ∈ node.children, child.AllNamed) :
    node.AllNamed :=
  forall_mem_nodes named all

theorem named (all : node.AllNamed) : node.Named :=
  all node node.self_mem_nodes

theorem child (all : node.AllNamed) {child : Node} (isChild : child ∈ node.children) :
    child.AllNamed :=
  fun inner member => all inner (mem_nodes_of_mem_children isChild member)

/-- A documentation comment names nothing. -/
theorem document (all : node.AllNamed) (doc : Option Token) : ({ node with doc } : Node).AllNamed :=
  of_children ⟨all.named.spelled, all.named.holds⟩ fun _ => all.child

theorem exists_firstOf? (all : node.AllNamed) {kind : Kind} (needed : kind ∈ node.kind.needs) :
    ∃ child, node.firstOf? kind = some child := by
  obtain ⟨child, isChild, same⟩ := all.named.holds kind needed
  exact Option.isSome_iff_exists.mp (List.find?_isSome.mpr ⟨child, isChild, by simpa using same⟩)

theorem spelled_child (all : node.AllNamed) {child : Node} (isChild : child ∈ node.children)
    (isSpelled : child.kind.isSpelled = true) :
    child.tokenText ≠ [] ∧ child.tokenText.IsInline :=
  (all.child isChild).named.spelled isSpelled

end AllNamed

/-! ## Units -/

/-- What stands behind the package of a unit: imports, types, the modifiers of a
type that could not be read, and what could not be read at all. -/
def Kind.followsPackage (kind : Kind) : Bool :=
  kind.isTypeDecl || kind = .importDecl || kind = .modifiers || kind = .error

/-- A unit starts with its package, or with what could not be read as one, if
there is any. -/
structure IsUnit (node : Node) : Prop where
  kind : node.kind = .compilationUnit
  children : ∃ front rest, node.children = front ++ rest ∧ front.length ≤ 1 ∧
    (∀ child ∈ front, child.kind = .packageDecl ∨ child.kind = .error) ∧
    ∀ child ∈ rest, child.kind.followsPackage = true

end JavaFront.Node
