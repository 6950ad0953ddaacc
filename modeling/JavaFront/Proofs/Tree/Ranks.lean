import JavaFront.Proofs.Grammar.Formula
import JavaFront.Proofs.Tree.Walk

/-!
# Operands in trees

A tree is ranked if no operand of a binary operator or a type test binds more
loosely than its place asks for. There is one exception: the left operand of a
binary operator may be a type test, however tightly the operator binds.
-/

namespace JavaFront.Node

/-- The level of the operator of a binary expression. -/
def level? (node : Node) : Option Precedence :=
  match node.children with
  | [_, operator, _] => operator.token.bind fun token => Precedence.of? token.kind
  | _ => none

/-- How tightly an expression binds. A type test binds like the relational
operators. -/
def tightness (node : Node) : Tightness :=
  match node.kind with
  | .assignExpr | .lambdaExpr => .assignment
  | .ternaryExpr => .conditional
  | .binaryExpr => (node.level?.map Tightness.binary).getD .assignment
  | .instanceofExpr => .binary .relational
  | .unaryExpr | .castExpr => .unary
  | _ => .primary

/-- The operands of a node are as tight as its operator asks for. Binary
operators associate to the left. A type test has a type on its right. -/
structure Ranked (node : Node) : Prop where
  binary : node.kind = .binaryExpr → ∃ left operator right level,
    node.children = [left, operator, right] ∧ node.level? = some level ∧
      (left.kind = .instanceofExpr ∨ (Tightness.binary level).rank ≤ left.tightness.rank) ∧
      (Tightness.binary level).rank < right.tightness.rank
  test : node.kind = .instanceofExpr → ∃ operand type,
    node.children = [operand, type] ∧
      (Tightness.binary .relational).rank ≤ operand.tightness.rank

/-- All nodes of a tree are ranked. -/
def AllRanked (node : Node) : Prop :=
  ∀ inner ∈ node.nodes, inner.Ranked

/-- Binary operators and type tests. -/
def Kind.isChain (kind : Kind) : Bool :=
  kind = .binaryExpr || kind = .instanceofExpr

/-- The kinds of expressions that bind more tightly than binary operators, and of
types. -/
def Kind.isOperand (kind : Kind) : Bool :=
  !kind.isChain && kind != .ternaryExpr && kind != .assignExpr && kind != .lambdaExpr

variable {node : Node}

theorem ranked_of_unchained (unchained : node.kind.isChain = false) : node.Ranked := by
  obtain ⟨notBinary, notTest⟩ := Bool.or_eq_false_iff.mp unchained
  exact ⟨fun isBinary => absurd isBinary (of_decide_eq_false notBinary),
    fun isTest => absurd isTest (of_decide_eq_false notTest)⟩

/-- Operands bind more tightly than all binary operators. -/
theorem unary_le_of_operand (isOperand : node.kind.isOperand = true) :
    Tightness.unary.rank ≤ node.tightness.rank := by
  unfold tightness
  split
  case h_6 | h_7 => exact Nat.le_refl _
  case h_8 => exact Nat.le_succ _
  all_goals
    rename_i kind
    rw [kind] at isOperand
    cases isOperand

namespace AllRanked

theorem of_children (ranked : node.Ranked) (all : ∀ child ∈ node.children, child.AllRanked) :
    node.AllRanked :=
  forall_mem_nodes ranked all

theorem ranked (all : node.AllRanked) : node.Ranked :=
  all node node.self_mem_nodes

theorem child (all : node.AllRanked) {child : Node} (isChild : child ∈ node.children) :
    child.AllRanked :=
  fun inner member => all inner (mem_nodes_of_mem_children isChild member)

/-- A documentation comment changes no operand. -/
theorem document (all : node.AllRanked) (doc : Option Token) :
    ({ node with doc } : Node).AllRanked :=
  of_children ⟨all.ranked.binary, all.ranked.test⟩ fun _ => all.child

end AllRanked

end JavaFront.Node
