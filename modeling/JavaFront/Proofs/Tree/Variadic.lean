import JavaFront.Parser.Machine
import JavaFront.Proofs.Tree.Walk

/-!
# Variadic parameters in trees

A parameter that takes any number of arguments is to be the last child of its
parent. `Spread` says where such parameters stand in a list of parts, which is
kept with the latest part first while a node is under construction.
-/

namespace JavaFront

namespace Node

/-- The node is a parameter that takes any number of arguments. -/
def TakesMany (node : Node) : Prop :=
  node.kind = .parameter ∧ Parser.isVariadic node = true

/-- No child but the last takes any number of arguments. Among the parameters of
a lambda any may. -/
def VariadicLast (node : Node) : Prop :=
  node.kind ≠ .lambdaParameters → ∀ child ∈ node.children.dropLast, ¬ child.TakesMany

/-- Variadic parameters come last in all nodes of a tree. -/
def AllVariadicLast (node : Node) : Prop :=
  ∀ inner ∈ node.nodes, inner.VariadicLast

variable {node : Node}

theorem not_takesMany_of_childless (childless : node.children = []) : ¬ node.TakesMany := by
  simp [TakesMany, Parser.isVariadic, childless]

namespace AllVariadicLast

theorem of_children (last : node.VariadicLast)
    (all : ∀ child ∈ node.children, child.AllVariadicLast) : node.AllVariadicLast :=
  forall_mem_nodes last all

theorem of_childless (childless : node.children = []) : node.AllVariadicLast := by
  refine .of_children (fun _ => ?_) ?_
  all_goals simp [childless]

theorem child (all : node.AllVariadicLast) {child : Node} (isChild : child ∈ node.children) :
    child.AllVariadicLast :=
  fun inner member => all inner (mem_nodes_of_mem_children isChild member)

/-- A documentation comment moves no parameter. -/
theorem document (all : node.AllVariadicLast) (doc : Option Token) :
    ({ node with doc } : Node).AllVariadicLast :=
  of_children (all node node.self_mem_nodes) fun _ => all.child

end AllVariadicLast

end Node

/-- Where variadic parameters may stand among parts. -/
inductive Spread where
  | nowhere | last | anywhere
deriving DecidableEq

namespace Spread

/-- All places, the most special first. -/
def all : List Spread :=
  [.nowhere, .last, .anywhere]

theorem mem_all (spread : Spread) : spread ∈ all := by
  cases spread <;> decide

/-- Among parts, the latest first, variadic parameters stand only there. -/
def Holds : Spread → List Node → Prop
  | .nowhere, parts => ∀ part ∈ parts, ¬ part.TakesMany
  | .last, parts => ∀ part ∈ parts.tail, ¬ part.TakesMany
  | .anywhere, _ => True

/-- What may stand at the first places may stand at the second ones. -/
def within : Spread → Spread → Bool
  | .nowhere, _ | _, .anywhere | .last, .last => true
  | _, _ => false

/-- Parts of the first kind and then new ones of the second make parts of the
third kind. -/
def joins (before new after : Spread) : Bool :=
  before = .nowhere && new.within after || after = .anywhere

variable {before new after : Spread} {old parts : List Node}

theorem Holds.nil : before.Holds [] := by
  cases before <;> simp [Holds]

theorem Holds.mono (holds : before.Holds parts) (weaker : before.within after = true) :
    after.Holds parts := by
  cases before <;> cases after
  case nowhere.last => exact fun part member => holds part (List.mem_of_mem_tail member)
  case last.nowhere | anywhere.nowhere | anywhere.last => cases weaker
  all_goals first | exact holds | trivial

theorem Holds.append (holds : before.Holds old) (joined : before.joins new after = true)
    (newHolds : new.Holds parts) : after.Holds (parts ++ old) := by
  simp only [joins, Bool.or_eq_true, Bool.and_eq_true, decide_eq_true_eq] at joined
  rcases joined with ⟨rfl, weaker⟩ | rfl
  · have proper := newHolds.mono weaker
    cases after with
    | nowhere => exact List.forall_mem_append.mpr ⟨proper, holds⟩
    | last =>
        intro part member
        cases parts with
        | nil => exact holds part (List.mem_of_mem_tail member)
        | cons latest others => exact List.forall_mem_append.mpr ⟨proper, holds⟩ part member
    | anywhere => trivial
  · trivial

theorem within_of_joins (joined : before.joins .nowhere after = true) :
    before.within after = true := by
  revert joined
  cases before <;> cases after <;> decide

theorem joins_nowhere (joined : before.joins new after = true) :
    before.joins .nowhere after = true := by
  revert joined
  cases before <;> cases new <;> cases after <;> decide

/-- One part is variadic or not, and stands last in any case. -/
theorem holds_last_singleton (part : Node) : last.Holds [part] :=
  fun _ member => absurd member List.not_mem_nil

theorem holds_singleton {part : Node} (plain : ¬ part.TakesMany) : nowhere.Holds [part] :=
  List.forall_mem_singleton.mpr plain

end Spread

end JavaFront
