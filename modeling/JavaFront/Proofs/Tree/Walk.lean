import JavaFront.Tree

/-!
# Walks over trees

The nodes of a tree are its root and then the nodes of its children in order;
how deep a node stands does not matter for that. `Node.forest` lists the nodes
of several trees.
-/

namespace JavaFront.Node

/-- All nodes of several trees in order, parents before children. -/
def forest (nodes : List Node) : List Node :=
  nodes.flatMap Node.nodes

mutual

theorem walk_map_snd (first second : Nat) : (node : Node) →
    (walk (fun _ => true) first node).map Prod.snd = (walk (fun _ => true) second node).map Prod.snd
  | ⟨kind, span, children, token, fault, doc⟩ => by
      simp only [walk, if_true, List.map_cons]
      rw [walkAll_map_snd (first + 1) (second + 1) children]

theorem walkAll_map_snd (first second : Nat) : (nodes : List Node) →
    (walkAll (fun _ => true) first nodes).map Prod.snd =
      (walkAll (fun _ => true) second nodes).map Prod.snd
  | [] => rfl
  | node :: nodes => by
      simp only [walkAll, List.map_append]
      rw [walk_map_snd first second node, walkAll_map_snd first second nodes]

end

theorem walkAll_map_snd_eq_forest (depth : Nat) (nodes : List Node) :
    (walkAll (fun _ => true) depth nodes).map Prod.snd = forest nodes := by
  induction nodes with
  | nil => rfl
  | cons node nodes ih =>
      simp only [walkAll, List.map_append, forest, List.flatMap_cons]
      rw [walk_map_snd depth 0 node, ih]
      rfl

/-- The nodes of a tree are its root and the nodes of its children. -/
theorem nodes_eq (node : Node) : node.nodes = node :: forest node.children := by
  obtain ⟨kind, span, children, token, fault, doc⟩ := node
  simp only [nodes, rows, walk, if_true, List.map_cons, walkAll_map_snd_eq_forest]

@[simp]
theorem forest_nil : forest [] = [] :=
  rfl

@[simp]
theorem forest_cons (node : Node) (nodes : List Node) :
    forest (node :: nodes) = node :: (forest node.children ++ forest nodes) := by
  simp only [forest, List.flatMap_cons]
  rw [nodes_eq]
  rfl

theorem self_mem_nodes (node : Node) : node ∈ node.nodes := by
  rw [nodes_eq]
  exact List.mem_cons_self

theorem mem_nodes_of_mem_children {node child inner : Node} (isChild : child ∈ node.children)
    (inside : inner ∈ child.nodes) : inner ∈ node.nodes := by
  rw [nodes_eq]
  exact List.mem_cons_of_mem _ (List.mem_flatMap.mpr ⟨child, isChild, inside⟩)

/-- What holds of the root and in the trees of its children holds in the tree. -/
theorem forall_mem_nodes {node : Node} {holds : Node → Prop} (root : holds node)
    (below : ∀ child ∈ node.children, ∀ inner ∈ child.nodes, holds inner) :
    ∀ inner ∈ node.nodes, holds inner := by
  rw [nodes_eq, List.forall_mem_cons]
  refine ⟨root, fun inner member => ?_⟩
  obtain ⟨child, isChild, inside⟩ := List.mem_flatMap.mp member
  exact below child isChild inner inside

end JavaFront.Node
