import JavaFront.Proofs.Tree.Walk

/-!
# Brackets along the paths of a tree

A path leads from the root of a tree down to a leaf. What is counted along it
are the nodes for pieces of source in brackets. Arrays of element values are
special: those that stand directly in another array are counted apart, so that a
bound on the others says how deep the rest is nested.
-/

namespace JavaFront

namespace Node

/-- Nodes for what stands in brackets and may hold more of that. -/
def Kind.isBracketed : Kind → Bool
  | .block | .classBody | .parenExpr | .arguments | .arrayInit | .typeArguments | .annotationUse
  | .elementValueArray => true
  | _ => false

/-- What a node of a kind adds to the brackets on a path. An array of element
values adds nothing if it stands directly in another one. -/
def Kind.weight (inArray : Bool) (kind : Kind) : Nat :=
  if inArray && kind = .elementValueArray then 0 else if kind.isBracketed then 1 else 0

theorem Kind.weight_of_open {kind : Kind} {inArray : Bool} (isOpen : kind.isBracketed = false) :
    kind.weight inArray = 0 := by
  simp [weight, isOpen]

/-- The nodes lead from the root of a tree down to a leaf. -/
inductive Leads : Node → List Node → Prop
  | leaf {node : Node} (childless : node.children = []) : Leads node [node]
  | step {node child : Node} {path : List Node} (isChild : child ∈ node.children)
      (below : Leads child path) : Leads node (node :: path)

/-- The nodes from the root of a tree down along a path of child indexes. -/
def along (node : Node) : List Nat → List Node
  | [] => [node]
  | index :: path =>
    match node.children[index]? with
    | some child => node :: child.along path
    | none => [node]

/-- The arrays of element values on a path that stand directly in another one. -/
def nestedArrays : List Node → Nat
  | outer :: inner :: path =>
    (if outer.kind = .elementValueArray ∧ inner.kind = .elementValueArray then 1 else 0) +
      nestedArrays (inner :: path)
  | _ => 0

/-- On no path from the node down are there more brackets than that, the arrays
of element values that stand directly in another one apart. The node itself may
stand directly in such an array. -/
def Weighs (inArray : Bool) (limit : Nat) (node : Node) : Prop :=
  ∀ path, node.Leads path → path.countP (·.kind.isBracketed) ≤
    limit + nestedArrays path +
      (if inArray = true ∧ node.kind = .elementValueArray then 1 else 0)

/-- A path starts with its root. -/
theorem Leads.eq_cons {node : Node} {path : List Node} (leads : node.Leads path) :
    ∃ rest, path = node :: rest := by
  cases leads with
  | leaf => exact ⟨[], rfl⟩
  | step _ below => exact ⟨_, rfl⟩

/-- Child indexes lead to a leaf if there is one at their end. -/
theorem leads_along {node leaf : Node} {path : List Nat} (ends : node.at? path = some leaf)
    (childless : leaf.children = []) : node.Leads (node.along path) := by
  induction path generalizing node with
  | nil =>
      cases ends
      exact .leaf childless
  | cons index path ih =>
      simp only [at?] at ends
      simp only [along]
      cases found : node.children[index]? with
      | some child =>
          rw [found] at ends
          exact .step (List.mem_of_getElem? found) (ih ends)
      | none =>
          rw [found] at ends
          cases ends

namespace Weighs

variable {node : Node} {inArray : Bool} {limit : Nat}

/-- Outside of an array one more bracket may count. -/
theorem mono (weighs : node.Weighs inArray limit) {inOther : Bool} {more : Nat}
    (le : limit + (if inArray && !inOther then 1 else 0) ≤ more) : node.Weighs inOther more := by
  intro path leads
  have bound := weighs path leads
  by_cases array : node.kind = .elementValueArray
  · cases inArray <;> cases inOther <;> simp [array] at bound le ⊢ <;> omega
  · simp only [array, and_false, if_false] at bound ⊢
    omega

/-- A node adds what its kind weighs to the paths of its children. -/
theorem of_children {below : Nat}
    (children : ∀ child ∈ node.children, child.Weighs (node.kind = .elementValueArray) below)
    (le : below + node.kind.weight inArray ≤ limit) : node.Weighs inArray limit := by
  intro path leads
  have own : (if node.kind.isBracketed = true then 1 else 0) =
      node.kind.weight inArray +
        (if inArray = true ∧ node.kind = .elementValueArray then 1 else 0) := by
    by_cases array : node.kind = .elementValueArray
    · cases inArray <;> simp [Kind.weight, Kind.isBracketed, array]
    · simp [Kind.weight, array]
  cases leads with
  | leaf childless =>
      rw [List.countP_singleton, own]
      omega
  | @step _ child rest isChild leads =>
      have bound := children child isChild rest leads
      obtain ⟨others, rfl⟩ := leads.eq_cons
      rw [List.countP_cons, own, nestedArrays]
      simp only [decide_eq_true_eq] at bound
      omega

/-- What lies below a node is no deeper nested. -/
theorem child {child : Node} (weighs : node.Weighs false limit) (isChild : child ∈ node.children) :
    child.Weighs false limit := by
  intro path leads
  have bound := weighs (node :: path) (.step isChild leads)
  obtain ⟨others, rfl⟩ := leads.eq_cons
  rw [List.countP_cons, nestedArrays] at bound
  simp only [Bool.false_eq_true, false_and, if_false] at bound ⊢
  by_cases array : node.kind = .elementValueArray
  · rw [if_pos (by rw [array]; rfl)] at bound
    split at bound <;> omega
  · rw [if_neg (show ¬ (node.kind = .elementValueArray ∧ _) from fun both => array both.1)] at bound
    omega

/-- A node without brackets and children weighs nothing. -/
theorem of_leaf (childless : node.children = []) (isOpen : node.kind.isBracketed = false) :
    node.Weighs inArray limit := by
  have none : ∀ child ∈ node.children, child.Weighs (node.kind = .elementValueArray) 0 := by
    rw [childless]
    exact fun child isChild => absurd isChild List.not_mem_nil
  refine of_children none ?_
  rw [Kind.weight_of_open isOpen]
  exact Nat.zero_le _

/-- A documentation comment weighs nothing. -/
theorem document (weighs : node.Weighs inArray limit) (doc : Option Token) :
    ({ node with doc } : Node).Weighs inArray limit := by
  intro path leads
  cases leads with
  | leaf childless => exact weighs [node] (.leaf childless)
  | step isChild leads =>
      have bound := weighs (node :: _) (.step isChild leads)
      obtain ⟨others, rfl⟩ := leads.eq_cons
      exact bound

end Weighs

end Node

end JavaFront
