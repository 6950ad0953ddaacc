import JavaFront.Proofs.Tree.Walk

/-!
# Declarations and where they stand

The lineage of a node is the node with its ancestors, the nearest first and the
root of the tree last. It tells whether the node is a declaration that a listing
shows: the package of a unit, and what is declared in types that stand in
nothing but other types.
-/

namespace JavaFront.Node

mutual

/-- The lineages of all nodes of a tree, parents before children and children in
order. -/
def lineages (above : List Node) : Node → List (List Node)
  | ⟨kind, span, children, token, fault, doc⟩ =>
    let node : Node := ⟨kind, span, children, token, fault, doc⟩
    (node :: above) :: lineagesAll (node :: above) children

/-- The lineages of all nodes of several trees in order. -/
def lineagesAll (above : List Node) : List Node → List (List Node)
  | [] => []
  | node :: nodes => lineages above node ++ lineagesAll above nodes

end

/-- From the root, these ancestors are reached through type declarations and
their bodies only. -/
def isOpen (above : List Node) : Bool :=
  !above.isEmpty && above.dropLast.all fun node => node.kind.isTypeDecl || node.kind = .classBody

/-- The node of a lineage is a declaration that a listing shows. -/
def isListed : List Node → Bool
  | [] => false
  | node :: above =>
    match node.kind with
    | .packageDecl => above.length = 1
    | .classDecl | .interfaceDecl | .enumDecl | .annotationDecl | .methodDecl | .enumConstant =>
      isOpen above
    | .variableDeclarator =>
      match above with
      | field :: outer => field.kind = .fieldDecl && isOpen outer
      | [] => false
    | _ => false

/-- The lineages of the declarations in a tree that a listing shows. -/
def listed (node : Node) : List (List Node) :=
  (node.lineages []).filter isListed

theorem lineages_eq (above : List Node) (node : Node) :
    node.lineages above = (node :: above) :: lineagesAll (node :: above) node.children := by
  obtain ⟨kind, span, children, token, fault, doc⟩ := node
  rfl

/-! ## Where nothing is listed -/

/-- Nothing is listed below these ancestors. -/
structure Closed (above : List Node) : Prop where
  notOpen : isOpen above = false
  field : ∀ field outer, above = field :: outer → field.kind = .fieldDecl → isOpen outer = false
  deep : 1 < above.length

namespace Closed

variable {above : List Node} {node : Node}

theorem isListed_eq_false (closed : Closed above) (node : Node) :
    isListed (node :: above) = false := by
  simp only [isListed]
  split
  · simp
    have deep := closed.deep
    omega
  all_goals try exact closed.notOpen
  · split
    · rename_i field outer
      by_cases isField : field.kind = .fieldDecl
      · simp [closed.field field outer rfl isField]
      · simp [isField]
    · rfl
  · rfl

theorem cons (closed : Closed above) (node : Node) : Closed (node :: above) := by
  have filled : above ≠ [] := by
    rintro rfl
    cases closed.deep
  refine ⟨?_, ?_, Nat.succ_lt_succ (List.length_pos_iff.mpr filled)⟩
  · have notOpen := closed.notOpen
    rw [isOpen, Bool.and_eq_false_iff] at notOpen
    have blocked := notOpen.resolve_left (by simpa using filled)
    rw [isOpen, List.dropLast_cons_of_ne_nil filled, List.all_cons, blocked]
    simp
  · rintro field outer same -
    cases same
    exact closed.notOpen

end Closed

theorem isOpen_cons {above : List Node} (filled : above ≠ []) (node : Node) :
    isOpen (node :: above) =
      ((node.kind.isTypeDecl || node.kind = .classBody) && isOpen above) := by
  rw [isOpen, isOpen, List.dropLast_cons_of_ne_nil filled, List.all_cons,
    List.isEmpty_eq_false_iff.mpr filled]
  rfl

/-- Nothing is listed below what is no type, no body of one and no field. -/
theorem closed_of_isOpen {above : List Node} {node : Node} (isOpen : isOpen above = true)
    (blocks : (node.kind.isTypeDecl || node.kind = .classBody || node.kind = .fieldDecl) = false) :
    Closed (node :: above) := by
  have filled : above ≠ [] := by
    rintro rfl
    cases isOpen
  simp only [Bool.or_eq_false_iff, decide_eq_false_iff_not] at blocks
  refine ⟨?_, ?_, Nat.succ_lt_succ (List.length_pos_iff.mpr filled)⟩
  · rw [isOpen_cons filled]
    simp [blocks]
  · rintro field outer same isField
    cases same
    exact absurd isField blocks.2

/-- Below the declarators of a field nothing is listed. -/
theorem closed_of_field {above : List Node} {field : Node} (filled : above ≠ [])
    (isField : field.kind = .fieldDecl) (node : Node) : Closed (node :: field :: above) := by
  have notOpen : isOpen (field :: above) = false := by
    rw [isOpen_cons filled, isField]
    rfl
  refine ⟨?_, ?_, by simp⟩
  · rw [isOpen_cons (by simp), notOpen, Bool.and_false]
  · rintro other outer same -
    cases same
    exact notOpen

mutual

theorem filter_lineages_of_closed {above : List Node} (closed : Closed above) : (node : Node) →
    (node.lineages above).filter isListed = []
  | ⟨kind, span, children, token, fault, doc⟩ => by
      rw [lineages, List.filter_cons_of_neg (by simp [closed.isListed_eq_false])]
      exact filter_lineagesAll_of_closed (closed.cons _) children

theorem filter_lineagesAll_of_closed {above : List Node} (closed : Closed above) :
    (nodes : List Node) → (lineagesAll above nodes).filter isListed = []
  | [] => rfl
  | node :: nodes => by
      rw [lineagesAll, List.filter_append, filter_lineages_of_closed closed node,
        filter_lineagesAll_of_closed closed nodes]
      rfl

end

/-- In a field its declarators are listed. -/
theorem filter_lineagesAll_of_field {above : List Node} {field : Node}
    (isOpen : isOpen above = true) (isField : field.kind = .fieldDecl) (nodes : List Node) :
    (lineagesAll (field :: above) nodes).filter isListed =
      (nodes.filter (·.kind = .variableDeclarator)).map (· :: field :: above) := by
  have filled : above ≠ [] := by
    rintro rfl
    cases isOpen
  have outside : Node.isOpen (field :: above) = false := by
    rw [isOpen_cons filled, isField]
    rfl
  induction nodes with
  | nil => rfl
  | cons node nodes ih =>
      have single : isListed (node :: field :: above) =
          decide (node.kind = .variableDeclarator) := by
        simp only [isListed]
        split <;> simp_all
      rw [lineagesAll, List.filter_append, ih, lineages_eq,
        List.filter_cons, filter_lineagesAll_of_closed (closed_of_field filled isField node),
        single]
      by_cases declares : node.kind = .variableDeclarator
      · simp [declares]
      · simp [declares]

end JavaFront.Node
