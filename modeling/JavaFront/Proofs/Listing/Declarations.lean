import JavaFront.Listing.Declarations
import JavaFront.Proofs.Listing.Summary
import JavaFront.Proofs.Tree.Lineage
import JavaFront.Proofs.Tree.Names
import Mathlib.Data.List.Forall2

/-!
# The listing, line by line

In a tree whose names are words, the listing of declarations has one line for
every declaration that it shows, in the order of the tree, and each line can be
taken apart again into its five fields.
-/

namespace JavaFront

open Bytes (IsInline)

namespace Node

/-! ## Names -/

namespace AllNamed

variable {node : Node}

theorem isInline_name (all : node.AllNamed) : node.name.IsInline := by
  cases found : node.firstOf? .identifier with
  | none => simpa [name, found] using IsInline.nil
  | some child =>
      obtain ⟨isChild, isIdentifier⟩ := of_firstOf? found
      simpa [name, found] using (all.spelled_child isChild (by rw [isIdentifier]; rfl)).2

/-- What needs an identifier has a name. -/
theorem name_ne_nil (all : node.AllNamed) (needed : .identifier ∈ node.kind.needs) :
    node.name ≠ [] := by
  obtain ⟨child, found⟩ := all.exists_firstOf? needed
  obtain ⟨isChild, isIdentifier⟩ := of_firstOf? found
  simpa [name, found] using (all.spelled_child isChild (by rw [isIdentifier]; rfl)).1

theorem isInline_dottedName (all : node.AllNamed) : node.dottedName.IsInline := by
  refine .join (by decide) fun part member => ?_
  obtain ⟨child, isChild, rfl⟩ := List.mem_map.mp member
  obtain ⟨isChild, isIdentifier⟩ := List.mem_filter.mp isChild
  exact (all.spelled_child isChild (by rw [of_decide_eq_true isIdentifier]; rfl)).2

/-- A qualified name is not empty. -/
theorem dottedName_ne_nil (all : node.AllNamed) (isName : node.kind = .qualifiedName) :
    node.dottedName ≠ [] := by
  have needed : .identifier ∈ node.kind.needs := by rw [isName]; decide
  obtain ⟨child, found⟩ := all.exists_firstOf? needed
  obtain ⟨isChild, isIdentifier⟩ := of_firstOf? found
  have spelled := (all.spelled_child isChild (by rw [isIdentifier]; rfl)).1
  have listed : child ∈ node.childrenOf .identifier :=
    List.mem_filter.mpr ⟨isChild, by simpa using isIdentifier⟩
  intro empty
  have inside := Bytes.subset_join [0x2e] (List.mem_map_of_mem (f := tokenText) listed)
  rw [← dottedName, empty] at inside
  exact spelled (List.subset_nil.mp inside)

theorem isInline_modifierTexts (all : node.AllNamed) : node.modifierTexts.IsInline := by
  simp only [modifierTexts]
  cases found : node.firstOf? .modifiers with
  | none => exact .nil
  | some modifiers =>
      have inside := all.child (of_firstOf? found).1
      refine .join (by decide) fun part member => ?_
      obtain ⟨child, isChild, text⟩ := List.mem_filterMap.mp member
      have below := inside.child isChild
      simp only [modifierText?] at text
      split at text
      · rename_i isModifier
        cases text
        exact (below.named.spelled (by rw [isModifier]; rfl)).2
      · obtain ⟨name, isName, rfl⟩ := Option.map_eq_some_iff.mp text
        exact List.forall_mem_cons.mpr
          ⟨by decide, (below.child (of_firstOf? isName).1).isInline_dottedName⟩
      · cases text

end AllNamed

theorem Kind.isInline_name (kind : Kind) : IsInline (Bytes.toLower kind.name) := by
  cases kind <;> decide

theorem isInline_declarationKind (node : Node) : node.declarationKind.IsInline := by
  simp only [declarationKind]
  split
  all_goals try split
  all_goals first
    | exact Kind.isInline_name _
    | decide

/-! ## Qualified names -/

/-- The name of a unit's package, if it has one. -/
def packageNames (root : Node) : List Bytes :=
  if (root.firstOf? .packageDecl).isSome then [root.packageName] else []

/-- The names that qualify what stands below these ancestors in a unit: its
package and the types from the outermost to the innermost. -/
def outerNames (root : Node) (above : List Node) : List Bytes :=
  root.packageNames ++ ((above.filter (·.kind.isTypeDecl)).map name).reverse

/-- The parts of the qualified name of a declaration: its package, the types
that enclose it and its own name. A package has no other name than its own. -/
def nameParts (root : Node) : List Node → List Bytes
  | [] => []
  | node :: above =>
    if node.kind = .packageDecl then root.packageNames else root.outerNames above ++ [node.name]

end Node

open Node

/-- An owner without empty names qualifies by a dot. -/
theorem qualify_join {names : List Bytes} (proper : ∀ name ∈ names, name ≠ []) (own : Bytes) :
    qualify (Bytes.join [0x2e] names) own = Bytes.join [0x2e] (names ++ [own]) := by
  cases names with
  | nil => simp [qualify, Bytes.join]
  | cons first names =>
      have filled : Bytes.join [0x2e] (first :: names) ≠ [] := by
        intro empty
        have inside := Bytes.subset_join [0x2e] (List.mem_cons_self (a := first) (l := names))
        rw [empty] at inside
        exact proper first List.mem_cons_self (List.subset_nil.mp inside)
      rw [qualify, Bytes.join_concat _ (List.cons_ne_nil _ _), if_neg]
      simpa using filled

/-! ## Entries -/

namespace Declaration

/-- The fields of the line of a declaration. -/
def fields (declaration : Declaration) : List Bytes :=
  [declaration.kind, declaration.name,
   Bytes.ofNat declaration.start.line ++ [0x3a] ++ Bytes.ofNat declaration.start.column,
   declaration.modifiers, declaration.summary]

/-- The entry is about the declaration of a lineage, and none of its fields
breaks its line. -/
structure Describes (root : Node) (lineage : List Node) (declaration : Declaration) : Prop where
  name : declaration.name = Bytes.join [0x2e] (root.nameParts lineage)
  inline : ∀ field ∈ declaration.fields, field.IsInline

end Declaration

namespace Node

variable {root node : Node}

/-- The entry of a declaration whose name fits on a line. -/
theorem AllNamed.describes (all : node.AllNamed) {kind name : Bytes} {lineage : List Node}
    (isKind : kind.IsInline) (isName : name.IsInline)
    (same : name = Bytes.join [0x2e] (root.nameParts lineage)) :
    (node.declaration kind name).Describes root lineage := by
  refine ⟨same, ?_⟩
  have place : IsInline (Bytes.ofNat node.span.start.line ++ [0x3a] ++
      Bytes.ofNat node.span.start.column) :=
    ((IsInline.ofNat _).append (by decide)).append (.ofNat _)
  simp only [Declaration.fields, declaration, List.forall_mem_cons, List.not_mem_nil,
    false_implies, implies_true, and_true]
  exact ⟨isKind, isName, place, all.isInline_modifierTexts, isInline_docSummary _⟩

/-- These ancestors may hold declarations that are listed, and what they are
called fits on a line. -/
structure Enclosed (root : Node) (above : List Node) : Prop where
  isOpen : isOpen above = true
  proper : ∀ name ∈ root.outerNames above, name ≠ [] ∧ name.IsInline

theorem outerNames_cons_type {above : List Node} (isType : node.kind.isTypeDecl = true) :
    root.outerNames (node :: above) = root.outerNames above ++ [node.name] := by
  simp only [outerNames, List.filter_cons, isType, if_true, List.map_cons, List.reverse_cons,
    List.append_assoc]

theorem outerNames_cons_other {above : List Node} (other : node.kind.isTypeDecl = false) :
    root.outerNames (node :: above) = root.outerNames above := by
  rw [outerNames, outerNames, List.filter_cons_of_neg (by simp [other])]

namespace Enclosed

variable {above : List Node}

theorem filled (enclosed : Enclosed root above) : above ≠ [] := by
  rintro rfl
  cases enclosed.isOpen

theorem body (enclosed : Enclosed root above) (isBody : node.kind = .classBody) :
    Enclosed root (node :: above) := by
  have other : node.kind.isTypeDecl = false := by rw [isBody]; rfl
  refine ⟨?_, by rw [outerNames_cons_other other]; exact enclosed.proper⟩
  rw [isOpen_cons enclosed.filled, enclosed.isOpen, isBody]
  rfl

theorem type (enclosed : Enclosed root above) (isType : node.kind.isTypeDecl = true)
    (all : node.AllNamed) : Enclosed root (node :: above) := by
  have needed : .identifier ∈ node.kind.needs := by
    revert isType
    cases node.kind <;> decide
  refine ⟨by rw [isOpen_cons enclosed.filled, enclosed.isOpen, isType]; rfl, ?_⟩
  rw [outerNames_cons_type isType]
  refine List.forall_mem_append.mpr ⟨enclosed.proper, fun name member => ?_⟩
  rw [List.mem_singleton.mp member]
  exact ⟨all.name_ne_nil needed, all.isInline_name⟩

/-- What stands in these ancestors is called after them. -/
theorem qualify_eq (enclosed : Enclosed root above) (own : Bytes) :
    qualify (Bytes.join [0x2e] (root.outerNames above)) own =
      Bytes.join [0x2e] (root.outerNames above ++ [own]) :=
  qualify_join (fun name member => (enclosed.proper name member).1) own

/-- The entry of a declaration, or of one of several at once, under the name that
it has among these ancestors. -/
theorem describes (enclosed : Enclosed root above) (all : node.AllNamed) {named : Node}
    (namedAll : named.AllNamed) {kind : Bytes} (isKind : kind.IsInline) {lineage : List Node}
    (parts : root.nameParts lineage = root.outerNames above ++ [named.name]) :
    Declaration.Describes root lineage
      (node.declaration kind (qualify (Bytes.join [0x2e] (root.outerNames above)) named.name)) := by
  rw [enclosed.qualify_eq]
  refine all.describes isKind (.join (by decide) fun name member => ?_) (by rw [parts])
  rcases List.mem_append.mp member with outer | own
  · exact (enclosed.proper name outer).2
  · rw [List.mem_singleton.mp own]
    exact namedAll.isInline_name

end Enclosed

theorem nameParts_of_ne {above : List Node} (other : node.kind ≠ .packageDecl) :
    root.nameParts (node :: above) = root.outerNames above ++ [node.name] :=
  if_neg other

/-- The entries of a member are about the declarations in it that are to be
listed, in their order. -/
def Lists (root : Node) (above : List Node) (node : Node) : Prop :=
  List.Forall₂ (Declaration.Describes root) ((node.lineages above).filter isListed)
    (node.declarations (Bytes.join [0x2e] (root.outerNames above)))

/-- The entries of some members are about the declarations in them that are to
be listed, in their order. -/
def ListsAll (root : Node) (above nodes : List Node) : Prop :=
  List.Forall₂ (Declaration.Describes root) ((lineagesAll above nodes).filter isListed)
    (memberDeclarations (Bytes.join [0x2e] (root.outerNames above)) nodes)

/-- A type is listed, and then its members are. -/
theorem lists_type (all : node.AllNamed) (isType : node.kind.isTypeDecl = true)
    {above : List Node} (enclosed : Enclosed root above)
    (children : ListsAll root (node :: above) node.children) :
    Lists root above node := by
  have shown : isListed (node :: above) = true := by
    rw [← enclosed.isOpen]
    simp only [isListed]
    revert isType
    cases node.kind <;> simp [Kind.isTypeDecl]
  have entries : ∀ owner, node.declarations owner =
      node.declaration node.declarationKind (qualify owner node.name) ::
        memberDeclarations (qualify owner node.name) node.children := by
    obtain ⟨kind, span, children, token, fault, doc⟩ := node
    intro owner
    cases kind <;> first | rfl | cases isType
  have other : node.kind ≠ .packageDecl := fun same => by rw [same] at isType; cases isType
  rw [Lists, lineages_eq, List.filter_cons_of_pos shown, entries]
  refine .cons (enclosed.describes all all node.isInline_declarationKind
    (nameParts_of_ne other)) ?_
  rw [enclosed.qualify_eq, ← outerNames_cons_type isType]
  exact children

/-- Of a body the members are listed. -/
theorem lists_body (isBody : node.kind = .classBody) {above : List Node}
    (children : ListsAll root (node :: above) node.children) :
    Lists root above node := by
  have entries : ∀ owner, node.declarations owner = memberDeclarations owner node.children := by
    obtain ⟨kind, span, children, token, fault, doc⟩ := node
    cases isBody
    exact fun owner => rfl
  have other : node.kind.isTypeDecl = false := by rw [isBody]; rfl
  rw [Lists, lineages_eq, List.filter_cons_of_neg (by simp [isListed, isBody]), entries,
    ← outerNames_cons_other other]
  exact children

/-- A method or a constant is listed, and nothing below it. -/
theorem lists_leaf (all : node.AllNamed)
    (isLeaf : node.kind = .methodDecl ∨ node.kind = .enumConstant) {above : List Node}
    (enclosed : Enclosed root above) :
    Lists root above node := by
  have shown : isListed (node :: above) = true := by
    rw [← enclosed.isOpen]
    rcases isLeaf with same | same <;> simp only [isListed, same]
  have entries : ∀ owner, node.declarations owner =
      [node.declaration node.declarationKind (qualify owner node.name)] := by
    obtain ⟨kind, span, children, token, fault, doc⟩ := node
    rcases isLeaf with same | same <;> cases same <;> exact fun owner => rfl
  have blocks : (node.kind.isTypeDecl || node.kind = .classBody || node.kind = .fieldDecl) =
      false := by
    rcases isLeaf with same | same <;> rw [same] <;> rfl
  have other : node.kind ≠ .packageDecl := by
    rcases isLeaf with same | same <;> rw [same] <;> decide
  rw [Lists, lineages_eq, List.filter_cons_of_pos shown, entries,
    filter_lineagesAll_of_closed (closed_of_isOpen enclosed.isOpen blocks)]
  exact .cons
    (enclosed.describes all all node.isInline_declarationKind (nameParts_of_ne other)) .nil

/-- Of a field its declarators are listed. -/
theorem lists_field (all : node.AllNamed) (isField : node.kind = .fieldDecl) {above : List Node}
    (enclosed : Enclosed root above) :
    Lists root above node := by
  have entries : ∀ owner, node.declarations owner =
      (node.childrenOf .variableDeclarator).map fun declarator =>
        node.declaration "field" (qualify owner declarator.name) := by
    obtain ⟨kind, span, children, token, fault, doc⟩ := node
    cases isField
    exact fun owner => rfl
  have other : node.kind.isTypeDecl = false := by rw [isField]; rfl
  rw [Lists, lineages_eq, List.filter_cons_of_neg (by simp [isListed, isField]), entries,
    filter_lineagesAll_of_field enclosed.isOpen isField, childrenOf, List.forall₂_map_left_iff,
    List.forall₂_map_right_iff, List.forall₂_same]
  intro declarator member
  obtain ⟨isChild, declares⟩ := List.mem_filter.mp member
  refine enclosed.describes all (all.child isChild) (by decide) ?_
  rw [nameParts_of_ne (by rw [of_decide_eq_true declares]; decide), outerNames_cons_other other]

/-- Of anything else nothing is listed. -/
theorem lists_nothing (blocks : (node.kind.isTypeDecl || node.kind = .classBody ||
      node.kind = .fieldDecl) = false)
    (unlisted : node.kind ≠ .methodDecl ∧ node.kind ≠ .enumConstant) {above : List Node}
    (enclosed : Enclosed root above) (inner : node.kind = .packageDecl → 1 < above.length) :
    Lists root above node := by
  have entries : ∀ owner, node.declarations owner = [] := by
    obtain ⟨kind, span, children, token, fault, doc⟩ := node
    intro owner
    revert blocks unlisted
    cases kind <;> simp [Kind.isTypeDecl] <;> rfl
  have hidden : isListed (node :: above) = false := by
    simp only [isListed]
    split <;> simp_all [Kind.isTypeDecl]
    · omega
    · split
      · rename_i field outer
        by_cases bottom : outer = []
        · rw [bottom]
          simp [isOpen]
        · have fieldOpen := enclosed.isOpen
          rw [isOpen_cons bottom] at fieldOpen
          by_cases isField : field.kind = .fieldDecl
          · simp [isField, Kind.isTypeDecl] at fieldOpen
          · simp [isField]
      · rfl
  rw [Lists, lineages_eq, List.filter_cons_of_neg (by simp [hidden]), entries,
    filter_lineagesAll_of_closed (closed_of_isOpen enclosed.isOpen blocks)]
  exact .nil

mutual

/-- The entries of a member are about the declarations in it that are to be
listed. -/
theorem lists {above : List Node} (enclosed : Enclosed root above) : (node : Node) →
    node.AllNamed → (node.kind = .packageDecl → 1 < above.length) → Lists root above node
  | ⟨kind, span, children, token, fault, doc⟩, all, inner => by
      let node : Node := ⟨kind, span, children, token, fault, doc⟩
      have long : 1 < (node :: above).length :=
        Nat.succ_lt_succ (List.length_pos_iff.mpr enclosed.filled)
      have named : ∀ child ∈ node.children, child.AllNamed := fun child => all.child
      by_cases isType : node.kind.isTypeDecl = true
      · exact lists_type all isType enclosed
          (listsAll (enclosed.type isType all) children named fun _ _ _ => long)
      by_cases isBody : node.kind = .classBody
      · exact lists_body isBody (listsAll (enclosed.body isBody) children named fun _ _ _ => long)
      by_cases isLeaf : node.kind = .methodDecl ∨ node.kind = .enumConstant
      · exact lists_leaf all isLeaf enclosed
      by_cases isField : node.kind = .fieldDecl
      · exact lists_field all isField enclosed
      exact lists_nothing (by simp [isType, isBody, isField]) (not_or.mp isLeaf) enclosed inner

/-- The entries of some members are about the declarations in them that are to
be listed. -/
theorem listsAll {above : List Node} (enclosed : Enclosed root above) : (nodes : List Node) →
    (∀ node ∈ nodes, node.AllNamed) →
      (∀ node ∈ nodes, node.kind = .packageDecl → 1 < above.length) → ListsAll root above nodes
  | [], _, _ => .nil
  | node :: nodes, all, inner => by
      obtain ⟨named, othersNamed⟩ := List.forall_mem_cons.mp all
      obtain ⟨first, others⟩ := List.forall_mem_cons.mp inner
      rw [ListsAll, lineagesAll, List.filter_append, memberDeclarations]
      exact List.rel_append (lists enclosed node named first)
        (listsAll enclosed nodes othersNamed others)

end

end Node

end JavaFront
