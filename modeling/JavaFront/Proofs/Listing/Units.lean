import JavaFront.Proofs.Listing.Declarations
import JavaFront.Proofs.Parser.Naming

/-!
# The listing of a unit

The listing of a unit starts with its package. Whatever happened to the parse,
it is a text of lines with four tabs each, one line for every declaration that
is to be listed, under its qualified name.
-/

namespace JavaFront

namespace Node

variable {root : Node}

theorem lineagesAll_append (above first second : List Node) :
    lineagesAll above (first ++ second) = lineagesAll above first ++ lineagesAll above second := by
  induction first with
  | nil => rfl
  | cons node first ih => rw [List.cons_append, lineagesAll, lineagesAll, ih, List.append_assoc]

/-- Behind the package only types have entries. -/
theorem memberDeclarations_filter (owner : Bytes) {nodes : List Node}
    (proper : ∀ node ∈ nodes, node.kind.followsPackage = true) :
    memberDeclarations owner (nodes.filter (·.kind.isTypeDecl)) =
      memberDeclarations owner nodes := by
  induction nodes with
  | nil => rfl
  | cons node nodes ih =>
      obtain ⟨first, others⟩ := List.forall_mem_cons.mp proper
      rw [memberDeclarations, ← ih others, List.filter_cons]
      split
      · rfl
      · rename_i other
        have nothing : node.declarations owner = [] := by
          obtain ⟨kind, span, children, token, fault, doc⟩ := node
          revert first other
          cases kind <;> simp [Kind.followsPackage, Kind.isTypeDecl] <;> rfl
        rw [nothing, List.nil_append]

/-! ## Packages -/

/-- A package has a name, which fits on a line. -/
theorem AllNamed.packageName (all : root.AllNamed) {package : Node}
    (found : root.firstOf? .packageDecl = some package) :
    root.packageName ≠ [] ∧ root.packageName.IsInline := by
  obtain ⟨isChild, isPackage⟩ := of_firstOf? found
  have inside := all.child isChild
  have needed : .qualifiedName ∈ package.kind.needs := by rw [isPackage]; decide
  obtain ⟨name, isFirst⟩ := inside.exists_firstOf? needed
  obtain ⟨isPart, isName⟩ := of_firstOf? isFirst
  have same : root.packageName = name.dottedName := by simp [Node.packageName, found, isFirst]
  rw [same]
  exact ⟨(inside.child isPart).dottedName_ne_nil isName, (inside.child isPart).isInline_dottedName⟩

theorem join_packageNames (root : Node) :
    Bytes.join [0x2e] root.packageNames = root.packageName := by
  rw [packageNames]
  split
  · exact List.append_nil _
  · rename_i without
    rw [Option.not_isSome_iff_eq_none] at without
    simp [packageName, without, Bytes.join]

/-- The first line of a unit is about its package. -/
theorem lists_front (all : root.AllNamed) {front : List Node} (few : front.length ≤ 1)
    (proper : ∀ child ∈ front, child.kind = .packageDecl ∨ child.kind = .error)
    (behind : root.firstOf? .packageDecl = front.find? (·.kind = .packageDecl)) :
    List.Forall₂ (Declaration.Describes root) ((lineagesAll [root] front).filter isListed)
      ((root.firstOf? .packageDecl).map fun package =>
        package.declaration "package" root.packageName).toList := by
  match front with
  | [] =>
      rw [behind]
      exact .nil
  | [child] =>
      have closed : Closed [child, root] := by
        refine @closed_of_isOpen [root] child rfl ?_
        rcases proper child List.mem_cons_self with isKind | isKind <;> rw [isKind] <;> rfl
      have below : (lineagesAll [root] [child]).filter isListed =
          if isListed [child, root] then [[child, root]] else [] := by
        rw [lineagesAll, lineagesAll, List.append_nil, lineages_eq, List.filter_cons,
          filter_lineagesAll_of_closed closed]
      rw [below]
      rcases proper child List.mem_cons_self with isPackage | isError
      · have found : root.firstOf? .packageDecl = some child := by
          rw [behind, List.find?_cons_of_pos (by simpa using isPackage)]
        have named := all.child (of_firstOf? found).1
        have parts : root.nameParts [child, root] = root.packageNames := if_pos isPackage
        rw [found, if_pos (by simp [isListed, isPackage])]
        refine .cons (named.describes (by decide) (all.packageName found).2 ?_) .nil
        rw [parts, join_packageNames]
      · have none : root.firstOf? .packageDecl = none := by
          rw [behind, List.find?_cons_of_neg (by simp [isError])]
          rfl
        rw [none, if_neg (by simp [isListed, isError])]
        exact .nil
  | _ :: _ :: _ => simp at few

namespace IsUnit

theorem outerNames (unit : root.IsUnit) : root.outerNames [root] = root.packageNames := by
  rw [Node.outerNames, List.filter_cons_of_neg (by rw [unit.kind]; decide)]
  exact List.append_nil _

/-- In a unit declarations may be listed. -/
theorem enclosed (unit : root.IsUnit) (all : root.AllNamed) : Enclosed root [root] := by
  refine ⟨rfl, ?_⟩
  rw [unit.outerNames, packageNames]
  intro name member
  split at member
  · rename_i with_package
    obtain ⟨package, found⟩ := Option.isSome_iff_exists.mp with_package
    rw [List.mem_singleton.mp member]
    exact all.packageName found
  · cases member

/-- The entries of a unit are about the declarations in it that are to be listed,
in their order. -/
theorem lists (unit : root.IsUnit) (all : root.AllNamed) :
    List.Forall₂ (Declaration.Describes root) root.listed root.unitDeclarations := by
  obtain ⟨front, rest, same, few, frontProper, restProper⟩ := unit.children
  have noPackage : ∀ child ∈ rest, child.kind ≠ .packageDecl := by
    intro child member isPackage
    have proper := restProper child member
    rw [isPackage] at proper
    cases proper
  have noType : front.filter (·.kind.isTypeDecl) = [] := by
    refine List.filter_eq_nil_iff.mpr fun child member => ?_
    rcases frontProper child member with isKind | isKind <;> rw [isKind] <;> decide
  have firstPackage : root.firstOf? .packageDecl = front.find? (·.kind = .packageDecl) := by
    have none : rest.find? (·.kind = .packageDecl) = none :=
      List.find?_eq_none.mpr fun child member => by simpa using noPackage child member
    rw [firstOf?, same, List.find?_append, none, Option.or_none]
  have enclosed := unit.enclosed all
  have members := listsAll enclosed rest
    (fun child member => all.child (same ▸ List.mem_append_right _ member))
    fun child member isPackage => absurd isPackage (noPackage child member)
  rw [ListsAll, unit.outerNames, join_packageNames] at members
  rw [listed, lineages_eq, List.filter_cons_of_neg (by simp [isListed, unit.kind]), same,
    lineagesAll_append, List.filter_append, unitDeclarations, same, List.filter_append, noType,
    List.nil_append, memberDeclarations_filter _ restProper]
  exact List.rel_append (lists_front all few frontProper firstPackage) members

/-- No unit has two packages. -/
theorem packages_le_one (unit : root.IsUnit) : (root.childrenOf .packageDecl).length ≤ 1 := by
  obtain ⟨front, rest, same, few, -, restProper⟩ := unit.children
  have noPackage : rest.filter (·.kind = .packageDecl) = [] := by
    refine List.filter_eq_nil_iff.mpr fun child member isPackage => ?_
    have proper := restProper child member
    rw [of_decide_eq_true isPackage] at proper
    cases proper
  rw [childrenOf, same, List.filter_append, noPackage, List.append_nil]
  exact Nat.le_trans (List.length_filter_le _ _) few

end IsUnit

/-! ## Lines -/

/-- The line of a declaration: five fields with tabs between, of which the second
is its qualified name. Nothing in it breaks the line. -/
structure IsLineOf (root : Node) (lineage : List Node) (line : Bytes) : Prop where
  tabs : line.count 0x09 = 4
  unbroken : ∀ byte ∈ line, byte < 0x0a ∨ 0x0d < byte
  name : (line.splitOn 0x09)[1]? = some (Bytes.join [0x2e] (root.nameParts lineage))

end Node

namespace Declaration

variable {declaration : Declaration}

/-- The fields of an entry make up the line of what it is about. -/
theorem Describes.isLineOf {root : Node} {lineage : List Node}
    (describes : declaration.Describes root lineage) :
    root.IsLineOf lineage (Bytes.join [0x09] declaration.fields) := by
  have free : ∀ field ∈ declaration.fields, 0x09 ∉ field := fun field member =>
    (describes.inline field member).not_mem ⟨by decide, by decide⟩
  refine ⟨Bytes.count_join free, ?_, ?_⟩
  · refine Bytes.forall_mem_join (List.forall_mem_singleton.mpr (by decide)) ?_
    intro field member byte inside
    exact (describes.inline field member byte inside).imp_left fun low =>
      UInt8.lt_trans low (by decide)
  · rw [Bytes.splitOn_join free (List.cons_ne_nil _ _), ← describes.name]
    rfl

end Declaration

namespace Source

/-- The listing of a unit, whatever happened to its parse: it has one line for
each declaration that is to be listed, in the order of the tree. There is one
package at most among these. -/
theorem parse_declarationLines (source : Source) (options : Options) {tree : Node}
    (built : (source.parse .unit options).tree = some tree) :
    (tree.childrenOf .packageDecl).length ≤ 1 ∧
      ∃ lines, tree.declarationLines = lines.flatMap (· ++ [0x0a]) ∧
        List.Forall₂ tree.IsLineOf tree.listed lines := by
  obtain ⟨unit, all⟩ := source.parse_isUnit options built
  refine ⟨unit.packages_le_one,
    tree.unitDeclarations.map (Bytes.join [0x09] ·.fields), ?_, ?_⟩
  · rw [List.flatMap_map]
    rfl
  · rw [List.forall₂_map_right_iff]
    exact (unit.lists all).imp fun _ _ => Declaration.Describes.isLineOf

/-- A field with two variables, an anonymous class and a constant with a body,
then a member that cannot be read and a type that the end of the text cuts off. -/
theorem parse_declarationLines_cutOff :
    ∃ tree, ((of [] ("package p.q; class A \x7b int a, b; " ++
        "void m() \x7b new B() \x7b int z; \x7d; \x7d enum E \x7b X \x7b int y; \x7d, Y \x7d " ++
        ") ; class C \x7b")).parse .unit {}).tree = some tree ∧
      tree.listed.length = 9 ∧ (tree.childrenOf .packageDecl).length ≤ 1 ∧
      ∃ lines, tree.declarationLines = lines.flatMap (· ++ [0x0a]) ∧
        List.Forall₂ tree.IsLineOf tree.listed lines := by
  let source := of [] ("package p.q; class A \x7b int a, b; " ++
    "void m() \x7b new B() \x7b int z; \x7d; \x7d enum E \x7b X \x7b int y; \x7d, Y \x7d " ++
    ") ; class C \x7b")
  have found : (source.parse .unit {}).tree.map (·.listed.length) = some 9 := by
    decide +kernel
  obtain ⟨tree, built, length⟩ := Option.map_eq_some_iff.mp found
  exact ⟨tree, built, length, parse_declarationLines source {} built⟩

end Source

end JavaFront
