import JavaFront.Listing.Summary
import JavaFront.Tree

/-!
# The listing of declarations

The declarations of a unit, one on each line: what it is, its qualified name,
where it starts, its modifiers and the summary of its documentation, with tabs
between. Members of local and anonymous classes are not listed.
-/

namespace JavaFront

/-- One listed declaration. -/
structure Declaration where
  kind : Bytes
  name : Bytes
  start : Pos
  modifiers : Bytes
  summary : Bytes
deriving DecidableEq, Repr

namespace Declaration

/-- The line of a declaration. -/
def line (declaration : Declaration) : Bytes :=
  Bytes.join [0x09]
    [declaration.kind, declaration.name,
     Bytes.ofNat declaration.start.line ++ [0x3a] ++ Bytes.ofNat declaration.start.column,
     declaration.modifiers, declaration.summary] ++ [0x0a]

end Declaration

/-- A name inside its owner; at the top level the name alone. -/
def qualify (owner name : Bytes) : Bytes :=
  if owner.isEmpty then name else owner ++ [0x2e] ++ name

namespace Node

/-- The identifiers of a qualified name with dots between. -/
def dottedName (node : Node) : Bytes :=
  Bytes.join [0x2e] ((node.childrenOf .identifier).map tokenText)

/-- The text of a modifier word, or the name of an annotation behind its at
sign. -/
def modifierText? (node : Node) : Option Bytes :=
  match node.kind with
  | .modifier => some node.tokenText
  | .annotationUse => (node.firstOf? .qualifiedName).map fun name => 0x40 :: name.dottedName
  | _ => none

/-- The modifiers of a declaration with blanks between. -/
def modifierTexts (node : Node) : Bytes :=
  match node.firstOf? .modifiers with
  | some modifiers => Bytes.join [0x20] (modifiers.children.filterMap modifierText?)
  | none => []

/-- The node is the result type of a method. -/
def isResultType (node : Node) : Bool :=
  match node.kind with
  | .type | .primitiveType | .voidType | .arrayType => true
  | _ => false

/-- A method without a result type in front of its name. -/
def isConstructor (node : Node) : Bool :=
  match node.children.find? fun child => child.isResultType || child.kind = .identifier with
  | some child => child.kind = .identifier
  | none => true

/-- What a declaration is called in the listing. -/
def declarationKind (node : Node) : Bytes :=
  match node.kind with
  | .classDecl => "class"
  | .interfaceDecl => "interface"
  | .enumDecl => "enum"
  | .annotationDecl => "annotation"
  | .enumConstant => "constant"
  | .methodDecl => if node.isConstructor then "constructor" else "method"
  | kind => Bytes.toLower kind.name

/-- The entry of a declaration under the given kind and name. -/
def declaration (node : Node) (kind name : Bytes) : Declaration :=
  { kind, name, start := node.span.start, modifiers := node.modifierTexts,
    summary := docSummary node.docText }

mutual

/-- The declarations a member stands for, its own members included. -/
def declarations (owner : Bytes) : Node → List Declaration
  | ⟨kind, span, children, token, fault, doc⟩ =>
    let node : Node := ⟨kind, span, children, token, fault, doc⟩
    let name := qualify owner node.name
    match kind with
    | .classBody => memberDeclarations owner children
    | .classDecl | .interfaceDecl | .enumDecl | .annotationDecl =>
      node.declaration node.declarationKind name :: memberDeclarations name children
    | .methodDecl | .enumConstant => [node.declaration node.declarationKind name]
    | .fieldDecl =>
      (node.childrenOf .variableDeclarator).map fun declarator =>
        node.declaration "field" (qualify owner declarator.name)
    | _ => []

/-- The declarations of members in order. -/
def memberDeclarations (owner : Bytes) : List Node → List Declaration
  | [] => []
  | node :: nodes => declarations owner node ++ memberDeclarations owner nodes

end

/-- The name of a unit's package, empty without one. -/
def packageName (node : Node) : Bytes :=
  (((node.firstOf? .packageDecl).bind fun package => package.firstOf? .qualifiedName).map
    dottedName).getD []

/-- The declarations of a unit: its package and its types with their members. -/
def unitDeclarations (node : Node) : List Declaration :=
  let package := (node.firstOf? .packageDecl).map fun package =>
    package.declaration "package" node.packageName
  package.toList ++
    memberDeclarations node.packageName (node.children.filter (·.kind.isTypeDecl))

/-- The listing of a unit's declarations. -/
def declarationLines (node : Node) : Bytes :=
  node.unitDeclarations.flatMap Declaration.line

end Node

end JavaFront
