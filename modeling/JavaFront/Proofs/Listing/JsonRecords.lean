import JavaFront.Diagnostic
import JavaFront.Proofs.Listing.JsonReading
import JavaFront.Proofs.Tree.Walk

/-!
# Trees are read back from their JSON texts

A record holds what the JSON text of a tree is meant to carry about a node. It is
filled from the members of an object, one after another, as decoders do that
know the names of the fields: a name that is missing or has no value leaves its
field empty, and unknown names are passed over. What is filled from the text of
a tree is the record of the tree.
-/

namespace JavaFront.Listing.Json

/-- The word for no value. -/
def Value.isNull : Value → Bool
  | .null => true
  | _ => false

/-- What is carried about a fault. -/
structure Record.Fault where
  message : Bytes := []
  expected : List Bytes := []
  got : Bytes := []

/-- What is carried about a node. -/
structure Record where
  kind : Bytes := []
  category : Bytes := []
  start : Place := ⟨0, 0, 0⟩
  stop : Place := ⟨0, 0, 0⟩
  token : Bytes := []
  doc : Bytes := []
  fault : Option Record.Fault := none
  children : List Record := []

namespace Record

/-! ## The record of a tree -/

/-- The record of a fault. -/
def Fault.of (fault : Node.Fault) : Fault :=
  { message := fault.message, expected := fault.expected.map Bytes.ofString, got := fault.got.text }

mutual

/-- The record of a tree. -/
def of : Node → Record
  | ⟨kind, span, children, token, fault, doc⟩ =>
    let node : Node := ⟨kind, span, children, token, fault, doc⟩
    { kind := kind.name, category := kind.category.name,
      start := span.start.toPlace, stop := span.stop.toPlace,
      token := node.tokenText, doc := node.docText, fault := fault.map Fault.of,
      children := ofAll children }

/-- The records of several trees. -/
def ofAll : List Node → List Record
  | [] => []
  | node :: nodes => of node :: ofAll nodes

end

/-! ## Filling records -/

/-- Something is filled from the members of an object. -/
def fill? {α : Type} (set? : α → Bytes → Value → Option α) (empty : α) : Value → Option α
  | .object members => members.foldlM (fun filled member => set? filled member.1 member.2) empty
  | _ => none

/-- A text. -/
def text? : Value → Option Bytes
  | .text value => some value
  | _ => none

/-- A whole number. -/
def integer? : Value → Option Int
  | .number digits 0 => some digits
  | _ => none

/-- A list of texts. -/
def texts? : Value → Option (List Bytes)
  | .list items => items.mapM text?
  | _ => none

/-- A field of a place is set. -/
def setPlace? (place : Place) (name : Bytes) (value : Value) : Option Place :=
  if value.isNull then some place
  else if name = "offset" then (integer? value).map fun offset => { place with offset }
  else if name = "line" then (integer? value).map fun line => { place with line }
  else if name = "column" then (integer? value).map fun column => { place with column }
  else some place

/-- A place. -/
def place? : Value → Option Place :=
  fill? setPlace? ⟨0, 0, 0⟩

/-- An end of a span is set. -/
def setSpan? (span : Place × Place) (name : Bytes) (value : Value) : Option (Place × Place) :=
  if value.isNull then some span
  else if name = "start" then (place? value).map fun start => (start, span.2)
  else if name = "end" then (place? value).map fun stop => (span.1, stop)
  else some span

/-- A span. -/
def span? : Value → Option (Place × Place) :=
  fill? setSpan? (⟨0, 0, 0⟩, ⟨0, 0, 0⟩)

/-- A field of a fault is set. -/
def setFault? (fault : Fault) (name : Bytes) (value : Value) : Option Fault :=
  if value.isNull then some fault
  else if name = "message" then (text? value).map fun message => { fault with message }
  else if name = "expected" then (texts? value).map fun expected => { fault with expected }
  else if name = "got" then (text? value).map fun got => { fault with got }
  else some fault

/-- A fault. -/
def fault? : Value → Option Fault :=
  fill? setFault? {}

/-- A field of a record is set that holds no further records. -/
def set? (record : Record) (name : Bytes) (value : Value) : Option Record :=
  if value.isNull then some record
  else if name = "kind" then (text? value).map fun kind => { record with kind }
  else if name = "category" then (text? value).map fun category => { record with category }
  else if name = "span" then
    (span? value).map fun (start, stop) => { record with start, stop }
  else if name = "token" then (text? value).map fun token => { record with token }
  else if name = "doc" then (text? value).map fun doc => { record with doc }
  else if name = "error" then (fault? value).map fun fault => { record with fault := some fault }
  else if name = "children" then none
  else some record

mutual

/-- The record that a value holds. -/
def ofValue? : Value → Option Record
  | .object members => fillFrom? {} members
  | _ => none

/-- The fields of a record are set from the members of an object in order. -/
def fillFrom? (record : Record) : List (Bytes × Value) → Option Record
  | [] => some record
  | (name, .list items) :: members => do
    let record ←
      if name = "children" then (ofValues? items).map fun children => { record with children }
      else record.set? name (.list items)
    fillFrom? record members
  | (name, value) :: members => do
    let record ← record.set? name value
    fillFrom? record members

/-- The records that several values hold. -/
def ofValues? : List Value → Option (List Record)
  | [] => some []
  | value :: values => do
    let record ← ofValue? value
    let records ← ofValues? values
    some (record :: records)

end

/-! ## What is filled from the members of a written tree -/

theorem spelledMembers_append (members others : List (String × Json)) :
    spelledMembers (members ++ others) = spelledMembers members ++ spelledMembers others := by
  induction members with
  | nil => rfl
  | cons member members ih =>
      obtain ⟨key, value⟩ := member
      rw [List.cons_append, spelledMembers, ih]
      rfl

theorem spelledItems_eq (items : List Json) : spelledItems items = items.map spelled := by
  induction items with
  | nil => rfl
  | cons item items ih => rw [spelledItems, ih, List.map_cons]

/-- A member that holds no records only sets its field. -/
theorem fillFrom?_cons {name : Bytes} (other : name ≠ "children") (record : Record)
    (value : Value) (members : List (Bytes × Value)) :
    fillFrom? record ((name, value) :: members) =
      (record.set? name value).bind fun record => fillFrom? record members := by
  cases value
  case list items => rw [fillFrom?, if_neg other]; rfl
  all_goals rfl

theorem fillFrom?_append (record : Record) (members others : List (Bytes × Value)) :
    fillFrom? record (members ++ others) =
      (fillFrom? record members).bind fun record => fillFrom? record others := by
  induction members generalizing record with
  | nil => rfl
  | cons member members ih =>
      obtain ⟨name, value⟩ := member
      cases value with
      | list items =>
          simp only [List.cons_append, fillFrom?, ih, Option.bind_eq_bind]
          split <;> rw [Option.bind_assoc]
      | _ => simp only [List.cons_append, fillFrom?, ih, Option.bind_eq_bind, Option.bind_assoc]

theorem ofString_inj {text other : String} :
    Bytes.ofString text = Bytes.ofString other ↔ text = other := by
  rw [Bytes.ofString, Bytes.ofString, Array.toList_inj, ← ByteArray.ext_iff]
  exact String.toByteArray_inj

theorem place?_ofPos (pos : Pos) : place? (ofPos pos).spelled = some pos.toPlace := by
  simp [ofPos, spelled, spelledMembers, place?, fill?, setPlace?, Value.isNull, integer?,
    Pos.toPlace, ofString_inj]

theorem span?_ofSpan (span : Span) :
    span? (object [("start", ofPos span.start), ("end", ofPos span.stop)]).spelled =
      some (span.start.toPlace, span.stop.toPlace) := by
  have proper : ∀ pos : Pos, (ofPos pos).spelled.isNull = false := fun _ => rfl
  simp [spelled, spelledMembers, span?, fill?, setSpan?, proper, place?_ofPos, ofString_inj]

theorem texts?_expected (texts : List String) :
    texts? (list (texts.map fun text => .text (Bytes.ofString text))).spelled =
      some (texts.map Bytes.ofString) := by
  induction texts with
  | nil => rfl
  | cons text texts ih =>
      rw [spelled, spelledItems_eq, texts?, List.map_map] at ih
      rw [spelled, spelledItems_eq, texts?, List.map_map, List.map_cons, List.mapM_cons, ih]
      rfl

theorem fault?_ofFault (fault : Node.Fault) :
    fault? (ofFault fault).spelled = some (Fault.of fault) := by
  have expected := texts?_expected fault.expected
  rw [spelled] at expected
  by_cases noneExpected : fault.expected = [] <;> by_cases noneGot : fault.got.text = []
  all_goals
    simp [ofFault, listMember, textMember, noneExpected, noneGot, spelled, spelledMembers, fault?,
      fill?, setFault?, Value.isNull, text?, ofString_inj, expected, Fault.of]

/-- A text is filled in where it is written, and is empty where it is left out. -/
theorem fillFrom?_textMember {record next : Record} {key : String} {value : Bytes}
    (sets : record.set? key (.text value) = some next) (empty : value = [] → next = record) :
    fillFrom? record (spelledMembers (textMember key value)) = some next := by
  by_cases none : value = []
  · rw [textMember, none, empty none]
    rfl
  · rw [textMember, if_neg (by simpa using none)]
    simp [spelledMembers, spelled, fillFrom?, sets]

theorem fillFrom?_fault {record : Record} (unset : record.fault = none)
    (fault : Option Node.Fault) :
    fillFrom? record (spelledMembers (fault.map fun fault => ("error", ofFault fault)).toList) =
      some { record with fault := fault.map Fault.of } := by
  cases fault with
  | none =>
      cases record
      cases unset
      rfl
  | some fault =>
      have proper : (ofFault fault).spelled.isNull = false := rfl
      rw [Option.map_some, Option.toList_some, spelledMembers,
        fillFrom?_cons (by simp [ofString_inj])]
      simp [set?, proper, fault?_ofFault, ofString_inj, spelledMembers, fillFrom?]

theorem fillFrom?_children {record : Record} (unset : record.children = []) {items : List Json}
    {children : List Record} (read : ofValues? (spelledItems items) = some children) :
    fillFrom? record (spelledMembers (listMember "children" items)) =
      some { record with children } := by
  cases items with
  | nil =>
      cases record
      cases read
      cases unset
      rfl
  | cons item items =>
      simp [listMember, spelledMembers, spelled, fillFrom?, read]

mutual

/-- What is filled from a written tree is the record of the tree. -/
theorem ofValue?_ofNode : (node : Node) → ofValue? (ofNode node).spelled = some (of node)
  | ⟨kind, span, children, token, fault, doc⟩ => by
      have spanRead := span?_ofSpan span
      rw [spelled] at spanRead
      have head : fillFrom? {} (spelledMembers [("kind", .text kind.name),
          ("category", .text kind.category.name),
          ("span", .object [("start", ofPos span.start), ("end", ofPos span.stop)])]) =
          some { kind := kind.name, category := kind.category.name,
                 start := span.start.toPlace, stop := span.stop.toPlace } := by
        simp [spelledMembers, fillFrom?, spelled, set?, Value.isNull, text?, ofString_inj]
        exact spanRead
      rw [ofNode, spelled, ofValue?]
      simp only [spelledMembers_append, fillFrom?_append]
      rw [head]
      simp only [Option.bind_some]
      rw [fillFrom?_textMember (by simp [set?, Value.isNull, text?, ofString_inj]; rfl)
        (fun none => by rw [none])]
      simp only [Option.bind_some]
      rw [fillFrom?_textMember (by simp [set?, Value.isNull, text?, ofString_inj]; rfl)
        (fun none => by rw [none])]
      simp only [Option.bind_some]
      rw [fillFrom?_fault rfl]
      simp only [Option.bind_some]
      rw [fillFrom?_children rfl (ofValues?_ofNodes children)]
      rfl

theorem ofValues?_ofNodes : (nodes : List Node) →
    ofValues? (spelledItems (ofNodes nodes)) = some (ofAll nodes)
  | [] => rfl
  | node :: nodes => by
      rw [ofNodes, spelledItems, ofValues?, ofValue?_ofNode node, ofValues?_ofNodes nodes]
      rfl

end

end Record

/-! ## Trees with well-formed texts -/

/-- The texts that a node carries are well formed. -/
structure LegibleNode (node : Node) : Prop where
  token : node.tokenText.isValid
  doc : node.docText.isValid
  message : ∀ fault ∈ node.fault, fault.message.isValid
  got : ∀ fault ∈ node.fault, fault.got.text.isValid

/-- All texts that a tree carries are well formed. -/
def Legible (tree : Node) : Prop :=
  ∀ node ∈ tree.nodes, LegibleNode node

theorem membersValid_append {members others : List (String × Json)} :
    MembersValid (members ++ others) ↔ MembersValid members ∧ MembersValid others := by
  induction members with
  | nil => simp [MembersValid]
  | cons member members ih =>
      obtain ⟨key, value⟩ := member
      simp only [List.cons_append, MembersValid, ih, and_assoc]

theorem membersValid_textMember (key : String) {value : Bytes} (valid : value.isValid) :
    MembersValid (textMember key value) := by
  unfold textMember
  split
  · trivial
  · exact ⟨valid, trivial⟩

theorem membersValid_listMember (key : String) {items : List Json} (valid : AllValid items) :
    MembersValid (listMember key items) := by
  unfold listMember
  split
  · trivial
  · exact ⟨valid, trivial⟩

theorem valid_ofFault {fault : Node.Fault} (message : fault.message.isValid)
    (got : fault.got.text.isValid) : (ofFault fault).Valid := by
  have expected : ∀ texts : List String,
      AllValid (texts.map fun text => .text (Bytes.ofString text)) := by
    intro texts
    induction texts with
    | nil => trivial
    | cons text texts ih => exact ⟨Bytes.isValid_ofString text, ih⟩
  rw [ofFault, Valid, membersValid_append, membersValid_append]
  exact ⟨⟨⟨message, trivial⟩, membersValid_listMember _ (expected _)⟩,
    membersValid_textMember _ got⟩

mutual

theorem valid_ofNode : (tree : Node) → Legible tree → (ofNode tree).Valid
  | ⟨kind, span, children, token, fault, doc⟩, legible => by
      rw [Legible, Node.nodes_eq, List.forall_mem_cons] at legible
      obtain ⟨root, inside⟩ := legible
      have fields : MembersValid [("kind", .text kind.name), ("category", .text kind.category.name),
          ("span", .object [("start", ofPos span.start), ("end", ofPos span.stop)])] := by
        simp [MembersValid, Valid, ofPos, Bytes.isValid_ofString]
      have faultValid : MembersValid (fault.map fun fault => ("error", ofFault fault)).toList := by
        cases fault with
        | none => trivial
        | some fault => exact ⟨valid_ofFault (root.message fault rfl) (root.got fault rfl), trivial⟩
      simp only [ofNode, Valid, membersValid_append]
      exact ⟨⟨⟨⟨fields, membersValid_textMember _ root.token⟩, membersValid_textMember _ root.doc⟩,
        faultValid⟩, membersValid_listMember _ (valid_ofNodes children inside)⟩

theorem valid_ofNodes : (trees : List Node) → (∀ node ∈ Node.forest trees, LegibleNode node) →
    AllValid (ofNodes trees)
  | [], _ => trivial
  | tree :: trees, legible => by
      rw [Node.forest, List.flatMap_cons, List.forall_mem_append] at legible
      exact ⟨valid_ofNode tree legible.1, valid_ofNodes trees legible.2⟩

end

/-- What is filled from the text of a tree is the record of the tree. -/
theorem read?_document {tree : Node} (legible : Legible tree) :
    (read? (document (some tree))).bind Record.ofValue? = some (Record.of tree) := by
  rw [document, read?_render (valid_ofNode tree legible), Option.bind_some, Record.ofValue?_ofNode]

end JavaFront.Listing.Json
