import JavaFront.Proofs.Grammar.Keeping
import JavaFront.Proofs.Token.Significant
import JavaFront.Proofs.Tree.Walk

/-!
# Accounting for tokens

Trees account for the tokens from one index of a stream up to another if their
leaves hold the names and literals among them in order, error nodes apart: an
error node stands for all tokens it covers. What a walk over such trees finds
is then what the stream holds there outside of error nodes.
-/

namespace JavaFront

/-- The trees account for the tokens from one index up to another. -/
inductive Accounts (stream : Stream) : List Node → Nat → Nat → Prop
  | nil {pos} : pos ≤ stream.last → Accounts stream [] pos pos
  | skip {nodes first after} : first < stream.last → (stream.kind first).isNamed = false →
      Accounts stream nodes (first + 1) after → Accounts stream nodes first after
  | leaf {node nodes first after} : node.kind ≠ .error → node.kind ≠ .localVarDecl →
      node.children = [] → node.token = some (stream.get first) → first < stream.last →
      (stream.kind first).isNamed = true → Accounts stream nodes (first + 1) after →
      Accounts stream (node :: nodes) first after
  | inner {node nodes first middle after} : node.kind ≠ .error →
      (∀ token, node.token = some token → token.kind.isNamed = false) →
      Accounts stream node.children first middle → Accounts stream nodes middle after →
      Accounts stream (node :: nodes) first after
  | error {node nodes first middle after} : node.kind = .error → node.children = [] →
      node.token = none → node.span = stream.stretch first middle → first ≤ middle →
      Accounts stream nodes middle after → Accounts stream (node :: nodes) first after

namespace Accounts

variable {stream : Stream} {nodes others : List Node} {first middle after : Nat}

theorem bounds (accounts : Accounts stream nodes first after) :
    first ≤ after ∧ after ≤ stream.last := by
  induction accounts with
  | nil inside => exact ⟨Nat.le_refl _, inside⟩
  | skip _ _ _ ih => exact ⟨by omega, ih.2⟩
  | leaf _ _ _ _ _ _ _ ih => exact ⟨by omega, ih.2⟩
  | inner _ _ _ _ childIh ih => exact ⟨by omega, ih.2⟩
  | error _ _ _ _ _ _ ih => exact ⟨by omega, ih.2⟩

theorem append (front : Accounts stream nodes first middle)
    (back : Accounts stream others middle after) :
    Accounts stream (nodes ++ others) first after := by
  induction front with
  | nil => exact back
  | skip inside unnamed _ ih => exact .skip inside unnamed (ih back)
  | leaf proper notHead bare own inside named _ ih =>
      exact .leaf proper notHead bare own inside named (ih back)
  | inner proper unnamed children _ _ ih => exact .inner proper unnamed children (ih back)
  | error isError bare tokenless covers order _ ih =>
      exact .error isError bare tokenless covers order (ih back)

theorem split (accounts : Accounts stream (nodes ++ others) first after) :
    ∃ middle, Accounts stream nodes first middle ∧ Accounts stream others middle after := by
  generalize whole : nodes ++ others = all at accounts
  induction accounts generalizing nodes with
  | nil inside =>
      obtain ⟨rfl, rfl⟩ := List.append_eq_nil_iff.mp whole
      exact ⟨_, .nil inside, .nil inside⟩
  | skip inside unnamed _ ih =>
      obtain ⟨middle, front, back⟩ := ih whole
      exact ⟨middle, .skip inside unnamed front, back⟩
  | leaf proper notHead bare own inside named rest ih =>
      rcases List.append_eq_cons_iff.mp whole with ⟨rfl, rfl⟩ | ⟨tail, rfl, rfl⟩
      · exact ⟨_, .nil (Nat.le_of_lt inside), .leaf proper notHead bare own inside named rest⟩
      · obtain ⟨middle, front, back⟩ := ih rfl
        exact ⟨middle, .leaf proper notHead bare own inside named front, back⟩
  | inner proper unnamed children rest _ ih =>
      rcases List.append_eq_cons_iff.mp whole with ⟨rfl, rfl⟩ | ⟨tail, rfl, rfl⟩
      · have := children.bounds
        have := rest.bounds
        exact ⟨_, .nil (by omega), .inner proper unnamed children rest⟩
      · obtain ⟨middle, front, back⟩ := ih rfl
        exact ⟨middle, .inner proper unnamed children front, back⟩
  | error isError bare tokenless covers order rest ih =>
      rcases List.append_eq_cons_iff.mp whole with ⟨rfl, rfl⟩ | ⟨tail, rfl, rfl⟩
      · have := rest.bounds
        exact ⟨_, .nil (by omega), .error isError bare tokenless covers order rest⟩
      · obtain ⟨middle, front, back⟩ := ih rfl
        exact ⟨middle, .error isError bare tokenless covers order front, back⟩

/-- A documentation comment changes nothing about the tokens. -/
theorem document {node : Node} (doc : Option Token)
    (accounts : Accounts stream [node] first after) :
    Accounts stream [{ node with doc }] first after := by
  generalize single : [node] = all at accounts
  induction accounts with
  | nil => cases single
  | skip inside unnamed _ ih => exact .skip inside unnamed (ih single)
  | leaf proper notHead bare own inside named rest =>
      cases single
      exact .leaf proper notHead bare own inside named rest
  | inner proper unnamed children rest =>
      cases single
      exact .inner proper unnamed children rest
  | error isError bare tokenless covers order rest =>
      cases single
      exact .error isError bare tokenless covers order rest

/-- The children of the head of a local variable account for what it accounts
for. -/
theorem children {node : Node} (isHead : node.kind = .localVarDecl)
    (accounts : Accounts stream [node] first after) :
    Accounts stream node.children first after := by
  generalize single : [node] = all at accounts
  induction accounts with
  | nil => cases single
  | skip inside unnamed _ ih => exact .skip inside unnamed (ih single)
  | leaf _ notHead =>
      cases single
      exact absurd isHead notHead
  | inner _ _ children rest =>
      cases single
      simpa using children.append rest
  | error isError =>
      cases single
      rw [isHead] at isError
      cases isError

/-- A node with at most an unnamed token of its own accounts for what its
children account for. -/
theorem node {node : Node} (proper : node.kind ≠ .error)
    (unnamed : ∀ token, node.token = some token → token.kind.isNamed = false)
    (children : Accounts stream node.children first after) : Accounts stream [node] first after :=
  .inner proper unnamed children (.nil children.bounds.2)

theorem skips (order : first ≤ middle)
    (unnamed : ∀ index, first ≤ index → index < middle → (stream.kind index).isNamed = false)
    (accounts : Accounts stream nodes middle after) : Accounts stream nodes first after := by
  induction order with
  | refl => exact accounts
  | @step middle order ih =>
      have within := accounts.bounds
      have last := unnamed middle order (Nat.lt_succ_self middle)
      refine ih ?_ (.skip (by omega) last accounts)
      intro index low high
      exact unnamed index low (Nat.lt_succ_of_lt high)

/-- The leaf of a token accounts for it. -/
theorem leafAt (ordered : stream.Ordered) {kind : Node.Kind} {pos : Nat}
    (inside : pos ≤ stream.last) (proper : kind ≠ .error) (notHead : kind ≠ .localVarDecl) :
    Accounts stream [.leaf kind (stream.get pos)] pos (stream.succ pos) := by
  have unnamedLeaf : ∀ {index : Nat}, index ≤ stream.last → (stream.kind pos).isNamed = false →
      Accounts stream [.leaf kind (stream.get pos)] index index := by
    intro index within unnamed
    refine .node proper ?_ (.nil within)
    rintro token own
    cases own
    exact unnamed
  rcases Nat.lt_or_eq_of_le inside with before | rfl
  · rw [Stream.succ_of_lt before]
    by_cases named : (stream.kind pos).isNamed
    · exact .leaf proper notHead rfl rfl before named (.nil before)
    · rw [Bool.not_eq_true] at named
      exact .skip before named (unnamedLeaf before named)
  · have stays : stream.succ stream.last = stream.last := by simp [Stream.succ]
    rw [stays]
    apply unnamedLeaf (Nat.le_refl _)
    rw [ordered.kind_last]
    rfl

/-- The leaf of an operator accounts for the tokens it is made of. -/
theorem operatorAt (ordered : stream.Ordered) {pos : Nat} (inside : pos ≤ stream.last) :
    Accounts stream [.leaf .operator (stream.operatorToken pos)] pos
      (stream.afterOperator pos) := by
  rcases stream.operator_cases pos with single | ⟨composed, pieces⟩
  · obtain ⟨sameToken, sameAfter⟩ := Stream.operatorToken_of_single single
    rw [sameToken, sameAfter]
    exact leafAt ordered inside (by decide) (by decide)
  · have within := Stream.advance_le_last (stream.operator pos).2 inside
    have order := stream.le_advance pos (stream.operator pos).2
    have short := stream.advance_le pos (stream.operator pos).2
    refine skips order ?_ (.node (by simp [Node.leaf]) ?_ (.nil within))
    · intro index low high
      have piece := pieces (index - pos) (by omega)
      rw [Nat.add_sub_cancel' low] at piece
      revert piece
      cases stream.kind index <;> decide
    · rintro token own
      cases own
      revert composed
      simp only [Stream.operatorToken, Stream.fuse]
      cases (stream.operator pos).1 <;> decide

end Accounts

/-! ## Counting -/

/-- The grammar sees every name and every literal. -/
theorem Token.isSignificant_of_isNamed {token : Token} (named : token.kind.isNamed = true) :
    token.isSignificant = true := by
  revert named
  simp only [Token.isSignificant]
  cases token.kind <;> decide

namespace Node

/-- A token lies inside an error node of the trees. -/
def loses (nodes : List Node) (token : Token) : Bool :=
  (forest nodes).any fun node => node.isError && node.span.contains token.span

/-- The names and literals that a walk over the trees finds. -/
def named (nodes : List Node) : List Token :=
  ((forest nodes).filterMap Node.token).filter (·.kind.isNamed)

@[simp]
theorem loses_nil (token : Token) : loses [] token = false :=
  rfl

@[simp]
theorem loses_cons (node : Node) (nodes : List Node) (token : Token) :
    loses (node :: nodes) token =
      (node.isError && node.span.contains token.span ||
        (loses node.children token || loses nodes token)) := by
  simp [loses]

@[simp]
theorem named_nil : named [] = [] :=
  rfl

@[simp]
theorem named_cons (node : Node) (nodes : List Node) :
    named (node :: nodes) =
      node.token.toList.filter (·.kind.isNamed) ++ (named node.children ++ named nodes) := by
  cases own : node.token <;> simp [named, List.filter_cons, own]
  split <;> rfl

end Node

/-- The names and literals between two indexes that lie inside of no error
node. -/
def Stream.survivors (stream : Stream) (nodes : List Node) (first after : Nat) : List Token :=
  (stream.segment first after).filter fun token => token.kind.isNamed && !Node.loses nodes token

/-- Only the tokens between the indexes matter. -/
theorem Stream.survivors_congr {stream : Stream} {nodes others : List Node} {first after : Nat}
    (same : ∀ index, first ≤ index → index < after →
      Node.loses nodes (stream.get index) = Node.loses others (stream.get index)) :
    stream.survivors nodes first after = stream.survivors others first after := by
  apply List.filter_congr
  intro token member
  obtain ⟨index, low, high, rfl⟩ := mem_segment member
  rw [same index low high]

theorem Stream.survivors_append (stream : Stream) (nodes : List Node) {first middle after : Nat}
    (low : first ≤ middle) (high : middle ≤ after) :
    stream.survivors nodes first after =
      stream.survivors nodes first middle ++ stream.survivors nodes middle after := by
  rw [survivors, stream.segment_append low high, List.filter_append]
  rfl

namespace Accounts

variable {stream : Stream} {nodes : List Node} {first after : Nat}

/-- The error nodes of trees that account for a range lie inside it. -/
theorem of_loses (ordered : stream.Ordered) (accounts : Accounts stream nodes first after)
    {index : Nat} (inside : index < stream.last)
    (lost : Node.loses nodes (stream.get index) = true) :
    first ≤ index ∧ index < after := by
  induction accounts with
  | nil => cases lost
  | skip _ _ _ ih =>
      have later := ih lost
      omega
  | leaf proper _ bare _ _ _ _ ih =>
      have later := ih (by simpa [bare, Node.isError, proper] using lost)
      omega
  | @inner node nodes first middle after proper _ children rest childIh ih =>
      have childBounds := children.bounds
      have restBounds := rest.bounds
      have either : Node.loses node.children (stream.get index) = true ∨
          Node.loses nodes (stream.get index) = true := by
        simpa [Node.isError, proper] using lost
      rcases either with inChildren | inRest
      · have early := childIh inChildren
        omega
      · have late := ih inRest
        omega
  | @error node nodes first middle after isError bare _ covers order rest ih =>
      have restBounds := rest.bounds
      have either : node.span.contains (stream.get index).span = true ∨
          Node.loses nodes (stream.get index) = true := by
        simpa [bare, Node.isError, isError] using lost
      rcases either with here | inRest
      · rw [covers, ordered.stretch_contains_iff order (by omega) inside] at here
        omega
      · have late := ih inRest
        omega

theorem not_loses (ordered : stream.Ordered) (accounts : Accounts stream nodes first after)
    {index : Nat} (inside : index < stream.last) (outside : index < first ∨ after ≤ index) :
    Node.loses nodes (stream.get index) = false := by
  by_contra lost
  have := accounts.of_loses ordered inside (Bool.not_eq_false _ ▸ lost)
  omega

/-- The names and literals that a walk finds are those of the stream outside of
error nodes, in the same order. -/
theorem survivors_eq_named (ordered : stream.Ordered)
    (accounts : Accounts stream nodes first after) :
    stream.survivors nodes first after = Node.named nodes := by
  induction accounts with
  | nil => simp [Stream.survivors, Stream.segment_self]
  | @skip nodes first after _ unnamed rest ih =>
      have restBounds := rest.bounds
      rw [Stream.kind] at unnamed
      rw [Stream.survivors, Stream.segment_cons (by omega),
        List.filter_cons_of_neg (by simp [unnamed])]
      exact ih
  | @leaf node nodes first after proper _ bare own inside isNamed rest ih =>
      have restBounds := rest.bounds
      have kept := rest.not_loses ordered inside (.inl (Nat.lt_succ_self first))
      have same : stream.survivors (node :: nodes) (first + 1) after =
          stream.survivors nodes (first + 1) after := by
        refine Stream.survivors_congr fun index _ _ => ?_
        simp [bare, Node.isError, proper]
      rw [Stream.kind] at isNamed
      rw [Stream.survivors, Stream.segment_cons (by omega),
        List.filter_cons_of_pos (by simp [isNamed, kept, bare, Node.isError, proper])]
      rw [Stream.survivors] at same
      rw [same, ih]
      simp [bare, own, isNamed]
  | @inner node nodes first middle after proper unnamed children rest childIh ih =>
      have childBounds := children.bounds
      have restBounds := rest.bounds
      have front : stream.survivors (node :: nodes) first middle =
          stream.survivors node.children first middle := by
        refine Stream.survivors_congr fun index low high => ?_
        have kept := rest.not_loses ordered (show index < stream.last by omega) (.inl high)
        simp [Node.isError, proper, kept]
      have back : stream.survivors (node :: nodes) middle after =
          stream.survivors nodes middle after := by
        refine Stream.survivors_congr fun index low high => ?_
        have kept := children.not_loses ordered (Nat.lt_of_lt_of_le high restBounds.2) (.inr low)
        simp [Node.isError, proper, kept]
      rw [stream.survivors_append _ childBounds.1 restBounds.1, front, back, childIh, ih]
      cases own : node.token with
      | none => simp [own]
      | some token => simp [own, unnamed token own]
  | @error node nodes first middle after isError bare tokenless covers order rest ih =>
      have restBounds := rest.bounds
      have front : stream.survivors (node :: nodes) first middle = [] := by
        apply List.filter_eq_nil_iff.mpr
        intro token member
        obtain ⟨index, low, high, rfl⟩ := Stream.mem_segment member
        have lost : node.span.contains (stream.get index).span = true := by
          rw [covers]
          exact (ordered.stretch_contains_iff order (by omega) (by omega)).mpr ⟨low, high⟩
        simp [Node.isError, isError, lost]
      have back : stream.survivors (node :: nodes) middle after =
          stream.survivors nodes middle after := by
        refine Stream.survivors_congr fun index low high => ?_
        have kept : node.span.contains (stream.get index).span = false := by
          by_contra lost
          rw [Bool.not_eq_false, covers,
            ordered.stretch_contains_iff order (by omega) (by omega)] at lost
          omega
        simp [bare, kept]
      rw [stream.survivors_append _ order restBounds.1, front, back, ih]
      simp [bare, tokenless]

end Accounts

end JavaFront
