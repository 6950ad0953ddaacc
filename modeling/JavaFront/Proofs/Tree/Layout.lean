import JavaFront.Proofs.Token.Significant
import JavaFront.Proofs.Tree.Walk

/-!
# Where the nodes of a tree lie

Every node stands for the tokens between two indexes and covers the stretch of
text from the first to the last of them. Its children stand for tokens between
these indexes, one after another. `Laid` says so for a list of trees and all
their nodes.
-/

namespace JavaFront

/-- No node goes on behind the last token in front of an index. -/
def Stream.Trims (stream : Stream) (nodes : List Node) (pos : Nat) : Prop :=
  ∀ node ∈ nodes, node.span.stop.offset ≤ (stream.get (pos - 1)).span.stop.offset

/-- The node covers the tokens from one index up to another. Where there are
any, no child goes on behind them, and where there are several, the last is no
dot. -/
structure Node.Covers (stream : Stream) (node : Node) (start stop : Nat) : Prop where
  span_eq : node.span = stream.stretch start stop
  trims : start < stop → stream.Trims node.children stop
  firm : start + 1 < stop → stream.kind (stop - 1) ≠ .dot

/-- The nodes stand for tokens between two indexes, one after another, and so
do the children of each. -/
inductive Laid (stream : Stream) : List Node → Nat → Nat → Prop
  | nil {first after} : first ≤ after → after ≤ stream.last → Laid stream [] first after
  | cons {node nodes first start stop after} :
      first ≤ start → node.Covers stream start stop → Laid stream node.children start stop →
      Laid stream nodes stop after → Laid stream (node :: nodes) first after

namespace Laid

variable {stream : Stream} {nodes others : List Node} {first middle after pos : Nat}

theorem bounds (laid : Laid stream nodes first after) : first ≤ after ∧ after ≤ stream.last := by
  induction laid with
  | nil order inside => exact ⟨order, inside⟩
  | cons starts _ _ _ childrenIh restIh =>
      exact ⟨by omega, restIh.2⟩

/-- Room in front of the nodes may be left out or added. -/
theorem before (laid : Laid stream nodes middle after) (order : first ≤ middle) :
    Laid stream nodes first after := by
  cases laid with
  | nil bound inside => exact .nil (by omega) inside
  | cons starts covers children rest => exact .cons (by omega) covers children rest

/-- Tokens that are read without a part leave room behind the nodes. -/
theorem behind (laid : Laid stream nodes first middle) (order : middle ≤ after)
    (inside : after ≤ stream.last) : Laid stream nodes first after := by
  induction laid with
  | nil bound _ => exact .nil (by omega) inside
  | cons starts covers children _ _ ih => exact .cons starts covers children (ih order)

theorem append (front : Laid stream nodes first middle) (back : Laid stream others middle after) :
    Laid stream (nodes ++ others) first after := by
  induction front with
  | nil order _ => exact back.before order
  | cons starts covers children _ _ ih => exact .cons starts covers children (ih back)

theorem split (laid : Laid stream (nodes ++ others) first after) :
    ∃ middle, Laid stream nodes first middle ∧ Laid stream others middle after := by
  induction nodes generalizing first with
  | nil =>
      have bounds := laid.bounds
      exact ⟨first, .nil (Nat.le_refl _) (by omega), laid⟩
  | cons node nodes ih =>
      rw [List.cons_append] at laid
      cases laid with
      | cons starts covers children rest =>
          obtain ⟨middle, front, back⟩ := ih rest
          exact ⟨middle, .cons starts covers children front, back⟩

theorem single {node : Node} {start stop : Nat} (covers : node.Covers stream start stop)
    (children : Laid stream node.children start stop) : Laid stream [node] start stop := by
  have bounds := children.bounds
  exact .cons (Nat.le_refl _) covers children (.nil (Nat.le_refl _) bounds.2)

/-- The last node lies behind the others, between two indexes of its own. -/
theorem latest {node : Node} (laid : Laid stream (node :: nodes).reverse first after) :
    ∃ middle start stop, Laid stream nodes.reverse first middle ∧ middle ≤ start ∧ stop ≤ after ∧
      node.Covers stream start stop ∧ Laid stream node.children start stop := by
  rw [List.reverse_cons] at laid
  obtain ⟨middle, front, back⟩ := laid.split
  cases back with
  | cons starts covers children rest =>
      have bounds := rest.bounds
      exact ⟨middle, _, _, front, starts, bounds.1, covers, children⟩

/-- A documentation comment moves nothing. -/
theorem document {node : Node} (doc : Option Token) (laid : Laid stream [node] first after) :
    Laid stream [{ node with doc }] first after := by
  cases laid with
  | cons starts covers children rest =>
      exact .cons starts ⟨covers.span_eq, covers.trims, covers.firm⟩ children rest

/-- Once another token is read, no node goes on behind the last token. -/
theorem trims (ordered : stream.Ordered) (laid : Laid stream nodes first pos) (moved : pos < after)
    (inside : after ≤ stream.last) : stream.Trims nodes after := by
  induction laid with
  | nil => exact fun _ member => absurd member List.not_mem_nil
  | cons starts covers children rest _ ih =>
      have bounds := children.bounds
      have restBounds := rest.bounds
      intro node member
      rcases List.mem_cons.mp member with rfl | later
      · rw [covers.span_eq]
        exact ordered.stretch_stop_le_stop bounds.1 (by omega) (by omega) inside
      · exact ih moved node later

/-! ## What the nodes of a layout are like -/

/-- Nodes start behind the index at which they are laid out. -/
theorem start_le (ordered : stream.Ordered) (laid : Laid stream nodes first after) :
    ∀ node ∈ nodes, (stream.get first).span.start.offset ≤ node.span.start.offset := by
  induction laid with
  | nil => exact fun _ member => absurd member List.not_mem_nil
  | cons starts covers children rest _ ih =>
      have bounds := children.bounds
      intro node member
      rcases List.mem_cons.mp member with rfl | later
      · rw [covers.span_eq, Stream.stretch_start]
        exact ordered.start_le_start starts (by omega)
      · have restBounds := rest.bounds
        exact Nat.le_trans (ordered.start_le_start (by omega) (by omega)) (ih node later)

/-- Nodes that are laid out between two indexes end in front of the second. -/
theorem stop_le (ordered : stream.Ordered) (laid : Laid stream nodes first after) :
    ∀ node ∈ nodes, node.span.stop.offset ≤ (stream.get after).span.start.offset := by
  induction laid with
  | nil => exact fun _ member => absurd member List.not_mem_nil
  | cons starts covers children rest _ ih =>
      have bounds := children.bounds
      have restBounds := rest.bounds
      intro node member
      rcases List.mem_cons.mp member with rfl | later
      · rw [covers.span_eq]
        exact Nat.le_trans (ordered.stretch_stop_le_start bounds.1 bounds.2)
          (ordered.start_le_start restBounds.1 restBounds.2)
      · exact ih node later

/-- Neighbours do not overlap. -/
theorem pairwise (ordered : stream.Ordered) (laid : Laid stream nodes first after) :
    nodes.Pairwise fun node next => node.span.stop.offset ≤ next.span.start.offset := by
  induction laid with
  | nil => exact .nil
  | cons starts covers children rest _ ih =>
      have bounds := children.bounds
      refine .cons ?_ ih
      intro next later
      rw [covers.span_eq]
      exact Nat.le_trans (ordered.stretch_stop_le_start bounds.1 bounds.2)
        (rest.start_le ordered next later)

/-- All nodes of a layout cover the tokens between two indexes, and their
children are laid out there. -/
theorem of_mem_forest (laid : Laid stream nodes first after) :
    ∀ node ∈ Node.forest nodes, ∃ start stop, node.Covers stream start stop ∧
      Laid stream node.children start stop := by
  induction laid with
  | nil => exact fun _ member => absurd member List.not_mem_nil
  | cons starts covers children rest childrenIh restIh =>
      intro node member
      rw [Node.forest_cons, List.mem_cons, List.mem_append] at member
      rcases member with rfl | inside | later
      · exact ⟨_, _, covers, children⟩
      · exact childrenIh node inside
      · exact restIh node later

/-- A node contains its children. -/
theorem contains (ordered : stream.Ordered) {node : Node} {start stop : Nat}
    (covers : node.Covers stream start stop) (children : Laid stream node.children start stop) :
    ∀ child ∈ node.children, node.span.contains child.span = true := by
  have bounds := children.bounds
  intro child member
  rw [covers.span_eq, Span.contains, Bool.and_eq_true, decide_eq_true_eq, decide_eq_true_eq]
  refine ⟨children.start_le ordered child member, ?_⟩
  rcases Nat.lt_or_eq_of_le bounds.1 with some | rfl
  · rw [Stream.stretch_stop_of_lt some]
    exact covers.trims some child member
  · rw [Stream.stretch_self]
    exact children.stop_le ordered child member

end Laid

end JavaFront
