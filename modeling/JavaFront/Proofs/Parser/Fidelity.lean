import JavaFront.Proofs.Parser.Placement
import JavaFront.Proofs.Parser.Whole
import JavaFront.Proofs.Token.Slices

/-!
# Nodes and the text they span

In a parse without errors a node spans its own tokens and nothing else. It
contains its children, one behind another, and the text of its span, read on its
own, has the tokens that the whole text has there.
-/

namespace JavaFront

namespace Source

/-- The significant tokens of the source that lie inside a span. -/
def tokensIn (source : Source) (span : Span) : List Token :=
  (source.tokens.filter Token.isSignificant).filter (span.contains ·.span)

/-- A significant token starts the span and one ends it. The text of the span,
read on its own, has the kinds and the texts of those inside of it. -/
structure Spells (source : Source) (span : Span) : Prop where
  starts : (source.tokensIn span).head?.map (·.span.start) = some span.start
  stops : (source.tokensIn span).getLast?.map (·.span.stop) = some span.stop
  relexes : ∀ file, ((of file (source.slice span.start.offset span.stop.offset)).tokens.filter
    Token.isSignificant).map Token.shape = (source.tokensIn span).map Token.shape

/-- A stretch of tokens that does not end with a dot is spelled by its text. -/
theorem spells_stretch {source : Source} {first after : Nat} (order : first < after)
    (inside : after ≤ (Stream.ofSource source).last)
    (regular : ∀ index, (Stream.ofSource source).kind index ≠ .error)
    (firm : first + 1 < after → (Stream.ofSource source).kind (after - 1) ≠ .dot) :
    source.Spells ((Stream.ofSource source).stretch first after) := by
  have ordered := Stream.ofSource_ordered source
  have within : source.tokensIn ((Stream.ofSource source).stretch first after) =
      (Stream.ofSource source).segment first after := by
    rw [tokensIn, ← (Stream.tokens_ofSource source).1]
    exact ordered.filter_stretch (Nat.le_of_lt order) inside
  constructor
  · rw [within, Stream.segment_cons order]
    rfl
  · rw [within, Stream.segment_concat order, Stream.stretch_stop_of_lt order]
    simp
  · intro file
    rw [within]
    exact significant_slice order inside regular firm file

end Source

/-- The node contains its children, which follow one another and do not
overlap. Unless it is a whole unit or empty, the text of its span spells its
tokens. -/
structure Node.FaithfulTo (source : Source) (node : Node) : Prop where
  contains : ∀ child ∈ node.children, node.span.contains child.span = true
  apart : node.children.Pairwise fun child next => child.span.stop.offset ≤ next.span.start.offset
  spells : node.kind ≠ .compilationUnit → node.span.start.offset ≠ node.span.stop.offset →
    source.Spells node.span

/-- All nodes of a layout are faithful to the source. -/
theorem Laid.faithful {source : Source} {nodes : List Node} {first after : Nat}
    (laid : Laid (Stream.ofSource source) nodes first after)
    (regular : ∀ index, (Stream.ofSource source).kind index ≠ .error) :
    ∀ node ∈ Node.forest nodes, node.FaithfulTo source := by
  have ordered := Stream.ofSource_ordered source
  intro node member
  obtain ⟨start, stop, covers, children⟩ := laid.of_mem_forest node member
  have bounds := children.bounds
  refine ⟨Laid.contains ordered covers children, children.pairwise ordered, ?_⟩
  intro _ proper
  rw [covers.span_eq] at proper ⊢
  have order : start < stop := by
    rcases Nat.lt_or_eq_of_le bounds.1 with before | rfl
    · exact before
    · exact absurd rfl (by rwa [Stream.stretch_self] at proper)
  exact Source.spells_stretch order bounds.2 regular covers.firm

/-- A node from the start of the text to its end is faithful if it stands for a
unit. -/
theorem Laid.faithful_unit {source : Source} {unit : Node} {first after : Nat}
    (laid : Laid (Stream.ofSource source) unit.children first after)
    (isUnit : unit.kind = .compilationUnit)
    (whole : unit.span =
      ⟨.origin, ((Stream.ofSource source).get (Stream.ofSource source).last).span.stop⟩) :
    unit.FaithfulTo source := by
  have ordered := Stream.ofSource_ordered source
  have bounds := laid.bounds
  refine ⟨?_, laid.pairwise ordered, fun notUnit => absurd isUnit notUnit⟩
  intro child member
  have before : child.span.stop.offset ≤
      ((Stream.ofSource source).get (Stream.ofSource source).last).span.stop.offset := by
    rw [ordered.span_last]
    exact Nat.le_trans (laid.stop_le ordered child member)
      (ordered.start_le_start bounds.2 (Nat.le_refl _))
  rw [whole, Span.contains, Bool.and_eq_true, decide_eq_true_eq, decide_eq_true_eq]
  exact ⟨Nat.zero_le _, before⟩

namespace Parser

variable {stream : Stream} {after : Nat} {inner : Frame}

/-- The parts of a rule that does not cover the whole text are laid out from its
first token to its last. -/
theorem Reads.laid_body (ordered : stream.Ordered) {rule : Rule} (notUnit : rule ≠ .compilationUnit)
    (reads : Reads stream rule.body 0 ((Setup.plain stream).frame { pos := 0 } .error)
      (some (after, inner))) : Laid stream inner.parts.reverse 0 after :=
  (reads.placed ordered (Rule.body_closes notUnit) (fun _ some => absurd some (Nat.lt_irrefl 0))
    (.nil (Nat.le_refl 0) (Nat.zero_le _)) rfl).laid

/-- A unit is one node that covers the whole text, and its children are laid out
there. -/
theorem Reads.laid_unit (ordered : stream.Ordered)
    (reads : Reads stream Rule.compilationUnit.body 0
      ((Setup.plain stream).frame { pos := 0 } .error) (some (after, inner))) :
    ∃ unit : Node, inner.parts = [unit] ∧ unit.kind = .compilationUnit ∧
      unit.span = ⟨.origin, (stream.get stream.last).span.stop⟩ ∧
      Laid stream unit.children 0 after := by
  obtain ⟨body, isCover, closes, keepsKind⟩ := Rule.body_compilationUnit
  rw [isCover] at reads
  generalize found : some (after, inner) = result at reads
  cases reads with
  | @cover _ _ _ _ result bodyReads =>
      obtain ⟨⟨stop, filled⟩, rfl, same⟩ := Option.map_eq_some_iff.mp found.symm
      cases same
      have placed := bodyReads.placed ordered closes (fun _ some => absurd some (Nat.lt_irrefl 0))
        (.nil (Nat.le_refl 0) (Nat.zero_le _)) rfl
      have sameKind : filled.kind = .compilationUnit := by
        simpa [keepsKind] using placed.kind
      have sameStart : filled.start = .origin := placed.start
      refine ⟨_, rfl, sameKind, ?_, placed.laid⟩
      rw [Frame.toNode, sameStart]

end Parser

namespace Source

open JavaFront.Parser

/-- Spans are right. In a parse without errors every node contains its children,
which follow one another, and the text of a node spells the tokens inside of
it. -/
theorem parse_spans (source : Source) (entry : Entry) (options : Options) (tree : Node)
    (clean : (source.parse entry options).hasErrors = false)
    (built : (source.parse entry options).tree = some tree) :
    ∀ node ∈ tree.nodes, node.FaithfulTo source := by
  obtain ⟨-, calm, -, sameTree⟩ := parse_of_clean clean
  let setup := Setup.ofSource source options
  have ordered : setup.stream.Ordered := Stream.ofSource_ordered source
  have regular := Setup.regular_of_calm ordered ((setup.reply_follows entry).calm calm)
  have node : setup.node? entry = some tree := sameTree.symm.trans built
  obtain ⟨parts, found, latest⟩ := Option.bind_eq_some_iff.mp node
  have faithful := (setup.reply_faithful ordered calm).reads
  rw [found] at faithful
  obtain ⟨inner, rfl, reads⟩ := faithful
  by_cases covers : entry.rule = .compilationUnit
  · rw [covers] at reads
    obtain ⟨unit, only, isUnit, whole, laid⟩ := reads.laid_unit ordered
    have same : unit = tree := by simpa [only] using latest
    subst same
    intro node member
    rw [Node.nodes_eq, List.mem_cons] at member
    rcases member with rfl | inside
    · exact laid.faithful_unit isUnit whole
    · exact laid.faithful regular node inside
  · intro node member
    apply (reads.laid_body ordered covers).faithful regular node
    exact List.mem_flatMap.mpr ⟨tree, List.mem_reverse.mpr (List.mem_of_head? latest), member⟩

/-- The number is not read together with the dot behind it, and the operator is
put together from three tokens. -/
theorem parse_spans_member :
    ∃ tree, ((of [] "1 .x <<= y").parse .expression).hasErrors = false ∧
      ((of [] "1 .x <<= y").parse .expression).tree = some tree ∧ tree.nodes.length = 6 ∧
      ∀ node ∈ tree.nodes, node.FaithfulTo (of [] "1 .x <<= y") := by
  have clean : ((of [] "1 .x <<= y").parse .expression).hasErrors = false := by decide +kernel
  have several : ((of [] "1 .x <<= y").parse .expression).tree.map (·.nodes.length) = some 6 := by
    decide +kernel
  obtain ⟨tree, built, six⟩ := Option.map_eq_some_iff.mp several
  exact ⟨tree, clean, built, six, parse_spans _ .expression {} tree clean built⟩

end Source

end JavaFront
