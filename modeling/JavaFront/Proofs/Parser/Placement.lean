import JavaFront.Proofs.Grammar.Ending
import JavaFront.Proofs.Parser.Reading
import JavaFront.Proofs.Tree.Layout

/-!
# Where phrases place their parts

A phrase that reads adds parts to the frame which stand for the tokens it has
read, so the parts of a frame are always laid out from the start of the frame to
the cursor. A node that is finished covers them all.
-/

namespace JavaFront.Parser

/-- Where a phrase that was read from an index on has placed its parts. The
parts of the frame start at `base`. -/
structure Placed (stream : Stream) (phrase : Phrase) (base pos after : Nat) (frame inner : Frame) :
    Prop where
  laid : Laid stream inner.parts.reverse base after
  trims : phrase.dangles = false → pos < after ∨ stream.Trims frame.parts pos →
    stream.Trims inner.parts after
  firm : phrase.dotted = false → pos < after → stream.kind (after - 1) ≠ .dot
  start : inner.start = frame.start
  kind : inner.kind = frame.kind ∨ inner.kind ∈ phrase.rekinds

theorem trims_reverse {stream : Stream} {nodes : List Node} {pos : Nat}
    (trims : stream.Trims nodes.reverse pos) : stream.Trims nodes pos :=
  fun node member => trims node (List.mem_reverse.mpr member)

/-- A finished node covers the tokens from the start of its frame to the
cursor. -/
theorem Setup.finish_covers {stream : Stream} (ordered : stream.Ordered) {frame : Frame}
    {start after : Nat} (starts : frame.start = (stream.get start).span.start)
    (order : start ≤ after) (inside : after ≤ stream.last)
    (trims : start < after → stream.Trims frame.parts after)
    (firm : start + 1 < after → stream.kind (after - 1) ≠ .dot) :
    ((Setup.plain stream).finish { pos := after } frame).Covers stream start after := by
  refine ⟨?_, ?_, firm⟩
  · have stops : (Setup.plain stream).stopFrom { pos := after } (stream.get start).span.start =
        (stream.stretch start after).stop := stopFrom_eq ordered order inside
    simp only [finish, Frame.toNode, starts]
    exact congrArg (Span.mk _) stops
  · intro some node member
    exact trims some node (List.mem_reverse.mp member)

/-- A frame is opened in the place of a node: it starts where the node does, and
its parts are laid out up to the cursor. -/
structure Opens (stream : Stream) (latest : Node) (opened : Frame) (pos : Nat) : Prop where
  start : opened.start = latest.span.start
  laid : ∀ {start stop}, latest.Covers stream start stop →
    Laid stream latest.children start stop → stop ≤ pos → pos ≤ stream.last →
    Laid stream opened.parts.reverse start pos
  trims : ∀ {start stop}, stream.Ordered → latest.Covers stream start stop →
    Laid stream latest.children start stop → stop ≤ pos → start < pos → pos ≤ stream.last →
    stream.Trims opened.parts pos

/-- The node becomes the first part. -/
theorem Opens.wrap (stream : Stream) (kind : Node.Kind) (latest : Node) (pos : Nat) :
    Opens stream latest { kind, start := latest.span.start, parts := [latest] } pos where
  start := rfl
  laid := fun covers children before inside => (Laid.single covers children).behind before inside
  trims := by
    intro start stop ordered covers children before some inside node member
    obtain rfl := List.mem_singleton.mp member
    rw [covers.span_eq]
    exact ordered.stretch_stop_le_stop children.bounds.1 before some inside

/-- The children of the node become the first parts. -/
theorem Opens.reopen (stream : Stream) (kind : Node.Kind) (latest : Node) (pos : Nat) :
    Opens stream latest
      { kind, start := latest.span.start, parts := latest.children.reverse } pos where
  start := rfl
  laid := by
    intro start stop covers children before inside
    rw [List.reverse_reverse]
    exact children.behind before inside
  trims := by
    intro start stop ordered covers children before some inside
    apply trims_reverse
    rw [List.reverse_reverse]
    rcases Nat.lt_or_eq_of_le before with room | rfl
    · exact children.trims ordered room inside
    · exact covers.trims some

namespace Placed

variable {stream : Stream} {phrase : Phrase} {base pos after : Nat} {frame inner : Frame}

/-- Nothing is read and nothing is built. -/
theorem rest (laid : Laid stream frame.parts.reverse base pos) :
    Placed stream phrase base pos pos frame frame where
  laid := laid
  trims := fun _ trimmed => trimmed.resolve_left (Nat.lt_irrefl pos)
  firm := fun _ moved => absurd moved (Nat.lt_irrefl pos)
  start := rfl
  kind := .inl rfl

/-- New parts stand for what is read, given the latest first. -/
theorem pushAll (ordered : stream.Ordered) (laid : Laid stream frame.parts.reverse base pos)
    {parts : List Node} (added : Laid stream parts.reverse pos after)
    (trims : phrase.dangles = false → stream.Trims parts after)
    (firm : phrase.dotted = false → pos < after → stream.kind (after - 1) ≠ .dot) :
    Placed stream phrase base pos after frame (frame.pushAll parts) where
  laid := by
    rw [Frame.pushAll, List.reverse_append]
    exact laid.append added
  trims := by
    intro firm trimmed node member
    have bounds := added.bounds
    rcases List.mem_append.mp member with new | old
    · exact trims firm node new
    · by_cases moved : pos < after
      · exact trims_reverse (laid.trims ordered moved bounds.2) node old
      · have same : after = pos := by omega
        subst same
        exact trimmed.resolve_left moved node old
  firm := firm
  start := rfl
  kind := .inl rfl

theorem push (ordered : stream.Ordered) (laid : Laid stream frame.parts.reverse base pos)
    {part : Node} (covers : part.Covers stream pos after)
    (children : Laid stream part.children pos after)
    (consumes : phrase.dangles = false → pos < after)
    (firm : phrase.dotted = false → pos < after → stream.kind (after - 1) ≠ .dot) :
    Placed stream phrase base pos after frame (frame.push part) := by
  have bounds := children.bounds
  have single : Laid stream [part].reverse pos after := .single covers children
  refine pushAll ordered laid single ?_ firm
  intro whole node member
  obtain rfl := List.mem_singleton.mp member
  rw [covers.span_eq]
  exact ordered.stretch_stop_le_stop bounds.1 (Nat.le_refl _) (consumes whole) bounds.2

/-- A token that is read without a part leaves room behind the parts. -/
theorem pass (ordered : stream.Ordered) (laid : Laid stream frame.parts.reverse base pos)
    (firm : phrase.dotted = false → stream.kind pos ≠ .dot) :
    Placed stream phrase base pos (stream.succ pos) frame frame := by
  have bounds := laid.bounds
  have within := Stream.succ_le_last bounds.2
  have none : Laid stream ([] : List Node).reverse pos (stream.succ pos) :=
    .nil (stream.le_succ pos) within
  apply pushAll ordered laid none (fun _ _ member => absurd member List.not_mem_nil)
  intro notDot moved
  rw [Stream.succ_of_moved moved, Nat.add_sub_cancel]
  exact firm notDot

theorem leaf (ordered : stream.Ordered) (laid : Laid stream frame.parts.reverse base pos)
    (kind : Node.Kind) (consumes : phrase.dangles = false → stream.kind pos ≠ .eof)
    (firm : phrase.dotted = false → stream.kind pos ≠ .dot) :
    Placed stream phrase base pos (stream.succ pos) frame
      (frame.push (.leaf kind (stream.get pos))) := by
  have bounds := laid.bounds
  have covers : (Node.leaf kind (stream.get pos)).Covers stream pos (stream.succ pos) := by
    refine ⟨ordered.span_eq_stretch bounds.2, fun _ _ member => absurd member List.not_mem_nil, ?_⟩
    intro several
    have one := Stream.succ_of_moved (Nat.lt_of_succ_lt several)
    omega
  refine push ordered laid covers (.nil (stream.le_succ pos) (Stream.succ_le_last bounds.2)) ?_ ?_
  · intro whole
    rw [Stream.succ_of_lt (ordered.lt_last (consumes whole))]
    exact Nat.lt_succ_self pos
  · intro notDot moved
    rw [Stream.succ_of_moved moved, Nat.add_sub_cancel]
    exact firm notDot

theorem seq {first second : Phrase} {middle : Nat} {between : Frame}
    (early : Moves stream first.consumes pos middle)
    (late : Moves stream second.consumes middle after)
    (before : Placed stream first base pos middle frame between)
    (behind : Placed stream second base middle after between inner) :
    Placed stream (.seq first second) base pos after frame inner where
  laid := behind.laid
  trims := by
    intro whole trimmed
    obtain ⟨secondWhole, either⟩ := Bool.or_eq_false_iff.mp whole
    apply behind.trims secondWhole
    by_cases moved : middle < after
    · exact .inl moved
    · obtain ⟨rfl, stays⟩ := late.of_not_lt moved
      have firstWhole : first.dangles = false := by simpa [stays] using either
      exact .inr (before.trims firstWhole trimmed)
  firm := by
    intro whole moved
    obtain ⟨secondWhole, either⟩ := Bool.or_eq_false_iff.mp whole
    by_cases later : middle < after
    · exact behind.firm secondWhole later
    · obtain ⟨rfl, stays⟩ := late.of_not_lt later
      have firstWhole : first.dotted = false := by simpa [stays] using either
      exact before.firm firstWhole moved
  start := behind.start.trans before.start
  kind := by
    rcases behind.kind with same | renamed
    · rcases before.kind with also | earlier
      · exact .inl (same.trans also)
      · exact .inr (List.mem_append_left _ (same ▸ earlier))
    · exact .inr (List.mem_append_right _ renamed)

/-- A composed operator is one part. -/
theorem operator (ordered : stream.Ordered) (laid : Laid stream frame.parts.reverse base pos) :
    Placed stream .operator base pos (stream.afterOperator pos) frame
      (frame.push (.leaf .operator (stream.operatorToken pos))) := by
  have bounds := laid.bounds
  obtain ⟨spanEq, notDot⟩ := ordered.operator_stretch bounds.2
  have covers : (Node.leaf .operator (stream.operatorToken pos)).Covers stream pos
      (stream.afterOperator pos) :=
    ⟨spanEq, fun _ _ member => absurd member List.not_mem_nil, notDot⟩
  have children : Laid stream [] pos (stream.afterOperator pos) :=
    .nil (stream.le_advance _ _) (Stream.advance_le_last _ bounds.2)
  exact push ordered laid covers children (by simp [Phrase.dangles]) (by simp [Phrase.dotted])

/-- A new node covers what its body has read. -/
theorem node (ordered : stream.Ordered) (laid : Laid stream frame.parts.reverse base pos)
    {kind : Node.Kind} {body : Phrase} {filled : Frame}
    (moves : Moves stream body.consumes pos after)
    (placed : Placed stream body pos pos after ((Setup.plain stream).frame { pos } kind) filled)
    (whole : body.dangles = false) (notDotted : body.dotted = false) :
    Placed stream (.node kind body) base pos after frame
      (frame.push ((Setup.plain stream).finish { pos := after } filled)) := by
  have covers := Setup.finish_covers ordered placed.start moves.le moves.inside
    (fun some => placed.trims whole (.inl some))
    (fun several => placed.firm notDotted (Nat.lt_of_succ_lt several))
  refine push ordered laid covers placed.laid ?_ placed.firm
  intro consumes
  exact moves.lt (by simpa [Phrase.dangles] using consumes)

/-- A node that is opened in the place of the latest part takes its place. -/
theorem enclose (ordered : stream.Ordered) {body : Phrase} {latest : Node} {others : List Node}
    {opened filled : Frame} (parts : frame.parts = latest :: others)
    (laid : Laid stream frame.parts.reverse base pos) (opens : Opens stream latest opened pos)
    (moves : Moves stream body.consumes pos after)
    (placed : ∀ start, base ≤ start → Laid stream opened.parts.reverse start pos →
      Placed stream body start pos after opened filled)
    (whole : body.dangles = false) (notDotted : body.dotted = false)
    (clear : body.consumes = false → base < pos → stream.kind (pos - 1) ≠ .dot) :
    Placed stream phrase base pos after frame
      (Frame.push { frame with parts := others }
        ((Setup.plain stream).finish { pos := after } filled)) := by
  have forth := moves.le
  have bounds := laid.bounds
  rw [parts] at laid
  obtain ⟨middle, start, stop, front, order, before, covers, children⟩ := laid.latest
  have frontBounds := front.bounds
  have forward := children.bounds.1
  have inner := placed start (by omega) (opens.laid covers children before bounds.2)
  have finished :
      ((Setup.plain stream).finish { pos := after } filled).Covers stream start after := by
    refine Setup.finish_covers ordered ?_ (by omega) moves.inside ?_ ?_
    · rw [inner.start, opens.start, covers.span_eq, Stream.stretch_start]
    · intro some
      apply inner.trims whole
      by_cases moved : pos < after
      · exact .inl moved
      · exact .inr (opens.trims ordered covers children before (by omega) bounds.2)
    · intro several
      by_cases moved : pos < after
      · exact inner.firm notDotted moved
      · obtain ⟨rfl, stays⟩ := moves.of_not_lt moved
        exact clear stays (by omega)
  have node : Laid stream [(Setup.plain stream).finish { pos := after } filled] start after :=
    .single finished inner.laid
  refine ⟨?_, ?_, fun _ => inner.firm notDotted, rfl, .inl rfl⟩
  · rw [Frame.push, List.reverse_cons]
    exact front.append (node.before order)
  · intro _ trimmed other member
    rcases List.mem_cons.mp member with rfl | old
    · rw [finished.span_eq]
      by_cases some : start < after
      · exact ordered.stretch_stop_le_stop (by omega) (Nat.le_refl _) some moves.inside
      · have sameAfter : after = start := by omega
        have samePos : pos = start := by omega
        have sameStop : stop = start := by omega
        subst sameAfter samePos sameStop
        have latestTrims := trimmed.resolve_left (Nat.lt_irrefl _) latest (by simp [parts])
        rwa [covers.span_eq] at latestTrims
    · by_cases moved : pos < after
      · exact trims_reverse (front.trims ordered (by omega) moves.inside) other old
      · obtain ⟨rfl, -⟩ := moves.of_not_lt moved
        exact trimmed.resolve_left moved other (by simp [parts, old])

/-- What one phrase has placed, another one has that promises less. -/
theorem mono {other : Phrase} (placed : Placed stream phrase base pos after frame inner)
    (dangles : other.dangles = false → phrase.dangles = false)
    (dotted : other.dotted = false → phrase.dotted = false)
    (rekinds : phrase.rekinds ⊆ other.rekinds) :
    Placed stream other base pos after frame inner :=
  ⟨placed.laid, fun firm => placed.trims (dangles firm), fun firm => placed.firm (dotted firm),
    placed.start, placed.kind.imp_right fun renamed => rekinds renamed⟩

/-- A documentation comment moves nothing. -/
theorem document {body : Phrase} (placed : Placed stream body base pos after frame inner)
    (doc : Option Token) :
    Placed stream (.documented body) base pos after frame (inner.document doc) := by
  cases parts : inner.parts with
  | nil =>
      have same : inner.document doc = inner := by simp [Frame.document, parts]
      rw [same]
      exact placed.mono id id (List.Subset.refl _)
  | cons latest others =>
      have same : inner.document doc = { inner with parts := { latest with doc } :: others } := by
        simp [Frame.document, parts]
      rw [same]
      refine ⟨?_, ?_, placed.firm, placed.start, placed.kind⟩
      · have laid := placed.laid
        rw [parts, List.reverse_cons] at laid
        obtain ⟨middle, front, back⟩ := laid.split
        rw [List.reverse_cons]
        exact front.append (back.document doc)
      · intro whole trimmed node member
        have trims := placed.trims whole trimmed
        rw [parts] at trims
        rcases List.mem_cons.mp member with rfl | old
        · exact trims latest List.mem_cons_self
        · exact trims node (List.mem_cons_of_mem _ old)

end Placed

/-- A phrase whose nodes end properly keeps the parts of the frame laid out. -/
theorem Reads.placed {stream : Stream} (ordered : stream.Ordered) {phrase : Phrase} {pos : Nat}
    {frame : Frame} {result : Option (Nat × Frame)} (reads : Reads stream phrase pos frame result)
    {dot : Bool} {base : Nat} (closes : phrase.closes dot = true)
    (clear : dot = false → base < pos → stream.kind (pos - 1) ≠ .dot)
    (laid : Laid stream frame.parts.reverse base pos) {after : Nat} {inner : Frame}
    (succeeds : result = some (after, inner)) :
    Placed stream phrase base pos after frame inner := by
  induction reads generalizing dot base after inner with
  | done =>
      cases succeeds
      exact .rest laid
  | rekind =>
      cases succeeds
      exact { Placed.rest laid with start := rfl, kind := .inr List.mem_cons_self }
  | stop | expected | salvage | seqFails | wrapFails | reopenFails => cases succeeds
  | @seq first second pos frame middle between result firstReads secondReads firstIh secondIh =>
      obtain ⟨firstCloses, secondCloses⟩ := Bool.and_eq_true_iff.mp closes
      have early := firstReads.moves ordered laid.bounds.2 rfl
      have late := secondReads.moves ordered early.inside succeeds
      have before := firstIh firstCloses clear laid rfl
      refine .seq early late before (secondIh secondCloses ?_ before.laid succeeds)
      intro notDotted some
      obtain ⟨firstWhole, either⟩ := Bool.or_eq_false_iff.mp notDotted
      by_cases moved : pos < middle
      · exact before.firm firstWhole moved
      · obtain ⟨rfl, stays⟩ := early.of_not_lt moved
        exact clear (by simpa [stays] using either) some
  | token =>
      split at succeeds
      · rename_i found
        cases succeeds
        exact .pass ordered laid (by simp [Phrase.dotted, found])
      · cases succeeds
  | leaf =>
      split at succeeds
      · rename_i found
        cases succeeds
        exact .leaf ordered laid _ (by simp [Phrase.dangles, found])
          (by simp [Phrase.dotted, found])
      · cases succeeds
  | pick =>
      split at succeeds
      · rename_i accepted
        cases succeeds
        refine .leaf ordered laid _ ?_ ?_
        · intro whole atEnd
          simp [Phrase.dangles, ← atEnd, accepted] at whole
        · intro whole isDot
          simp [Phrase.dotted, ← isDot, accepted] at whole
      · cases succeeds
  | @mark accept pos frame =>
      split at succeeds
      · rename_i accepted
        cases succeeds
        have placed : Placed stream (.mark accept) base pos (stream.succ pos) frame frame := by
          refine .pass ordered laid ?_
          intro whole isDot
          simp [Phrase.dotted, ← isDot, accepted] at whole
        exact ⟨placed.laid, placed.trims, placed.firm, rfl, .inl rfl⟩
      · cases succeeds
  | operator =>
      cases succeeds
      exact .operator ordered laid
  | node reads ih =>
      obtain ⟨⟨after, filled⟩, found, same⟩ := Option.map_eq_some_iff.mp succeeds
      cases same
      simp only [Phrase.closes, Bool.and_eq_true, Bool.not_eq_true'] at closes
      obtain ⟨⟨whole, notDotted⟩, bodyCloses⟩ := closes
      have bounds := laid.bounds
      have placed := ih bodyCloses (fun _ some => absurd some (Nat.lt_irrefl _))
        (.nil (Nat.le_refl _) bounds.2) found
      exact .node ordered laid (reads.moves ordered bounds.2 found) placed whole notDotted
  | @wrap kind body pos frame latest others result parts reads ih =>
      obtain ⟨⟨after, filled⟩, found, same⟩ := Option.map_eq_some_iff.mp succeeds
      cases same
      simp only [Phrase.closes, Bool.and_eq_true, Bool.or_eq_true, Bool.not_eq_true'] at closes
      obtain ⟨⟨⟨dotless, whole⟩, notDotted⟩, bodyCloses⟩ := closes
      refine .enclose ordered parts laid (.wrap stream kind latest pos)
        (reads.moves ordered laid.bounds.2 found) ?_ whole notDotted ?_
      · intro start low opened
        exact ih bodyCloses (fun noDot some => clear noDot (Nat.lt_of_le_of_lt low some)) opened
          found
      · intro stays
        exact clear (dotless.resolve_right (by simp [stays]))
  | @reopen kind body pos frame latest others result parts reads ih =>
      obtain ⟨⟨after, filled⟩, found, same⟩ := Option.map_eq_some_iff.mp succeeds
      cases same
      simp only [Phrase.closes, Bool.and_eq_true, Bool.or_eq_true, Bool.not_eq_true'] at closes
      obtain ⟨⟨⟨dotless, whole⟩, notDotted⟩, bodyCloses⟩ := closes
      refine .enclose ordered parts laid (.reopen stream kind latest pos)
        (reads.moves ordered laid.bounds.2 found) ?_ whole notDotted ?_
      · intro start low opened
        exact ih bodyCloses (fun noDot some => clear noDot (Nat.lt_of_le_of_lt low some)) opened
          found
      · intro stays
        exact clear (dotless.resolve_right (by simp [stays]))
  | cover => cases closes
  | branch _ ih | trial _ _ _ ih =>
      obtain ⟨yesCloses, noCloses⟩ := Bool.and_eq_true_iff.mp closes
      refine (ih (by split <;> assumption) clear laid succeeds).mono ?_ ?_ ?_
      · intro whole
        obtain ⟨yesWhole, noWhole⟩ := Bool.or_eq_false_iff.mp whole
        split <;> assumption
      · intro whole
        obtain ⟨yesWhole, noWhole⟩ := Bool.or_eq_false_iff.mp whole
        split <;> assumption
      · split
        · exact List.subset_append_left _ _
        · exact List.subset_append_right _ _
  | @call rule pos frame result reads ih =>
      obtain ⟨⟨after, finished⟩, found, same⟩ := Option.map_eq_some_iff.mp succeeds
      cases same
      have notUnit : rule ≠ .compilationUnit := by simpa [Phrase.closes] using closes
      have bounds := laid.bounds
      have placed := ih (Rule.body_closes notUnit) (fun _ some => absurd some (Nat.lt_irrefl _))
        (.nil (Nat.le_refl _) bounds.2) found
      refine .pushAll ordered laid placed.laid ?_ fun _ => placed.firm rule.body_dotted
      intro whole
      exact placed.trims (Rule.body_dangles whole)
        (.inr fun _ member => absurd member List.not_mem_nil)
  | recover _ ih | closing _ ih =>
      exact (ih closes clear laid succeeds).mono id id (List.Subset.refl _)
  | orElse _ ih =>
      exact (ih closes clear laid succeeds).mono id id (List.subset_append_left _ _)
  | loopEnds =>
      cases succeeds
      exact .rest laid
  | @loop look body pos frame result holds reads ih =>
      have again := @ih true base (Bool.and_eq_true_iff.mpr ⟨closes, closes⟩) (by simp) laid _ _
        succeeds
      refine again.mono ?_ ?_ ?_
      · intro whole
        have bodyWhole : body.dangles = false := whole
        simp [Phrase.dangles, bodyWhole]
      · intro whole
        have bodyWhole : body.dotted = false := whole
        simp [Phrase.dotted, bodyWhole]
      · simp [Phrase.rekinds]
  | documented _ ih =>
      obtain ⟨⟨middle, between⟩, found, same⟩ := Option.map_eq_some_iff.mp succeeds
      cases same
      exact (ih closes clear laid found).document _

end JavaFront.Parser
