import JavaFront.Proofs.Grammar.Marking
import JavaFront.Proofs.Parser.Building
import JavaFront.Proofs.Parser.Fidelity

/-!
# How the nodes of a tree nest

As long as a parse is not abandoned, whatever goes wrong in it, the nodes of its
tree nest, with one exception. Where the end of the text cuts a body off, the
body ends with the last token that was read, and the error node for what is
missing stands at the end of the text, behind all blanks and comments.
-/

namespace JavaFront

/-! ## Where nodes end -/

namespace Stream

/-- Where the tokens in front of an index end. -/
def reach (stream : Stream) (pos : Nat) : Nat :=
  if pos = 0 then 0 else (stream.get (pos - 1)).span.stop.offset

/-- An empty error node where the text ends. -/
structure IsMark (stream : Stream) (node : Node) : Prop where
  kind : node.kind = .error
  span : node.span = .empty (stream.get stream.last).span.start

namespace Ordered

variable {stream : Stream} {first pos after : Nat}

theorem reach_le_start (ordered : stream.Ordered) (inside : pos ≤ stream.last) :
    stream.reach pos ≤ (stream.get pos).span.start.offset := by
  simp only [reach]
  split
  · exact Nat.zero_le _
  · exact ordered.stop_le_start_of_lt (by omega) inside

theorem start_le_reach (ordered : stream.Ordered) (before : first < pos)
    (inside : pos ≤ stream.last) : (stream.get first).span.start.offset ≤ stream.reach pos := by
  have later := ordered.start_le_start (show first ≤ pos - 1 by omega) (by omega)
  have proper := ordered.start_lt_stop (pos - 1) (by omega)
  simp only [reach, if_neg (show ¬ pos = 0 by omega)]
  omega

theorem reach_mono (ordered : stream.Ordered) (order : pos ≤ after) (inside : after ≤ stream.last) :
    stream.reach pos ≤ stream.reach after := by
  rcases Nat.lt_or_eq_of_le order with before | rfl
  · have low := ordered.reach_le_start (show pos ≤ stream.last by omega)
    have high := ordered.start_le_reach before inside
    omega
  · exact Nat.le_refl _

theorem stretch_stop_offset (ordered : stream.Ordered) (order : first ≤ after)
    (inside : after ≤ stream.last) : (stream.stretch first after).stop.offset =
      max (stream.get first).span.start.offset (stream.reach after) := by
  rcases Nat.lt_or_eq_of_le order with before | rfl
  · have low := ordered.start_le_reach before inside
    rw [Nat.max_eq_right low, stretch_stop_of_lt before, reach, if_neg (by omega)]
  · have low := ordered.reach_le_start inside
    rw [Nat.max_eq_left low, stretch_self]
    rfl

end Ordered

end Stream

/-- A node ends with the last token in front of the cursor, or where it starts. -/
theorem Parser.Setup.stopFrom_offset (setup : Setup) (state : State) (start : Pos) :
    (setup.stopFrom state start).offset = max start.offset (setup.stream.reach state.pos) := by
  simp only [stopFrom, Stream.reach]
  split
  · exact (Nat.max_eq_left (Nat.zero_le _)).symm
  · split
    · exact (Nat.max_eq_right (by omega)).symm
    · exact (Nat.max_eq_left (by omega)).symm

/-! ## Nodes that embed their children -/

namespace Node

/-- The node starts in front of its children and contains them all, but for the
mark at the end of a body that is cut off. -/
def Embeds (stream : Stream) (node : Node) : Prop :=
  ∀ child ∈ node.children, node.span.start.offset ≤ child.span.start.offset ∧
    (child.span.stop.offset ≤ node.span.stop.offset ∨
      node.kind.isBody = true ∧ stream.IsMark child)

/-- All nodes of a tree embed their children and end in front of the token at an
index. The tree itself ends with the last token before that, or it is empty. -/
structure Within (stream : Stream) (node : Node) (pos : Nat) : Prop where
  embeds : ∀ inner ∈ node.nodes, inner.Embeds stream
  before : ∀ inner ∈ node.nodes, inner.span.start.offset ≤ inner.span.stop.offset ∧
    inner.span.stop.offset ≤ (stream.get pos).span.start.offset
  reach : node.span.stop.offset ≤ max node.span.start.offset (stream.reach pos)

namespace Within

variable {stream : Stream} {node : Node} {pos after : Nat}

theorem mono (ordered : stream.Ordered) (within : node.Within stream pos) (order : pos ≤ after)
    (inside : after ≤ stream.last) : node.Within stream after := by
  have later := ordered.start_le_start order inside
  have further := ordered.reach_mono order inside
  have reach := within.reach
  exact ⟨within.embeds,
    fun inner member => (within.before inner member).imp_right (Nat.le_trans · later), by omega⟩

/-- A node without children for a stretch of tokens. -/
theorem ofStretch (ordered : stream.Ordered) (childless : node.children = [])
    (span : node.span = stream.stretch pos after) (order : pos ≤ after)
    (inside : after ≤ stream.last) : node.Within stream after := by
  have stop := ordered.stretch_stop_offset order inside
  have later := ordered.start_le_start order inside
  have reach := ordered.reach_le_start inside
  have single : node.nodes = [node] := by rw [nodes_eq, childless, forest_nil]
  refine ⟨?_, ?_, ?_⟩
  · intro inner member child isChild
    rw [single] at member
    rw [List.mem_singleton.mp member, childless] at isChild
    cases isChild
  · intro inner member
    rw [single] at member
    rw [List.mem_singleton.mp member, span, stop, Stream.stretch_start]
    omega
  · rw [span, stop, Stream.stretch_start]

/-- A documentation comment moves nothing. -/
theorem document (within : node.Within stream pos) (doc : Option Token) :
    ({ node with doc } : Node).Within stream pos := by
  have others : ∀ inner ∈ ({ node with doc } : Node).nodes,
      inner = { node with doc } ∨ inner ∈ node.nodes := by
    intro inner member
    rw [nodes_eq] at member ⊢
    exact (List.mem_cons.mp member).imp_right (List.mem_cons_of_mem _)
  refine ⟨?_, ?_, within.reach⟩
  · intro inner member
    rcases others inner member with rfl | old
    · exact within.embeds node node.self_mem_nodes
    · exact within.embeds inner old
  · intro inner member
    rcases others inner member with rfl | old
    · exact within.before node node.self_mem_nodes
    · exact within.before inner old

end Within

end Node

namespace Parser

/-! ## Frames -/

/-- The frame starts in front of the cursor, and its parts lie between. -/
structure Frame.Holds (stream : Stream) (frame : Frame) (pos : Nat) : Prop where
  starts : frame.start.offset ≤ (stream.get pos).span.start.offset
  parts : ∀ part ∈ frame.parts,
    frame.start.offset ≤ part.span.start.offset ∧ part.Within stream pos

/-- A node that were finished now would contain its parts, but for a mark where
one may stand. -/
def Frame.Trims (stream : Stream) (marked : Bool) (frame : Frame) (pos : Nat) : Prop :=
  ∀ part ∈ frame.parts,
    part.span.stop.offset ≤ max frame.start.offset (stream.reach pos) ∨
      marked = true ∧ stream.IsMark part

namespace Frame

variable {stream : Stream} {frame opened filled : Frame} {pos after : Nat} {marked : Bool}

theorem Holds.mono (ordered : stream.Ordered) (holds : frame.Holds stream pos)
    (order : pos ≤ after) (inside : after ≤ stream.last) : frame.Holds stream after :=
  ⟨Nat.le_trans holds.starts (ordered.start_le_start order inside),
    fun part member => ⟨(holds.parts part member).1,
      (holds.parts part member).2.mono ordered order inside⟩⟩

/-- Once another token is read, the node would contain all its parts. -/
theorem Holds.trims (ordered : stream.Ordered) (holds : frame.Holds stream pos)
    (moved : pos < after) (inside : after ≤ stream.last) : frame.Trims stream marked after := by
  intro part member
  have before := ((holds.parts part member).2.before part part.self_mem_nodes).2
  have reach := ordered.start_le_reach moved inside
  left
  omega

/-- The nodes of a finished node are itself and those of its parts. -/
theorem mem_nodes_toNode {stop : Pos} {inner : Node}
    (member : inner ∈ (filled.toNode stop).nodes) :
    inner = filled.toNode stop ∨ ∃ part ∈ filled.parts, inner ∈ part.nodes := by
  rw [Node.nodes_eq, List.mem_cons] at member
  refine member.imp_right fun below => ?_
  obtain ⟨part, isPart, inside⟩ := List.mem_flatMap.mp below
  exact ⟨part, List.mem_reverse.mp isPart, inside⟩

/-- A finished node embeds its parts. -/
theorem Holds.embeds (holds : filled.Holds stream pos) {stop : Pos}
    (trims : ∀ part ∈ filled.parts, part.span.stop.offset ≤ stop.offset ∨
      filled.kind.isBody = true ∧ stream.IsMark part) :
    ∀ inner ∈ (filled.toNode stop).nodes, inner.Embeds stream := by
  intro inner member
  rcases mem_nodes_toNode member with rfl | ⟨part, isPart, inside⟩
  · intro child isChild
    have isPart := List.mem_reverse.mp isChild
    exact ⟨(holds.parts child isPart).1, trims child isPart⟩
  · exact (holds.parts part isPart).2.embeds inner inside

theorem Holds.finish (ordered : stream.Ordered) (holds : filled.Holds stream pos)
    (inside : pos ≤ stream.last) (trims : filled.Trims stream marked pos)
    (isBody : marked = true → filled.kind.isBody = true) :
    ((Setup.plain stream).finish { pos } filled).Within stream pos := by
  have stop : ((Setup.plain stream).stopFrom { pos } filled.start).offset =
      max filled.start.offset (stream.reach pos) := Setup.stopFrom_offset _ _ _
  have starts := holds.starts
  have reach := ordered.reach_le_start inside
  refine ⟨holds.embeds ?_, ?_, Nat.le_of_eq stop⟩
  · intro part member
    rw [stop]
    exact (trims part member).imp_right fun mark => ⟨isBody mark.1, mark.2⟩
  · intro inner member
    rcases mem_nodes_toNode member with rfl | ⟨part, isPart, inside⟩
    · simp only [toNode, stop]
      omega
    · exact (holds.parts part isPart).2.before inner inside

end Frame

/-! ## Progress -/

/-- A build in which the parse is not abandoned goes on to its end. -/
theorem Builds.ended_eq_false {stream : Stream} {way : Way} {phrase : Phrase} {pos after : Nat}
    {frame inner : Frame} {ended : Bool}
    (builds : Builds stream way phrase pos frame ended after inner) (running : way.cut = false) :
    ended = false := by
  induction builds with
  | seqEnded _ ih | documentedEnded _ ih => cases ih running
  | otherwise isCut | salvage isCut | salvageMarked isCut =>
      rw [running] at isCut
      cases isCut
  | seq _ _ _ ih | orElse _ ih | loop _ _ ih => exact ih running
  | branch _ _ ih | trial _ ih => exact ih running
  | _ => rfl

theorem Way.inside_cut (way : Way) (rule : Rule) : (way.inside rule).cut = way.cut := by
  simp only [inside]
  split <;> rfl

/-- As long as the parse is not abandoned, building moves the cursor on. -/
theorem Builds.moves {stream : Stream} (ordered : stream.Ordered) {way : Way} {phrase : Phrase}
    {pos after : Nat} {frame inner : Frame} {ended : Bool}
    (builds : Builds stream way phrase pos frame ended after inner) (running : way.cut = false)
    (inside : pos ≤ stream.last) : Moves stream phrase.lax.consumes pos after := by
  induction builds with
  | done | rekind | loopEnds => exact .rest inside
  | missing => exact (Moves.rest inside).mono (by simp [Phrase.lax, Phrase.consumes])
  | seq _ _ firstIh secondIh =>
      have before := firstIh running inside
      exact before.trans (secondIh running before.inside)
  | seqEnded builds => cases builds.ended_eq_false running
  | documentedEnded builds => cases builds.ended_eq_false running
  | token found | leaf found =>
      refine .succ ordered inside fun consumes => ?_
      simpa [found, Phrase.lax, Phrase.consumes] using consumes
  | pick accepted | mark accepted =>
      refine .succ ordered inside fun consumes atEnd => ?_
      simp [Phrase.lax, Phrase.consumes, ← atEnd, accepted] at consumes
  | operator =>
      exact ⟨stream.le_advance _ _, Stream.advance_le_last _ inside,
        by simp [Phrase.lax, Phrase.consumes]⟩
  | node _ ih | cover _ ih | documented _ ih | wrap _ _ ih | reopen _ _ ih | orElse _ ih =>
      exact ih running inside
  | @branch _ _ _ _ _ _ _ _ _ chosen _ _ ih | @trial _ _ _ _ _ _ _ _ _ chosen _ ih =>
      refine (ih running inside).mono fun consumes => ?_
      obtain ⟨yesConsumes, noConsumes⟩ := Bool.and_eq_true_iff.mp consumes
      cases chosen <;> assumption
  | @call way rule _ _ _ _ _ _ _ ih =>
      exact (ih (by rw [way.inside_cut rule, running]) inside).mono Rule.body_lax_consumes
  | recover _ ih => exact (ih running inside).mono (by simp [Phrase.lax, Phrase.consumes])
  | skip skips => exact ⟨skips.le, skips.inside, by simp [Phrase.lax, Phrase.consumes]⟩
  | loop _ _ ih => exact (ih running inside).mono (by simp [Phrase.lax, Phrase.consumes])
  | closing _ ih => exact (ih running inside).mono (by simp [Phrase.lax, Phrase.consumes])
  | otherwise isCut | salvage isCut | salvageMarked isCut =>
      rw [running] at isCut
      cases isCut

/-- Where a look says that there is a token ahead, there is one. -/
theorem Setup.notEnd_of_shows (setup : Setup) {state : State} {frame : Frame} {look : Look}
    {answer : Bool} (shows : look.shows answer = true)
    (holds : setup.holds state frame look = answer) : setup.stream.kind state.pos ≠ .eof := by
  induction look generalizing answer with
  | here accept =>
      intro atEnd
      rw [Setup.holds, atEnd] at holds
      simp [Look.shows, holds] at shows
  | not look ih =>
      refine ih shows ?_
      simp [← holds, Setup.holds]
  | and first second firstIh secondIh =>
      cases answer with
      | true =>
          obtain ⟨firstHolds, secondHolds⟩ := Bool.and_eq_true_iff.mp holds
          rcases Bool.or_eq_true_iff.mp
            (show (first.shows true || second.shows true) = true from shows) with early | late
          · exact firstIh early firstHolds
          · exact secondIh late secondHolds
      | false =>
          obtain ⟨early, late⟩ := Bool.and_eq_true_iff.mp
            (show (first.shows false && second.shows false) = true from shows)
          rcases Bool.and_eq_false_iff.mp holds with firstFails | secondFails
          · exact firstIh early firstFails
          · exact secondIh late secondFails
  | or first second firstIh secondIh =>
      cases answer with
      | true =>
          obtain ⟨early, late⟩ := Bool.and_eq_true_iff.mp
            (show (first.shows true && second.shows true) = true from shows)
          rcases Bool.or_eq_true_iff.mp holds with firstHolds | secondHolds
          · exact firstIh early firstHolds
          · exact secondIh late secondHolds
      | false =>
          obtain ⟨firstFails, secondFails⟩ := Bool.or_eq_false_iff.mp holds
          rcases Bool.or_eq_true_iff.mp
            (show (first.shows false || second.shows false) = true from shows) with early | late
          · exact firstIh early firstFails
          · exact secondIh late secondFails
  | _ => cases shows

/-! ## Phrases -/

/-- What a phrase makes of a frame that holds its parts. -/
structure Embedded (stream : Stream) (phrase : Phrase) (pos after : Nat) (frame inner : Frame) :
    Prop where
  holds : inner.Holds stream after
  trims : phrase.lax.dangles = false → pos < after ∨ frame.Trims stream false pos →
    inner.Trims stream phrase.marks after
  start : inner.start = frame.start
  kind : inner.kind = frame.kind ∨ inner.kind ∈ phrase.rekinds
  head : phrase.yields = true → inner.HasHead

namespace Embedded

variable {stream : Stream} {phrase : Phrase} {pos after : Nat} {frame inner : Frame}

/-- What is passed leaves the parts as they are. -/
theorem pass (ordered : stream.Ordered) (holds : frame.Holds stream pos)
    (order : pos ≤ after) (inside : after ≤ stream.last) (yields : phrase.yields = false) :
    Embedded stream phrase pos after frame frame where
  holds := holds.mono ordered order inside
  trims := by
    rintro - trimmed
    by_cases moved : pos < after
    · exact holds.trims ordered moved inside
    · obtain rfl : after = pos := by omega
      exact fun part member =>
        .inl ((trimmed.resolve_left moved part member).resolve_right (by simp))
  start := rfl
  kind := .inl rfl
  head := by simp [yields]

/-- New parts take their place behind the others, given the latest first. -/
theorem pushAll (ordered : stream.Ordered) (holds : frame.Holds stream pos) (order : pos ≤ after)
    (inside : after ≤ stream.last) {parts : List Node}
    (added : ∀ part ∈ parts,
      (stream.get pos).span.start.offset ≤ part.span.start.offset ∧ part.Within stream after)
    (trims : phrase.lax.dangles = false → pos < after ∨ frame.Trims stream false pos →
      ∀ part ∈ parts, part.span.stop.offset ≤ max frame.start.offset (stream.reach after) ∨
        phrase.marks = true ∧ stream.IsMark part)
    (head : phrase.yields = true → (frame.pushAll parts).HasHead) :
    Embedded stream phrase pos after frame (frame.pushAll parts) where
  holds := by
    have old := holds.mono ordered order inside
    refine ⟨old.starts, fun part member => ?_⟩
    rcases List.mem_append.mp member with new | kept
    · exact ⟨Nat.le_trans holds.starts (added part new).1, (added part new).2⟩
    · exact old.parts part kept
  trims := by
    intro whole trimmed part member
    rcases List.mem_append.mp member with new | kept
    · exact trims whole trimmed part new
    · by_cases moved : pos < after
      · exact holds.trims ordered moved inside part kept
      · obtain rfl : after = pos := by omega
        exact .inl ((trimmed.resolve_left moved part kept).resolve_right (by simp))
  start := rfl
  kind := .inl rfl
  head := head

theorem push (ordered : stream.Ordered) (holds : frame.Holds stream pos) (order : pos ≤ after)
    (inside : after ≤ stream.last) {part : Node}
    (starts : (stream.get pos).span.start.offset ≤ part.span.start.offset)
    (within : part.Within stream after)
    (trims : phrase.lax.dangles = false →
      part.span.stop.offset ≤ max frame.start.offset (stream.reach after) ∨
        phrase.marks = true ∧ stream.IsMark part)
    (yields : phrase.yields = false) :
    Embedded stream phrase pos after frame (frame.push part) := by
  have single : ∀ other ∈ [part], other = part := fun other => List.mem_singleton.mp
  change Embedded stream phrase pos after frame (frame.pushAll [part])
  refine pushAll ordered holds order inside ?_ ?_ (by simp [yields])
  · intro other member
    rw [single other member]
    exact ⟨starts, within⟩
  · intro whole _ other member
    rw [single other member]
    exact trims whole

/-- A part without children for the tokens that are read. -/
theorem leaf (ordered : stream.Ordered) (holds : frame.Holds stream pos) (order : pos ≤ after)
    (inside : after ≤ stream.last) {part : Node} (childless : part.children = [])
    (span : part.span = stream.stretch pos after)
    (consumes : phrase.lax.dangles = false → pos < after) (yields : phrase.yields = false) :
    Embedded stream phrase pos after frame (frame.push part) := by
  refine push ordered holds order inside (by rw [span, Stream.stretch_start])
    (.ofStretch ordered childless span order inside) (fun whole => ?_) yields
  have starts := ordered.start_le_reach (consumes whole) inside
  rw [span, ordered.stretch_stop_offset order inside]
  left
  omega

theorem seq {first second : Phrase} {middle : Nat} {between : Frame}
    (late : Moves stream second.lax.consumes middle after) (clear : first.marks = false)
    (before : Embedded stream first pos middle frame between)
    (behind : Embedded stream second middle after between inner) :
    Embedded stream (.seq first second) pos after frame inner where
  holds := behind.holds
  trims := by
    intro whole trimmed
    obtain ⟨secondWhole, either⟩ := Bool.or_eq_false_iff.mp whole
    apply behind.trims secondWhole
    by_cases moved : middle < after
    · exact .inl moved
    · obtain ⟨rfl, stays⟩ := late.of_not_lt moved
      have firstWhole : first.lax.dangles = false := by simpa [stays] using either
      exact .inr (clear ▸ before.trims firstWhole trimmed)
  start := behind.start.trans before.start
  kind := by
    rcases behind.kind with same | renamed
    · rcases before.kind with also | earlier
      · exact .inl (same.trans also)
      · exact .inr (List.mem_append_left _ (same ▸ earlier))
    · exact .inr (List.mem_append_right _ renamed)
  head := by simp [Phrase.yields]

/-- What one phrase makes of a frame, another one makes of it that promises
less. -/
theorem mono {other : Phrase} (embedded : Embedded stream phrase pos after frame inner)
    (dangles : other.lax.dangles = false → phrase.lax.dangles = false)
    (marks : phrase.marks = true → other.marks = true) (yields : other.yields = false)
    (rekinds : phrase.rekinds ⊆ other.rekinds) :
    Embedded stream other pos after frame inner where
  holds := embedded.holds
  trims := fun whole trimmed part member =>
    (embedded.trims (dangles whole) trimmed part member).imp_right fun mark =>
      ⟨marks mark.1, mark.2⟩
  start := embedded.start
  kind := embedded.kind.imp_right fun renamed => rekinds renamed
  head := by simp [yields]

/-- What either of two phrases makes of a frame, the choice between them makes of
it. -/
theorem either {yes no : Phrase} (chosen : Bool)
    (embedded : Embedded stream (if chosen then yes else no) pos after frame inner)
    (dangles : phrase.lax.dangles = (yes.lax.dangles || no.lax.dangles))
    (marks : phrase.marks = (yes.marks || no.marks)) (yields : phrase.yields = false)
    (rekinds : phrase.rekinds = yes.rekinds ++ no.rekinds) :
    Embedded stream phrase pos after frame inner := by
  cases chosen with
  | true =>
      refine embedded.mono (fun whole => ?_) (fun marked => ?_) yields ?_
      · exact (Bool.or_eq_false_iff.mp (dangles ▸ whole)).1
      · exact marks ▸ Bool.or_eq_true_iff.mpr (.inl marked)
      · exact rekinds ▸ List.subset_append_left _ _
  | false =>
      refine embedded.mono (fun whole => ?_) (fun marked => ?_) yields ?_
      · exact (Bool.or_eq_false_iff.mp (dangles ▸ whole)).2
      · exact marks ▸ Bool.or_eq_true_iff.mpr (.inr marked)
      · exact rekinds ▸ List.subset_append_right _ _

/-- The parts of a rule take their place behind other parts of the frame. -/
theorem call (ordered : stream.Ordered) {rule : Rule} {filled : Frame}
    (holds : frame.Holds stream pos) (moves : Moves stream rule.body.lax.consumes pos after)
    (body : Embedded stream rule.body pos after ((Setup.plain stream).frame { pos } .error) filled)
    (firm : rule.dangles = false → rule.body.lax.consumes = true) :
    Embedded stream (.call rule) pos after frame (frame.pushAll filled.parts) := by
  refine .pushAll ordered holds moves.le moves.inside ?_ ?_ ?_
  · intro part member
    have held := body.holds.parts part member
    rw [body.start] at held
    exact held
  · intro whole _ part member
    have isFirm : rule.dangles = false := whole
    have moved := moves.lt (firm isFirm)
    have starts := ordered.start_le_reach moved moves.inside
    have trims := body.trims (Rule.body_lax_dangles isFirm) (.inl moved) part member
    rw [rule.body_marks, body.start] at trims
    have low := trims.resolve_right (by simp)
    simp only [Setup.frame, Setup.plain] at low
    left
    omega
  · intro yields
    obtain rfl : rule = .localVarHead := by simpa [Phrase.yields] using yields
    obtain ⟨node, rest, same, isHead⟩ := body.head Rule.localVarHead_yields
    exact ⟨node, rest ++ frame.parts, by rw [Frame.pushAll, same]; rfl, isHead⟩

/-- A documentation comment moves nothing. -/
theorem document {body : Phrase} (embedded : Embedded stream body pos after frame inner)
    (doc : Option Token) :
    Embedded stream (.documented body) pos after frame (inner.document doc) := by
  have weaker : Embedded stream (.documented body) pos after frame inner :=
    embedded.mono id id rfl (List.Subset.refl _)
  cases parts : inner.parts with
  | nil => simpa [Frame.document, parts] using weaker
  | cons latest others =>
      have same : inner.document doc = { inner with parts := { latest with doc } :: others } := by
        simp [Frame.document, parts]
      have held := weaker.holds.parts
      rw [parts] at held
      rw [same]
      refine ⟨⟨weaker.holds.starts, ?_⟩, ?_, weaker.start, weaker.kind, by simp [Phrase.yields]⟩
      · intro part member
        rcases List.mem_cons.mp member with rfl | old
        · have latestHeld := held latest List.mem_cons_self
          exact ⟨latestHeld.1, latestHeld.2.document doc⟩
        · exact held part (List.mem_cons_of_mem _ old)
      · intro whole trimmed part member
        have trims := weaker.trims whole trimmed
        rw [Frame.Trims, parts] at trims
        rcases List.mem_cons.mp member with rfl | old
        · exact (trims latest List.mem_cons_self).imp_right fun mark =>
            ⟨mark.1, mark.2.kind, mark.2.span⟩
        · exact trims part (List.mem_cons_of_mem _ old)

/-- A finished node takes its place behind other parts of the frame. -/
theorem enclose (ordered : stream.Ordered) {kind : Node.Kind} {body : Phrase}
    {opened filled : Frame} {others : List Node} (holds : frame.Holds stream pos)
    (moves : Moves stream body.lax.consumes pos after) (fills : body.fills kind = true)
    (kept : ∀ part ∈ others, part ∈ frame.parts) (sameKind : opened.kind = kind)
    (starts : frame.start.offset ≤ opened.start.offset)
    (early : opened.start.offset ≤ (stream.get pos).span.start.offset)
    (opens : opened.Trims stream false pos)
    (embedded : Embedded stream body pos after opened filled)
    (trims : phrase.lax.dangles = false → pos < after ∨ frame.Trims stream false pos →
      pos < after ∨ opened.start.offset ≤ max frame.start.offset (stream.reach pos))
    (yields : phrase.yields = true → kind = .localVarDecl ∧ body.rekinds = []) :
    Embedded stream phrase pos after frame
      (Frame.push { frame with parts := others }
        ((Setup.plain stream).finish { pos := after } filled)) := by
  simp only [Phrase.fills, Bool.and_eq_true, Bool.not_eq_true', Bool.or_eq_true,
    List.isEmpty_iff] at fills
  obtain ⟨whole, quiet⟩ := fills
  have isBody : body.marks = true → filled.kind.isBody = true := by
    intro marks
    obtain ⟨braced, unrenamed⟩ := quiet.resolve_left (by simp [marks])
    have same := embedded.kind.resolve_right (by simp [unrenamed])
    rwa [same, sameKind]
  have order := moves.le
  have stop : ((Setup.plain stream).stopFrom { pos := after } filled.start).offset =
      max filled.start.offset (stream.reach after) := Setup.stopFrom_offset _ _ _
  have within := embedded.holds.finish ordered moves.inside
    (embedded.trims whole (.inr opens)) isBody
  have old := holds.mono ordered order moves.inside
  refine ⟨⟨old.starts, ?_⟩, ?_, rfl, .inl rfl, ?_⟩
  · intro part member
    rcases List.mem_cons.mp member with rfl | isOther
    · refine ⟨?_, within⟩
      change frame.start.offset ≤ filled.start.offset
      rw [embedded.start]
      exact starts
    · exact old.parts part (kept part isOther)
  · intro firm trimmed part member
    rcases List.mem_cons.mp member with rfl | isOther
    · left
      change ((Setup.plain stream).stopFrom { pos := after } filled.start).offset ≤
        max frame.start.offset (stream.reach after)
      rw [stop, embedded.start]
      rcases trims firm trimmed with moved | low
      · have := ordered.start_le_reach moved moves.inside
        omega
      · have := ordered.reach_mono order moves.inside
        omega
    · by_cases moved : pos < after
      · exact holds.trims ordered moved moves.inside part (kept part isOther)
      · obtain ⟨rfl, -⟩ := moves.of_not_lt moved
        exact .inl ((trimmed.resolve_left moved part (kept part isOther)).resolve_right (by simp))
  · intro yielded
    obtain ⟨isHead, unrenamed⟩ := yields yielded
    refine ⟨_, others, rfl, ?_⟩
    have same := embedded.kind.resolve_right (by simp [unrenamed])
    exact (same.trans sameKind).trans isHead

end Embedded

namespace Frame

variable {stream : Stream} {frame : Frame} {pos : Nat}

/-- A frame that is opened at the cursor holds nothing. -/
theorem holds_opened (stream : Stream) (kind : Node.Kind) (pos : Nat) :
    ((Setup.plain stream).frame { pos } kind).Holds stream pos :=
  ⟨Nat.le_refl _, fun _ member => absurd member List.not_mem_nil⟩

theorem trims_opened (stream : Stream) (kind : Node.Kind) (pos : Nat) :
    ((Setup.plain stream).frame { pos } kind).Trims stream false pos :=
  fun _ member => absurd member List.not_mem_nil

/-- The latest part may become the first part of a new node. -/
theorem Holds.wrap (holds : frame.Holds stream pos) {latest : Node} (member : latest ∈ frame.parts)
    (kind : Node.Kind) :
    Frame.Holds stream { kind, start := latest.span.start, parts := [latest] } pos ∧
      Frame.Trims stream false { kind, start := latest.span.start, parts := [latest] } pos := by
  have within := (holds.parts latest member).2
  have before := within.before latest latest.self_mem_nodes
  refine ⟨⟨Nat.le_trans before.1 before.2, ?_⟩, ?_⟩
  · intro part isPart
    obtain rfl := List.mem_singleton.mp isPart
    exact ⟨Nat.le_refl _, within⟩
  · intro part isPart
    obtain rfl := List.mem_singleton.mp isPart
    exact .inl within.reach

/-- The children of the latest part may become the first parts of a new node, if
no mark is among them. -/
theorem Holds.reopen (holds : frame.Holds stream pos) {latest : Node}
    (member : latest ∈ frame.parts) (proper : latest.kind.isBody = false) (kind : Node.Kind) :
    Frame.Holds stream
        { kind, start := latest.span.start, parts := latest.children.reverse } pos ∧
      Frame.Trims stream false
        { kind, start := latest.span.start, parts := latest.children.reverse } pos := by
  have within := (holds.parts latest member).2
  have before := within.before latest latest.self_mem_nodes
  have embeds : ∀ child ∈ latest.children, latest.span.start.offset ≤ child.span.start.offset ∧
      child.span.stop.offset ≤ latest.span.stop.offset := by
    intro child isChild
    have embedded := within.embeds latest latest.self_mem_nodes child isChild
    exact ⟨embedded.1, embedded.2.resolve_right (by simp [proper])⟩
  have reach := within.reach
  refine ⟨⟨Nat.le_trans before.1 before.2, ?_⟩, ?_⟩
  · intro child isPart
    have isChild := List.mem_reverse.mp isPart
    obtain ⟨starts, stops⟩ := embeds child isChild
    have below : ∀ inner ∈ child.nodes, inner ∈ latest.nodes :=
      fun inner => Node.mem_nodes_of_mem_children isChild
    exact ⟨starts, fun inner inside => within.embeds inner (below inner inside),
      fun inner inside => within.before inner (below inner inside), by omega⟩
  · intro child isPart
    obtain ⟨starts, stops⟩ := embeds child (List.mem_reverse.mp isPart)
    left
    dsimp only
    omega

/-- A part that the node would contain starts in front of its end. -/
theorem Holds.starts_low (holds : frame.Holds stream pos) {latest : Node}
    (member : latest ∈ frame.parts) {after : Nat}
    (trimmed : pos < after ∨ frame.Trims stream false pos) :
    pos < after ∨ latest.span.start.offset ≤ max frame.start.offset (stream.reach pos) := by
  refine trimmed.imp_right fun trims => ?_
  have proper := ((holds.parts latest member).2.before latest latest.self_mem_nodes).1
  have low := (trims latest member).resolve_right (by simp)
  omega

end Frame

/-- As long as the parse is not abandoned, the nodes that a phrase builds nest. -/
theorem Builds.embedded {stream : Stream} (ordered : stream.Ordered) {way : Way} {phrase : Phrase}
    {pos after : Nat} {frame inner : Frame} {ended : Bool}
    (builds : Builds stream way phrase pos frame ended after inner) (running : way.cut = false)
    {ahead head : Bool} (embeds : phrase.embeds ahead = true)
    (known : ahead = true → pos < stream.last) (keeps : phrase.keeps head = true)
    (hasHead : head = true → frame.HasHead) (inside : pos ≤ stream.last)
    (holds : frame.Holds stream pos) : Embedded stream phrase pos after frame inner := by
  induction builds generalizing ahead head with
  | done | loopEnds => exact .pass ordered holds (Nat.le_refl _) inside rfl
  | rekind =>
      exact ⟨⟨holds.starts, holds.parts⟩, fun _ trimmed => trimmed.resolve_left (Nat.lt_irrefl _),
        rfl, .inr List.mem_cons_self, by simp [Phrase.yields]⟩
  | token =>
      exact .pass ordered holds (stream.le_succ _) (Stream.succ_le_last inside) rfl
  | @mark way accept pos frame _ =>
      have passed : Embedded stream (.mark accept) pos (stream.succ pos) frame frame :=
        .pass ordered holds (stream.le_succ _) (Stream.succ_le_last inside) rfl
      exact { passed with holds := ⟨passed.holds.starts, passed.holds.parts⟩ }
  | @leaf way part kind pos frame found =>
      refine .leaf ordered holds (stream.le_succ _) (Stream.succ_le_last inside) rfl
        (ordered.span_eq_stretch inside) (fun whole => ?_) rfl
      have notEnd : stream.kind pos ≠ .eof := by
        simpa [found, Phrase.lax, Phrase.dangles] using whole
      rw [Stream.succ_of_lt (ordered.lt_last notEnd)]
      exact Nat.lt_succ_self _
  | @pick way part accept pos frame accepted =>
      refine .leaf ordered holds (stream.le_succ _) (Stream.succ_le_last inside) rfl
        (ordered.span_eq_stretch inside) (fun whole => ?_) rfl
      have notEnd : stream.kind pos ≠ .eof := by
        intro atEnd
        rw [atEnd] at accepted
        simp [Phrase.lax, Phrase.dangles, accepted] at whole
      rw [Stream.succ_of_lt (ordered.lt_last notEnd)]
      exact Nat.lt_succ_self _
  | operator =>
      exact .leaf ordered holds (stream.le_advance _ _) (Stream.advance_le_last _ inside) rfl
        (ordered.operator_stretch inside).1 (by simp [Phrase.lax, Phrase.dangles]) rfl
  | seqEnded builds => cases builds.ended_eq_false running
  | documentedEnded builds => cases builds.ended_eq_false running
  | otherwise isCut | salvage isCut | salvageMarked isCut =>
      rw [running] at isCut
      cases isCut
  | @seq way first second pos frame middle between ended after inner firstBuilds secondBuilds
      firstIh secondIh =>
      simp only [Phrase.embeds, Bool.and_eq_true, Bool.not_eq_true'] at embeds
      obtain ⟨⟨clear, firstEmbeds⟩, secondEmbeds⟩ := embeds
      obtain ⟨firstKeeps, secondKeeps⟩ := Bool.and_eq_true_iff.mp keeps
      have early := firstBuilds.moves ordered running inside
      have late := secondBuilds.moves ordered running early.inside
      have before := firstIh running firstEmbeds known firstKeeps hasHead inside holds
      exact .seq late clear before
        (secondIh running secondEmbeds (by simp) secondKeeps before.head early.inside before.holds)
  | @node way kind body pos frame ended after inner bodyBuilds ih =>
      obtain ⟨fills, bodyEmbeds⟩ := Bool.and_eq_true_iff.mp embeds
      obtain ⟨_, bodyKeeps⟩ := Bool.and_eq_true_iff.mp keeps
      have moves := bodyBuilds.moves ordered running inside
      have opened := ih running bodyEmbeds known bodyKeeps (by simp) inside
        (Frame.holds_opened stream kind pos)
      refine .enclose ordered holds moves fills (fun _ => id) rfl holds.starts (Nat.le_refl _)
        (Frame.trims_opened stream kind pos) opened ?_ ?_
      · intro consumes _
        exact .inl (moves.lt (by simpa [Phrase.lax, Phrase.dangles] using consumes))
      · simp [Phrase.yields]
  | @wrap way kind body pos frame latest others ended after inner parts bodyBuilds ih =>
      obtain ⟨fills, bodyEmbeds⟩ := Bool.and_eq_true_iff.mp embeds
      obtain ⟨_, bodyKeeps⟩ := Bool.and_eq_true_iff.mp keeps
      have isPart : latest ∈ frame.parts := by simp [parts]
      obtain ⟨opens, trims⟩ := holds.wrap isPart kind
      have moves := bodyBuilds.moves ordered running inside
      exact .enclose ordered holds moves fills (fun part => by simpa [parts] using .inr) rfl
        (holds.parts latest isPart).1 opens.starts trims
        (ih running bodyEmbeds known bodyKeeps (by simp) inside opens)
        (fun _ => holds.starts_low isPart) (by simp [Phrase.yields])
  | @reopen way kind body pos frame latest others ended after inner parts bodyBuilds ih =>
      obtain ⟨fills, bodyEmbeds⟩ := Bool.and_eq_true_iff.mp embeds
      simp only [Phrase.keeps, Bool.and_eq_true] at keeps
      obtain ⟨⟨isHead, _⟩, bodyKeeps⟩ := keeps
      have isPart : latest ∈ frame.parts := by simp [parts]
      have proper : latest.kind.isBody = false := by
        obtain ⟨node, rest, same, headKind⟩ := hasHead isHead
        cases parts.symm.trans same
        rw [headKind]
        rfl
      obtain ⟨opens, trims⟩ := holds.reopen isPart proper kind
      have moves := bodyBuilds.moves ordered running inside
      exact .enclose ordered holds moves fills (fun part => by simpa [parts] using .inr) rfl
        (holds.parts latest isPart).1 opens.starts trims
        (ih running bodyEmbeds known bodyKeeps (by simp) inside opens)
        (fun _ => holds.starts_low isPart) (by simp [Phrase.yields])
  | cover => cases embeds
  | @branch way look yes no pos frame ended after inner chosen told _ ih =>
      obtain ⟨yesEmbeds, noEmbeds⟩ := Bool.and_eq_true_iff.mp embeds
      obtain ⟨yesKeeps, noKeeps⟩ := Bool.and_eq_true_iff.mp keeps
      have shown : ∀ answer, chosen = answer → (ahead || look.shows answer) = true →
          pos < stream.last := by
        rintro _ rfl either
        rcases Bool.or_eq_true_iff.mp either with already | shows
        · exact known already
        · exact ordered.lt_last ((Setup.plain stream).notEnd_of_shows shows (told running))
      refine .either chosen ?_ rfl rfl rfl rfl
      cases chosen with
      | true => exact ih running yesEmbeds (shown true rfl) yesKeeps hasHead inside holds
      | false => exact ih running noEmbeds (shown false rfl) noKeeps hasHead inside holds
  | @trial way rule yes no pos frame ended after inner chosen _ ih =>
      obtain ⟨yesEmbeds, noEmbeds⟩ := Bool.and_eq_true_iff.mp embeds
      obtain ⟨yesKeeps, noKeeps⟩ := Bool.and_eq_true_iff.mp keeps
      refine .either chosen ?_ rfl rfl rfl rfl
      cases chosen with
      | true => exact ih running yesEmbeds known yesKeeps hasHead inside holds
      | false => exact ih running noEmbeds known noKeeps hasHead inside holds
  | @call way rule pos frame ended after inner _ bodyBuilds ih =>
      simp only [Phrase.embeds, Bool.and_eq_true, bne_iff_ne, Bool.or_eq_true] at embeds
      obtain ⟨notUnit, firm⟩ := embeds
      have kept : rule ≠ .enhancedForHead := by simpa [Phrase.keeps] using keeps
      have inRule : (way.inside rule).cut = false := by rw [way.inside_cut rule, running]
      refine .call ordered holds (bodyBuilds.moves ordered inRule inside)
        (ih inRule (Rule.body_embeds notUnit) (by simp) (Rule.body_keeps kept) (by simp) inside
          (Frame.holds_opened stream .error pos)) fun isFirm => ?_
      exact Rule.body_lax_consumes (firm.resolve_left (by simp [isFirm]))
  | @recover way rule pos frame after inner _ ih =>
      simp only [Phrase.embeds, Bool.and_eq_true] at embeds
      obtain ⟨⟨_, notUnit⟩, firm⟩ := embeds
      have called : (Phrase.call rule).embeds false = true :=
        Bool.and_eq_true_iff.mpr ⟨notUnit, firm⟩
      exact (ih running called (by simp) keeps hasHead inside holds).mono
        (by simp [Phrase.lax, Phrase.dangles]) id rfl (List.Subset.refl _)
  | @skip way rule pos frame after node skips =>
      simp only [Phrase.embeds, Bool.and_eq_true] at embeds
      exact .leaf ordered holds skips.le skips.inside skips.children skips.span
        (fun _ => skips.lt (known embeds.1.1)) rfl
  | orElse _ ih =>
      exact (ih running embeds known keeps hasHead inside holds).mono id id rfl
        (List.subset_append_left _ _)
  | @loop way look body pos frame ended after inner told _ ih =>
      obtain ⟨clear, bodyEmbeds⟩ := Bool.and_eq_true_iff.mp embeds
      have shown : look.shows true = true → pos < stream.last := fun shows =>
        ordered.lt_last ((Setup.plain stream).notEnd_of_shows shows (told running))
      have again : (Phrase.seq body (.loop look body)).embeds (look.shows true) = true := by
        simp only [Phrase.embeds, clear, bodyEmbeds, Bool.and_self]
      have keepsAgain : (Phrase.seq body (.loop look body)).keeps false = true :=
        Bool.and_eq_true_iff.mpr ⟨keeps, keeps⟩
      refine (ih running again shown keepsAgain (by simp) inside holds).mono ?_ id rfl
        (by simp [Phrase.rekinds])
      intro whole
      have bodyWhole : body.lax.dangles = false := whole
      simp [Phrase.lax, Phrase.dangles, bodyWhole]
  | documented _ ih =>
      exact (ih running embeds known keeps hasHead inside holds).document _
  | @closing way kind _ _ _ _ _ ih =>
      have read : (Phrase.token kind).embeds false = true := rfl
      exact (ih running read (by simp) keeps hasHead inside holds).mono
        (fun _ => rfl) (by simp [Phrase.marks]) rfl (List.Subset.refl _)
  | @missing way kind pos frame node atEnd marks =>
      have isLast := ordered.eq_last inside atEnd
      have span : node.span = stream.stretch pos pos := by rw [marks.span, stream.stretch_self]
      exact .push ordered holds (Nat.le_refl _) inside (by rw [span, Stream.stretch_start])
        (.ofStretch ordered marks.children span (Nat.le_refl _) inside)
        (fun _ => .inr ⟨rfl, marks.kind, by rw [marks.span, isLast]⟩) rfl

/-- The nodes that a rule builds nest, if it does not cover the whole text. -/
theorem BodyBuilds.embeds {stream : Stream} (ordered : stream.Ordered) {rule : Rule} {way : Way}
    {pos after : Nat} {parts : List Node} (builds : BodyBuilds stream rule way pos parts after)
    (running : way.cut = false) (notUnit : rule ≠ .compilationUnit)
    (kept : rule ≠ .enhancedForHead) (inside : pos ≤ stream.last) :
    ∀ part ∈ parts, ∀ node ∈ part.nodes, node.Embeds stream := by
  obtain ⟨ended, inner, rfl, builds⟩ := builds
  have embedded := builds.embedded ordered running (Rule.body_embeds notUnit) (by simp)
    (Rule.body_keeps kept) (by simp) inside (Frame.holds_opened stream .error pos)
  exact fun part member => (embedded.holds.parts part member).2.embeds

/-- The nodes of a unit nest. -/
theorem BodyBuilds.embeds_unit {stream : Stream} (ordered : stream.Ordered) {way : Way}
    {after : Nat} {parts : List Node}
    (builds : BodyBuilds stream .compilationUnit way 0 parts after) (running : way.cut = false) :
    ∀ part ∈ parts, ∀ node ∈ part.nodes, node.Embeds stream := by
  obtain ⟨body, isCover, bodyEmbeds, bodyKeeps, _⟩ := Rule.compilationUnit_embeds
  obtain ⟨ended, inner, rfl, builds⟩ := builds
  rw [isCover] at builds
  cases builds with
  | @cover _ kind _ _ _ bodyEnded _ filled bodyBuilds =>
      have opens : Frame.Holds stream { kind := .compilationUnit, start := .origin } 0 :=
        ⟨Nat.zero_le _, fun _ member => absurd member List.not_mem_nil⟩
      have moves := bodyBuilds.moves ordered running (Nat.zero_le _)
      have embedded := bodyBuilds.embedded ordered running bodyEmbeds (by simp) bodyKeeps (by simp)
        (Nat.zero_le _) opens
      have holds := embedded.holds.mono ordered moves.inside (Nat.le_refl _)
      have atEnd : (stream.get stream.last).span.stop.offset =
          (stream.get stream.last).span.start.offset := by
        rw [ordered.span_last]
        rfl
      intro part member
      obtain rfl := List.mem_singleton.mp member
      refine holds.embeds fun part member => .inl ?_
      have before := (holds.parts part member).2.before part part.self_mem_nodes
      omega

end Parser

namespace Source

open JavaFront.Parser

/-- The text ends where the end token stands. -/
theorem start_last (source : Source) :
    ((Stream.ofSource source).get (Stream.ofSource source).last).span.start =
      source.position source.size := by
  rw [Stream.get_last, (Stream.tokens_ofSource source).2]
  exact source.advance_origin_eq_position (List.append_nil source.text)

/-- Nodes nest, in trees with errors as well. In a parse that is not abandoned
every node contains its children. The one exception is the error node for what
is missing where the end of the text cuts a body off: it is empty and stands at
the end of the text, which may lie behind the end of the body. -/
theorem parse_nests (source : Source) (entry : Entry) (options : Options) (tree : Node)
    (running : (source.parse entry options).abandoned = none)
    (built : (source.parse entry options).tree = some tree) :
    ∀ node ∈ tree.nodes, ∀ child ∈ node.children,
      node.span.contains child.span = true ∨
        node.kind.isBody = true ∧ child.kind = .error ∧
          child.span = .empty (source.position source.size) := by
  have ordered := Stream.ofSource_ordered source
  obtain ⟨others, after, -, builds⟩ :=
    source.parse_builds entry options false built (by simp [running])
  have goesOn : (((Setup.ofSource source options).way false
      (Setup.ofSource source options).initial).inside entry.rule).cut = false := Way.inside_cut _ _
  have embeds : ∀ node ∈ tree.nodes, node.Embeds (Stream.ofSource source) := by
    cases entry with
    | unit => exact builds.embeds_unit ordered goesOn tree List.mem_cons_self
    | expression | statement =>
        exact builds.embeds ordered goesOn (by simp [Entry.rule]) (by simp [Entry.rule])
          (Nat.zero_le _) tree List.mem_cons_self
  intro node member child isChild
  obtain ⟨starts, stops | ⟨isBody, mark⟩⟩ := embeds node member child isChild
  · left
    simp only [Span.contains, Bool.and_eq_true, decide_eq_true_eq]
    exact ⟨starts, stops⟩
  · exact .inr ⟨isBody, mark.kind, mark.span.trans (congrArg Span.empty source.start_last)⟩

/-- A member is skipped, and the end of the text cuts the method and the class
off. -/
theorem parse_nests_cutOff :
    ∃ tree, ((of [] "class A \x7b int ; void f() \x7b ").parse).abandoned = none ∧
      ((of [] "class A \x7b int ; void f() \x7b ").parse).tree = some tree ∧
      tree.errors.length = 3 ∧
      ∀ node ∈ tree.nodes, ∀ child ∈ node.children,
        node.span.contains child.span = true ∨
          node.kind.isBody = true ∧ child.kind = .error ∧
            child.span = .empty ((of [] "class A \x7b int ; void f() \x7b ").position
              (of [] "class A \x7b int ; void f() \x7b ").size) := by
  have running : ((of [] "class A \x7b int ; void f() \x7b ").parse).abandoned = none := by
    decide +kernel
  have three :
      ((of [] "class A \x7b int ; void f() \x7b ").parse).tree.map (·.errors.length) = some 3 := by
    decide +kernel
  obtain ⟨tree, built, errors⟩ := Option.map_eq_some_iff.mp three
  exact ⟨tree, running, built, errors, parse_nests _ .unit {} tree running built⟩

/-- Where a blank stands behind the brace, the body does not contain the error
node at its end. -/
theorem parse_protrudes :
    ∃ tree, ((of [] "class A \x7b ").parse).abandoned = none ∧
      ((of [] "class A \x7b ").parse).diagnostics ≠ [] ∧
      ((of [] "class A \x7b ").parse).tree = some tree ∧
      ∃ node ∈ tree.nodes, ∃ child ∈ node.children, node.span.contains child.span = false := by
  have protrudes : ((of [] "class A \x7b ").parse).tree.map (·.nodes.any fun node =>
      node.children.any fun child => !node.span.contains child.span) = some true := by
    decide +kernel
  obtain ⟨tree, built, found⟩ := Option.map_eq_some_iff.mp protrudes
  obtain ⟨node, member, below⟩ := List.any_eq_true.mp found
  obtain ⟨child, isChild, outside⟩ := List.any_eq_true.mp below
  exact ⟨tree, by decide +kernel, by decide +kernel, built, node, member, child, isChild,
    by simpa using outside⟩

end Source

end JavaFront
