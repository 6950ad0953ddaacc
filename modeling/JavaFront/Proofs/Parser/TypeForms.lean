import JavaFront.Proofs.Grammar.TypeForm
import JavaFront.Proofs.Parser.Operands
import JavaFront.Proofs.Parser.Straight
import JavaFront.Proofs.Token.Gaps

/-!
# Types come back as they were written

The grammar reads a type without a detour: what to do next is seen on the token
at the cursor and the one behind it. So a type that is written out, with
anything between its words, is read as its tree in every setting.
-/

namespace JavaFront

/-! ## Words -/

theorem PrimitiveWord.isKeyword (word : PrimitiveWord) : word.kind.isKeyword = true := by
  obtain ⟨kind, isPrimitive⟩ := word
  revert isPrimitive
  cases kind <;> decide

theorem WildcardBound.isKeyword (bound : WildcardBound) : bound.kind.isKeyword = true := by
  cases bound <;> decide

mutual

theorem TypeForm.words_plain : (form : TypeForm) → Word.Plain form.words
  | .primitive word => .keyword word.isKeyword .nil
  | .named first others => (first.words_plain).append (TypeSegment.wordsBehind_plain others)
  | .array element =>
    element.words_plain.append (.delimiter (by decide) (.delimiter (by decide) .nil))

theorem TypeSegment.words_plain : (segment : TypeSegment) → Word.Plain segment.words
  | .plain name => .name name .nil
  | .diamond name => .name name (.delimiter (by decide) (.delimiter (by decide) .nil))
  | .generic name first others =>
    .name name (.delimiter (by decide) (first.words_plain.append
      ((TypeArgument.wordsBehind_plain others).append (.delimiter (by decide) .nil))))

theorem TypeSegment.wordsBehind_plain :
    (others : List TypeSegment) → Word.Plain (TypeSegment.wordsBehind others)
  | [] => .nil
  | next :: others => by
      have rest := next.words_plain.append (TypeSegment.wordsBehind_plain others)
      rw [TypeSegment.wordsBehind]
      cases next <;> exact .dot _ rest

theorem TypeArgument.words_plain : (argument : TypeArgument) → Word.Plain argument.words
  | .type form => form.words_plain
  | .any => .delimiter (by decide) .nil
  | .bounded bound form => .delimiter (by decide) (.keyword bound.isKeyword form.words_plain)

theorem TypeArgument.wordsBehind_plain :
    (others : List TypeArgument) → Word.Plain (TypeArgument.wordsBehind others)
  | [] => .nil
  | next :: others =>
    .delimiter (by decide) (next.words_plain.append (TypeArgument.wordsBehind_plain others))

end

/-! ### First words -/

/-- A segment starts with a name. -/
theorem TypeSegment.kind_of_shapes {stream : Stream} {pos after : Nat} (segment : TypeSegment)
    (shapes : stream.Shapes segment.words pos after) : stream.kind pos = .ident := by
  cases segment <;> exact shapes.kind_eq

/-- A type starts with a name or the word for a primitive type. -/
theorem TypeForm.kind_of_shapes {stream : Stream} {pos after : Nat} : (form : TypeForm) →
    stream.Shapes form.words pos after →
    stream.kind pos = .ident ∨ (stream.kind pos).isPrimitiveType = true
  | .primitive word, shapes => .inr (shapes.kind_eq ▸ word.isPrimitive)
  | .named first _, shapes => by
      obtain ⟨middle, firstShapes, -⟩ := Stream.shapes_append.mp shapes
      exact .inl (first.kind_of_shapes firstShapes)
  | .array element, shapes => by
      obtain ⟨middle, elementShapes, -⟩ := Stream.shapes_append.mp shapes
      exact element.kind_of_shapes elementShapes

/-- No type argument starts with an angle bracket. -/
theorem TypeArgument.kind_ne_greater {stream : Stream} {pos after : Nat} (argument : TypeArgument)
    (shapes : stream.Shapes argument.words pos after) : stream.kind pos ≠ .greater := by
  cases argument with
  | type form =>
      intro isGreater
      have opens := form.kind_of_shapes shapes
      rw [isGreater] at opens
      simp [Token.Kind.isPrimitiveType] at opens
  | any => simp [shapes.kind_eq, Token.Kind.word]
  | bounded bound form => simp [shapes.kind_eq, Token.Kind.word]

/-- Behind a segment comes a dot or what comes behind all segments. -/
theorem TypeSegment.kind_behind {stream : Stream} {pos after : Nat} {others : List TypeSegment}
    (shapes : stream.Shapes (TypeSegment.wordsBehind others) pos after)
    (noLess : stream.kind after ≠ .less) : stream.kind pos ≠ .less := by
  cases others with
  | nil => rwa [show pos = after from shapes]
  | cons next others => simp [shapes.kind_eq, Token.Kind.word]

/-- Behind an argument comes a comma or what closes the list. -/
theorem TypeArgument.kind_behind {stream : Stream} {pos after : Nat} {others : List TypeArgument}
    (shapes : stream.Shapes (TypeArgument.wordsBehind others) pos after)
    (closes : stream.kind after = .greater) :
    stream.kind pos = .comma ∨ stream.kind pos = .greater := by
  cases others with
  | nil => exact .inr (by rwa [show pos = after from shapes])
  | cons next others => exact .inl shapes.kind_eq

end JavaFront

namespace JavaFront.Parser

open Grammar Phrase

variable {stream : Stream} {pos middle after : Nat}

/-! ## Looks -/

section Looks

variable {frame : Frame}

@[simp] theorem Setup.plain_here {accept : Token.Kind → Bool} :
    (Setup.plain stream).holds { pos } frame (.here accept) = accept (stream.kind pos) :=
  rfl

@[simp] theorem Setup.plain_is {kind : Token.Kind} :
    (Setup.plain stream).holds { pos } frame (.is kind) = decide (stream.kind pos = kind) :=
  rfl

@[simp] theorem Setup.plain_oneOf {kinds : List Token.Kind} :
    (Setup.plain stream).holds { pos } frame (.oneOf kinds) = kinds.contains (stream.kind pos) :=
  rfl

@[simp] theorem Setup.plain_nextIs {kind : Token.Kind} :
    (Setup.plain stream).holds { pos } frame (.nextIs kind) =
      decide (stream.kind (pos + 1) = kind) :=
  rfl

@[simp] theorem Setup.plain_and {first second : Look} :
    (Setup.plain stream).holds { pos } frame (.and first second) =
      ((Setup.plain stream).holds { pos } frame first &&
        (Setup.plain stream).holds { pos } frame second) :=
  rfl

end Looks

/-! ## Phrases -/

namespace Straight

variable {frame between inner : Frame} {words : List Word}

theorem token_of {kind : Token.Kind} (shapes : stream.Shapes (kind.word :: words) pos after) :
    Straight stream (.token kind) pos frame (pos + 1) frame :=
  shapes.succ_eq ▸ .token shapes.kind_eq

theorem ident_of {name : Name}
    (shapes : stream.Shapes ((.ident, name.text) :: words) pos after) :
    Straight stream ident pos frame (pos + 1)
      (frame.push (.leaf .identifier (stream.get pos))) :=
  shapes.succ_eq ▸ .leaf shapes.kind_eq

theorem mark_of {word : Word} {accept : Token.Kind → Bool}
    (shapes : stream.Shapes (word :: words) pos after) (accepted : accept word.1 = true) :
    Straight stream (.mark accept) pos frame (pos + 1)
      { frame with token := some (stream.get pos) } :=
  shapes.succ_eq ▸ .mark (by rwa [shapes.kind_eq])

theorem pick_of {word : Word} {accept : Token.Kind → Bool} {part : Node.Kind}
    (shapes : stream.Shapes (word :: words) pos after) (accepted : accept word.1 = true) :
    Straight stream (.pick part accept) pos frame (pos + 1)
      (frame.push (.leaf part (stream.get pos))) :=
  shapes.succ_eq ▸ .pick (by rwa [shapes.kind_eq])

theorem accepted {look : Look} {yes no : Phrase}
    (holds : (Setup.plain stream).holds { pos } frame look = true)
    (reading : Straight stream yes pos frame after inner) :
    Straight stream (.branch look yes no) pos frame after inner := by
  refine .branch ?_
  rw [holds]
  exact reading

theorem rejected {look : Look} {yes no : Phrase}
    (fails : (Setup.plain stream).holds { pos } frame look = false)
    (reading : Straight stream no pos frame after inner) :
    Straight stream (.branch look yes no) pos frame after inner := by
  refine .branch ?_
  rw [fails]
  exact reading

/-- Without an at sign there are no annotations. -/
theorem annotations_of (other : stream.kind pos ≠ .atSign) :
    Straight stream annotations pos frame pos frame :=
  .loopEnds (by simp [annotationAhead, other])

end Straight

/-- The leaf of a token, without its place. -/
theorem bare_leaf_of {word : Word} {words : List Word}
    (shapes : stream.Shapes (word :: words) pos after) (kind : Node.Kind) :
    (Node.leaf kind (stream.get pos)).bare = .leaf kind word.token :=
  Node.bare_leaf kind (show (stream.get pos).bare = word.token.bare from shapes.bare_eq)

theorem RuleStraight.call {rule : Rule} {parts : List Node} {frame : Frame}
    (reading : RuleStraight stream rule pos parts after) :
    Straight stream (.call rule) pos frame after (frame.pushAll parts) := by
  obtain ⟨inner, rfl, body⟩ := reading
  exact .call body

/-! ## Parts of types -/

/-- The words of a type are read as its tree, wherever they do not go on with a
dot or with type arguments. What brackets there are behind them is left to the
phrase for brackets. -/
def TypeReads (stream : Stream) (form : TypeForm) : Prop :=
  ∀ {pos after : Nat} (frame : Frame), stream.Shapes form.words pos after →
    stream.kind after ≠ .dot → stream.kind after ≠ .less →
    ∃ node : Node, node.bare = form.tree ∧ ∀ {stop : Nat} {inner : Frame},
      Straight stream dimensions after (frame.push node) stop inner →
      Straight stream type pos frame stop inner

/-- The words of a segment are read as its name and type arguments, the latest
part first. -/
def SegmentReads (stream : Stream) (segment : TypeSegment) : Prop :=
  ∀ {pos after : Nat} (frame : Frame), stream.Shapes segment.words pos after →
    stream.kind after ≠ .less →
    ∃ parts : List Node, (parts.map Node.bare).reverse = segment.trees ∧
      Straight stream typeSegment pos frame after (frame.pushAll parts)

/-- The words of segments behind dots are read as their parts, the latest
first. -/
def SegmentsRead (stream : Stream) (others : List TypeSegment) : Prop :=
  ∀ {pos after : Nat} (frame : Frame), stream.Shapes (TypeSegment.wordsBehind others) pos after →
    stream.kind after ≠ .dot → stream.kind after ≠ .less →
    ∃ parts : List Node, (parts.map Node.bare).reverse = TypeSegment.allTrees others ∧
      Straight stream (.loop (.and (.is .dot) (.nextIs .ident)) (.seq (.token .dot) typeSegment))
        pos frame after (frame.pushAll parts)

/-- A list of type arguments goes on or ends here. -/
def IsBehindArgument (kind : Token.Kind) : Prop :=
  kind = .comma ∨ kind = .greater

/-- No type goes on behind a type argument. -/
theorem IsBehindArgument.ends_type {kind : Token.Kind} (behind : IsBehindArgument kind) :
    kind ≠ .dot ∧ kind ≠ .less ∧ kind ≠ .lbracket := by
  rcases behind with rfl | rfl <;> decide

/-- The words of a type argument are read as its tree in a list of them. -/
def ArgumentReads (stream : Stream) (argument : TypeArgument) : Prop :=
  ∀ {pos after : Nat} (frame : Frame), stream.Shapes argument.words pos after →
    IsBehindArgument (stream.kind after) →
    ∃ node : Node, node.bare = argument.tree ∧
      Straight stream (.call .typeArgument) pos frame after (frame.push node)

/-- The words of arguments behind commas are read as their trees, the latest
first. -/
def ArgumentsRead (stream : Stream) (others : List TypeArgument) : Prop :=
  ∀ {pos after : Nat} (frame : Frame), stream.Shapes (TypeArgument.wordsBehind others) pos after →
    stream.kind after = .greater →
    ∃ parts : List Node, (parts.map Node.bare).reverse = TypeArgument.allTrees others ∧
      Straight stream (.loop (.is .comma) (.seq (.token .comma) (.call .typeArgument)))
        pos frame after (frame.pushAll parts)

/-! ### Types -/

/-- A type that no brackets follow is all that its rule reads. -/
theorem TypeReads.rule {form : TypeForm} (reads : TypeReads stream form)
    (shapes : stream.Shapes form.words pos after) (noDot : stream.kind after ≠ .dot)
    (noLess : stream.kind after ≠ .less) (noBracket : stream.kind after ≠ .lbracket) :
    ∃ node : Node, node.bare = form.tree ∧ RuleStraight stream .type pos [node] after := by
  obtain ⟨node, sameTree, goesOn⟩ :=
    reads ((Setup.plain stream).frame { pos } .error) shapes noDot noLess
  refine ⟨node, sameTree, _, rfl, goesOn (.loopEnds ?_)⟩
  simp [dimsAhead, noBracket]

theorem typeReads_primitive (word : PrimitiveWord) : TypeReads stream (.primitive word) := by
  intro pos after frame shapes noDot noLess
  obtain rfl := shapes.behind
  have isPrimitive : (stream.kind pos).isPrimitiveType = true := by
    rw [shapes.kind_eq]
    exact word.isPrimitive
  have noSign : stream.kind pos ≠ .atSign := by
    intro isSign
    rw [isSign] at isPrimitive
    cases isPrimitive
  refine ⟨_, ?_, fun rest => .seq (.node (.seq (.annotations_of noSign)
    (.accepted isPrimitive (.seq .rekind (.mark_of shapes word.isPrimitive))))) rest⟩
  rw [Setup.finish_bare]
  simp [Setup.frame, TypeForm.tree, Formula.tree.branching, shapes.bare_eq]

theorem typeReads_array {element : TypeForm} (reads : TypeReads stream element) :
    TypeReads stream (.array element) := by
  intro pos after frame shapes _ _
  obtain ⟨middle, elementShapes, brackets⟩ := Stream.shapes_append.mp shapes
  obtain rfl := brackets.behind.behind
  have opens := brackets.kind_eq
  have closes := brackets.behind.kind_eq
  obtain ⟨node, sameTree, goesOn⟩ := reads frame elementShapes (by simp [opens, Token.Kind.word])
    (by simp [opens, Token.Kind.word])
  have ahead : (Setup.plain stream).holds { pos := middle } (frame.push node) dimsAhead = true := by
    simp [dimsAhead, opens, closes, Token.Kind.word]
  refine ⟨_, ?_, fun rest => goesOn (.loop ahead (.seq (.wrap rfl
    (.seq (.token_of brackets) (.token_of brackets.behind))) rest))⟩
  rw [Setup.finish_bare]
  simp [TypeForm.tree, Formula.tree.branching, sameTree]

theorem typeReads_named {first : TypeSegment} {others : List TypeSegment}
    (firstReads : SegmentReads stream first) (othersRead : SegmentsRead stream others) :
    TypeReads stream (.named first others) := by
  intro pos after frame shapes noDot noLess
  obtain ⟨middle, firstShapes, othersShapes⟩ := Stream.shapes_append.mp shapes
  have isName := first.kind_of_shapes firstShapes
  obtain ⟨parts, sameParts, reading⟩ := firstReads ((Setup.plain stream).frame { pos } .type)
    firstShapes (TypeSegment.kind_behind othersShapes noLess)
  obtain ⟨laterParts, sameLater, laterReading⟩ :=
    othersRead (((Setup.plain stream).frame { pos } .type).pushAll parts) othersShapes noDot noLess
  have noSign : stream.kind pos ≠ .atSign := by simp [isName]
  have notPrimitive : (Setup.plain stream).holds { pos } ((Setup.plain stream).frame { pos } .type)
      (.here Token.Kind.isPrimitiveType) = false := by
    simp [isName, Token.Kind.isPrimitiveType]
  have named : (Setup.plain stream).holds { pos } ((Setup.plain stream).frame { pos } .type)
      (.is .ident) = true := by
    simp [isName]
  refine ⟨_, ?_, fun rest => .seq (.node (.seq (.annotations_of noSign)
    (.rejected notPrimitive (.accepted named (.seq reading laterReading))))) rest⟩
  rw [Setup.finish_bare]
  simp [Setup.frame, Frame.pushAll, TypeForm.tree, Formula.tree.branching, ← sameParts, ← sameLater]

/-! ### Segments -/

theorem segmentReads_plain (name : Name) : SegmentReads stream (.plain name) := by
  intro pos after frame shapes noLess
  obtain rfl := shapes.behind
  refine ⟨[_], ?_, .seq (.ident_of shapes) (.rejected ?_ .done)⟩
  · simp [TypeSegment.trees, bare_leaf_of shapes]
  · simp [noLess]

/-- A name with a list of type arguments behind it, whatever the rule for these
reads. -/
theorem segment_of_arguments {name : Name} {words : List Word} {node : Node} (frame : Frame)
    (shapes : stream.Shapes ((.ident, name.text) :: Token.Kind.less.word :: words) pos after)
    (reading : RuleStraight stream .typeArguments (pos + 1) [node] after) :
    ∃ parts : List Node, (parts.map Node.bare).reverse =
        [.leaf .identifier (Word.token (.ident, name.text)), node.bare] ∧
      Straight stream typeSegment pos frame after (frame.pushAll parts) := by
  have opens := shapes.behind.kind_eq
  refine ⟨[node, _], ?_, .seq (.ident_of shapes) (.accepted ?_ reading.call)⟩
  · simp [bare_leaf_of shapes]
  · simp [opens, Token.Kind.word]

theorem segmentReads_diamond (name : Name) : SegmentReads stream (.diamond name) := by
  intro pos after frame shapes _
  have opens := shapes.behind
  obtain rfl := opens.behind.behind
  have closes := opens.behind.kind_eq
  have empty : ∀ frame : Frame, (Setup.plain stream).holds { pos := pos + 1 + 1 } frame
      (.is .greater) = true := by
    intro frame
    simp [closes, Token.Kind.word]
  obtain ⟨parts, sameParts, reading⟩ := segment_of_arguments frame shapes
    ⟨_, rfl, .node (.seq (.token_of opens) (.accepted (empty _) (.token_of opens.behind)))⟩
  refine ⟨parts, ?_, reading⟩
  rw [sameParts, Setup.finish_bare]
  rfl

theorem segmentReads_generic {name : Name} {first : TypeArgument} {others : List TypeArgument}
    (firstReads : ArgumentReads stream first) (othersRead : ArgumentsRead stream others) :
    SegmentReads stream (.generic name first others) := by
  intro pos after frame shapes _
  have opens := shapes.behind
  obtain ⟨middle, firstShapes, rest⟩ := Stream.shapes_append.mp opens.behind
  obtain ⟨back, othersShapes, closing⟩ := Stream.shapes_append.mp rest
  obtain rfl := closing.behind
  have closes : stream.kind back = .greater := closing.kind_eq
  obtain ⟨node, sameTree, reading⟩ := firstReads
    ((Setup.plain stream).frame { pos := pos + 1 } .typeArguments) firstShapes
    (TypeArgument.kind_behind othersShapes closes)
  obtain ⟨parts, sameParts, laterReading⟩ := othersRead
    (((Setup.plain stream).frame { pos := pos + 1 } .typeArguments).push node) othersShapes closes
  have some : ∀ frame : Frame, (Setup.plain stream).holds { pos := pos + 1 + 1 } frame
      (.is .greater) = false := by
    intro frame
    simp [first.kind_ne_greater firstShapes]
  obtain ⟨segmentParts, sameSegment, segmentReading⟩ := segment_of_arguments frame shapes
    ⟨_, rfl, .node (.seq (.token_of opens) (.rejected (some _)
      (.seq (.seq reading laterReading) (.token_of closing))))⟩
  refine ⟨segmentParts, ?_, segmentReading⟩
  rw [sameSegment, Setup.finish_bare]
  simp [Setup.frame, Frame.pushAll, Frame.push, TypeSegment.trees, Formula.tree.branching, sameTree,
    ← sameParts]

theorem segmentsRead_nil : SegmentsRead stream [] := by
  intro pos after frame shapes noDot _
  obtain rfl := shapes
  refine ⟨[], rfl, .loopEnds ?_⟩
  simp [noDot]

theorem segmentsRead_cons {next : TypeSegment} {others : List TypeSegment}
    (nextReads : SegmentReads stream next) (othersRead : SegmentsRead stream others) :
    SegmentsRead stream (next :: others) := by
  intro pos after frame shapes noDot noLess
  obtain ⟨middle, nextShapes, othersShapes⟩ := Stream.shapes_append.mp shapes.behind
  obtain ⟨parts, sameParts, reading⟩ := nextReads frame nextShapes
    (TypeSegment.kind_behind othersShapes noLess)
  obtain ⟨laterParts, sameLater, laterReading⟩ :=
    othersRead (frame.pushAll parts) othersShapes noDot noLess
  have isDot := shapes.kind_eq
  have isName := next.kind_of_shapes nextShapes
  refine ⟨laterParts ++ parts, by simp [sameParts, sameLater, TypeSegment.allTrees], ?_⟩
  have goesOn : (Setup.plain stream).holds { pos } frame
      (.and (.is .dot) (.nextIs .ident)) = true := by
    simp [isDot, isName, Token.Kind.word]
  have whole := Straight.loop goesOn (.seq (.seq (.token_of shapes) reading) laterReading)
  simpa [Frame.pushAll] using whole

/-! ### Type arguments -/

theorem argumentReads_type {form : TypeForm} (reads : TypeReads stream form) :
    ArgumentReads stream (.type form) := by
  intro pos after frame shapes ends
  obtain ⟨noDot, noLess, noBracket⟩ := ends.ends_type
  obtain ⟨node, sameTree, reading⟩ := reads.rule shapes noDot noLess noBracket
  have opens := form.kind_of_shapes shapes
  have whole : RuleStraight stream .typeArgument pos [node] after := by
    refine ⟨_, rfl, .rejected ?_ (.rejected ?_ reading.call)⟩
    all_goals
      simp only [Setup.plain_is, decide_eq_false_iff_not]
      rintro isOther
      rw [isOther] at opens
      simp [Token.Kind.isPrimitiveType] at opens
  exact ⟨node, sameTree, whole.call⟩

/-- A wildcard as an argument, whatever its rule reads. -/
theorem argument_of_wildcard {words : List Word} {node : Node} (frame : Frame)
    (shapes : stream.Shapes (Token.Kind.question.word :: words) pos after)
    (reading : RuleStraight stream .wildcard pos [node] after) :
    Straight stream (.call .typeArgument) pos frame after (frame.push node) := by
  have isQuestion := shapes.kind_eq
  have whole : RuleStraight stream .typeArgument pos [node] after := by
    refine ⟨_, rfl, .accepted ?_ reading.call⟩
    simp [isQuestion, Token.Kind.word]
  exact whole.call

theorem argumentReads_any : ArgumentReads stream .any := by
  intro pos after frame shapes ends
  have noSign : stream.kind pos ≠ .atSign := by simp [shapes.kind_eq, Token.Kind.word]
  obtain rfl := shapes.behind
  have unbounded : ∀ frame : Frame, (Setup.plain stream).holds { pos := pos + 1 } frame
      (.oneOf [.kwExtends, .kwSuper]) = false := by
    intro frame
    rcases ends with same | same <;> simp [same]
  refine ⟨_, ?_, argument_of_wildcard frame shapes ⟨_, rfl, .node (.seq (.annotations_of noSign)
    (.seq (.token_of shapes) (.rejected (unbounded _) .done)))⟩⟩
  rw [Setup.finish_bare]
  rfl

theorem argumentReads_bounded {bound : WildcardBound} {form : TypeForm}
    (reads : TypeReads stream form) : ArgumentReads stream (.bounded bound form) := by
  intro pos after frame shapes ends
  have noSign : stream.kind pos ≠ .atSign := by simp [shapes.kind_eq, Token.Kind.word]
  obtain ⟨noDot, noLess, noBracket⟩ := ends.ends_type
  obtain ⟨node, sameTree, reading⟩ := reads.rule shapes.behind.behind noDot noLess noBracket
  have isBound : [Token.Kind.kwExtends, .kwSuper].contains bound.kind = true := by
    cases bound <;> rfl
  have bounded : ∀ frame : Frame, (Setup.plain stream).holds { pos := pos + 1 } frame
      (.oneOf [.kwExtends, .kwSuper]) = true := by
    intro frame
    rw [Setup.plain_oneOf, shapes.behind.kind_eq]
    exact isBound
  refine ⟨_, ?_, argument_of_wildcard frame shapes ⟨_, rfl, .node (.seq (.annotations_of noSign)
    (.seq (.token_of shapes) (.accepted (bounded _)
      (.seq (.pick_of shapes.behind isBound) reading.call))))⟩⟩
  rw [Setup.finish_bare]
  simp [Setup.frame, Frame.pushAll, Frame.push, TypeArgument.tree, Formula.tree.branching, sameTree,
    Formula.tree.leafOf, bare_leaf_of shapes.behind]

theorem argumentsRead_nil : ArgumentsRead stream [] := by
  intro pos after frame shapes closes
  obtain rfl := shapes
  refine ⟨[], rfl, .loopEnds ?_⟩
  simp [closes]

theorem argumentsRead_cons {next : TypeArgument} {others : List TypeArgument}
    (nextReads : ArgumentReads stream next) (othersRead : ArgumentsRead stream others) :
    ArgumentsRead stream (next :: others) := by
  intro pos after frame shapes closes
  obtain ⟨middle, nextShapes, othersShapes⟩ := Stream.shapes_append.mp shapes.behind
  obtain ⟨node, sameTree, reading⟩ := nextReads frame nextShapes
    (TypeArgument.kind_behind othersShapes closes)
  obtain ⟨parts, sameParts, laterReading⟩ := othersRead (frame.push node) othersShapes closes
  have isComma := shapes.kind_eq
  refine ⟨parts ++ [node], by simp [sameTree, sameParts, TypeArgument.allTrees], ?_⟩
  have goesOn : (Setup.plain stream).holds { pos } frame (.is .comma) = true := by
    simp [isComma, Token.Kind.word]
  have whole := Straight.loop goesOn (.seq (.seq (.token_of shapes) reading) laterReading)
  simpa [Frame.pushAll, Frame.push] using whole

/-! ### All of them -/

mutual

/-- Wherever the words of a type stand, its tree is read. -/
theorem typeReads : (form : TypeForm) → TypeReads stream form
  | .primitive word => typeReads_primitive word
  | .named first others => typeReads_named (segmentReads first) (segmentsRead others)
  | .array element => typeReads_array (typeReads element)

theorem segmentReads : (segment : TypeSegment) → SegmentReads stream segment
  | .plain name => segmentReads_plain name
  | .diamond name => segmentReads_diamond name
  | .generic _ first others => segmentReads_generic (argumentReads first) (argumentsRead others)

theorem segmentsRead : (others : List TypeSegment) → SegmentsRead stream others
  | [] => segmentsRead_nil
  | next :: others => segmentsRead_cons (segmentReads next) (segmentsRead others)

theorem argumentReads : (argument : TypeArgument) → ArgumentReads stream argument
  | .type form => argumentReads_type (typeReads form)
  | .any => argumentReads_any
  | .bounded _ form => argumentReads_bounded (typeReads form)

theorem argumentsRead : (others : List TypeArgument) → ArgumentsRead stream others
  | [] => argumentsRead_nil
  | next :: others => argumentsRead_cons (argumentReads next) (argumentsRead others)

end

end JavaFront.Parser

namespace JavaFront.Source

open JavaFront.Parser

/-- Types come back as they were written. From the token at the cursor on a text
is made of the words of a type, with any spacing between, and what comes behind
them is no dot, no angle bracket that opens and no bracket that opens. There the
rule for types returns the tree of the type and stops behind its last token, in a
trial and outside of one, with the memo table or without it and whatever was left
in the table before, unless the parse is abandoned. -/
theorem call_type (source : Source) (options : Options) (form : TypeForm) {state : State}
    {tail : Bytes} (inside : state.pos ≤ (Stream.ofSource source).last)
    (writes : Word.Writes tail form.words
      (source.text.drop ((Stream.ofSource source).get state.pos).span.start.offset))
    (ends : (Stream.ofSource source).kind (state.pos + form.words.length) ∉
      [.dot, .less, .lbracket])
    (reached : TableReached (Stream.ofSource source) state.memo)
    (running : ((Setup.ofSource source options).call .type state).state.fatal = none) :
    ∃ node : Node, ((Setup.ofSource source options).call .type state).parts? = some [node] ∧
      node.bare = form.tree ∧
      ((Setup.ofSource source options).call .type state).state.pos =
        state.pos + form.words.length := by
  have ordered := Stream.ofSource_ordered source
  have shapes := Stream.shapes_ofSource source inside form.words_plain writes
  simp only [List.mem_cons, List.not_mem_nil, or_false, not_or] at ends
  obtain ⟨node, sameTree, reading⟩ :=
    TypeReads.rule (typeReads form) shapes ends.1 ends.2.1 ends.2.2
  obtain ⟨ahead, straight⟩ := reached.straight ordered
  have notUnit : 0 < state.speculating → Rule.type ≠ .compilationUnit := fun _ => by decide
  have follows := (Setup.ofSource source options).call_follows ordered ⟨inside, ahead⟩ notUnit
    straight
  obtain ⟨parts, stop⟩ := follows.takes running _ _ reading
  exact ⟨node, parts, sameTree, stop⟩

/-- A cast whose type closes two lists of arguments at once. -/
def nestedCast : Setup :=
  .ofSource (of [] "(A<B<?super C>>[ ])y") {}

/-- The state inside of the parentheses, in a trial and behind another one that
has read the whole head of the cast. -/
def nestedCastTried : State :=
  { (nestedCast.call .castHead { nestedCast.initial with speculating := 1 }).state with pos := 1 }

/-- The type is found in the table, and its tree is the one that was written. -/
theorem call_type_nestedCast :
    let name (byte : UInt8)
        (alone : (of [] [byte]).tokens.map Token.shape = [(.ident, [byte]), (.eof, [])]) : Name :=
      ⟨[byte], alone⟩
    let bound : TypeForm := .named (.plain (name 0x43 (by decide +kernel))) []
    let inner : TypeForm :=
      .named (.generic (name 0x42 (by decide +kernel)) (.bounded .lower bound) []) []
    let form : TypeForm :=
      .array (.named (.generic (name 0x41 (by decide +kernel)) (.type inner) []) [])
    nestedCastTried.speculating = 1 ∧
      (nestedCast.call .type nestedCastTried).state.memo.hits = nestedCastTried.memo.hits + 1 ∧
      ∃ node : Node, (nestedCast.call .type nestedCastTried).parts? = some [node] ∧
        node.bare = form.tree ∧ (nestedCast.call .type nestedCastTried).state.pos = 12 := by
  intro name bound inner form
  have brackets : Word.Writes ")y" [Token.Kind.lbracket.word, Token.Kind.rbracket.word] "[ ])y" :=
    .word (fun isWord => absurd isWord (by decide))
      (@Lexer.Skips.of_blanks "])y" " " (by decide) (by decide +kernel))
      (.delimiter (by decide) .done)
  have wildcard : Word.Writes ")y"
      [Token.Kind.question.word, Token.Kind.kwSuper.word, (.ident, [0x43]),
        Token.Kind.greater.word, Token.Kind.greater.word, Token.Kind.lbracket.word,
        Token.Kind.rbracket.word] "?super C>>[ ])y" :=
    .delimiter (by decide) (.word (fun _ => by decide +kernel)
      (@Lexer.Skips.of_blanks "C>>[ ])y" " " (by decide) (by decide +kernel))
      (.word (fun _ => by decide +kernel) .none
        (.delimiter (by decide) (.delimiter (by decide) brackets))))
  have written : Word.Writes ")y" form.words "A<B<?super C>>[ ])y" :=
    .word (fun _ => by decide +kernel) .none (.delimiter (by decide)
      (.word (fun _ => by decide +kernel) .none (.delimiter (by decide) wildcard)))
  have seen : (of [] "(A<B<?super C>>[ ])y").text.drop
      ((Stream.ofSource (of [] "(A<B<?super C>>[ ])y")).get nestedCastTried.pos).span.start.offset =
        "A<B<?super C>>[ ])y" := by
    decide +kernel
  have inside : nestedCastTried.pos ≤ nestedCast.stream.last := by decide +kernel
  have reached : TableReached nestedCast.stream nestedCastTried.memo :=
    .call rfl (Nat.zero_le _) (fun _ => by decide) (.empty rfl) rfl
  exact ⟨by decide +kernel, by decide +kernel,
    call_type _ {} form inside (seen ▸ written) (by decide +kernel) reached (by decide +kernel)⟩

end JavaFront.Source
