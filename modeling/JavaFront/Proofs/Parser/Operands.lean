import JavaFront.Proofs.Parser.Completeness
import JavaFront.Proofs.Token.Algebraic
import JavaFront.Proofs.Tree.Bare

/-!
# Operands of formulas

Where the grammar tries whether a cast, a lambda or a reference to a method of
a generic type starts, the tokens of a formula make it give up. So a name is
read as a name and parentheses as parentheses, whatever the trials get to
first.
-/

namespace JavaFront.Parser

open Grammar Phrase

variable {stream : Stream} {pos after : Nat} {frame inner : Frame}

/-! ## What was read -/

namespace Reads

variable {kind : Node.Kind} {body yes no : Phrase} {look : Look} {result : Option (Nat × Frame)}

theorem of_seq {first second : Phrase}
    (reads : Reads stream (.seq first second) pos frame (some (after, inner))) :
    ∃ middle between, Reads stream first pos frame (some (middle, between)) ∧
      Reads stream second middle between (some (after, inner)) := by
  cases reads with
  | seq front back => exact ⟨_, _, front, back⟩

theorem of_node (reads : Reads stream (.node kind body) pos frame (some (after, inner))) :
    ∃ built, Reads stream body pos ((Setup.plain stream).frame { pos } kind)
        (some (after, built)) ∧
      inner = frame.push ((Setup.plain stream).finish { pos := after } built) := by
  generalize found : some (after, inner) = result at reads
  cases reads with
  | node reads =>
      obtain ⟨⟨stop, built⟩, rfl, same⟩ := Option.map_eq_some_iff.mp found.symm
      cases same
      exact ⟨built, reads, rfl⟩

theorem of_wrap (reads : Reads stream (.wrap kind body) pos frame (some (after, inner))) :
    ∃ first others built, frame.parts = first :: others ∧
      Reads stream body pos { kind, start := first.span.start, parts := [first] }
        (some (after, built)) ∧
      inner = { frame with parts := others }.push
        ((Setup.plain stream).finish { pos := after } built) := by
  generalize found : some (after, inner) = result at reads
  cases reads with
  | wrapFails => cases found
  | wrap filled reads =>
      obtain ⟨⟨stop, built⟩, rfl, same⟩ := Option.map_eq_some_iff.mp found.symm
      cases same
      exact ⟨_, _, built, filled, reads, rfl⟩

theorem of_call {rule : Rule} (reads : Reads stream (.call rule) pos frame (some (after, inner))) :
    ∃ parts, RuleReads stream rule pos (some parts) after ∧ inner = frame.pushAll parts := by
  generalize found : some (after, inner) = result at reads
  cases reads with
  | call reads =>
      obtain ⟨⟨stop, built⟩, rfl, same⟩ := Option.map_eq_some_iff.mp found.symm
      cases same
      exact ⟨built.parts, ⟨built, rfl, reads⟩, rfl⟩

theorem of_token {kind : Token.Kind}
    (reads : Reads stream (.token kind) pos frame (some (after, inner))) :
    stream.kind pos = kind ∧ after = stream.succ pos ∧ inner = frame := by
  generalize found : some (after, inner) = result at reads
  cases reads with
  | token =>
      split at found
      · rename_i there
        cases found
        exact ⟨there, rfl, rfl⟩
      · cases found

theorem of_rejected (reads : Reads stream (.branch look yes no) pos frame result)
    (rejected : (Setup.plain stream).holds { pos } frame look = false) :
    Reads stream no pos frame result := by
  cases reads with
  | branch reads =>
      rw [rejected] at reads
      exact reads

theorem rejected (rejected : (Setup.plain stream).holds { pos } frame look = false)
    (reads : Reads stream no pos frame result) :
    Reads stream (.branch look yes no) pos frame result := by
  refine .branch ?_
  rw [rejected]
  exact reads

theorem accepted (accepted : (Setup.plain stream).holds { pos } frame look = true)
    (reads : Reads stream yes pos frame result) :
    Reads stream (.branch look yes no) pos frame result := by
  refine .branch ?_
  rw [accepted]
  exact reads

theorem token_of {kind : Token.Kind} (there : stream.kind pos = kind) :
    Reads stream (.token kind) pos frame (some (stream.succ pos, frame)) := by
  have reads := @Reads.token stream kind pos frame
  rwa [if_pos there] at reads

theorem leaf_of {kind : Token.Kind} {part : Node.Kind} (there : stream.kind pos = kind) :
    Reads stream (.leaf part kind) pos frame
      (some (stream.succ pos, frame.push (.leaf part (stream.get pos)))) := by
  have reads := @Reads.leaf stream part kind pos frame
  rwa [if_pos there] at reads

theorem pick_of {accept : Token.Kind → Bool} {part : Node.Kind}
    (accepted : accept (stream.kind pos) = true) :
    Reads stream (.pick part accept) pos frame
      (some (stream.succ pos, frame.push (.leaf part (stream.get pos)))) := by
  have reads := @Reads.pick stream part accept pos frame
  rwa [if_pos accepted] at reads

/-- A node that is read is of the kind that it was opened with, or of one that
the phrase gives to it. -/
theorem kind_mem {phrase : Phrase} (reads : Reads stream phrase pos frame (some (after, inner))) :
    inner.kind ∈ frame.kind :: phrase.rekinds := by
  generalize found : some (after, inner) = result at reads
  induction reads generalizing after inner with
  | done | operator | loopEnds =>
      cases found
      exact List.mem_cons_self
  | stop | expected | salvage | seqFails | wrapFails | reopenFails => cases found
  | seq _ _ firstIh secondIh =>
      have first := firstIh rfl
      rcases List.mem_cons.mp (secondIh found) with same | given
      · rw [same]
        exact List.cons_subset_cons _ (List.subset_append_left _ _) first
      · exact List.mem_cons_of_mem _ (List.mem_append_right _ given)
  | token | leaf | pick | mark =>
      split at found
      · cases found
        exact List.mem_cons_self
      · cases found
  | node | wrap | reopen | cover | call =>
      obtain ⟨built, -, same⟩ := Option.map_eq_some_iff.mp found.symm
      cases same
      exact List.mem_cons_self
  | rekind =>
      cases found
      exact List.mem_cons_of_mem _ List.mem_cons_self
  | branch _ ih | trial _ _ _ ih =>
      refine List.cons_subset_cons _ ?_ (ih found)
      split
      · exact List.subset_append_left _ _
      · exact List.subset_append_right _ _
  | recover _ ih | closing _ ih => exact ih found
  | orElse _ ih => exact List.cons_subset_cons _ (List.subset_append_left _ _) (ih found)
  | loop _ _ ih => simpa [Phrase.rekinds] using ih found
  | documented _ ih =>
      obtain ⟨⟨stop, built⟩, rfl, same⟩ := Option.map_eq_some_iff.mp found.symm
      cases same
      have sameKind : ∀ doc, (built.document doc).kind = built.kind := by
        intro doc
        simp only [Frame.document]
        split <;> rfl
      rw [sameKind]
      exact ih rfl

theorem kind_eq {phrase : Phrase} (reads : Reads stream phrase pos frame (some (after, inner)))
    (keeps : phrase.rekinds = []) : inner.kind = frame.kind := by
  have kept := reads.kind_mem
  rw [keeps] at kept
  exact List.mem_singleton.mp kept

end Reads

/-! ## Trials that give up -/

section Trials

variable (algebraic : stream.Algebraic)
include algebraic

/-- In a formula a type is no primitive one and has no dimensions. -/
theorem kind_of_type {parts : List Node} {stop : Nat}
    (reads : RuleReads stream .type pos (some parts) stop) :
    ∃ node, parts = [node] ∧ node.kind = .type := by
  obtain ⟨inner, rfl, reads⟩ := reads
  obtain ⟨_, _, element, behind⟩ := reads.of_seq
  obtain ⟨built, filled, rfl⟩ := element.of_node
  obtain ⟨_, _, annotated, named⟩ := filled.of_seq
  have isType : built.kind = .type := by
    have notPrimitive := named.of_rejected (algebraic.rejects _ (by decide))
    rw [notPrimitive.kind_eq rfl, annotated.kind_eq rfl]
    rfl
  cases behind with
  | loopEnds => exact ⟨_, rfl, isType⟩
  | loop bracket =>
      have here := (Bool.and_eq_true_iff.mp bracket).1
      exact absurd (of_decide_eq_true here) (algebraic.kind_ne _ rfl)

/-- In a formula nothing that looks like the type of a cast has an operand
behind it. -/
theorem not_castHead {parts : List Node} {stop : Nat} :
    ¬ RuleReads stream .castHead pos (some parts) stop := by
  rintro ⟨inner, -, reads⟩
  obtain ⟨_, _, opened, typed⟩ := reads.of_seq
  obtain ⟨_, _, typed, crossed⟩ := typed.of_seq
  obtain ⟨_, between, crossed, closed⟩ := crossed.of_seq
  obtain ⟨_, _, closed, decided⟩ := closed.of_seq
  obtain ⟨-, rfl, rfl⟩ := opened.of_token
  obtain ⟨parts, typedParts, rfl⟩ := typed.of_call
  obtain ⟨node, rfl, isType⟩ := kind_of_type algebraic typedParts
  have reference : between.parts.head?.any (·.kind = .primitiveType) = false := by
    cases crossed with
    | branch crossed =>
        split at crossed
        · obtain ⟨_, _, built, -, filled, rfl⟩ := crossed.of_wrap
          have kept := filled.kind_eq rfl
          simp [Frame.push, Setup.finish, Frame.toNode, kept]
        · cases crossed
          simp [Frame.pushAll, isType]
  obtain ⟨here, rfl, rfl⟩ := closed.of_token
  have noOperand := algebraic.startsOperand_succ (by rw [here]; rfl)
  cases (decided.of_rejected reference).of_rejected noOperand

/-- There are no arrows in a formula, so no lambda starts. -/
theorem not_lambdaHead {parts : List Node} {stop : Nat} :
    ¬ RuleReads stream .lambdaHead pos (some parts) stop := by
  rintro ⟨inner, -, reads⟩
  obtain ⟨built, filled, -⟩ := reads.of_node
  obtain ⟨_, _, -, decided⟩ := filled.of_seq
  cases decided.of_rejected (decide_eq_false (algebraic.kind_ne _ rfl))

/-- No method is referred to. -/
theorem not_genericRefHead {parts : List Node} {stop : Nat} :
    ¬ RuleReads stream .genericRefHead pos (some parts) stop := by
  rintro ⟨inner, -, reads⟩
  obtain ⟨_, _, -, decided⟩ := reads.of_seq
  cases decided.of_rejected (decide_eq_false (algebraic.kind_ne _ rfl))

/-- A trial of a rule that does not succeed goes on with the other phrase. -/
theorem reads_trial {rule : Rule} (notUnit : rule ≠ .compilationUnit)
    (never : ∀ parts stop, ¬ RuleReads stream rule pos (some parts) stop)
    (inside : pos ≤ stream.last) {yes no : Phrase} {result : Option (Nat × Frame)}
    (reads : Reads stream no pos frame result) :
    Reads stream (.trial rule yes no) pos frame result := by
  have regular : ∀ index, stream.kind index ≠ .error := fun index => algebraic.kind_ne index rfl
  obtain ⟨parts?, stop, tried⟩ := RuleReads.exists algebraic.ordered regular notUnit inside
  cases parts? with
  | some parts => exact absurd tried (never parts stop)
  | none => exact .trial tried reads

theorem reads_ifLambda (inside : pos ≤ stream.last) {yes no : Phrase}
    {result : Option (Nat × Frame)} (reads : Reads stream no pos frame result) :
    Reads stream (ifLambda yes no) pos frame result := by
  refine .branch ?_
  split
  · exact .rejected (decide_eq_false (algebraic.kind_ne _ rfl)) reads
  · refine .branch ?_
    split
    · exact reads_trial algebraic (by decide) (fun _ _ => not_lambdaHead algebraic) inside reads
    · exact reads

end Trials

/-! ## Operands -/

/-- A rule that adds one node to its frame reads that node. -/
theorem RuleReads.of_push {rule : Rule} {node : Node}
    (reads : Reads stream rule.body pos ((Setup.plain stream).frame { pos } .error)
      (some (after, ((Setup.plain stream).frame { pos } .error).push node))) :
    RuleReads stream rule pos (some [node]) after :=
  ⟨_, rfl, reads⟩

/-- The finished node of a frame without places. -/
theorem Setup.finish_bare (setup : Setup) (state : State) (frame : Frame) :
    (setup.finish state frame).bare =
      { kind := frame.kind, span := .empty .origin, children := (frame.parts.map Node.bare).reverse,
        token := frame.token.map Token.bare } := by
  rw [Node.bare_eq]
  simp [finish, Frame.toNode]

section Operands

variable (algebraic : stream.Algebraic)
include algebraic

/-- A primary of a formula has no suffixes. -/
theorem reads_suffixed {node : Node} (reads : RuleReads stream .primary pos (some [node]) after) :
    RuleReads stream .suffixed pos (some [node]) after :=
  .of_push (.seq (reads.call _) (.loopEnds (algebraic.rejects _ (by decide))))

/-- An operand without a sign is no cast. -/
theorem reads_unsigned {node : Node} (unsigned : isSign (stream.kind pos) = false)
    (inside : pos ≤ stream.last) (reads : RuleReads stream .primary pos (some [node]) after) :
    RuleReads stream .unary pos (some [node]) after := by
  have suffixed := (reads_suffixed algebraic reads).call ((Setup.plain stream).frame { pos } .error)
  refine .of_push (.rejected unsigned (.branch ?_))
  split
  · exact reads_trial algebraic (by decide) (fun _ _ => not_castHead algebraic) inside suffixed
  · exact suffixed

/-- A name on its own is no call and no generic type. -/
theorem reads_name (isName : stream.kind pos = .ident) (inside : pos ≤ stream.last) :
    RuleReads stream .primary pos (some [.leaf .identifier (stream.get pos)])
      (stream.succ pos) := by
  let start := (Setup.plain stream).frame { pos } .error
  have reads : Reads stream nameOrCall pos start
      (some (stream.succ pos, start.push (.leaf .identifier (stream.get pos)))) := by
    have noOperand := @Stream.Algebraic.startsOperand_succ _ algebraic pos (by rw [isName]; rfl)
    have noCall : stream.kind (stream.succ pos) ≠ .lparen := by
      intro opens
      rw [opens] at noOperand
      cases noOperand
    exact .seq (.leaf_of isName) (.rejected (decide_eq_false noCall) .done)
  refine .of_push (.rejected (algebraic.rejects _ (by decide))
    (.accepted (decide_eq_true isName) (.branch ?_)))
  split
  · exact reads_trial algebraic (by decide) (fun _ _ => not_genericRefHead algebraic) inside reads
  · exact reads

end Operands

/-! ## Words -/

section Words

variable {kind : Token.Kind}

/-- A word of one token is read as that token. -/
theorem Reads.token_shown (shows : stream.Shows kind.word pos after)
    (single : Stream.isComposed kind = false) (frame : Frame) :
    Reads stream (.token kind) pos frame (some (after, frame)) := by
  obtain ⟨isKind, rfl, -⟩ := shows.single single
  exact .token_of isKind

/-- Any word is read as an operator. -/
theorem Reads.operator_shown (shows : stream.Shows kind.word pos after) (frame : Frame) :
    Reads stream .operator pos frame
      (some (after, frame.push (.leaf .operator (stream.operatorToken pos)))) := by
  rw [← shows.after_eq]
  exact .operator

theorem bare_leafOf {token : Token} (same : token.bare = kind.word.token) :
    (Node.leaf .operator token).bare = Formula.tree.leafOf kind := by
  rw [Node.bare_eq, Node.leaf, Option.map_some, same]
  rfl

/-- What stands in parentheses is an expression. -/
theorem reads_parens {middle back : Nat} {node : Node}
    (opens : stream.Shows Token.Kind.lparen.word pos middle)
    (reads : RuleReads stream .expression middle (some [node]) back)
    (closes : stream.Shows Token.Kind.rparen.word back after) :
    ∃ outer : Node, outer.bare = Formula.tree.branching .parenExpr [node.bare] ∧
      RuleReads stream .primary pos (some [outer]) after := by
  have isOpen := (opens.single rfl).1
  have other : ∀ {accept : Token.Kind → Bool} {frame : Frame}, accept .lparen = false →
      (Setup.plain stream).holds { pos } frame (.here accept) = false := by
    intro accept frame rejects
    exact (congrArg accept isOpen).trans rejects
  let opened := (Setup.plain stream).frame { pos } .parenExpr
  have body : Reads stream (steps [.token .lparen, .call .expression, .token .rparen]) pos opened
      (some (after, opened.push node)) :=
    .seq (.token_shown opens rfl _) (.seq (reads.call _) (.token_shown closes rfl _))
  refine ⟨(Setup.plain stream).finish { pos := after } (opened.push node),
    Setup.finish_bare _ _ _, .of_push ?_⟩
  exact .rejected (other rfl) (.rejected (other rfl) (.rejected (other rfl)
    (.rejected (other rfl) (.accepted (decide_eq_true isOpen) (.node body)))))

end Words

end JavaFront.Parser
