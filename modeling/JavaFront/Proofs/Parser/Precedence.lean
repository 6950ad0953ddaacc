import JavaFront.Proofs.Parser.Operands

/-!
# Precedence

A formula is read back as the tree that it was written from. The operator
behind a formula decides where its reading ends: what pulls less than the
formula holds together comes too late for any loop inside of it. So the proof
goes by induction on the formula, and a chain of binary operators is read as a
loop that goes on from the node of its left operand.
-/

namespace JavaFront

open Grammar

/-! ## Levels -/

namespace Precedence

theorem mem_all (level : Precedence) : level ∈ all := by
  cases level <;> decide

/-- All levels are looser than the operators in front of operands. -/
theorem rank_lt_unary (level : Precedence) :
    (Tightness.binary level).rank < Tightness.unary.rank := by
  cases level <;> decide

theorem rank_logicalOr_le (level : Precedence) :
    (Tightness.binary .logicalOr).rank ≤ (Tightness.binary level).rank := by
  cases level <;> decide

theorem tighter?_rank {level tighter : Precedence} (found : level.tighter? = some tighter) :
    tighter.rank = level.rank + 1 := by
  cases level <;> cases found <;> rfl

theorem eq_multiplicative_of_tighter? {level : Precedence} (tightest : level.tighter? = none) :
    level = .multiplicative := by
  cases level <;> first | rfl | cases tightest

end Precedence

/-- How tightly an expression has to hold together in front of a token, lest the
token takes its last part for its own first operand. -/
def Token.Kind.pull (kind : Token.Kind) : Nat :=
  match Precedence.of? kind with
  | some level => (Tightness.binary level).rank
  | none =>
    if kind = .question then (Tightness.binary .logicalOr).rank
    else if isAssignment kind then Tightness.conditional.rank
    else Tightness.assignment.rank

namespace Token.Kind

variable {kind : Token.Kind} {level : Precedence}

theorem pull_of_binds (binds : Precedence.of? kind = some level) : kind.pull = level.rank + 1 := by
  rw [pull, binds]
  rfl

theorem pull_of_assigns (assigns : isAssignment kind = true) :
    kind.pull = Tightness.conditional.rank := by
  revert assigns
  cases kind <;> decide

theorem ne_question_of_pull (weak : kind.pull ≤ Tightness.conditional.rank) :
    kind ≠ .question := by
  rintro rfl
  revert weak
  decide

theorem not_assigns_of_pull (weak : kind.pull ≤ Tightness.assignment.rank) :
    isAssignment kind = false := by
  by_contra assigns
  rw [pull_of_assigns (Bool.not_eq_false _ ▸ assigns)] at weak
  exact absurd weak (by decide)

end Token.Kind

/-- A token that pulls less than a level does not go on with a chain of it. -/
theorem Grammar.bindsFrom_eq_false {level : Precedence} {kind : Token.Kind}
    (noTest : kind ≠ .kwInstanceof)
    (weak : ∀ other, Precedence.of? kind = some other → other.rank < level.rank) :
    bindsFrom level kind = false := by
  have noOperator : ((levelsFrom level).any (isOperatorOf · kind)) = false := by
    rw [List.any_eq_false]
    intro other member binds
    have tight := of_decide_eq_true (List.mem_filter.mp member).2
    have loose := weak other (of_decide_eq_true binds)
    omega
  simp [bindsFrom, noOperator, noTest]

theorem Grammar.mem_levelsFrom {level other : Precedence} (tight : level.rank ≤ other.rank) :
    other ∈ levelsFrom level :=
  List.mem_filter.mpr ⟨other.mem_all, decide_eq_true tight⟩

theorem Grammar.bindsFrom_of_binds {level other : Precedence} {kind : Token.Kind}
    (binds : Precedence.of? kind = some other) (tight : level.rank ≤ other.rank) :
    bindsFrom level kind = true := by
  have isOperator : ((levelsFrom level).any (isOperatorOf · kind)) = true :=
    List.any_eq_true.mpr ⟨other, mem_levelsFrom tight, decide_eq_true binds⟩
  simp [bindsFrom, isOperator]

namespace Stream

variable {stream : Stream} {index : Nat}

theorem operator_of_kind {kind : Token.Kind} (found : stream.kind index = kind)
    (notLess : kind ≠ .less) (notGreater : kind ≠ .greater) :
    stream.operator index = (kind, 1) := by
  rcases stream.operator_cases index with single | ⟨composed, -⟩
  · rw [single, found]
  · unfold operator at composed ⊢
    dsimp only at composed ⊢
    split
    · rename_i less
      exact absurd (found.symm.trans less) notLess
    · rename_i greater
      exact absurd (found.symm.trans greater) notGreater
    · rw [found]

theorem Algebraic.operator_isAlgebraic (algebraic : stream.Algebraic) (index : Nat) :
    (stream.operator index).1.isAlgebraic = true := by
  rcases stream.operator_cases index with single | ⟨composed, -⟩
  · rw [single]
    exact algebraic.isAlgebraic index
  · revert composed
    generalize (stream.operator index).1 = kind
    cases kind <;> decide

end Stream

namespace Parser

open Phrase

variable {stream : Stream} {pos middle after : Nat} {frame : Frame} {node : Node}

/-- The operators of a chain with their right operands. -/
def chainLoop (level : Precedence) : Phrase :=
  .loop (.operator (bindsFrom level))
    (.branch (.is .kwInstanceof) typeTest
      (select
        ((levelsFrom level).map fun level =>
          (.operator (isOperatorOf level),
            .wrap .binaryExpr (steps [.operator, rightOperand level])))
        .stop))

/-- Of the levels the one of the operator is chosen. -/
theorem reads_select_level {levels : List Precedence} {level : Precedence}
    (binds : Precedence.of? (stream.operator pos).1 = some level) (member : level ∈ levels)
    {phrase : Precedence → Phrase} {otherwise : Phrase} {result : Option (Nat × Frame)}
    (reads : Reads stream (phrase level) pos frame result) :
    Reads stream (select (levels.map fun level => (.operator (isOperatorOf level), phrase level))
      otherwise) pos frame result := by
  induction levels with
  | nil => cases member
  | cons first others ih =>
      by_cases same : first = level
      · subst same
        exact .accepted (decide_eq_true binds) reads
      · have notFirst : Precedence.of? (stream.operator pos).1 ≠ some first := by
          rw [binds]
          exact fun isFirst => same (Option.some.inj isFirst).symm
        refine .rejected (decide_eq_false notFirst) (ih ?_)
        exact (List.mem_cons.mp member).resolve_left fun isFirst => same isFirst.symm

/-- A chain of the level has got to an index and made one node of what is before
it: whatever its loop reads from there on, the chain reads. -/
def ChainGetsTo (stream : Stream) (level : Precedence) (pos after : Nat) (node : Node) : Prop :=
  ∀ frame result, Reads stream (chainLoop level) after (frame.push node) result →
    Reads stream (binary level) pos frame result

/-- What the rules of all levels make of an expression that holds together so
tightly: one node, up to the operator that it leaves. -/
structure Reading (stream : Stream) (rank pos after : Nat) (node : Node) : Prop where
  unary : Tightness.unary.rank ≤ rank → RuleReads stream .unary pos (some [node]) after
  chain : ∀ level, (Tightness.binary level).rank ≤ rank → ChainGetsTo stream level pos after node
  conditional : Tightness.conditional.rank ≤ rank →
    (stream.operator after).1.pull ≤ Tightness.conditional.rank →
      RuleReads stream .conditional pos (some [node]) after
  expression : (stream.operator after).1.pull ≤ Tightness.assignment.rank →
    RuleReads stream .expression pos (some [node]) after

variable (algebraic : stream.Algebraic)
include algebraic

/-- A chain ends in front of an operator that binds more loosely. -/
theorem reads_chain_end {level : Precedence}
    (chain : ChainGetsTo stream level pos after node)
    (weak : ∀ other, Precedence.of? (stream.operator after).1 = some other →
      other.rank < level.rank) :
    RuleReads stream (.binary level) pos (some [node]) after := by
  have noTest : (stream.operator after).1 ≠ .kwInstanceof := by
    intro isTest
    have isAlgebraic := algebraic.operator_isAlgebraic after
    rw [isTest] at isAlgebraic
    cases isAlgebraic
  exact .of_push (chain _ _ (.loopEnds (bindsFrom_eq_false noTest weak)))

omit algebraic in
theorem Reading.of_expression (reads : RuleReads stream .expression pos (some [node]) after) :
    Reading stream Tightness.assignment.rank pos after node where
  unary tight := absurd tight (by decide)
  chain level tight := absurd tight (by cases level <;> decide)
  conditional tight := absurd tight (by decide)
  expression _ := reads

/-- A conditional expression that is not assigned to. -/
theorem reads_expression (inside : pos ≤ stream.last)
    (reads : RuleReads stream .conditional pos (some [node]) after)
    (weak : (stream.operator after).1.pull ≤ Tightness.assignment.rank) :
    RuleReads stream .expression pos (some [node]) after :=
  .of_push (reads_ifLambda algebraic inside
    (.seq (reads.call _) (.rejected (Token.Kind.not_assigns_of_pull weak) .done)))

theorem Reading.of_conditional (inside : pos ≤ stream.last)
    (reads : RuleReads stream .conditional pos (some [node]) after) :
    Reading stream Tightness.conditional.rank pos after node where
  unary tight := absurd tight (by decide)
  chain level tight := absurd tight (by cases level <;> decide)
  conditional _ _ := reads
  expression := reads_expression algebraic inside reads

/-- A chain without a question mark behind it. -/
theorem reads_conditional
    (chain : ChainGetsTo stream .logicalOr pos after node)
    (weak : (stream.operator after).1.pull ≤ Tightness.conditional.rank) :
    RuleReads stream .conditional pos (some [node]) after := by
  have noOperator : ∀ other, Precedence.of? (stream.operator after).1 = some other →
      other.rank < Precedence.logicalOr.rank := by
    intro other binds
    rw [Token.Kind.pull_of_binds binds] at weak
    exact weak
  have noQuestion : stream.kind after ≠ .question := by
    intro found
    have isQuestion := Stream.operator_of_kind found (by decide) (by decide)
    exact Token.Kind.ne_question_of_pull weak (by rw [isQuestion])
  have reads := reads_chain_end algebraic chain noOperator
  exact .of_push (.seq (reads.call _) (.rejected (decide_eq_false noQuestion) .done))

theorem Reading.of_chain {rank : Nat} (inside : pos ≤ stream.last)
    (tight : (Tightness.binary .logicalOr).rank ≤ rank)
    (unary : Tightness.unary.rank ≤ rank → RuleReads stream .unary pos (some [node]) after)
    (chain : ∀ level, (Tightness.binary level).rank ≤ rank →
      ChainGetsTo stream level pos after node) :
    Reading stream rank pos after node where
  unary := unary
  chain := chain
  conditional _ := reads_conditional algebraic (chain .logicalOr tight)
  expression weak := reads_expression algebraic inside
    (reads_conditional algebraic (chain .logicalOr tight) (Nat.le_trans weak (by decide))) weak

theorem Reading.of_unary {rank : Nat} (tight : Tightness.unary.rank ≤ rank)
    (inside : pos ≤ stream.last) (reads : RuleReads stream .unary pos (some [node]) after) :
    Reading stream rank pos after node :=
  .of_chain algebraic inside (Nat.le_trans (by decide) tight) (fun _ => reads)
    fun _ _ frame _ goesOn => .seq (reads.call frame) goesOn

/-! ## Binary operators -/

/-- The right operand of an operator holds together more tightly, and the
operator behind it does not. -/
theorem reads_rightOperand {level : Precedence} {rank : Nat}
    (reading : Reading stream rank pos after node) (tight : (Tightness.binary level).rank < rank)
    (weak : (stream.operator after).1.pull ≤ (Tightness.binary level).rank) (frame : Frame) :
    Reads stream (rightOperand level) pos frame (some (after, frame.push node)) := by
  rw [rightOperand]
  cases tighter : level.tighter? with
  | none =>
      obtain rfl := Precedence.eq_multiplicative_of_tighter? tighter
      exact (reading.unary tight).call frame
  | some next =>
      have rankEq := Precedence.tighter?_rank tighter
      refine (reads_chain_end algebraic (reading.chain next ?_) ?_).call frame
      · simp only [Tightness.rank] at tight ⊢
        omega
      · intro other binds
        rw [Token.Kind.pull_of_binds binds] at weak
        simp only [Tightness.rank] at weak
        omega

/-- Once the loop of a chain has read an operator and its right operand, it goes
on with one node for both operands. -/
theorem reads_chain_step (left : Node) {right : Node} {kind : Token.Kind} {level : Precedence}
    (shows : stream.Shows kind.word pos middle) (binds : Precedence.of? kind = some level)
    (reads : ∀ frame, Reads stream (rightOperand level) middle frame
      (some (after, frame.push right))) :
    ∃ outer : Node, outer.bare = Formula.tree.branching .binaryExpr
        [left.bare, Formula.tree.leafOf kind, right.bare] ∧
      ∀ other : Precedence, other.rank ≤ level.rank → ∀ (frame : Frame) result,
        Reads stream (chainLoop other) after (frame.push outer) result →
          Reads stream (chainLoop other) pos (frame.push left) result := by
  let opened : Frame := { kind := .binaryExpr, start := left.span.start, parts := [left] }
  let leaf : Node := .leaf .operator (stream.operatorToken pos)
  have body : Reads stream (steps [.operator, rightOperand level]) pos opened
      (some (after, (opened.push leaf).push right)) :=
    .seq (.operator_shown shows _) (reads _)
  refine ⟨(Setup.plain stream).finish { pos := after } ((opened.push leaf).push right), ?_, ?_⟩
  · rw [Setup.finish_bare, ← bare_leafOf shows.bare_eq]
    rfl
  · intro other tight frame result goesOn
    have isOperator : Precedence.of? (stream.operator pos).1 = some level := by
      rw [shows.operator_fst]
      exact binds
    have wrapped :=
      @Reads.wrap stream .binaryExpr _ pos (frame.push left) left frame.parts _ rfl body
    refine .loop (bindsFrom_of_binds isOperator tight) (.seq (.rejected ?_
      (reads_select_level isOperator (mem_levelsFrom tight) wrapped)) goesOn)
    exact decide_eq_false (algebraic.kind_ne _ rfl)

/-! ## Signs, conditionals and assignments -/

omit algebraic in
theorem reads_sign {kind : Token.Kind} (isSign : isPlainSign kind = true)
    (shows : stream.Shows kind.word pos middle)
    (reads : RuleReads stream .unary middle (some [node]) after) :
    ∃ outer : Node, outer.bare = Formula.tree.branching .unaryExpr
        [Formula.tree.leafOf kind, node.bare] ∧
      RuleReads stream .unary pos (some [outer]) after := by
  have single : Stream.isComposed kind = false := by
    cases kind <;> first | rfl | cases isSign
  have accepted : Grammar.isSign kind = true := by
    cases kind <;> first | rfl | cases isSign
  obtain ⟨isKind, behind, sameToken⟩ := shows.single single
  have here : Grammar.isSign (stream.kind pos) = true := by rw [isKind]; exact accepted
  let opened := (Setup.plain stream).frame { pos } .unaryExpr
  let leaf : Node := .leaf .operator (stream.get pos)
  have body : Reads stream (steps [.pick .operator Grammar.isSign, .call .unary]) pos opened
      (some (after, (opened.push leaf).push node)) := by
    have signed : Reads stream (.pick .operator Grammar.isSign) pos opened
        (some (middle, opened.push leaf)) := by
      rw [← behind]
      exact .pick_of here
    exact .seq signed (reads.call _)
  refine ⟨(Setup.plain stream).finish { pos := after } ((opened.push leaf).push node), ?_,
    .of_push (.accepted here (.node body))⟩
  rw [Setup.finish_bare, ← bare_leafOf sameToken]
  rfl

theorem reads_ternary {question colon : Nat} {condition yes no : Node}
    (conditionReads : RuleReads stream (.binary .logicalOr) pos (some [condition]) question)
    (asks : stream.Shows Token.Kind.question.word question middle)
    (yesReads : RuleReads stream .expression middle (some [yes]) colon) {back : Nat}
    (parts : stream.Shows Token.Kind.colon.word colon back) (inside : back ≤ stream.last)
    (noReads : RuleReads stream .conditional back (some [no]) after) :
    ∃ outer : Node, outer.bare = Formula.tree.branching .ternaryExpr
        [condition.bare, yes.bare, no.bare] ∧
      RuleReads stream .conditional pos (some [outer]) after := by
  have isQuestion := (asks.single rfl).1
  let opened : Frame :=
    { kind := .ternaryExpr, start := condition.span.start, parts := [condition] }
  have body : Reads stream (steps [.token .question, .call .expression, .token .colon,
      ifLambda lambda (.call .conditional)]) question opened
      (some (after, (opened.push yes).push no)) :=
    .seq (.token_shown asks rfl _) (.seq (yesReads.call _) (.seq (.token_shown parts rfl _)
      (reads_ifLambda algebraic inside (noReads.call _))))
  let start := (Setup.plain stream).frame { pos } .error
  have wrapped := @Reads.wrap stream .ternaryExpr _ question (start.push condition) condition [] _
    rfl body
  refine ⟨(Setup.plain stream).finish { pos := after } ((opened.push yes).push no), ?_,
    .of_push (.seq (conditionReads.call _) (.accepted (decide_eq_true isQuestion) wrapped))⟩
  rw [Setup.finish_bare]
  rfl

theorem reads_assignment {kind : Token.Kind} (assigns : isAssignment kind = true) {back : Nat}
    {target value : Node} (inside : pos ≤ stream.last)
    (targetReads : RuleReads stream .conditional pos (some [target]) middle)
    (shows : stream.Shows kind.word middle back)
    (valueReads : RuleReads stream .expression back (some [value]) after) :
    ∃ outer : Node, outer.bare = Formula.tree.branching .assignExpr
        [target.bare, Formula.tree.leafOf kind, value.bare] ∧
      RuleReads stream .expression pos (some [outer]) after := by
  let opened : Frame := { kind := .assignExpr, start := target.span.start, parts := [target] }
  let leaf : Node := .leaf .operator (stream.operatorToken middle)
  have body : Reads stream (steps [.operator, .call .expression]) middle opened
      (some (after, (opened.push leaf).push value)) :=
    .seq (.operator_shown shows _) (valueReads.call _)
  have isOperator : isAssignment (stream.operator middle).1 = true := by
    rw [shows.operator_fst]
    exact assigns
  let start := (Setup.plain stream).frame { pos } .error
  have wrapped := @Reads.wrap stream .assignExpr _ middle (start.push target) target [] _ rfl body
  refine ⟨(Setup.plain stream).finish { pos := after } ((opened.push leaf).push value), ?_,
    .of_push (reads_ifLambda algebraic inside
      (.seq (targetReads.call _) (.accepted isOperator wrapped)))⟩
  rw [Setup.finish_bare, ← bare_leafOf shows.bare_eq]
  rfl

/-! ## Formulas -/

/-- Wherever a formula stands, all levels that are loose enough read its tree, if
the operator behind it pulls less than the formula holds together. -/
theorem formula_reading (formula : Formula) (fits : formula.Fits)
    (lays : stream.Lays formula.words pos after) (inside : after ≤ stream.last)
    (weak : (stream.operator after).1.pull ≤ formula.tightness.rank) :
    ∃ node : Node, node.bare = formula.tree ∧
      Reading stream formula.tightness.rank pos after node := by
  -- an operand that fits its place holds together against the operator behind it, so each
  -- induction hypothesis applies
  induction formula generalizing pos after with
  | name identifier =>
      have before : pos ≤ stream.last := Nat.le_trans lays.le inside
      obtain ⟨middle, shows, rfl⟩ := lays
      obtain ⟨isName, rfl, sameToken⟩ := shows.single rfl
      refine ⟨.leaf .identifier (stream.get pos), ?_,
        .of_unary algebraic (Nat.le_succ _) before (reads_unsigned algebraic ?_ before
          (reads_name algebraic isName before))⟩
      · rw [Node.bare_eq, Node.leaf, Option.map_some, sameToken]
        rfl
      · rw [isName]
        rfl
  | parens inner ih =>
      have before : pos ≤ stream.last := Nat.le_trans lays.le inside
      obtain ⟨middle, opens, others⟩ := lays
      obtain ⟨back, innerLays, final, closes, rfl⟩ := Stream.lays_append.mp others
      have stops : (stream.operator back).1.pull ≤ Tightness.assignment.rank := by
        rw [closes.operator_fst]
        decide
      obtain ⟨node, sameTree, reading⟩ :=
        ih fits innerLays closes.le_last (Nat.le_trans stops (Nat.zero_le _))
      obtain ⟨outer, outerTree, reads⟩ := reads_parens opens (reading.expression stops) closes
      refine ⟨outer, by rw [outerTree, sameTree]; rfl,
        .of_unary algebraic (Nat.le_succ _) before (reads_unsigned algebraic ?_ before reads)⟩
      rw [(opens.single rfl).1]
      rfl
  | sign operator operand ih =>
      have before : pos ≤ stream.last := Nat.le_trans lays.le inside
      obtain ⟨middle, shows, operandLays⟩ := lays
      obtain ⟨tight, operandFits⟩ := fits
      obtain ⟨node, sameTree, reading⟩ :=
        ih operandFits operandLays inside (Nat.le_trans weak tight)
      obtain ⟨outer, outerTree, reads⟩ := reads_sign operator.isSign shows (reading.unary tight)
      exact ⟨outer, by rw [outerTree, sameTree]; rfl,
        .of_unary algebraic (Nat.le_refl _) before reads⟩
  | binary operator left right leftIh rightIh =>
      have before : pos ≤ stream.last := Nat.le_trans lays.le inside
      obtain ⟨leftTight, rightTight, leftFits, rightFits⟩ := fits
      obtain ⟨middle, leftLays, back, shows, rightLays⟩ := Stream.lays_append.mp lays
      have holds : (stream.operator middle).1.pull ≤ left.tightness.rank := by
        rw [shows.operator_fst]
        exact Nat.le_trans (Nat.le_of_eq (Token.Kind.pull_of_binds operator.binds)) leftTight
      obtain ⟨leftNode, leftTree, leftReading⟩ := leftIh leftFits leftLays
        shows.le_last holds
      obtain ⟨rightNode, rightTree, rightReading⟩ := rightIh rightFits rightLays inside
        (Nat.le_trans weak (Nat.le_of_lt rightTight))
      obtain ⟨outer, outerTree, goesOn⟩ := reads_chain_step algebraic leftNode shows
        operator.binds (reads_rightOperand algebraic rightReading rightTight weak)
      refine ⟨outer, by rw [outerTree, leftTree, rightTree]; rfl,
        .of_chain algebraic before ?_ ?_ fun other tight frame result reads => ?_⟩
      · exact operator.level.rank_logicalOr_le
      · exact fun tight => absurd tight (Nat.not_le.mpr operator.level.rank_lt_unary)
      -- the chain of the left operand has this operator as its next step
      · exact leftReading.chain other (Nat.le_trans tight leftTight) frame result
          (goesOn other (Nat.le_of_succ_le_succ tight) frame result reads)
  | conditional condition yes no conditionIh yesIh noIh =>
      have before : pos ≤ stream.last := Nat.le_trans lays.le inside
      obtain ⟨conditionTight, noTight, conditionFits, yesFits, noFits⟩ := fits
      obtain ⟨question, conditionLays, middle, asks, others⟩ := Stream.lays_append.mp lays
      obtain ⟨colon, yesLays, back, parts, noLays⟩ := Stream.lays_append.mp others
      have questionNext := asks.operator_fst
      have colonNext := parts.operator_fst
      obtain ⟨conditionNode, conditionTree, conditionReading⟩ := conditionIh conditionFits
        conditionLays asks.le_last (by rw [questionNext]; exact conditionTight)
      obtain ⟨yesNode, yesTree, yesReading⟩ := yesIh yesFits yesLays parts.le_last
        (by rw [colonNext]; exact Nat.zero_le _)
      obtain ⟨noNode, noTree, noReading⟩ := noIh noFits noLays inside (Nat.le_trans weak noTight)
      -- a question mark pulls like the loosest operator but is none, so the chain ends there
      have conditionReads := reads_chain_end algebraic
        (conditionReading.chain .logicalOr conditionTight) fun other binds => by
          rw [questionNext] at binds
          cases binds
      obtain ⟨outer, outerTree, reads⟩ := reads_ternary algebraic conditionReads asks
        (yesReading.expression (by rw [colonNext]; decide)) parts parts.inside
        (noReading.conditional noTight weak)
      exact ⟨outer, by rw [outerTree, conditionTree, yesTree, noTree]; rfl,
        .of_conditional algebraic before reads⟩
  | assignment operator target value targetIh valueIh =>
      have before : pos ≤ stream.last := Nat.le_trans lays.le inside
      obtain ⟨targetTight, targetFits, valueFits⟩ := fits
      obtain ⟨middle, targetLays, back, shows, valueLays⟩ := Stream.lays_append.mp lays
      have stops : (stream.operator middle).1.pull = Tightness.conditional.rank := by
        rw [shows.operator_fst]
        exact Token.Kind.pull_of_assigns operator.assigns
      obtain ⟨targetNode, targetTree, targetReading⟩ := targetIh targetFits targetLays
        shows.le_last (by rw [stops]; exact targetTight)
      obtain ⟨valueNode, valueTree, valueReading⟩ := valueIh valueFits valueLays inside
        (Nat.le_trans weak (Nat.zero_le _))
      obtain ⟨outer, outerTree, reads⟩ := reads_assignment algebraic operator.assigns before
        (targetReading.conditional targetTight (Nat.le_of_eq stops)) shows
        (valueReading.expression weak)
      exact ⟨outer, by rw [outerTree, targetTree, valueTree]; rfl, .of_expression reads⟩

end Parser

end JavaFront

namespace JavaFront.Source

open JavaFront.Parser

/-- A formula is parsed as it was written: where each operand binds tightly
enough for its place, the words of a formula with spaces between give its tree
and nothing is reported, unless the parse is abandoned. -/
theorem parse_formula (formula : Formula) (fits : formula.Fits) (file : Bytes)
    (options : Options)
    (running : ((of file formula.text).parse .expression options).abandoned = none) :
    ((of file formula.text).parse .expression options).diagnostics = [] ∧
      ((of file formula.text).parse .expression options).tree.map Node.bare =
        some formula.tree := by
  have ordered := Stream.ofSource_ordered (of file formula.text)
  have lays : (Stream.ofSource (of file formula.text)).Lays formula.words 0
      (Stream.ofSource (of file formula.text)).last :=
    Stream.lays_ofSource formula.words_proper file
  have algebraic := Stream.algebraic_of_lays ordered lays
  have atEnd := Stream.operator_of_kind ordered.kind_last (by decide) (by decide)
  have stops : ((Stream.ofSource (of file formula.text)).operator
      (Stream.ofSource (of file formula.text)).last).1.pull ≤ Tightness.assignment.rank := by
    rw [atEnd]
    decide
  obtain ⟨node, sameTree, reading⟩ := formula_reading algebraic formula fits lays
    (Nat.le_refl _) (Nat.le_trans stops (Nat.zero_le _))
  obtain ⟨silent, parsed⟩ := parse_of_reads .expression (by decide) algebraic.lexicalErrors_eq
    (reading.expression stops) running
  exact ⟨silent, by rw [parsed, Option.map_some, sameTree]⟩

/-- What looks like a cast is a difference here, and three tokens are one
shift. -/
theorem parse_formula_mixed :
    let name (byte : UInt8)
        (alone : (of [] [byte]).tokens.map Token.shape = [(.ident, [byte]), (.eof, [])]) :
        Formula :=
      .name ⟨[byte], alone⟩
    let difference : Formula := .binary ⟨.minus, .additive, rfl⟩
      (.parens (name 0x61 (by decide +kernel))) (name 0x62 (by decide +kernel))
    let comparison : Formula := .binary ⟨.less, .relational, rfl⟩
      (.binary ⟨.unsignedShiftRight, .shift, rfl⟩ difference (name 0x63 (by decide +kernel)))
      (.sign ⟨.bitNot, rfl⟩ (name 0x64 (by decide +kernel)))
    let formula : Formula := .assignment ⟨.shiftLeftAssign, rfl⟩ (name 0x78 (by decide +kernel))
      (.conditional comparison (name 0x65 (by decide +kernel)) (name 0x66 (by decide +kernel)))
    formula.text = "x <<= ( a ) - b >>> c < ~ d ? e : f" ∧ formula.Fits ∧
      ((of [] formula.text).parse .expression {}).abandoned = none ∧
      ((of [] formula.text).parse .expression {}).diagnostics = [] ∧
      ((of [] formula.text).parse .expression {}).tree.map Node.bare = some formula.tree := by
  intro name difference comparison formula
  have fits : formula.Fits := by decide +kernel
  have running : ((of [] formula.text).parse .expression {}).abandoned = none := by
    decide +kernel
  exact ⟨by decide +kernel, fits, running, parse_formula formula fits [] {} running⟩

end JavaFront.Source
