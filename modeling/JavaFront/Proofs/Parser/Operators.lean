import JavaFront.Proofs.Grammar.Operators
import JavaFront.Proofs.Parser.Building
import JavaFront.Proofs.Parser.Limits
import JavaFront.Proofs.Parser.Precedence
import JavaFront.Proofs.Parser.Precondition

/-!
# Operators and their operands

A chain of operators makes one node of what it has read before it looks at the
next operator. Behind the right operand of an operator stands none that binds
more tightly, so the node is tight enough to be the left operand of whatever
comes next. A type test is followed by a type and not by an operand: nothing is
known about the operator behind it, and the test becomes the left operand of
that, however tightly it binds.
-/

namespace JavaFront

namespace Parser

open Grammar
open Node (AllRanked)

variable {stream : Stream} {pos after : Nat} {frame inner : Frame}

/-! ## Operands -/

/-- The frame has no parts, or just one operand. -/
def Frame.HoldsOperand (filled : Bool) (frame : Frame) : Prop :=
  if filled then ∃ node, frame.parts = [node] ∧ node.kind.isOperand = true
  else frame.parts = []

theorem Frame.HoldsOperand.push {part : Node} (empty : frame.HoldsOperand false)
    (isOperand : part.kind.isOperand = true) : (frame.push part).HoldsOperand true :=
  ⟨part, congrArg (part :: ·) empty, isOperand⟩

/-- A phrase leaves as many operands as it is checked to leave. -/
theorem Reads.operands {phrase : Phrase} {result : Option (Nat × Frame)}
    (reads : Reads stream phrase pos frame result) {before behind : Bool}
    (holds : phrase.operands before behind = true) (filled : frame.HoldsOperand before)
    (found : result = some (after, inner)) : inner.HoldsOperand behind := by
  induction reads generalizing before behind after inner with
  | stop | expected | salvage | seqFails | wrapFails | reopenFails => cases found
  | done | loopEnds =>
      cases found
      simp only [Phrase.operands, Bool.and_eq_true, beq_iff_eq] at holds
      first
        | exact holds ▸ filled
        | exact holds.1 ▸ filled
  | seq _ _ firstIh secondIh =>
      rcases Bool.or_eq_true_iff.mp holds with through | through
      all_goals
        obtain ⟨first, second⟩ := Bool.and_eq_true_iff.mp through
        exact secondIh second (firstIh first filled rfl) found
  | token =>
      split at found
      · cases found
        exact beq_iff_eq.mp holds ▸ filled
      · cases found
  | leaf | pick =>
      split at found
      · cases found
        simp only [Phrase.operands, Bool.and_eq_true, Bool.not_eq_true'] at holds
        obtain ⟨⟨rfl, rfl⟩, isOperand⟩ := holds
        exact filled.push isOperand
      · cases found
  | node body _ =>
      obtain ⟨⟨stop, built⟩, rfl, same⟩ := Option.map_eq_some_iff.mp found
      cases same
      simp only [Phrase.operands, Bool.and_eq_true, Bool.not_eq_true', List.all_eq_true] at holds
      obtain ⟨⟨rfl, rfl⟩, isOperand⟩ := holds
      exact filled.push (isOperand _ body.kind_mem)
  | wrap parts body _ =>
      obtain ⟨⟨stop, built⟩, rfl, same⟩ := Option.map_eq_some_iff.mp found
      cases same
      simp only [Phrase.operands, Bool.and_eq_true, List.all_eq_true] at holds
      obtain ⟨⟨rfl, rfl⟩, isOperand⟩ := holds
      obtain ⟨node, single, -⟩ := filled
      obtain ⟨rfl, rfl⟩ := List.cons_eq_cons.mp (parts.symm.trans single)
      exact ⟨_, rfl, isOperand _ body.kind_mem⟩
  | branch _ ih | trial _ _ _ ih =>
      obtain ⟨yes, no⟩ := Bool.and_eq_true_iff.mp holds
      refine ih ?_ filled found
      split <;> assumption
  | @call rule _ frame _ _ ih =>
      obtain ⟨⟨stop, built⟩, rfl, same⟩ := Option.map_eq_some_iff.mp found
      cases same
      simp only [Phrase.operands, Bool.and_eq_true, Bool.not_eq_true'] at holds
      obtain ⟨⟨rfl, rfl⟩, isOperand⟩ := holds
      obtain ⟨node, single, kind⟩ := ih (rule.body_operands isOperand) rfl rfl
      refine ⟨node, ?_, kind⟩
      rw [Frame.pushAll, single, show frame.parts = [] from filled]
      rfl
  | orElse _ ih => exact ih holds filled found
  | loop _ _ ih =>
      obtain ⟨same, body⟩ := Bool.and_eq_true_iff.mp holds
      obtain rfl := beq_iff_eq.mp same
      refine ih ?_ filled found
      cases before <;> simp_all [Phrase.operands]
  | _ => cases holds

/-- A rule for operands reads exactly one. -/
theorem RuleReads.operand {rule : Rule} (isOperand : rule.isOperand = true) {parts : List Node}
    (reads : RuleReads stream rule pos (some parts) after) :
    ∃ node, parts = [node] ∧ node.kind.isOperand = true := by
  obtain ⟨inner, rfl, body⟩ := reads
  exact body.operands (rule.body_operands isOperand) rfl rfl

/-! ## Phrases that build no chains -/

/-- A phrase that builds no chains leaves ranked parts if the rules it calls
do. -/
theorem Ensures.of_unchained {spec : Specification}
    (ranks : ∀ rule pos parts after, spec rule pos parts after → ∀ part ∈ parts, part.AllRanked)
    {phrase : Phrase} (unchained : phrase.unchained = true) (kind : frame.kind.isChain = false)
    (all : frame.All AllRanked) {post : Nat → Frame → Prop}
    (holds : ∀ after inner, inner.kind.isChain = false → inner.All AllRanked → post after inner) :
    Ensures stream spec phrase post pos frame := by
  -- a node is finished with the kind that its frame has by then
  have finish : ∀ {inner : Frame}, inner.kind.isChain = false → inner.All AllRanked →
      ∀ stop, (inner.toNode stop).AllRanked := fun plain all stop =>
    .of_children (Node.ranked_of_unchained plain) fun child member =>
      all child (List.mem_reverse.mp member)
  have leaf : ∀ {kind : Node.Kind} {token : Token}, kind.isChain = false →
      (Node.leaf kind token).AllRanked := fun plain =>
    .of_children (Node.ranked_of_unchained plain) fun child member =>
      absurd member List.not_mem_nil
  induction phrase generalizing pos frame post with
  | done => exact holds _ _ kind all
  | stop | expected | salvage => trivial
  | seq first second firstIh secondIh =>
      obtain ⟨firstPlain, secondPlain⟩ := Bool.and_eq_true_iff.mp unchained
      exact firstIh firstPlain kind all fun after inner innerKind innerAll =>
        secondIh secondPlain innerKind innerAll holds
  | token | closing => exact fun _ => holds _ _ kind all
  | leaf | pick =>
      exact fun _ => holds _ _ kind (all.push (leaf (Bool.not_eq_true' _ ▸ unchained)))
  | mark => exact fun _ => holds _ _ kind all
  | operator => exact holds _ _ kind (all.push (leaf rfl))
  | node part body ih | cover part body ih =>
      obtain ⟨partPlain, bodyPlain⟩ := Bool.and_eq_true_iff.mp unchained
      exact ih bodyPlain (Bool.not_eq_true' _ ▸ partPlain) .nil fun after inner plain innerAll =>
        holds _ _ kind (all.push (finish plain innerAll _))
  | wrap part body ih =>
      obtain ⟨partPlain, bodyPlain⟩ := Bool.and_eq_true_iff.mp unchained
      intro first others parts
      obtain ⟨firstAll, kept⟩ := all.take parts
      refine ih bodyPlain (Bool.not_eq_true' _ ▸ partPlain) ?_ fun after inner plain innerAll =>
        holds _ _ kind (kept.push (finish plain innerAll _))
      exact List.forall_mem_singleton.mpr firstAll
  | reopen part body ih =>
      obtain ⟨partPlain, bodyPlain⟩ := Bool.and_eq_true_iff.mp unchained
      intro head others parts
      obtain ⟨headAll, kept⟩ := all.take parts
      exact ih bodyPlain (Bool.not_eq_true' _ ▸ partPlain)
        (fun child member => headAll.child (List.mem_reverse.mp member))
        fun after inner plain innerAll => holds _ _ kind (kept.push (finish plain innerAll _))
  | rekind => exact holds _ _ (Bool.not_eq_true' _ ▸ unchained) all
  | branch look yes no yesIh noIh =>
      obtain ⟨yesPlain, noPlain⟩ := Bool.and_eq_true_iff.mp unchained
      exact ⟨fun _ => yesIh yesPlain kind all holds, fun _ => noIh noPlain kind all holds⟩
  | trial rule yes no yesIh noIh =>
      obtain ⟨yesPlain, noPlain⟩ := Bool.and_eq_true_iff.mp unchained
      exact ⟨yesIh yesPlain kind all holds, noIh noPlain kind all holds⟩
  | call | recover =>
      exact fun parts after _ meets => holds _ _ kind (all.pushAll (ranks _ _ _ _ meets))
  | orElse first second firstIh _ =>
      exact firstIh (Bool.and_eq_true_iff.mp unchained).1 kind all holds
  | loop look body ih =>
      exact ⟨fun _ frame => frame.kind.isChain = false ∧ frame.All AllRanked, ⟨kind, all⟩,
        fun pos frame stands => ⟨fun _ => ih unchained stands.1 stands.2 fun _ _ => And.intro,
          fun _ => holds _ _ stands.1 stands.2⟩⟩
  | documented body ih =>
      refine ih unchained kind all fun after inner plain innerAll => holds _ _ ?_
        (innerAll.document fun _ doc ranked => ranked.document doc)
      simp only [Frame.document]
      split <;> exact plain

/-! ## Chains -/

/-- The node is tight enough to be the left operand of an operator. -/
structure Node.Leads (node : Node) (kind : Token.Kind) : Prop where
  binary : ∀ level, Precedence.of? kind = some level → node.kind = .instanceofExpr ∨
    (Tightness.binary level).rank ≤ node.tightness.rank
  test : kind = .kwInstanceof → (Tightness.binary .relational).rank ≤ node.tightness.rank

/-- The operator does not bind more tightly than a level. -/
structure Follows (level : Precedence) (kind : Token.Kind) : Prop where
  binary : ∀ other, Precedence.of? kind = some other → other.rank ≤ level.rank
  test : kind = .kwInstanceof → Precedence.relational.rank ≤ level.rank

/-- An operator with which a chain of the next level does not go on. -/
theorem Follows.of_tighter {level tighter : Precedence} {kind : Token.Kind}
    (next : level.tighter? = some tighter) (ends : bindsFrom tighter kind = false) :
    Follows level kind where
  binary other binds := by
    have rank := Precedence.tighter?_rank next
    by_contra tight
    rw [bindsFrom_of_binds binds (by omega)] at ends
    cases ends
  test isTest := by
    have rank := Precedence.tighter?_rank next
    subst isTest
    by_contra tight
    have binds : bindsFrom tighter .kwInstanceof = true := by
      simp only [bindsFrom, decide_true, Bool.true_and, Bool.or_eq_true, decide_eq_true_eq]
      omega
    rw [binds] at ends
    cases ends

/-- Nothing binds more tightly than the tightest level. -/
theorem Follows.of_tightest {level : Precedence} (tightest : level.tighter? = none)
    (kind : Token.Kind) : Follows level kind := by
  obtain rfl := Precedence.eq_multiplicative_of_tighter? tightest
  exact ⟨fun other _ => by cases other <;> decide, fun _ => by decide⟩

/-- What the rules read is ranked, and the operator behind a chain is looser than
the chain. -/
def rankedParts (stream : Stream) : Specification := fun rule _ parts after =>
  (∀ part ∈ parts, part.AllRanked) ∧ ∀ level, rule = .binary level →
    bindsFrom level (stream.operator after).1 = false ∧
      ∃ node, parts = [node] ∧ (Tightness.binary level).rank ≤ node.tightness.rank

/-- The frame of a chain between two operators: it holds one node for all that
was read. -/
def Stands (stream : Stream) (level : Precedence) (pos : Nat) (frame : Frame) : Prop :=
  ∃ node, frame.parts = [node] ∧ node.AllRanked ∧
    (Tightness.binary level).rank ≤ node.tightness.rank ∧
    Node.Leads node (stream.operator pos).1

namespace Ensures

variable {post : Nat → Frame → Prop} {level : Precedence}

/-- The right operand binds more tightly than its operator, and the operator
behind it does not. -/
theorem rightOperand
    (holds : ∀ after right, right.AllRanked →
      (Tightness.binary level).rank < right.tightness.rank →
      Follows level (stream.operator after).1 → post after (frame.push right)) :
    Ensures stream (rankedParts stream) (rightOperand level) post pos frame := by
  rw [Grammar.rightOperand]
  split
  · rename_i tighter next
    intro parts after reads meets
    obtain ⟨ends, right, rfl, tight⟩ := meets.2 tighter rfl
    have rank := Precedence.tighter?_rank next
    refine holds after right (meets.1 right List.mem_cons_self) ?_ (.of_tighter next ends)
    simp only [Tightness.rank] at tight ⊢
    omega
  · rename_i tightest
    intro parts after reads meets
    obtain ⟨right, rfl, isOperand⟩ := reads.operand rfl
    exact holds after right (meets.1 right List.mem_cons_self)
      (Nat.lt_of_lt_of_le level.rank_lt_unary (Node.unary_le_of_operand isOperand))
      (.of_tightest tightest _)

/-- A binary operator and its right operand make one node with what stands in
front of them. -/
theorem binaryStep {outer : Precedence} (stands : Stands stream outer pos frame)
    (binds : Precedence.of? (stream.operator pos).1 = some level)
    (loose : outer.rank ≤ level.rank) :
    Ensures stream (rankedParts stream)
      (.wrap .binaryExpr (Phrase.steps [.operator, Grammar.rightOperand level]))
      (Stands stream outer) pos frame := by
  obtain ⟨left, single, leftRanked, -, leads⟩ := stands
  intro first others parts
  obtain ⟨rfl, rfl⟩ := List.cons_eq_cons.mp (single.symm.trans parts)
  refine rightOperand fun after right rightRanked tight follows => ?_
  let leaf : Node := .leaf .operator (stream.operatorToken pos)
  let built : Node := (Setup.plain stream).finish { pos := after }
    { kind := .binaryExpr, start := left.span.start, parts := [right, leaf, left] }
  have isLevel : built.level? = some level := binds
  have tightness : built.tightness = .binary level := by
    rw [Node.tightness, show built.kind = .binaryExpr from rfl, isLevel]
    rfl
  refine ⟨built, rfl, ?_, ?_, ?_⟩
  · have notTest : built.kind ≠ .instanceofExpr := nofun
    refine .of_children ⟨fun _ => ⟨left, leaf, right, level, rfl, isLevel, leads.binary level binds,
      tight⟩, fun isTest => absurd isTest notTest⟩ fun child member => ?_
    have member : child ∈ [left, leaf, right] := member
    rcases List.mem_cons.mp member with rfl | others
    · exact leftRanked
    · rcases List.mem_cons.mp others with rfl | last
      · exact .of_children (Node.ranked_of_unchained rfl) fun _ absent =>
          absurd absent List.not_mem_nil
      · rw [List.mem_singleton.mp last]
        exact rightRanked
  · rw [tightness]
    exact Nat.succ_le_succ loose
  · refine ⟨fun other next => .inr ?_, fun isTest => ?_⟩
    · rw [tightness]
      exact Nat.succ_le_succ (follows.binary other next)
    · rw [tightness]
      exact Nat.succ_le_succ (follows.test isTest)

/-- A type test makes one node with its operand and its type, and leads any
operator. -/
theorem typeTest (stands : Stands stream level pos frame)
    (isTest : (stream.operator pos).1 = .kwInstanceof)
    (loose : level.rank ≤ Precedence.relational.rank) :
    Ensures stream (rankedParts stream) typeTest (Stands stream level) pos frame := by
  obtain ⟨operand, single, operandRanked, -, leads⟩ := stands
  intro first others parts
  obtain ⟨rfl, rfl⟩ := List.cons_eq_cons.mp (single.symm.trans parts)
  intro _ types after reads meets
  obtain ⟨type, rfl, -⟩ := reads.operand rfl
  let built : Node := (Setup.plain stream).finish { pos := after }
    { kind := .instanceofExpr, start := operand.span.start, parts := [type, operand] }
  have notBinary : built.kind ≠ .binaryExpr := nofun
  refine ⟨built, rfl, ?_, Nat.succ_le_succ loose, fun _ _ => .inl rfl, fun _ => Nat.le_refl _⟩
  refine .of_children ⟨fun isBinary => absurd isBinary notBinary,
    fun _ => ⟨operand, type, rfl, leads.test isTest⟩⟩ fun child member => ?_
  have member : child ∈ [operand, type] := member
  rcases List.mem_cons.mp member with rfl | last
  · exact operandRanked
  · rw [List.mem_singleton.mp last]
    exact meets.1 type List.mem_cons_self

/-- Of the levels the one of the operator is chosen, if there is one. -/
theorem select_levels {spec : Specification} {levels : List Precedence}
    {phrase : Precedence → Phrase}
    (each : ∀ level ∈ levels, Precedence.of? (stream.operator pos).1 = some level →
      Ensures stream spec (phrase level) post pos frame) :
    Ensures stream spec (Phrase.select
      (levels.map fun level => (.operator (isOperatorOf level), phrase level)) .stop)
      post pos frame := by
  induction levels with
  | nil => trivial
  | cons first others ih =>
      obtain ⟨here, later⟩ := List.forall_mem_cons.mp each
      exact ⟨fun found => here (of_decide_eq_true found), fun _ => ih later⟩

/-- A chain reads its first operand and goes on as long as an operator binds. -/
theorem chain (level : Precedence) :
    Ensures stream (rankedParts stream) (Grammar.binary level)
      (fun after inner => rankedParts stream (.binary level) pos inner.parts after) pos
      ((Setup.plain stream).frame { pos } .error) := by
  intro parts start reads meets
  obtain ⟨operand, rfl, isOperand⟩ := reads.operand rfl
  have tight := Node.unary_le_of_operand isOperand
  have lt (level : Precedence) := Nat.lt_of_lt_of_le level.rank_lt_unary tight
  refine ⟨Stands stream level, ⟨operand, rfl, meets.1 operand List.mem_cons_self,
    Nat.le_of_lt (lt level), fun other _ => .inr (Nat.le_of_lt (lt other)),
    fun _ => Nat.le_of_lt (lt .relational)⟩, fun pos frame stands => ⟨fun binds => ⟨fun isTest => ?_,
    fun _ => select_levels fun other member next => binaryStep stands next ?_⟩, fun ends => ?_⟩⟩
  · have isTest : stream.kind pos = .kwInstanceof := of_decide_eq_true isTest
    have operator := Stream.operator_of_kind isTest (by decide) (by decide)
    refine typeTest stands (by rw [operator]) ?_
    have binds : bindsFrom level (stream.operator pos).1 = true := binds
    rw [operator] at binds
    revert binds
    cases level <;> decide
  · exact of_decide_eq_true (List.mem_filter.mp member).2
  · obtain ⟨node, single, ranked, tight, -⟩ := stands
    refine ⟨fun part member => ?_, fun other same => ?_⟩
    · rw [single, List.mem_singleton] at member
      exact member ▸ ranked
    · cases same
      exact ⟨ends, node, single, tight⟩

end Ensures

theorem rankedParts_sound (stream : Stream) : (rankedParts stream).Sound stream := by
  intro rule pos
  by_cases isChain : ∃ level, rule = .binary level
  · obtain ⟨level, rfl⟩ := isChain
    exact .chain level
  · have noChain : ∀ level, rule ≠ .binary level := fun level same => isChain ⟨level, same⟩
    refine .of_unchained (fun _ _ _ _ meets => meets.1) (rule.body_unchained noChain) rfl .nil
      fun after inner _ all => ⟨all, fun level same => absurd same (noChain level)⟩

end Parser

namespace Source

open JavaFront.Parser

/-- In the tree of a parse without diagnostics, the right operand of a binary
operator binds more tightly than the operator, and so no type test is the right
operand of an operator that binds as tightly as the relational ones or more. The
left operand binds as tightly, or is a type test. -/
theorem parse_allRanked (source : Source) (entry : Entry) (options : Options) {tree : Node}
    (silent : (source.parse entry options).diagnostics = [])
    (built : (source.parse entry options).tree = some tree) :
    ∀ node ∈ tree.nodes, node.Ranked := by
  obtain ⟨-, calm, -, sameTree⟩ := parse_of_clean (clean_of_silent silent)
  have ordered : (Setup.ofSource source options).stream.Ordered := Stream.ofSource_ordered source
  have reads := ((Setup.ofSource source options).reply_faithful ordered calm).reads
  rw [sameTree, Setup.node?] at built
  obtain ⟨parts, found, latest⟩ := Option.bind_eq_some_iff.mp built
  rw [found] at reads
  exact (reads.meets (rankedParts_sound _)).1 tree (List.mem_of_head? latest)

/-- The type test is the left operand of the product, and the sum in front of it
the operand of the test. -/
theorem parse_allRanked_test :
    ((of [] "a + b instanceof C * d").parse .expression).diagnostics = [] ∧
      ∃ tree, ((of [] "a + b instanceof C * d").parse .expression).tree = some tree ∧
        tree.level? = some .multiplicative ∧
        tree.children.map (·.kind) = [.instanceofExpr, .operator, .identifier] ∧
        ∀ node ∈ tree.nodes, node.Ranked := by
  have silent : ((of [] "a + b instanceof C * d").parse .expression).diagnostics = [] := by
    decide +kernel
  have shape : ((of [] "a + b instanceof C * d").parse .expression).tree.map
      (fun tree => (tree.level?, tree.children.map (·.kind))) =
        some (some .multiplicative, [.instanceofExpr, .operator, .identifier]) := by
    decide +kernel
  obtain ⟨tree, built, same⟩ := Option.map_eq_some_iff.mp shape
  obtain ⟨level, kinds⟩ := Prod.mk.inj same
  exact ⟨silent, tree, built, level, kinds, parse_allRanked _ .expression {} silent built⟩

/-- A type test does not keep the place of a relational operator: it becomes the
left operand of the sum behind it, and nothing is reported. -/
theorem not_parse_tests_loose :
    ¬ ∀ (source : Source) (entry : Entry) (options : Options) (tree : Node),
      (source.parse entry options).diagnostics = [] →
      (source.parse entry options).tree = some tree →
      ∀ node ∈ tree.nodes, node.kind = .binaryExpr → ∀ level, node.level? = some level →
        Precedence.relational.rank < level.rank →
        ∀ operand ∈ node.children, operand.kind ≠ .instanceofExpr := by
  intro loose
  have silent : ((of [] "a instanceof B + c").parse .expression).diagnostics = [] := by
    decide +kernel
  have shape : ((of [] "a instanceof B + c").parse .expression).tree.map
      (fun tree => (tree.kind, tree.level?, tree.children.any (·.kind = .instanceofExpr))) =
        some (.binaryExpr, some .additive, true) := by
    decide +kernel
  obtain ⟨tree, built, same⟩ := Option.map_eq_some_iff.mp shape
  obtain ⟨kind, same⟩ := Prod.mk.inj same
  obtain ⟨level, tests⟩ := Prod.mk.inj same
  obtain ⟨operand, member, isTest⟩ := List.any_eq_true.mp tests
  exact loose _ _ _ tree silent built tree tree.self_mem_nodes kind .additive level (by decide)
    operand member (of_decide_eq_true isTest)

end Source

end JavaFront
