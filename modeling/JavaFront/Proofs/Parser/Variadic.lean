import JavaFront.Proofs.Grammar.Variadic
import JavaFront.Proofs.Parser.Limits
import JavaFront.Proofs.Parser.Naming
import JavaFront.Proofs.Parser.Nesting

/-!
# Variadic parameters come last

As long as a parse is not abandoned, a loop over parameters sees whether the one
that it has read last is variadic, and goes on only if it is not. So no parameter
stands behind a variadic one, unless both belong to a lambda: the loop over those
does not look back.
-/

namespace JavaFront

open Node (AllVariadicLast Kind)

namespace Parser

variable {stream : Stream} {way : Way} {phrase : Phrase} {pos after : Nat} {frame inner : Frame}
  {ended : Bool}

/-! ## Marks -/

theorem Frame.extends_of_unmarked {parts : List Node} {kind : Kind} {start : Pos}
    (unmarked : ∀ part ∈ parts, part.kind.isUnmarked = true) :
    Frame.Extends { kind, start, parts } [] Kind.isUnmarked :=
  ⟨parts.map Node.kind, (List.append_nil _).symm, List.forall_mem_map.mpr unmarked⟩

theorem holds_of_unmarked {parts : List Node}
    (unmarked : ∀ part ∈ parts, part.kind.isUnmarked = true) : Spread.nowhere.Holds parts := by
  rintro part member ⟨isParameter, -⟩
  have proper := unmarked part member
  rw [isParameter] at proper
  cases proper

/-- A node with no marks among its children is not variadic. -/
theorem Frame.not_takesMany (plain : frame.Extends [] Kind.isUnmarked) (stop : Pos) :
    ¬ (frame.toNode stop).TakesMany := by
  rintro ⟨-, many⟩
  obtain ⟨child, isChild, marked⟩ := List.any_eq_true.mp many
  have proper := plain.of_mem (List.mem_reverse.mp isChild)
  simp only [Bool.and_eq_true, decide_eq_true_eq] at marked
  simp [marked.1, Kind.isUnmarked] at proper

/-- The part read last holds neither parameters nor marks. -/
def Frame.HoldsPlain (frame : Frame) : Prop :=
  ∀ latest ∈ frame.parts.head?, ∀ child ∈ latest.children, child.kind.isUnmarked = true

/-- The head of a local variable holds neither. -/
theorem Builds.holdsPlain (builds : Builds stream way phrase pos frame ended after inner)
    (isHead : phrase.isLocalHead = true) : inner.HoldsPlain := by
  cases builds with
  | @call _ rule _ _ _ _ built _ body =>
      obtain rfl := of_decide_eq_true isHead
      obtain ⟨filling, isNode, pushes⟩ := Rule.localVarHead_body
      rw [isNode] at body
      cases body with
      | node filled =>
          intro latest isLatest child isChild
          cases isLatest
          exact (filled.extends pushes (.inr rfl) (.self _)).of_mem (List.mem_reverse.mp isChild)
  | _ => cases isHead

/-! ## Nodes -/

/-- Where variadic parameters stand in a node in which they are as they should
be. -/
theorem Frame.allVariadicLast_toNode {kinds : List Kind} (member : frame.kind ∈ kinds)
    (all : frame.All AllVariadicLast) (holds : (Spread.inside kinds).Holds frame.parts)
    (stop : Pos) : (frame.toNode stop).AllVariadicLast := by
  refine .of_children (fun other => ?_) fun child isChild => all child (List.mem_reverse.mp isChild)
  have isLast : Spread.inside kinds = .last := by
    refine if_neg fun lambdas => other ?_
    exact of_decide_eq_true (List.all_eq_true.mp lambdas frame.kind member)
  rw [isLast] at holds
  intro child isChild
  have kept : child ∈ frame.parts.tail := by
    simpa [Frame.toNode, List.dropLast_reverse] using isChild
  exact holds child kept

/-- A node that is not finished as a parameter is not variadic. -/
theorem Builds.not_takesMany (builds : Builds stream way phrase pos frame ended after inner)
    (other : (frame.kind :: phrase.rekinds).contains .parameter = false) (stop : Pos) :
    ¬ (inner.toNode stop).TakesMany := by
  rintro ⟨isParameter, -⟩
  have member := List.contains_iff_mem.mpr builds.kind_mem
  rw [show inner.kind = .parameter from isParameter, other] at member
  cases member

/-- Whether a node is variadic that starts without marks is told by the phrase
that has filled it. -/
theorem Builds.spread_toNode (builds : Builds stream way phrase pos frame ended after inner)
    (plain : frame.Extends [] Kind.isUnmarked) (stop : Pos) :
    (phrase.spread frame.kind).Holds [inner.toNode stop] := by
  rw [Phrase.spread]
  split
  · exact Spread.holds_last_singleton _
  · rename_i unmarked
    refine Spread.holds_singleton ?_
    rcases Bool.and_eq_false_iff.mp (Bool.not_eq_true _ ▸ unmarked) with other | pushes
    · exact builds.not_takesMany other stop
    · have pushes := (Bool.not_eq_false' _).mp pushes
      exact Frame.not_takesMany (builds.extends pushes (.inr rfl) plain) stop

/-! ## Phrases -/

/-- What stands among the parts stands among them with a comment as well. -/
theorem Frame.holds_document {spread : Spread} (holds : spread.Holds frame.parts)
    (doc : Option Token) : spread.Holds (frame.document doc).parts := by
  rcases frame with ⟨kind, start, token, _ | ⟨latest, others⟩⟩
  · exact holds
  · cases spread with
    | nowhere => exact List.forall_mem_cons.mpr (List.forall_mem_cons.mp holds)
    | last => exact holds
    | anywhere => trivial

/-- A part without children stands in nobody's way. -/
theorem Frame.spreads_push {before behind : Spread} (all : frame.All AllVariadicLast)
    (holds : before.Holds frame.parts) (joined : before.joins .nowhere behind = true)
    {part : Node} (childless : part.children = []) :
    (frame.push part).All AllVariadicLast ∧ behind.Holds (frame.push part).parts :=
  ⟨all.push (.of_childless childless),
    holds.append joined (Spread.holds_singleton (Node.not_takesMany_of_childless childless))⟩

/-- If a look holds that bars variadic parameters, the part read last is none. -/
theorem Setup.not_takesMany_of_bars {setup : Setup} {state : State} {look : Look}
    (bars : look.bars = true) (holds : setup.holds state frame look = true) :
    ∀ latest ∈ frame.parts.head?, ¬ latest.TakesMany := by
  induction look with
  | not look =>
      cases look with
      | latestVariadic =>
          rintro latest isLatest ⟨-, many⟩
          simp [Setup.holds, Option.mem_def.mp isLatest, many] at holds
      | _ => cases bars
  | and first second firstIh secondIh =>
      obtain ⟨firstHolds, secondHolds⟩ := Bool.and_eq_true_iff.mp holds
      rcases Bool.or_eq_true_iff.mp bars with firstBars | secondBars
      · exact firstIh firstBars firstHolds
      · exact secondIh secondBars secondHolds
  | _ => cases bars

/-- A look that holds tells where variadic parameters stand. -/
theorem Frame.holds_behind {setup : Setup} {state : State} {look : Look} {before : Spread}
    (spread : before.Holds frame.parts) (holds : setup.holds state frame look = true) :
    (before.behind look).Holds frame.parts := by
  rw [Spread.behind]
  split
  · rename_i barred
    obtain ⟨isLast, bars⟩ := Bool.and_eq_true_iff.mp barred
    obtain rfl := of_decide_eq_true isLast
    have latestPlain := Setup.not_takesMany_of_bars bars holds
    intro part member
    rcases frame with ⟨kind, start, token, _ | ⟨latest, others⟩⟩
    · cases member
    · rcases List.mem_cons.mp member with rfl | isOther
      · exact latestPlain part rfl
      · exact spread part isOther
  · exact spread

/-- What phrases leave: nodes in which variadic parameters come last, and such
parameters in their places. -/
theorem Builds.spreads (builds : Builds stream way phrase pos frame ended after inner)
    (running : way.cut = false) {head : Bool} {before behind : Spread}
    (spreads : phrase.spreads head before behind = true) (plain : head = true → frame.HoldsPlain)
    (all : frame.All AllVariadicLast) (holds : before.Holds frame.parts) :
    inner.All AllVariadicLast ∧ behind.Holds inner.parts := by
  induction builds generalizing head before behind with
  | done | token | mark | rekind => exact ⟨all, holds.mono spreads⟩
  | loopEnds => exact ⟨all, holds.mono (Bool.and_eq_true_iff.mp spreads).1⟩
  | leaf | pick | operator => exact Frame.spreads_push all holds spreads rfl
  | @seq _ first second _ _ _ between _ _ _ firstBuilds _ firstIh secondIh =>
      obtain ⟨middle, -, both⟩ := List.any_eq_true.mp spreads
      obtain ⟨firstSpreads, secondSpreads⟩ := Bool.and_eq_true_iff.mp both
      obtain ⟨firstAll, firstHolds⟩ := firstIh running firstSpreads plain all holds
      exact secondIh running secondSpreads firstBuilds.holdsPlain firstAll firstHolds
  | seqEnded builds | documentedEnded builds => cases builds.ended_eq_false running
  | otherwise isCut | salvage isCut | salvageMarked isCut =>
      rw [running] at isCut
      cases isCut
  | node body ih | cover body ih =>
      obtain ⟨inside, joined⟩ := Bool.and_eq_true_iff.mp spreads
      obtain ⟨innerAll, innerHolds⟩ := ih running inside nofun .nil .nil
      exact ⟨all.push (Frame.allVariadicLast_toNode body.kind_mem innerAll innerHolds _),
        holds.append joined (body.spread_toNode (.self _) _)⟩
  | @wrap way kind body pos frame first others ended after inner parts builds ih =>
      simp only [Phrase.spreads, Bool.and_eq_true, decide_eq_true_eq, Bool.not_eq_true'] at spreads
      obtain ⟨⟨rfl, inside⟩, other⟩ := spreads
      obtain ⟨firstAll, kept⟩ := all.take parts
      obtain ⟨firstPlain, othersPlain⟩ := List.forall_mem_cons.mp (parts ▸ holds)
      obtain ⟨innerAll, innerHolds⟩ := ih running inside nofun
        (List.forall_mem_singleton.mpr firstAll) (Spread.holds_singleton firstPlain)
      have othersHold : Spread.nowhere.Holds others := othersPlain
      exact ⟨kept.push (Frame.allVariadicLast_toNode builds.kind_mem innerAll innerHolds _),
        othersHold.append rfl (Spread.holds_singleton (builds.not_takesMany other _))⟩
  | @reopen way kind body pos frame latest others ended after inner parts builds ih =>
      simp only [Phrase.spreads, Bool.and_eq_true, decide_eq_true_eq] at spreads
      obtain ⟨⟨⟨isHead, rfl⟩, inside⟩, joined⟩ := spreads
      have isLatest : latest ∈ frame.parts.head? := by rw [parts]; rfl
      have unmarked : ∀ part ∈ latest.children.reverse, part.kind.isUnmarked = true :=
        fun part member => plain isHead latest isLatest part (List.mem_reverse.mp member)
      obtain ⟨latestAll, kept⟩ := all.take parts
      have othersHold : Spread.nowhere.Holds others := (List.forall_mem_cons.mp (parts ▸ holds)).2
      obtain ⟨innerAll, innerHolds⟩ := ih running inside nofun
        (fun child member => latestAll.child (List.mem_reverse.mp member))
        (holds_of_unmarked unmarked)
      exact ⟨kept.push (Frame.allVariadicLast_toNode builds.kind_mem innerAll innerHolds _),
        othersHold.append joined (builds.spread_toNode (Frame.extends_of_unmarked unmarked) _)⟩
  | @branch _ _ _ _ _ _ _ _ _ chosen _ _ ih | @trial _ _ _ _ _ _ _ _ _ chosen _ ih =>
      obtain ⟨yes, no⟩ := Bool.and_eq_true_iff.mp spreads
      cases chosen with
      | true => exact ih running yes plain all holds
      | false => exact ih running no plain all holds
  | @call way rule _ _ _ _ _ _ _ ih =>
      obtain ⟨partsAll, partsHold⟩ :=
        ih (by rw [way.inside_cut rule, running]) rule.body_spreads nofun .nil .nil
      exact ⟨all.pushAll partsAll, holds.append spreads partsHold⟩
  | recover _ ih | orElse _ ih => exact ih running spreads plain all holds
  | skip skips => exact Frame.spreads_push all holds (Spread.joins_nowhere spreads) skips.children
  | @loop way look body pos frame _ _ _ goesOn _ ih =>
      obtain ⟨-, round⟩ := Bool.and_eq_true_iff.mp spreads
      have rounds : (Phrase.seq body (.loop look body)).spreads false (before.behind look) behind :=
        List.any_eq_true.mpr ⟨before, before.mem_all, Bool.and_eq_true_iff.mpr ⟨round, spreads⟩⟩
      exact ih running rounds nofun all (Frame.holds_behind holds (goesOn running))
  | documented _ ih =>
      obtain ⟨innerAll, innerHolds⟩ := ih running spreads plain all holds
      exact ⟨innerAll.document fun _ doc last => last.document doc,
        Frame.holds_document innerHolds _⟩
  | closing _ ih => exact ih running (Spread.within_of_joins spreads) plain all holds
  | missing _ marks => exact Frame.spreads_push all holds spreads marks.children

/-- In what a rule builds while the parse is not abandoned, variadic parameters
come last. -/
theorem RuleBuilds.allVariadicLast {rule : Rule} {parts : List Node}
    (builds : RuleBuilds stream rule way pos parts after) (running : way.cut = false) :
    ∀ part ∈ parts, part.AllVariadicLast := by
  obtain ⟨-, ended, inner, rfl, body⟩ := builds
  exact (body.spreads (by rw [way.inside_cut rule, running]) rule.body_spreads nofun .nil .nil).1

end Parser

namespace Source

open JavaFront.Parser

/-- Whatever is reported, in the tree of a parse that is not abandoned variadic
parameters come last. -/
theorem parse_allVariadicLast (source : Source) (entry : Entry) (options : Options) {tree : Node}
    (running : (source.parse entry options).abandoned = none)
    (built : (source.parse entry options).tree = some tree) : tree.AllVariadicLast := by
  obtain ⟨others, after, builds⟩ :=
    source.parse_builds entry options false built fun cut => by simp [running] at cut
  exact builds.allVariadicLast rfl tree List.mem_cons_self

/-- In the tree of a parse without diagnostics a parameter that takes any number
of arguments is the last child of its parent, unless the parent holds the
parameters of a lambda. -/
theorem parse_variadic_last (source : Source) (entry : Entry) (options : Options) {tree : Node}
    (silent : (source.parse entry options).diagnostics = [])
    (built : (source.parse entry options).tree = some tree) :
    ∀ node ∈ tree.nodes, node.kind ≠ .lambdaParameters →
      ∀ child ∈ node.children.dropLast, child.kind = .parameter → isVariadic child = false := by
  have running := (hasErrors_eq_false_iff.mp (clean_of_silent silent)).1
  intro node member other child early isParameter
  have plain := source.parse_allVariadicLast entry options running built node member other child
    early
  exact Bool.eq_false_iff.mpr fun many => plain ⟨isParameter, many⟩

/-- A method with a variadic parameter behind another one. -/
theorem parse_variadic_last_method :
    (of [] "class A \x7b void f(A a, A... b) \x7b\x7d \x7d").parse.diagnostics = [] ∧
      ∃ tree, (of [] "class A \x7b void f(A a, A... b) \x7b\x7d \x7d").parse.tree = some tree ∧
        (tree.nodes.map (·.children.map isVariadic)).contains [false, true] = true ∧
        ∀ node ∈ tree.nodes, node.kind ≠ .lambdaParameters →
          ∀ child ∈ node.children.dropLast, child.kind = .parameter → isVariadic child = false := by
  have silent :
      (of [] "class A \x7b void f(A a, A... b) \x7b\x7d \x7d").parse.diagnostics = [] := by
    decide +kernel
  have shape : (of [] "class A \x7b void f(A a, A... b) \x7b\x7d \x7d").parse.tree.map (fun tree =>
      (tree.nodes.map (·.children.map isVariadic)).contains [false, true]) = some true := by
    decide +kernel
  obtain ⟨tree, built, same⟩ := Option.map_eq_some_iff.mp shape
  exact ⟨silent, tree, built, same, parse_variadic_last _ .unit {} silent built⟩

/-- A lambda goes on behind a variadic parameter, and nothing is reported. -/
theorem not_parse_variadic_last :
    ¬ ∀ (source : Source) (entry : Entry) (options : Options) (tree : Node),
      (source.parse entry options).diagnostics = [] →
      (source.parse entry options).tree = some tree →
      ∀ node ∈ tree.nodes, ∀ child ∈ node.children.dropLast,
        child.kind = .parameter → isVariadic child = false := by
  intro last
  have silent : ((of [] "(int... a, int b) -> a").parse .expression).diagnostics = [] := by
    decide +kernel
  have shape : ((of [] "(int... a, int b) -> a").parse .expression).tree.map (fun tree =>
      tree.nodes.any fun node => node.children.dropLast.any fun child =>
        child.kind = .parameter && isVariadic child) = some true := by
    decide +kernel
  obtain ⟨tree, built, same⟩ := Option.map_eq_some_iff.mp shape
  obtain ⟨node, member, among⟩ := List.any_eq_true.mp same
  obtain ⟨child, early, many⟩ := List.any_eq_true.mp among
  obtain ⟨isParameter, variadic⟩ := Bool.and_eq_true_iff.mp many
  have alone := last _ _ _ tree silent built node member child early (of_decide_eq_true isParameter)
  cases variadic.symm.trans alone

end Source

end JavaFront
