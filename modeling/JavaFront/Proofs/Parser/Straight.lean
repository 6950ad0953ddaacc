import JavaFront.Proofs.Parser.Abandonment
import JavaFront.Proofs.Parser.Conservation
import JavaFront.Proofs.Parser.Termination

/-!
# Straight readings

A reading is straight if nothing is tried on the way, nothing is skipped and
nothing fails. It leaves a parse no choice: in a trial and outside of one, with
the memo table or without it and whatever earlier calls have left there, a call
takes it, unless the parse is abandoned.
-/

namespace JavaFront.Parser

/-! ## Readings -/

/-- A phrase reads the stream from an index up to another and fills a frame
without a detour. -/
inductive Straight (stream : Stream) : Phrase → Nat → Frame → Nat → Frame → Prop
  | done {pos frame} : Straight stream .done pos frame pos frame
  | rekind {kind pos frame} : Straight stream (.rekind kind) pos frame pos { frame with kind }
  | token {kind pos frame} :
      stream.kind pos = kind → Straight stream (.token kind) pos frame (stream.succ pos) frame
  | leaf {node kind pos frame} :
      stream.kind pos = kind →
      Straight stream (.leaf node kind) pos frame (stream.succ pos)
        (frame.push (.leaf node (stream.get pos)))
  | pick {node accept pos frame} :
      accept (stream.kind pos) = true →
      Straight stream (.pick node accept) pos frame (stream.succ pos)
        (frame.push (.leaf node (stream.get pos)))
  | mark {accept pos frame} :
      accept (stream.kind pos) = true →
      Straight stream (.mark accept) pos frame (stream.succ pos)
        { frame with token := some (stream.get pos) }
  | seq {first second pos frame middle between after inner} :
      Straight stream first pos frame middle between →
      Straight stream second middle between after inner →
      Straight stream (.seq first second) pos frame after inner
  | node {kind body pos frame after inner} :
      Straight stream body pos ((Setup.plain stream).frame { pos } kind) after inner →
      Straight stream (.node kind body) pos frame after
        (frame.push ((Setup.plain stream).finish { pos := after } inner))
  | wrap {kind body pos first others after inner} {frame : Frame} :
      frame.parts = first :: others →
      Straight stream body pos { kind, start := first.span.start, parts := [first] } after inner →
      Straight stream (.wrap kind body) pos frame after
        ({ frame with parts := others }.push ((Setup.plain stream).finish { pos := after } inner))
  | branch {look yes no pos frame after inner} :
      Straight stream (if (Setup.plain stream).holds { pos } frame look then yes else no)
        pos frame after inner →
      Straight stream (.branch look yes no) pos frame after inner
  | call {pos frame after inner} {rule : Rule} :
      Straight stream rule.body pos ((Setup.plain stream).frame { pos } .error) after inner →
      Straight stream (.call rule) pos frame after (frame.pushAll inner.parts)
  | loopEnds {look body pos frame} :
      (Setup.plain stream).holds { pos } frame look = false →
      Straight stream (.loop look body) pos frame pos frame
  | loop {look body pos frame after inner} :
      (Setup.plain stream).holds { pos } frame look = true →
      Straight stream (.seq body (.loop look body)) pos frame after inner →
      Straight stream (.loop look body) pos frame after inner

/-- A rule reads these parts from an index up to another without a detour. -/
def RuleStraight (stream : Stream) (rule : Rule) (pos : Nat) (parts : List Node) (stop : Nat) :
    Prop :=
  ∃ inner : Frame, inner.parts = parts ∧
    Straight stream rule.body pos ((Setup.plain stream).frame { pos } .error) stop inner

/-- Where a rule has a straight reading, the table holds no other outcome for
it. -/
def MemoStraight (stream : Stream) (memo : Memo) : Prop :=
  memo.All fun key outcome => ∀ parts stop, RuleStraight stream key.slot.rule key.pos parts stop →
    outcome.parts? = some parts ∧ outcome.stop = stop

/-! ## Runs -/

/-- A run of a phrase has kept the table straight. Unless the parse was abandoned
it has taken the straight reading, if there is one. -/
structure Outcome.Follows (stream : Stream) (phrase : Phrase) (state : State) (frame : Frame)
    (outcome : Outcome) : Prop where
  memo : MemoStraight stream outcome.state.memo
  fatal : outcome.state.fatal = none → state.fatal = none
  takes : outcome.state.fatal = none → ∀ after inner,
    Straight stream phrase state.pos frame after inner →
      outcome.verdict = .ok ∧ outcome.state.pos = after ∧ outcome.frame = inner

/-- A run of a rule has kept the table straight. Unless the parse was abandoned
it has taken the straight reading, if there is one. -/
structure Reply.Follows (stream : Stream) (rule : Rule) (state : State) (reply : Reply) :
    Prop where
  memo : MemoStraight stream reply.state.memo
  fatal : reply.state.fatal = none → state.fatal = none
  takes : reply.state.fatal = none → ∀ parts stop,
    RuleStraight stream rule state.pos parts stop →
      reply.parts? = some parts ∧ reply.state.pos = stop

/-- A way to run a rule that takes straight readings. -/
def RunsStraight (stream : Stream) (rule : Rule) (run : State → Reply) : Prop :=
  ∀ state : State, MemoStraight stream state.memo → (run state).Follows stream rule state

section Settings

variable {setup : Setup} {rule : Rule} {run : State → Reply}

theorem guarded_straight (straight : RunsStraight setup.stream rule run) :
    RunsStraight setup.stream rule (setup.guarded run) := by
  intro state memo
  rcases setup.guarded_cases run state with ⟨-, same⟩ | ⟨after, same, stopped, -, -, sameMemo⟩
  · rw [same]
    have inner := straight { state with steps := state.steps + 1, depth := state.depth + 1 } memo
    exact ⟨inner.memo, inner.fatal, inner.takes⟩
  · rw [same]
    have lost : after.fatal ≠ none := Option.isSome_iff_ne_none.mp stopped
    exact ⟨sameMemo.symm ▸ memo, fun running => absurd running lost,
      fun running => absurd running lost⟩

theorem remember_straight {slot : Memo.Slot} (kept : Memo.Slot.of? rule = some slot)
    (straight : RunsStraight setup.stream rule run) {state : State}
    (memo : MemoStraight setup.stream state.memo) :
    (remember ⟨slot, state.pos⟩ run state).Follows setup.stream rule state := by
  have inner := straight { state with furthest := .none } memo
  simp only [remember]
  rcases found : run { state with furthest := .none } with ⟨parts?, after⟩
  rw [found] at inner
  dsimp only
  split
  · exact ⟨inner.memo, inner.fatal, inner.takes⟩
  · rename_i running
    refine ⟨Memo.All.put inner.memo fun parts stop reading => ?_, inner.fatal, inner.takes⟩
    rw [Memo.Slot.rule_of? kept] at reading
    obtain ⟨rfl, samePos⟩ :=
      inner.takes (Option.not_isSome_iff_eq_none.mp running) parts stop reading
    exact ⟨rfl, samePos⟩

theorem memoized_straight {slot : Memo.Slot} (kept : Memo.Slot.of? rule = some slot)
    (straight : RunsStraight setup.stream rule run) :
    RunsStraight setup.stream rule (memoized slot run) := by
  intro state memo
  have lookedUp : MemoStraight setup.stream (state.memo.get ⟨slot, state.pos⟩).2 :=
    Memo.All.get memo ⟨slot, state.pos⟩
  have remembered := @remember_straight setup rule run slot kept straight
    { state with memo := (state.memo.get ⟨slot, state.pos⟩).2 } lookedUp
  have asked : ∀ outcome, (state.memo.get ⟨slot, state.pos⟩).1 = some outcome →
      ∀ parts stop, RuleStraight setup.stream rule state.pos parts stop →
        outcome.parts? = some parts ∧ outcome.stop = stop := by
    intro outcome found parts stop reading
    rw [state.memo.get_fst] at found
    rw [← Memo.Slot.rule_of? kept] at reading
    exact memo _ outcome found parts stop reading
  simp only [memoized]
  split
  · rename_i parts stop furthest found
    refine ⟨lookedUp, id, fun _ others after reading => ?_⟩
    obtain ⟨same, stops⟩ := asked _ found others after reading
    exact ⟨same, stops⟩
  · rename_i stop furthest found
    split
    · refine ⟨lookedUp, id, fun _ others after reading => ?_⟩
      cases (asked _ found others after reading).1
    · exact ⟨remembered.memo, remembered.fatal, remembered.takes⟩
  · exact ⟨remembered.memo, remembered.fatal, remembered.takes⟩

theorem within_straight (straight : RunsStraight setup.stream rule run) :
    RunsStraight setup.stream rule (setup.within rule run) := by
  have inside : RunsStraight setup.stream rule
      (if rule.isGuarded then setup.guarded run else run) := by
    split
    · exact guarded_straight straight
    · exact straight
  simp only [Setup.within]
  split
  · rename_i slot kept
    split
    · exact memoized_straight kept inside
    · exact inside
  · exact inside

end Settings

section Runs

variable {setup : Setup}

/-- A run that is abandoned takes no reading, and so no other one. -/
theorem Reply.Follows.of_abandoned {stream : Stream} {rule : Rule} {state : State} {reply : Reply}
    (memo : MemoStraight stream reply.state.memo) (stopped : reply.state.fatal ≠ none) :
    reply.Follows stream rule state :=
  ⟨memo, fun running => absurd running stopped, fun running => absurd running stopped⟩

/-- The settings of a rule take what they ask for where they ask, so it is enough
to know about the state in which they do. -/
theorem within_follows {rule : Rule} {state inside : State} {reply : Reply}
    (asked : ∀ run, setup.within rule run state = setup.within rule (fun _ => run inside) state)
    (follows : MemoStraight setup.stream inside.memo → reply.Follows setup.stream rule inside)
    (memo : MemoStraight setup.stream state.memo) :
    (setup.within rule (fun _ => reply) state).Follows setup.stream rule state := by
  classical
  let run : State → Reply := fun state =>
    if state = inside then reply else ⟨none, { state with fatal := some .canceled }⟩
  have straight : RunsStraight setup.stream rule run := by
    intro other otherMemo
    simp only [run]
    split
    · rename_i same
      subst same
      exact follows otherMemo
    · exact .of_abandoned otherMemo (by simp)
  have whole := within_straight straight state memo
  rw [asked] at whole
  simpa only [run, if_true] using whole

/-- What the settings of a rule answer by themselves comes from a straight
table. -/
theorem settled_follows {rule : Rule} {state : State} {reply : Reply}
    (settled : ∀ run, setup.within rule run state = reply)
    (memo : MemoStraight setup.stream state.memo) : reply.Follows setup.stream rule state := by
  have straight : RunsStraight setup.stream rule fun state =>
      ⟨none, { state with fatal := some .canceled }⟩ :=
    fun other otherMemo => .of_abandoned otherMemo (by simp)
  have whole := within_straight straight state memo
  rwa [settled] at whole

/-- Phrases without calls take the straight reading. -/
theorem step_follows {phrase : Phrase} (isStep : isStep phrase = true) (state : State)
    (frame : Frame) (memo : MemoStraight setup.stream state.memo) :
    (setup.run refuse phrase state frame).Follows setup.stream phrase state frame := by
  cases phrase with
  | done =>
      refine ⟨memo, id, fun _ after inner reading => ?_⟩
      cases reading
      exact ⟨rfl, rfl, rfl⟩
  | rekind kind =>
      refine ⟨memo, id, fun _ after inner reading => ?_⟩
      cases reading
      exact ⟨rfl, rfl, rfl⟩
  | stop | expected | operator => exact ⟨memo, id, fun _ after inner reading => by cases reading⟩
  | token | leaf | pick | mark =>
      simp only [Setup.run]
      split
      · refine ⟨memo, id, fun _ after inner reading => ?_⟩
        cases reading
        exact ⟨rfl, rfl, rfl⟩
      · rename_i other
        refine ⟨memo, id, fun _ after inner reading => ?_⟩
        cases reading
        contradiction
  | closing kind =>
      exact ⟨(setup.close_memo kind state frame).symm ▸ memo,
        (setup.follows_close kind state frame).fatal, fun _ after inner reading => by cases reading⟩
  | salvage =>
      exact ⟨(setup.salvage_memo state frame).symm ▸ memo,
        (setup.follows_salvage state frame).fatal, fun _ after inner reading => by cases reading⟩
  | _ => cases isStep

/-- A node keeps the reading of what it holds. -/
theorem Outcome.Follows.enclose {body phrase : Phrase} {state : State} {frame outer kept : Frame}
    {start : Frame} {outcome : Outcome} (inside : outcome.Follows setup.stream body state start)
    (inner : ∀ after inner, Straight setup.stream phrase state.pos frame after inner →
      ∃ filled, Straight setup.stream body state.pos start after filled ∧
        inner = outer.push ((Setup.plain setup.stream).finish { pos := after } filled)) :
    (setup.enclose outer outcome kept).Follows setup.stream phrase state frame := by
  have sameState := setup.enclose_state outer outcome kept
  refine ⟨sameState ▸ inside.memo, fun running => inside.fatal (sameState ▸ running), ?_⟩
  intro running after filled reading
  obtain ⟨inner, bodyReading, rfl⟩ := inner after filled reading
  rw [sameState] at running ⊢
  obtain ⟨verdict, rfl, rfl⟩ := inside.takes running after inner bodyReading
  simp only [Setup.enclose, verdict, true_and]
  rfl

/-- A call that comes to an end keeps the table straight and takes the straight
reading of its rule. The induction follows the run. -/
theorem Setup.Replies.follows {rule : Rule} {state : State} {reply : Reply}
    (replies : setup.Replies rule state reply) (memo : MemoStraight setup.stream state.memo) :
    reply.Follows setup.stream rule state := by
  refine @Setup.Replies.rec setup
    (fun phrase state frame outcome _ => MemoStraight setup.stream state.memo →
      outcome.Follows setup.stream phrase state frame)
    (fun rule state reply _ => MemoStraight setup.stream state.memo →
      reply.Follows setup.stream rule state)
    ?step ?seq ?seqStops ?node ?wrap ?wrapFails ?reopen ?reopenFails ?cover ?branch ?trial ?call
    ?recover ?orElse ?otherwise ?loop ?loopEnds ?documented ?body ?settled
    rule state reply replies memo
  case step =>
    intro phrase state frame isStep memo
    exact step_follows isStep state frame memo
  case seq =>
    intro _ _ _ _ _ _ _ _ _ earlyIh lateIh memo
    have early := earlyIh memo
    have late := lateIh early.memo
    refine ⟨late.memo, fun running => early.fatal (late.fatal running), ?_⟩
    intro running after inner reading
    cases reading with
    | seq first second =>
        obtain ⟨-, rfl, rfl⟩ := early.takes (late.fatal running) _ _ first
        exact late.takes running _ _ second
  case seqStops =>
    intro _ _ _ _ _ _ stops earlyIh memo
    have early := earlyIh memo
    refine ⟨early.memo, early.fatal, fun running after inner reading => ?_⟩
    cases reading with
    | seq first => exact absurd (early.takes running _ _ first).1 stops
  case node =>
    intro _ _ _ _ _ _ innerIh memo
    refine (innerIh memo).enclose fun after inner reading => ?_
    cases reading with
    | node body => exact ⟨_, body, rfl⟩
  case wrap =>
    intro _ _ _ _ _ _ _ parts _ innerIh memo
    refine (innerIh memo).enclose fun after inner reading => ?_
    cases reading with
    | wrap twin body =>
        cases parts.symm.trans twin
        exact ⟨_, body, rfl⟩
  case wrapFails =>
    intro _ _ _ _ empty memo
    refine ⟨memo, id, fun _ after inner reading => ?_⟩
    cases reading with
    | wrap parts => cases parts.symm.trans empty
  case reopen =>
    intro _ _ _ _ _ _ _ _ _ innerIh memo
    refine (innerIh memo).enclose fun after inner reading => ?_
    cases reading
  case reopenFails =>
    intro _ _ _ _ _ memo
    exact ⟨memo, id, fun _ after inner reading => by cases reading⟩
  case cover =>
    intro _ _ _ _ outcome _ innerIh memo
    have inner := innerIh memo
    have sameState := setup.covered_state outcome ‹Frame›
    exact ⟨sameState ▸ inner.memo, fun running => inner.fatal (sameState ▸ running),
      fun _ after inner reading => by cases reading⟩
  case branch =>
    intro _ _ _ state frame _ _ innerIh memo
    have inner := innerIh memo
    refine ⟨inner.memo, inner.fatal, fun running after filled reading => ?_⟩
    cases reading with
    | branch taken =>
        rw [← setup.holds_eq_plain frame _ (inner.fatal running)] at taken
        exact inner.takes running _ _ taken
  case trial =>
    intro _ _ _ _ _ _ _ _ _ triedIh innerIh memo
    have tried := triedIh memo
    have inner := innerIh tried.memo
    exact ⟨inner.memo, fun running => tried.fatal (inner.fatal running),
      fun _ after inner reading => by cases reading⟩
  case call =>
    intro _ _ _ reply _ calledIh memo
    have called := calledIh memo
    have sameState := reply.into_state ‹Frame›
    refine ⟨sameState ▸ called.memo, fun running => called.fatal (sameState ▸ running), ?_⟩
    intro running after filled reading
    rw [sameState] at running ⊢
    cases reading with
    | call body =>
        obtain ⟨parts, samePos⟩ := called.takes running _ _ ⟨_, rfl, body⟩
        simp [Reply.into, parts, samePos]
  case recover =>
    intro _ state frame reply _ calledIh memo
    have called := calledIh memo
    refine ⟨?_, fun running => ?_, fun _ after inner reading => by cases reading⟩
    · rw [Reply.into_state, setup.recovered_memo]
      exact called.memo
    · rw [Reply.into_state, setup.recovered_fatal] at running
      exact called.fatal running
  case orElse =>
    intro _ _ _ _ _ _ _ earlyIh memo
    have early := earlyIh memo
    exact ⟨early.memo, early.fatal, fun _ after inner reading => by cases reading⟩
  case otherwise =>
    intro _ _ _ _ _ _ _ _ _ earlyIh lateIh memo
    have early := earlyIh memo
    have late := lateIh early.memo
    exact ⟨late.memo, fun running => early.fatal (late.fatal running),
      fun _ after inner reading => by cases reading⟩
  case loop =>
    intro _ _ _ frame _ holds _ innerIh memo
    have inner := innerIh memo
    refine ⟨inner.memo, inner.fatal, fun running after filled reading => ?_⟩
    rw [setup.holds_eq_plain frame _ (inner.fatal running)] at holds
    cases reading with
    | loop _ further => exact inner.takes running _ _ further
    | loopEnds ends => cases holds.symm.trans ends
  case loopEnds =>
    intro _ _ _ frame ends memo
    refine ⟨memo, id, fun running after filled reading => ?_⟩
    rw [setup.holds_eq_plain frame _ running] at ends
    cases reading with
    | loop holds => cases holds.symm.trans ends
    | loopEnds => exact ⟨rfl, rfl, rfl⟩
  case documented =>
    intro _ _ _ outcome _ innerIh memo
    have inner := innerIh memo
    have sameState := outcome.documented_state
    exact ⟨(sameState _).symm ▸ inner.memo, fun running => inner.fatal (sameState _ ▸ running),
      fun _ after inner reading => by cases reading⟩
  case body =>
    intro rule state inside outcome asked _ innerIh memo
    refine within_follows asked (fun insideMemo => ?_) memo
    have inner := innerIh insideMemo
    have sameState := outcome.reply_state
    refine ⟨sameState ▸ inner.memo, fun running => inner.fatal (sameState ▸ running), ?_⟩
    rintro running parts stop ⟨filled, rfl, reading⟩
    rw [sameState] at running ⊢
    obtain ⟨verdict, samePos, rfl⟩ := inner.takes running _ _ reading
    simp [Outcome.reply, verdict, samePos]
  case settled =>
    intro _ _ _ settled memo
    exact settled_follows settled memo

end Runs

/-! ## Tables -/

/-- The memo tables that calls over a stream lead to one after another, whatever
their limits and wherever they start. Only a call that has ended changes the
table, so a call inside of another one meets such a table as well. What has been
counted makes no difference. -/
inductive TableReached (stream : Stream) : Memo → Prop
  | empty {memo : Memo} : memo.table = ({} : Memo).table → TableReached stream memo
  | call {setup : Setup} {rule : Rule} {state : State} {memo : Memo} :
      setup.stream = stream → state.pos ≤ stream.last →
      (0 < state.speculating → rule ≠ .compilationUnit) → TableReached stream state.memo →
      memo.table = (setup.call rule state).state.memo.table → TableReached stream memo

/-- With a straight table a call takes the straight reading of its rule. -/
theorem Setup.call_follows (setup : Setup) (ordered : setup.stream.Ordered) {rule : Rule}
    {state : State} (placed : state.Placed setup.stream)
    (notUnit : 0 < state.speculating → rule ≠ .compilationUnit)
    (memo : MemoStraight setup.stream state.memo) :
    (setup.call rule state).Follows setup.stream rule state := by
  have replies := (setup.callWith_ends ordered setup.budget).replies rule state placed
    (setup.need_le_budget rule state.pos) fun trying =>
      notUnit (by simpa [State.trying] using trying)
  exact replies.follows memo

/-- Such a table is straight, and it leads no cursor back or out of the
stream. -/
theorem TableReached.straight {stream : Stream} (ordered : stream.Ordered) {memo : Memo}
    (reached : TableReached stream memo) : MemoAhead stream memo ∧ MemoStraight stream memo := by
  have same : ∀ {holds : Memo.Key → Memo.Outcome → Prop} {memo other : Memo},
      memo.table = other.table → other.All holds → memo.All holds :=
    fun sameTable all key outcome found => all key outcome (sameTable ▸ found)
  induction reached with
  | empty sameTable => exact ⟨same sameTable Memo.All.empty, same sameTable Memo.All.empty⟩
  | @call setup rule state memo sameStream inside notUnit _ sameTable ih =>
      subst sameStream
      have placed : state.Placed setup.stream := ⟨inside, ih.1⟩
      have advances := setup.callWith_advances ordered setup.budget rule
      have ahead := (advances.reaches state placed).placed
      exact ⟨same sameTable ahead.memo,
        same sameTable (setup.call_follows ordered placed notUnit ih.2).memo⟩

end JavaFront.Parser
