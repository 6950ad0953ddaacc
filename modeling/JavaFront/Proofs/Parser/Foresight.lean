import JavaFront.Proofs.Parser.Abandonment
import JavaFront.Proofs.Parser.Agreement
import JavaFront.Proofs.Parser.Comparison
import JavaFront.Proofs.Parser.Conservation

/-!
# What a trial foretells

A rule that a trial has found to succeed succeeds in earnest as well. Where an
outcome was kept, it is replayed; where none was, the rule runs as it did in the
trial, because a trial that succeeds has not come to a point at which recovery
makes a difference: whatever gives up during a trial makes the trial give up.
So both runs build the same parts up to the same place, and no failure is
reported, unless the second run is abandoned.
-/

namespace JavaFront.Parser

/-! ## Growth of the memo table -/

/-- What is kept in the first table is kept in the second. -/
def Extends (before after : Memo) : Prop :=
  ∀ (key : Memo.Key) (outcome : Memo.Outcome),
    before.table[key]? = some outcome → after.table[key]? = some outcome

namespace Extends

variable {first second third : Memo}

theorem of_eq (same : second.table = first.table) : Extends first second :=
  fun _ _ found => same ▸ found

theorem trans (before : Extends first second) (behind : Extends second third) :
    Extends first third :=
  fun key outcome found => behind key outcome (before key outcome found)

/-- A key under which nothing was kept may be used. -/
theorem put {key : Memo.Key} {outcome : Memo.Outcome} (before : Extends first second)
    (free : first.table[key]? = none) : Extends first (second.put key outcome) := by
  intro other found present
  simp only [Memo.put, Std.TreeMap.getElem?_insert]
  split
  · rename_i same
    rw [← Memo.Key.eq_of_compare same, free] at present
    cases present
  · exact before other found present

end Extends

theorem Memo.table_put_self (memo : Memo) (key : Memo.Key) (outcome : Memo.Outcome) :
    (memo.put key outcome).table[key]? = some outcome := by
  simp [Memo.put]

/-- The state `after` may stand behind a run from the state `before`, and during
a trial what was kept stays as it is. -/
structure State.Grows (before after : State) : Prop extends before.Follows after where
  extends_memo : before.trying = true → Extends before.memo after.memo

namespace State.Grows

variable {first second third : State}

theorem of_follows (follows : first.Follows second) (same : second.memo.table = first.memo.table) :
    first.Grows second :=
  ⟨follows, fun _ => .of_eq same⟩

theorem trans (before : first.Grows second) (behind : second.Grows third) : first.Grows third :=
  ⟨before.toFollows.trans behind.toFollows, fun trying => (before.extends_memo trying).trans
    (behind.extends_memo (before.toFollows.trying_eq.trans trying))⟩

end State.Grows

/-- During a trial a rule leaves in the table what was kept. -/
def Grows (run : State → Reply) : Prop :=
  ∀ state : State, state.Grows (run state).state

section Growth

variable {setup : Setup} {run : State → Reply}

theorem Grows.keeps (grows : Grows run) : Keeps run :=
  fun state => (grows state).toFollows

theorem State.trying_inside {state : State} (trying : state.trying = true) :
    { state with speculating := state.speculating + 1 }.trying = true := by
  simp only [State.trying, decide_eq_true_eq] at trying ⊢
  omega

theorem Setup.grows_close (setup : Setup) (kind : Token.Kind) (state : State) (frame : Frame) :
    state.Grows (setup.close kind state frame).state :=
  .of_follows (setup.follows_close kind state frame)
    (congrArg Memo.table (setup.close_memo kind state frame))

theorem Setup.grows_salvage (setup : Setup) (state : State) (frame : Frame) :
    state.Grows (setup.salvage state frame).state :=
  .of_follows (setup.follows_salvage state frame)
    (congrArg Memo.table (setup.salvage_memo state frame))

theorem Grows.trial (grows : Grows run) (state : State) : state.Grows (trial run state).2 :=
  ⟨Setup.follows_trial grows.keeps state, fun trying =>
    (grows { state with speculating := state.speculating + 1 }).extends_memo
      (State.trying_inside trying)⟩

theorem Grows.recovered (grows : Grows run) (state : State) :
    state.Grows (setup.recovered run state).state := by
  have inner := (grows { state with furthest := .none }).extends_memo
  refine ⟨setup.keeps_recovered grows.keeps state, fun trying => ?_⟩
  rw [setup.recovered_memo]
  exact inner trying

theorem Setup.run_grows {call : Caller} (grows : ∀ rule, Grows (call rule)) (phrase : Phrase)
    (state : State) (frame : Frame) : state.Grows (setup.run call phrase state frame).state := by
  have relates : setup.Relates call State.Grows :=
    { refl := fun state => .of_follows (.refl state) rfl
      trans := .trans
      advance := fun state => .of_follows ⟨rfl, rfl, id, id⟩ rfl
      operator := fun state => .of_follows ⟨rfl, rfl, id, id⟩ rfl
      failAll := fun state texts => .of_follows ⟨rfl, rfl, id, id⟩ rfl
      close := setup.grows_close
      salvage := setup.grows_salvage
      calls := grows
      trials := fun rule => (grows rule).trial
      recovers := fun rule => (grows rule).recovered }
  exact setup.run_relates relates phrase state frame

theorem Setup.grows_seq {call : Caller} (grows : ∀ rule, Grows (call rule))
    (first second : Phrase) (state : State) (frame : Frame) :
    (setup.run call first state frame).state.Grows
      (setup.run call (.seq first second) state frame).state := by
  rw [run_seq]
  split
  · exact setup.run_grows grows second _ _
  · exact .of_follows (.refl _) rfl

theorem Setup.grows_orElse {call : Caller} (grows : ∀ rule, Grows (call rule))
    (first second : Phrase) (state : State) (frame : Frame) :
    (setup.run call first state frame).state.Grows
      (setup.run call (.orElse first second) state frame).state := by
  rw [run_orElse]
  split
  · exact setup.run_grows grows second _ _
  · exact .of_follows (.refl _) rfl

theorem Setup.guarded_grows (grows : Grows run) : Grows (setup.guarded run) := by
  intro state
  refine ⟨setup.keeps_guarded grows.keeps state, fun trying => ?_⟩
  rcases setup.guarded_cases run state with ⟨-, same⟩ | ⟨after, same, -, -, -, sameMemo⟩
  · rw [same]
    exact (grows { state with steps := state.steps + 1, depth := state.depth + 1 }).extends_memo
      trying
  · rw [same]
    exact .of_eq (by rw [sameMemo])

/-- During a trial an outcome is kept only where there was none, because what is
found is replayed. -/
theorem memoized_grows (grows : Grows run) (slot : Memo.Slot) : Grows (memoized slot run) := by
  intro state
  refine ⟨Setup.keeps_memoized slot grows.keeps state, fun trying => ?_⟩
  have lookedUp : Extends state.memo (state.memo.get ⟨slot, state.pos⟩).2 :=
    .of_eq (state.memo.get_table _)
  simp only [memoized]
  split
  · exact lookedUp
  · rw [if_pos (by simpa [State.trying] using trying)]
    exact lookedUp
  · rename_i missing
    rw [state.memo.get_fst] at missing
    have inner := lookedUp.trans ((grows
      { state with memo := (state.memo.get ⟨slot, state.pos⟩).2, furthest := .none }).extends_memo
        trying)
    simp only [remember]
    split
    · exact inner
    · exact inner.put missing

/-- During a trial no call of a rule changes what was kept. -/
theorem Setup.callWith_grows (setup : Setup) (budget : Nat) (rule : Rule) :
    Grows (setup.callWith budget rule) := by
  induction budget generalizing rule with
  | zero => exact fun state => .of_follows (.refl state) rfl
  | succ budget ih =>
      have body : Grows (setup.runBody (setup.callWith budget) rule) := by
        intro state
        rw [runBody_state]
        exact setup.run_grows ih rule.body state (setup.frame state .error)
      exact setup.runRule_induction body setup.guarded_grows
        (fun _ grows => memoized_grows grows _)

end Growth

/-! ## Echoes -/

/-- What a run that echoes a trial goes by: the table that the trial leaves in
the end, the diagnostics at hand, and whether the run is itself a trial. -/
structure Echo where
  memo : Memo
  diagnostics : Array Diagnostic
  trying : Bool

namespace Echo

variable (echo : Echo)

/-- What a state of the trial may still lead to: the trial is not abandoned, and
what is kept by now is kept in the end. -/
structure Knows (state : State) : Prop where
  running : state.fatal = none
  kept : Extends state.memo echo.memo

/-- The second run goes on with the table of the trial and has reported
nothing. -/
structure Ready (twin : State) : Prop where
  running : twin.fatal = none
  table_eq : twin.memo.table = echo.memo.table
  diagnostics_eq : twin.diagnostics = echo.diagnostics
  proper : 0 ≤ twin.speculating
  trying_eq : twin.trying = echo.trying

/-- The trial and the run that echoes it stand at the same place. -/
structure Level (state twin : State) : Prop extends echo.Ready twin where
  pos_eq : twin.pos = state.pos
  tried : state.trying = true

/-- How a phrase ends in the trial and in the run that echoes it. Where it gives
up in the trial, nothing is said about a run in earnest. -/
inductive Outcomes : Outcome → Outcome → Prop
  | ok {state twin : State} (frame : Frame) :
      echo.Level state twin → Outcomes ⟨.ok, state, frame⟩ ⟨.ok, twin, frame⟩
  | failed {outcome twinOutcome : Outcome} :
      outcome.verdict = .failed →
      (echo.trying = true → twinOutcome.verdict = .failed ∧ echo.Ready twinOutcome.state) →
      Outcomes outcome twinOutcome
  | stopped {outcome twinOutcome : Outcome} :
      twinOutcome.state.fatal.isSome = true → Outcomes outcome twinOutcome

/-- How a rule ends in the trial and in the run that echoes it. -/
inductive Replies : Reply → Reply → Prop
  | some {state twin : State} (parts : List Node) :
      echo.Level state twin → Replies ⟨some parts, state⟩ ⟨some parts, twin⟩
  | none {state : State} {twinReply : Reply} :
      (echo.trying = true → twinReply.parts? = none ∧ echo.Ready twinReply.state) →
      Replies ⟨none, state⟩ twinReply
  | stopped {reply twinReply : Reply} :
      twinReply.state.fatal.isSome = true → Replies reply twinReply

/-- A trial of a rule echoes as well. -/
abbrev inner : Echo :=
  { echo with trying := true }

end Echo

/-- A way to call rules whose calls are echoed. -/
structure Caller.Echoes (call : Caller) : Prop where
  grows : ∀ rule, Grows (call rule)
  replies : ∀ (echo : Echo) (rule : Rule) {state twin : State}, echo.Level state twin →
    rule ≠ .compilationUnit → echo.Knows (call rule state).state →
    echo.Replies (call rule state) (call rule twin)

section Phrases

variable {setup : Setup} {call : Caller} {echo : Echo} {state twin : State} {frame : Frame}

namespace Echo

/-- What a trial leads to is known before. -/
theorem Knows.before {after : State} (knows : echo.Knows after) (grows : state.Grows after)
    (tried : state.trying = true) : echo.Knows state :=
  ⟨grows.fatal knows.running, (grows.extends_memo tried).trans knows.kept⟩

theorem Level.holds_eq (level : echo.Level state twin) (knows : echo.Knows state) (look : Look) :
    setup.holds twin frame look = setup.holds state frame look := by
  rw [setup.holds_eq_plain _ _ knows.running, setup.holds_eq_plain _ _ level.running, level.pos_eq]

theorem Level.finish_eq (level : echo.Level state twin) (inner : Frame) :
    setup.finish twin inner = setup.finish state inner := by
  simp only [Setup.finish, Setup.stopFrom, level.pos_eq]

theorem Level.move (level : echo.Level state twin) (pos : Nat) :
    echo.Level { state with pos } { twin with pos } :=
  { level with pos_eq := rfl }

/-- Two runs that stand level and give up are echoed. -/
theorem Level.failAll (level : echo.Level state twin) (texts : List String)
    (other twinOther : Frame) :
    echo.Outcomes ⟨.failed, state.failAll texts, other⟩ ⟨.failed, twin.failAll texts, twinOther⟩ :=
  .failed rfl fun _ => ⟨rfl, ⟨level.running, level.table_eq, level.diagnostics_eq, level.proper,
    level.trying_eq⟩⟩

/-- Inside of a trial the two runs are level as well. -/
theorem Level.deeper (level : echo.Level state twin) :
    echo.inner.Level { state with speculating := state.speculating + 1 }
      { twin with speculating := twin.speculating + 1 } := by
  have proper := level.proper
  refine ⟨⟨level.running, level.table_eq, level.diagnostics_eq, ?_, ?_⟩, level.pos_eq,
    State.trying_inside level.tried⟩
  · change 0 ≤ twin.speculating + 1
    omega
  · simp only [State.trying, decide_eq_true_eq]
    omega

/-- Behind a trial the run goes on as it was. -/
theorem Ready.back {run : State → Reply} (keeps : Keeps run) (ready : echo.Ready twin)
    (inside : echo.inner.Ready (run { twin with speculating := twin.speculating + 1 }).state) :
    echo.Ready (trial run twin).2 := by
  have follows := Setup.follows_trial keeps twin
  refine ⟨inside.running, inside.table_eq, inside.diagnostics_eq, ?_, ?_⟩
  · rw [follows.speculating_eq]
    exact ready.proper
  · rw [follows.trying_eq]
    exact ready.trying_eq

/-- What encloses a phrase is echoed as the phrase is. -/
theorem Outcomes.enclose {outcome twinOutcome : Outcome}
    (outcomes : echo.Outcomes outcome twinOutcome) (outer kept : Frame) :
    echo.Outcomes (setup.enclose outer outcome kept) (setup.enclose outer twinOutcome kept) := by
  cases outcomes with
  | ok inner level =>
      simp only [Setup.enclose, level.finish_eq]
      exact .ok _ level
  | failed gaveUp echoed =>
      refine .failed (by simp only [Setup.enclose, gaveUp]) fun trying => ?_
      obtain ⟨twinGaveUp, ready⟩ := echoed trying
      rw [Setup.enclose_state]
      exact ⟨by simp only [Setup.enclose, twinGaveUp], ready⟩
  | stopped fatal => exact .stopped (by rwa [Setup.enclose_state])

theorem Outcomes.covered {outcome twinOutcome : Outcome}
    (outcomes : echo.Outcomes outcome twinOutcome) (frame : Frame) :
    echo.Outcomes (setup.covered outcome frame) (setup.covered twinOutcome frame) := by
  cases outcomes with
  | ok inner level => exact .ok _ level
  | failed gaveUp echoed =>
      refine .failed (by simp only [Setup.covered, gaveUp]) fun trying => ?_
      obtain ⟨twinGaveUp, ready⟩ := echoed trying
      rw [Setup.covered_state]
      exact ⟨by simp only [Setup.covered, twinGaveUp], ready⟩
  | stopped fatal => exact .stopped (by rwa [Setup.covered_state])

theorem Outcomes.documented {outcome twinOutcome : Outcome}
    (outcomes : echo.Outcomes outcome twinOutcome) (doc : Option Token) :
    echo.Outcomes (outcome.documented doc) (twinOutcome.documented doc) := by
  cases outcomes with
  | ok filled level => exact .ok _ level
  | failed gaveUp echoed =>
      refine .failed ((outcome.documented_verdict doc).trans gaveUp) fun trying => ?_
      rw [Outcome.documented_verdict, Outcome.documented_state]
      exact echoed trying
  | stopped fatal => exact .stopped (by rwa [Outcome.documented_state])

theorem Replies.into {reply twinReply : Reply} (replies : echo.Replies reply twinReply)
    (frame : Frame) : echo.Outcomes (reply.into frame) (twinReply.into frame) := by
  cases replies with
  | some parts level => exact .ok _ level
  | none echoed =>
      refine .failed rfl fun trying => ?_
      obtain ⟨gaveUp, ready⟩ := echoed trying
      rw [Reply.into_state]
      exact ⟨by simp only [Reply.into, gaveUp], ready⟩
  | stopped fatal => exact .stopped (by rwa [Reply.into_state])

/-- A run that has been abandoned stays so, whatever it goes on with. -/
theorem stays (keeps : ∀ rule, Keeps (call rule)) {outcome twinOutcome : Outcome}
    {phrase : Phrase} (goesOn : Verdict) (fatal : twinOutcome.state.fatal.isSome = true) :
    echo.Outcomes outcome
      (if twinOutcome.verdict = goesOn then
          setup.run call phrase twinOutcome.state twinOutcome.frame
        else twinOutcome) := by
  refine .stopped ?_
  split
  · exact (setup.follows_run keeps phrase _ _).stopped fatal
  · exact fatal

end Echo

namespace Caller.Echoes

theorem keeps (echoes : call.Echoes) (rule : Rule) : Keeps (call rule) :=
  (echoes.grows rule).keeps

/-- A point of recovery is echoed: it succeeds where its rule does. -/
theorem recovered (echoes : call.Echoes) {rule : Rule} (level : echo.Level state twin)
    (notUnit : rule ≠ .compilationUnit)
    (knows : echo.Knows (setup.recovered (call rule) state).state) :
    echo.Replies (setup.recovered (call rule) state) (setup.recovered (call rule) twin) := by
  have inside : echo.Level { state with furthest := .none } { twin with furthest := .none } :=
    { level with pos_eq := level.pos_eq }
  have follows := echoes.keeps rule { state with furthest := .none }
  have twinFollows := echoes.keeps rule { twin with furthest := .none }
  have replies := echoes.replies echo rule inside notUnit
  rcases twinFound : call rule { twin with furthest := .none } with ⟨twinParts?, twinAfter⟩
  rw [twinFound] at replies twinFollows
  -- Recovery changes nothing about whether the run has been abandoned.
  have stopped : twinAfter.fatal.isSome = true →
      (setup.recovered (call rule) twin).state.fatal.isSome = true := by
    rw [Setup.recovered_fatal, twinFound]
    exact id
  rcases setup.recovered_cases (call rule) state with
    ⟨parts, after, found, same⟩ | ⟨after, found, ⟨-, same⟩ | ⟨notTrying, -, -⟩⟩
  · rw [same] at knows ⊢
    rw [found] at replies
    cases replies ⟨knows.running, knows.kept⟩ with
    | some _ after =>
        rw [Setup.recovered_of_some twinFound]
        exact .some parts { after with pos_eq := after.pos_eq }
    | stopped fatal => exact .stopped (stopped fatal)
  · rw [same] at knows ⊢
    rw [found] at replies
    cases replies ⟨knows.running, knows.kept⟩ with
    | none echoed =>
        refine .none fun trying => ?_
        obtain ⟨rfl, ready⟩ := echoed trying
        have given : 0 < twinAfter.speculating := by
          simpa [State.trying] using ready.trying_eq.trans trying
        rw [Setup.recovered_of_given twinFound (.inl given)]
        exact ⟨rfl, ⟨ready.running, ready.table_eq, ready.diagnostics_eq, ready.proper,
          ready.trying_eq⟩⟩
    | stopped fatal => exact .stopped (stopped fatal)
  · rw [found] at follows
    refine absurd ?_ notTrying
    rw [follows.speculating_eq]
    simpa [State.trying] using level.tried

/-- Loops are echoed as their rounds are. -/
theorem loop (echoes : call.Echoes) {look : Look} {body : Phrase}
    (round : ∀ {state twin : State} (frame : Frame), echo.Level state twin →
      echo.Knows (setup.run call body state frame).state →
      echo.Outcomes (setup.run call body state frame) (setup.run call body twin frame))
    (rounds : Nat) {state twin : State} (frame : Frame) (level : echo.Level state twin)
    (knows : echo.Knows (repeatWhile (fun state frame => setup.holds state frame look)
      (fun state frame => setup.run call body state frame) rounds state frame).state) :
    echo.Outcomes
      (repeatWhile (fun state frame => setup.holds state frame look)
        (fun state frame => setup.run call body state frame) rounds state frame)
      (repeatWhile (fun state frame => setup.holds state frame look)
        (fun state frame => setup.run call body state frame) rounds twin frame) := by
  have grown : ∀ (rounds : Nat) (state : State) frame, state.Grows
      (repeatWhile (fun state frame => setup.holds state frame look)
        (fun state frame => setup.run call body state frame) rounds state frame).state :=
    Setup.repeatWhile_relates (fun state => .of_follows (.refl state) rfl) .trans
      (fun state frame => setup.run_grows echoes.grows body state frame)
  have follows : ∀ (rounds : Nat) (state : State) frame, state.Follows
      (repeatWhile (fun state frame => setup.holds state frame look)
        (fun state frame => setup.run call body state frame) rounds state frame).state :=
    fun rounds state frame => (grown rounds state frame).toFollows
  induction rounds generalizing state twin frame with
  | zero => exact .ok frame level
  | succ rounds ih =>
      have now := knows.before (grown (rounds + 1) state frame) level.tried
      simp only [repeatWhile, level.holds_eq now] at knows ⊢
      split
      · rename_i goesOn
        rw [if_pos goesOn] at knows
        have once := round frame level
        have grows := setup.run_grows echoes.grows body state frame
        rcases found : setup.run call body state frame with ⟨verdict, middle, between⟩
        rw [found] at once grows
        simp only [found] at knows
        have later : echo.Knows middle := by
          cases verdict with
          | ok =>
              have tried := grows.toFollows.trying_eq.trans level.tried
              exact knows.before (grown rounds middle between) tried
          | failed | ended => exact knows
        rcases twinFound : setup.run call body twin frame with ⟨twinVerdict, twinMiddle, filled⟩
        rw [twinFound] at once
        cases once later with
        | ok _ again => exact ih between again knows
        | failed gaveUp echoed =>
            cases gaveUp
            refine .failed rfl fun trying => ?_
            obtain ⟨twinGaveUp, ready⟩ := echoed trying
            cases twinGaveUp
            exact ⟨rfl, ready⟩
        | stopped fatal =>
            refine .stopped ?_
            cases twinVerdict with
            | ok => exact (follows rounds twinMiddle filled).stopped fatal
            | failed | ended => exact fatal
      · exact .ok frame level

/-- Two trials that start level have the same answer, and the run goes on as it
was, or the second one has been abandoned. -/
theorem trials (echoes : call.Echoes) {rule : Rule} (level : echo.Level state twin)
    (notUnit : rule ≠ .compilationUnit)
    (known : echo.Knows (trial (call rule) state).2) :
    ((trial (call rule) twin).1 = (trial (call rule) state).1 ∧
      echo.Ready (trial (call rule) twin).2) ∨
      (trial (call rule) twin).2.fatal.isSome = true := by
  have replies := echoes.replies echo.inner rule level.deeper notUnit ⟨known.running, known.kept⟩
  have back := level.toReady.back (echoes.keeps rule)
  simp only [trial] at back ⊢
  generalize call rule { state with speculating := state.speculating + 1 } = reply at replies ⊢
  generalize call rule { twin with speculating := twin.speculating + 1 } = twinReply
    at replies back ⊢
  cases replies with
  | some parts again => exact .inl ⟨rfl, back again.toReady⟩
  | none echoed =>
      obtain ⟨gaveUp, ready⟩ := echoed rfl
      exact .inl ⟨by rw [gaveUp], back ready⟩
  | stopped fatal => exact .inr fatal

/-- What closes a body is echoed: during a trial a missing token makes it give
up. -/
theorem close (level : echo.Level state twin) (kind : Token.Kind) (frame : Frame) :
    echo.Outcomes (setup.close kind state frame) (setup.close kind twin frame) := by
  simp only [Setup.close, level.pos_eq]
  split
  · simp only [Setup.advance, level.pos_eq]
    exact .ok _ (level.move _)
  · have tried : 0 < (state.fail kind.describe).speculating := of_decide_eq_true level.tried
    simp only [tried, decide_true, Bool.true_or, if_true]
    refine .failed rfl fun trying => ?_
    have twinTried : 0 < (twin.fail kind.describe).speculating :=
      of_decide_eq_true (level.trying_eq.trans trying)
    simp only [twinTried, decide_true, Bool.true_or, if_true]
    exact ⟨trivial, level.running, level.table_eq, level.diagnostics_eq, level.proper,
      level.trying_eq⟩

/-- What cannot be salvaged is echoed: the parse that has been abandoned is so
already. -/
theorem salvaged (echoes : call.Echoes) {first : Phrase}
    (running : (setup.run call first state frame).state.fatal = none)
    (early : echo.Outcomes (setup.run call first state frame) (setup.run call first twin frame)) :
    echo.Outcomes (setup.run call (.orElse first .salvage) state frame)
      (setup.run call (.orElse first .salvage) twin frame) := by
  rw [setup.run_orElse_salvage call running]
  by_cases twinRunning : (setup.run call first twin frame).state.fatal = none
  · rwa [setup.run_orElse_salvage call twinRunning]
  · have follows := setup.follows_orElse echoes.keeps first .salvage twin frame
    exact .stopped (follows.stopped (Option.isSome_iff_ne_none.mpr twinRunning))

/-- Phrases are echoed. -/
theorem run (echoes : call.Echoes) (echo : Echo) (phrase : Phrase) {state twin : State}
    (frame : Frame) (level : echo.Level state twin) (settled : phrase.settled true = true)
    (knows : echo.Knows (setup.run call phrase state frame).state) :
    echo.Outcomes (setup.run call phrase state frame) (setup.run call phrase twin frame) := by
  have grows := fun phrase state frame => setup.run_grows echoes.grows phrase state frame
  induction phrase generalizing state twin frame with
  | done | rekind => exact .ok _ level
  | operator =>
      simp only [Setup.run, level.pos_eq]
      exact .ok _ (level.move _)
  | stop => exact level.failAll [] _ _
  | expected texts => exact level.failAll texts _ _
  | seq first second firstIh secondIh =>
      obtain ⟨firstSettled, secondSettled⟩ := Bool.and_eq_true_iff.mp settled
      have tried := (grows first state frame).toFollows.trying_eq.trans level.tried
      have early := firstIh frame level firstSettled
        (knows.before (setup.grows_seq echoes.grows first second state frame) tried)
      rw [Setup.run_seq] at knows
      rw [Setup.run_seq, Setup.run_seq]
      generalize setup.run call first state frame = outcome at knows early ⊢
      generalize setup.run call first twin frame = twinOutcome at early ⊢
      cases early with
      | ok between again => exact secondIh between again secondSettled knows
      | failed gaveUp echoed =>
          rw [gaveUp, if_neg (by simp)]
          refine .failed gaveUp fun trying => ?_
          obtain ⟨twinGaveUp, ready⟩ := echoed trying
          rw [twinGaveUp, if_neg (by simp)]
          exact ⟨twinGaveUp, ready⟩
      | stopped fatal => exact Echo.stays echoes.keeps .ok fatal
  | token kind | leaf _ kind =>
      simp only [Setup.run, Setup.current, level.pos_eq]
      split
      · simp only [Setup.advance, level.pos_eq]
        exact .ok _ (level.move _)
      · exact level.failAll [kind.describe] _ _
  | pick _ accept | mark accept =>
      simp only [Setup.run, Setup.current, level.pos_eq]
      split
      · simp only [Setup.advance, level.pos_eq]
        exact .ok _ (level.move _)
      · exact level.failAll [] _ _
  | node kind body ih =>
      simp only [Setup.run, Setup.enclose_state] at knows
      have opened : setup.frame twin kind = setup.frame state kind := by
        simp only [Setup.frame, level.pos_eq]
      simp only [Setup.run, opened]
      exact (ih _ level settled knows).enclose _ _
  | wrap kind body ih | reopen kind body ih =>
      simp only [Setup.run] at knows ⊢
      split
      · exact level.failAll [] _ _
      · rename_i parts
        simp only [parts, Setup.enclose_state] at knows
        exact (ih _ level settled knows).enclose _ _
  | cover kind body ih =>
      rw [Setup.run_cover, Setup.covered_state] at knows
      rw [Setup.run_cover, Setup.run_cover]
      exact (ih { kind, start := .origin } level settled knows).covered frame
  | branch look yes no yesIh noIh =>
      obtain ⟨yesSettled, noSettled⟩ := Bool.and_eq_true_iff.mp settled
      have now := knows.before (grows (.branch look yes no) state frame) level.tried
      rw [Setup.run_branch] at knows
      rw [Setup.run_branch, Setup.run_branch, level.holds_eq now]
      split
      · rename_i holds
        rw [if_pos holds] at knows
        exact yesIh frame level yesSettled knows
      · rename_i fails
        rw [if_neg fails] at knows
        exact noIh frame level noSettled knows
  | trial rule yes no yesIh noIh =>
      simp only [Phrase.settled, Bool.and_eq_true, bne_iff_ne] at settled
      obtain ⟨⟨notUnit, yesSettled⟩, noSettled⟩ := settled
      have tried : (trial (call rule) state).2.trying = true :=
        (Setup.follows_trial (echoes.keeps rule) state).trying_eq.trans level.tried
      rw [Setup.run_trial] at knows
      have known := knows.before (grows _ (trial (call rule) state).2 frame) tried
      rw [Setup.run_trial, Setup.run_trial]
      rcases echoes.trials level notUnit known with ⟨same, ready⟩ | stopped
      · have again : echo.Level (trial (call rule) state).2 (trial (call rule) twin).2 :=
          ⟨ready, level.pos_eq, tried⟩
        rw [same]
        split
        · rename_i success
          rw [if_pos success] at knows
          exact yesIh frame again yesSettled knows
        · rename_i failure
          rw [if_neg failure] at knows
          exact noIh frame again noSettled knows
      · exact .stopped ((setup.follows_run echoes.keeps _ _ _).stopped stopped)
  | call rule =>
      have notUnit : rule ≠ .compilationUnit := by simpa [Phrase.settled] using settled
      rw [Setup.run_call, Reply.into_state] at knows
      rw [Setup.run_call, Setup.run_call]
      exact (echoes.replies echo rule level notUnit knows).into frame
  | recover rule =>
      have notUnit : rule ≠ .compilationUnit := by simpa [Phrase.settled] using settled
      rw [Setup.run_recover, Reply.into_state] at knows
      rw [Setup.run_recover, Setup.run_recover]
      exact (echoes.recovered level notUnit knows).into frame
  | orElse first second firstIh secondIh =>
      rcases Phrase.settled_orElse settled with ⟨rfl, firstSettled⟩ | ⟨-, inEarnest, -⟩
      · have tried := (grows first state frame).toFollows.trying_eq.trans level.tried
        have known :=
          knows.before (setup.grows_orElse echoes.grows first .salvage state frame) tried
        exact echoes.salvaged known.running (firstIh frame level firstSettled known)
      · cases inEarnest
  | loop look body ih =>
      simp only [Setup.run, level.pos_eq] at knows ⊢
      exact echoes.loop (fun frame level knows => ih frame level
        (Bool.and_eq_true_iff.mp settled).2 knows) _ frame level knows
  | documented body ih =>
      rw [Setup.run_documented, Outcome.documented_state] at knows
      rw [Setup.run_documented, Setup.run_documented, level.pos_eq]
      exact (ih frame level settled knows).documented _
  | closing kind => exact close level kind frame
  | salvage =>
      have running := (setup.follows_salvage state frame).fatal knows.running
      simp only [Setup.run, Setup.salvage, running, level.running]
      exact level.failAll [] _ _

end Caller.Echoes

end Phrases

/-! ## Rules -/

/-- A way to run a rule is echoed by itself. -/
def Echoed (run : State → Reply) : Prop :=
  ∀ (echo : Echo) {state twin : State}, echo.Level state twin → echo.Knows (run state).state →
    echo.Replies (run state) (run twin)

section Rules

variable {setup : Setup} {call : Caller} {run : State → Reply} {rule : Rule}

theorem Caller.Echoes.runBody (echoes : call.Echoes) (notUnit : rule ≠ .compilationUnit) :
    Echoed (setup.runBody call rule) := by
  intro echo state twin level knows
  have opened : setup.frame twin .error = setup.frame state .error := by
    simp only [Setup.frame, level.pos_eq]
  have inner : echo.Knows (setup.run call rule.body state (setup.frame state .error)).state →
      echo.Outcomes (setup.run call rule.body state (setup.frame state .error))
        (setup.run call rule.body twin (setup.frame state .error)) :=
    echoes.run echo rule.body _ level (rule.body_settled true fun _ => notUnit)
  simp only [Setup.runBody, opened] at knows ⊢
  generalize setup.run call rule.body state _ = outcome at knows inner ⊢
  generalize setup.run call rule.body twin _ = twinOutcome at inner ⊢
  have known : echo.Knows outcome.state := by
    split at knows <;> exact knows
  cases inner known with
  | ok filled again => exact .some _ again
  | failed gaveUp echoed =>
      rw [gaveUp]
      refine .none fun trying => ?_
      obtain ⟨twinGaveUp, ready⟩ := echoed trying
      rw [twinGaveUp]
      exact ⟨rfl, ready⟩
  | stopped fatal =>
      refine .stopped ?_
      split <;> exact fatal

/-- A guard lets the trial in, and it lets the second run in or abandons it. -/
theorem Setup.guarded_echoed (echoed : Echoed run) : Echoed (setup.guarded run) := by
  intro echo state twin level knows
  rcases setup.guarded_cases run state with ⟨-, same⟩ | ⟨after, same, stopped, -⟩
  · rcases setup.guarded_cases run twin with ⟨-, twinSame⟩ | ⟨after, twinSame, stopped, -⟩
    · have inside : echo.Level { state with steps := state.steps + 1, depth := state.depth + 1 }
          { twin with steps := twin.steps + 1, depth := twin.depth + 1 } :=
        { level with pos_eq := level.pos_eq }
      rw [same] at knows ⊢
      rw [twinSame]
      have replies := echoed echo inside ⟨knows.running, knows.kept⟩
      generalize run { state with steps := state.steps + 1, depth := state.depth + 1 } = reply
        at replies ⊢
      generalize run { twin with steps := twin.steps + 1, depth := twin.depth + 1 } = twinReply
        at replies ⊢
      cases replies with
      | some parts again => exact .some parts { again with pos_eq := again.pos_eq }
      | none gaveUp => exact .none fun trying =>
          ⟨(gaveUp trying).1, (gaveUp trying).2.running, (gaveUp trying).2.table_eq,
            (gaveUp trying).2.diagnostics_eq, (gaveUp trying).2.proper,
            (gaveUp trying).2.trying_eq⟩
      | stopped fatal => exact .stopped fatal
    · rw [twinSame]
      exact .stopped stopped
  · rw [same] at knows
    rw [show after.fatal = none from knows.running] at stopped
    cases stopped

/-- What a rule did in the trial is kept, and the second run replays it. -/
theorem memoized_echoed (keeps : Keeps run) (slot : Memo.Slot) : Echoed (memoized slot run) := by
  intro echo state twin level knows
  have tried : 0 < state.speculating := of_decide_eq_true level.tried
  have twinTable : (twin.memo.get ⟨slot, state.pos⟩).2.table = echo.memo.table :=
    (twin.memo.get_table _).trans level.table_eq
  -- What the second run makes of an outcome that the trial leaves in the table.
  have replays : ∀ outcome : Memo.Outcome, echo.memo.table[(⟨slot, state.pos⟩ : Memo.Key)]? =
      some outcome → ∀ after : State, after.trying = true →
      (outcome.parts?.isSome = true → after.pos = outcome.stop) →
      echo.Replies ⟨outcome.parts?, after⟩ (memoized slot run twin) := by
    rintro ⟨parts?, stop, furthest⟩ found after afterTried here
    have twinFound : (twin.memo.get ⟨slot, state.pos⟩).1 = some ⟨parts?, stop, furthest⟩ := by
      rw [twin.memo.get_fst, level.table_eq, found]
    simp only [memoized, level.pos_eq, twinFound]
    cases parts? with
    | some parts =>
        exact .some parts ⟨⟨level.running, twinTable, level.diagnostics_eq, level.proper,
          level.trying_eq⟩, (here rfl).symm, afterTried⟩
    | none =>
        refine .none fun trying => ?_
        have twinTried : 0 < twin.speculating := of_decide_eq_true (level.trying_eq.trans trying)
        simp only [twinTried, if_true]
        exact ⟨trivial, level.running, twinTable, level.diagnostics_eq, level.proper,
          level.trying_eq⟩
  rcases found : (state.memo.get ⟨slot, state.pos⟩).1 with - | ⟨- | parts, stop, furthest⟩
  · -- The trial has run the rule and kept the outcome.
    let opened : State :=
      { state with memo := (state.memo.get ⟨slot, state.pos⟩).2, furthest := .none }
    have level : (run opened).state.trying = true :=
      (keeps opened).trying_eq.trans level.tried
    have ran : memoized slot run state = remember ⟨slot, state.pos⟩ run
        { state with memo := (state.memo.get ⟨slot, state.pos⟩).2 } := by
      simp only [memoized, found]
    rw [ran] at knows ⊢
    have running : (run opened).state.fatal = none := by
      have running := knows.running
      simp only [remember] at running
      split at running <;> exact running
    have kept := knows.kept ⟨slot, state.pos⟩
    simp only [remember, show (run { state with
      memo := (state.memo.get ⟨slot, state.pos⟩).2, furthest := .none }).state.fatal = none
        from running, Option.isSome_none, Bool.false_eq_true, if_false] at kept ⊢
    refine replays _ (kept _ (Memo.table_put_self _ _ _)) _ level fun success => ?_
    exact (if_pos success).symm
  · -- The trial has given up as an earlier one did.
    have replayed : memoized slot run state =
        ⟨none, { state with
          memo := (state.memo.get ⟨slot, state.pos⟩).2
          furthest := state.furthest.merge furthest }⟩ := by
      simp only [memoized, found, tried, if_true]
    rw [replayed] at knows ⊢
    rw [state.memo.get_fst] at found
    have kept := knows.kept ⟨slot, state.pos⟩ _ ((state.memo.get_table _).symm ▸ found)
    exact replays _ kept _ level.tried fun success => by cases success
  · -- The trial has replayed a success.
    have replayed : memoized slot run state =
        ⟨some parts, { state with
          memo := (state.memo.get ⟨slot, state.pos⟩).2
          pos := stop
          furthest := state.furthest.merge furthest }⟩ := by
      simp only [memoized, found]
    rw [replayed] at knows ⊢
    rw [state.memo.get_fst] at found
    have kept := knows.kept ⟨slot, state.pos⟩ _ ((state.memo.get_table _).symm ▸ found)
    exact replays _ kept _ level.tried fun _ => rfl

/-- All calls of rules are echoed. -/
theorem Setup.callWith_echoes (setup : Setup) (budget : Nat) :
    Caller.Echoes (setup.callWith budget) := by
  induction budget with
  | zero =>
      refine ⟨setup.callWith_grows 0, fun echo rule state twin level _ _ => ?_⟩
      exact .none fun _ => ⟨rfl, level.toReady⟩
  | succ budget ih =>
      refine ⟨setup.callWith_grows _, fun echo rule state twin level notUnit => ?_⟩
      have keeps := setup.keeps_runBody (setup.keeps_callWith budget) rule
      let holds (run : State → Reply) : Prop := Keeps run ∧ Echoed run
      have both : holds (setup.runRule (setup.callWith budget) rule) := by
        refine setup.runRule_induction ⟨keeps, ih.runBody notUnit⟩ ?_ ?_
        · exact fun ⟨keeps, echoed⟩ => ⟨setup.keeps_guarded keeps, setup.guarded_echoed echoed⟩
        · exact fun _ ⟨keeps, _⟩ => ⟨Setup.keeps_memoized _ keeps, memoized_echoed keeps _⟩
      exact both.2 echo level

/-- What an echo says about a trial that succeeded. -/
theorem Echo.Replies.foretells {echo : Echo} {reply twinReply : Reply}
    (replies : echo.Replies reply twinReply) (success : reply.parts?.isSome = true) :
    twinReply.state.fatal.isSome = true ∨
      (twinReply.parts?.isSome = true ∧ twinReply.parts? = reply.parts? ∧
        twinReply.state.pos = reply.state.pos ∧
        twinReply.state.diagnostics = echo.diagnostics) := by
  cases replies with
  | some parts level => exact .inr ⟨rfl, rfl, level.pos_eq, level.diagnostics_eq⟩
  | none _ => cases success
  | stopped fatal => exact .inl fatal

/-- Where a trial of a rule succeeds and the parse is not abandoned in it, the
rule does in earnest what it did in the trial: it leaves the same parts, ends at
the same place and reports nothing, unless the parse is abandoned then. That
holds in any state and with whatever is in the memo table, be it in use or not.
The rule for a unit is never tried: what it recovers from is in its own body. -/
theorem Setup.trial_foretells (setup : Setup) (rule : Rule) (state : State)
    (part : rule ≠ .compilationUnit) (proper : 0 ≤ state.speculating)
    (success : (trial (setup.call rule) state).1 = true)
    (running : (trial (setup.call rule) state).2.fatal = none) :
    let tried := setup.call rule { state with speculating := state.speculating + 1 }
    let after := (trial (setup.call rule) state).2
    let reply := setup.call rule after
    reply.state.fatal.isSome = true ∨
      (reply.parts?.isSome = true ∧ reply.parts? = tried.parts? ∧
        reply.state.pos = tried.state.pos ∧ reply.state.diagnostics = after.diagnostics) := by
  intro tried after reply
  let echo : Echo := ⟨tried.state.memo, after.diagnostics, after.trying⟩
  have follows : state.Follows after :=
    follows_trial (setup.keeps_callWith setup.budget rule) state
  have level : echo.Level { state with speculating := state.speculating + 1 } after := by
    refine ⟨⟨running, rfl, rfl, ?_, rfl⟩, rfl, ?_⟩
    · rw [follows.speculating_eq]
      exact proper
    · simp only [State.trying, decide_eq_true_eq]
      omega
  have replies := (setup.callWith_echoes setup.budget).replies echo rule level part
    ⟨running, .of_eq rfl⟩
  exact Echo.Replies.foretells replies success

/-- In front of a cast the trial of its head is nested in the trial of the
statement; in earnest the head is replayed. -/
theorem Setup.trial_foretells_cast :
    let setup := Setup.ofSource (.of [] "x = (int) y;") {}
    let tried := setup.call .blockStatement { setup.initial with speculating := 1 }
    let after := (trial (setup.call .blockStatement) setup.initial).2
    let reply := setup.call .blockStatement after
    (trial (setup.call .blockStatement) setup.initial).1 = true ∧ after.fatal = none ∧
      reply.state.pos = 7 ∧
      (reply.state.fatal.isSome = true ∨
        (reply.parts?.isSome = true ∧ reply.parts? = tried.parts? ∧
          reply.state.pos = tried.state.pos ∧ reply.state.diagnostics = after.diagnostics)) := by
  have success : (trial ((Setup.ofSource (.of [] "x = (int) y;") {}).call .blockStatement)
      (Setup.ofSource (.of [] "x = (int) y;") {}).initial).1 = true := by
    decide +kernel
  have running : (trial ((Setup.ofSource (.of [] "x = (int) y;") {}).call .blockStatement)
      (Setup.ofSource (.of [] "x = (int) y;") {}).initial).2.fatal = none := by
    decide +kernel
  exact ⟨success, running, by decide +kernel,
    Setup.trial_foretells _ .blockStatement _ (by decide) (by decide) success running⟩

/-- A unit with half an import in it does not do in earnest what it did in the trial:
the trial passes the import over, and in earnest an error is reported and marked. -/
theorem Setup.trial_misleads :
    let setup := Setup.ofSource (.of [] "import") {}
    let tried := setup.call .compilationUnit { setup.initial with speculating := 1 }
    let after := (trial (setup.call .compilationUnit) setup.initial).2
    let reply := setup.call .compilationUnit after
    (trial (setup.call .compilationUnit) setup.initial).1 = true ∧ after.fatal = none ∧
      after.diagnostics.size = 0 ∧
      tried.parts?.map (·.map fun unit => unit.children.map (·.kind)) = some [[]] ∧
      reply.state.fatal = none ∧ reply.state.diagnostics.size = 1 ∧
      reply.parts?.map (·.map fun unit => unit.children.map (·.kind)) = some [[.error]] := by
  decide +kernel

end Rules

end JavaFront.Parser
