import JavaFront.Proofs.Grammar.Plain
import JavaFront.Proofs.Parser.Abandonment
import JavaFront.Proofs.Parser.Conservation
import JavaFront.Proofs.Parser.Transparency

/-!
# Two runs at one place

Two parses of one text run the same phrases, the first one with the memo table
or without it, the second one without it. They are level where they stand at
the same index, have not been abandoned and have met no failure that they could
go on from. They fail with the same failure, or, in a lossy pairing, the second
one gives up where the first one recovers.

What else the two have in common is left open, and so is how nested calls are
compared. The budgets of the two may differ as long as both are enough.
-/

namespace JavaFront

namespace Failure

variable {failure : Failure}

/-- A failure that was met, or none. -/
def Proper (failure : Failure) : Prop :=
  failure = .none ∨ 0 ≤ failure.pos

theorem Proper.record (proper : failure.Proper) (pos : Nat) (text : String) :
    (failure.record pos text).Proper := by
  right
  simp only [Failure.record]
  rcases proper with rfl | met
  · split
    · exact Int.natCast_nonneg pos
    · rename_i notBefore
      simp only [Failure.none] at notBefore
      omega
  · split
    · exact Int.natCast_nonneg pos
    · split <;> exact met

theorem Proper.recordAll (proper : failure.Proper) (pos : Nat) (texts : List String) :
    (failure.recordAll pos texts).Proper := by
  simp only [Failure.recordAll]
  induction texts generalizing failure with
  | nil => exact proper
  | cons text texts ih => exact ih (proper.record pos text)

/-- Without a failure of its own a run takes over the failure of another. -/
theorem Proper.none_merge (proper : failure.Proper) : none.merge failure = failure := by
  rcases proper with rfl | met
  · rfl
  · have before : none.pos < failure.pos := Int.lt_of_lt_of_le (by decide) met
    rw [merge, if_neg (Int.not_lt.mpr (Int.le_of_lt before)), if_pos before]

end Failure

namespace Parser

/-! ## Recovery -/

/-- In front of the end of the text, and inside of trials, what does not close a
body is a failure. -/
theorem Setup.close_of_open (setup : Setup) {kind : Token.Kind} {state : State} (frame : Frame)
    (missing : setup.stream.kind state.pos ≠ kind)
    (given : 0 < state.speculating ∨ setup.stream.kind state.pos ≠ .eof) :
    setup.close kind state frame = ⟨.failed, state.fail kind.describe, frame⟩ := by
  rcases given with trying | notEnd
  · simp [Setup.close, State.fail, missing, trying]
  · simp [Setup.close, State.fail, missing, notEnd]

/-- A body that the end of the text cuts off is reported and marked. -/
theorem Setup.close_of_cut (setup : Setup) {kind : Token.Kind} {state failed : State}
    (frame : Frame) (missing : setup.stream.kind state.pos ≠ kind)
    (notTrying : ¬ 0 < state.speculating) (atEnd : setup.stream.kind state.pos = .eof)
    (running : state.fatal = none)
    (fails : state.fail kind.describe = failed) :
    setup.close kind state frame =
      ⟨.ok, { setup.report failed failed.furthest with furthest := .none },
        frame.push (setup.errorMark { setup.report failed failed.furthest with furthest := .none }
          (setup.diagnose failed failed.furthest).message
          (setup.diagnose failed failed.furthest).expected)⟩ := by
  subst fails
  have goesOn : ¬ (decide (0 < (state.fail kind.describe).speculating) ||
      (state.fail kind.describe).fatal.isSome ||
      setup.stream.kind (state.fail kind.describe).pos != .eof) = true := by
    simp [State.fail, notTrying, running, atEnd]
  simp only [Setup.close, if_neg missing, if_neg goesOn]

/-- A rule that is read with recovery fails inside of trials only, unless the
parse has been abandoned. -/
theorem trying_of_recovered {setup : Setup} {run : State → Reply} (keeps : Keeps run)
    {state : State} (failed : (setup.recovered run state).parts? = none)
    (running : (setup.recovered run state).state.fatal = none) : state.trying = true := by
  have follows := keeps { state with furthest := .none }
  rw [Setup.recovered_fatal] at running
  simp only [Setup.recovered] at failed
  split at failed
  · cases failed
  · split at failed
    · rename_i given
      simpa [running, follows.speculating_eq, State.trying] using given
    · cases failed

/-! ## Pairings -/

/-- What two runs are compared by besides the place they stand at. -/
structure Ground where
  speculating : Int
  diagnostics : Array Diagnostic
  memo : Memo

def State.ground (state : State) : Ground :=
  ⟨state.speculating, state.diagnostics, state.memo⟩

/-- How two runs are compared: whether the first one uses the memo table, what
their grounds have in common, whether they run all phrases or plain ones only,
and whether the second one may give up where the first one recovers. -/
structure Pairing where
  setup : Setup
  memo : Bool
  grounds : Ground → Ground → Prop
  whole : Bool
  lossy : Bool

namespace Pairing

variable (pairing : Pairing)

abbrev first : Setup :=
  pairing.setup.withMemo pairing.memo

abbrev second : Setup :=
  pairing.setup.withMemo false

abbrev stream : Stream :=
  pairing.setup.stream

/-- Two runs stand at the same place and may go on from there. -/
structure Level (state twin : State) : Prop where
  pos_eq : twin.pos = state.pos
  inside : state.pos ≤ pairing.stream.last
  running : state.fatal = none
  twinRunning : twin.fatal = none
  fresh : state.furthest = .none
  twinFresh : twin.furthest = .none
  grounds : pairing.grounds state.ground twin.ground

/-- Two runs have failed with the same failure; outside of trials also at the
same place. -/
structure Stuck (state twin : State) : Prop where
  place : state.trying = true ∨ twin.pos = state.pos
  running : state.fatal = none
  twinRunning : twin.fatal = none
  furthest_eq : twin.furthest = state.furthest
  proper : state.furthest.Proper
  grounds : pairing.grounds state.ground twin.ground

/-- How two phrases that started level at an index have ended. -/
inductive Outcomes (consumes : Bool) (pos : Nat) : Outcome → Outcome → Prop
  | ok {state twin : State} (frame : Frame) : pairing.Level state twin →
      Moves pairing.stream consumes pos state.pos →
      Outcomes consumes pos ⟨.ok, state, frame⟩ ⟨.ok, twin, frame⟩
  | failed {state twin : State} (frame other : Frame) : pairing.Stuck state twin →
      Outcomes consumes pos ⟨.failed, state, frame⟩ ⟨.failed, twin, other⟩
  | lost {outcome : Outcome} {twin : State} (other : Frame) : pairing.lossy = true →
      twin.fatal = none → Outcomes consumes pos outcome ⟨.failed, twin, other⟩
  | stopped {outcome twinOutcome : Outcome} : outcome.state.fatal.isSome = true →
      Outcomes consumes pos outcome twinOutcome
  | twinStopped {outcome twinOutcome : Outcome} : twinOutcome.state.fatal.isSome = true →
      Outcomes consumes pos outcome twinOutcome

/-- How two rules that started level at an index have ended. -/
inductive Replies (consumes : Bool) (pos : Nat) : Reply → Reply → Prop
  | some {state twin : State} (parts : List Node) : pairing.Level state twin →
      Moves pairing.stream consumes pos state.pos →
      Replies consumes pos ⟨some parts, state⟩ ⟨some parts, twin⟩
  | none {state twin : State} : pairing.Stuck state twin →
      Replies consumes pos ⟨none, state⟩ ⟨none, twin⟩
  | lost {reply : Reply} {twin : State} : pairing.lossy = true → twin.fatal = none →
      Replies consumes pos reply ⟨none, twin⟩
  | stopped {reply twinReply : Reply} : reply.state.fatal.isSome = true →
      Replies consumes pos reply twinReply
  | twinStopped {reply twinReply : Reply} : twinReply.state.fatal.isSome = true →
      Replies consumes pos reply twinReply

/-- How two trials that started level have ended: level at the same place and
with the same answer, unless one of the parses was abandoned. -/
def Trials (state : State) (attempt twinAttempt : Bool × State) : Prop :=
  (attempt.1 = twinAttempt.1 ∧ pairing.Level attempt.2 twinAttempt.2 ∧
    attempt.2.pos = state.pos) ∨
  attempt.2.fatal.isSome = true ∨ twinAttempt.2.fatal.isSome = true

/-- The calls of two runs, with budgets for further calls, go on as the pairing
says. -/
structure Calls (budget twinBudget : Nat) (call twinCall : Caller) : Prop where
  keeps : ∀ rule, Keeps (call rule)
  twinKeeps : ∀ rule, Keeps (twinCall rule)
  calls : ∀ (rule : Rule) {state twin : State}, pairing.Level state twin →
    need pairing.stream rule state.pos ≤ budget → need pairing.stream rule state.pos ≤ twinBudget →
    (twin.trying = true → rule ≠ .compilationUnit) →
    pairing.whole = true ∨ rule.isPlain = true →
    pairing.Replies rule.consumes state.pos (call rule state) (twinCall rule twin)
  trials : ∀ (rule : Rule) {state twin : State}, pairing.Level state twin →
    need pairing.stream rule state.pos ≤ budget → need pairing.stream rule state.pos ≤ twinBudget →
    rule ≠ .compilationUnit → pairing.whole = true ∨ rule.isPlain = true →
    pairing.Trials state (trial (call rule) state) (trial (twinCall rule) twin)
  recovers : pairing.whole = true → ∀ (rule : Rule) {state twin : State}, pairing.Level state twin →
    need pairing.stream rule state.pos ≤ budget → need pairing.stream rule state.pos ≤ twinBudget →
    rule ≠ .compilationUnit →
    pairing.Replies false state.pos (pairing.first.recovered (call rule) state)
      (pairing.second.recovered (twinCall rule) twin)
  closes : pairing.whole = true → ∀ (kind : Token.Kind) (frame : Frame) {state twin : State},
    pairing.Level state twin →
    pairing.Outcomes false state.pos (pairing.first.close kind state frame)
      (pairing.second.close kind twin frame)

end Pairing

section Phrases

variable {pairing : Pairing} {budget twinBudget : Nat} {call twinCall : Caller}
  {state twin : State} {consumes : Bool} {pos : Nat}

namespace Pairing

/-! ## Level states -/

theorem Level.stuck (level : pairing.Level state twin) : pairing.Stuck state twin where
  place := .inr level.pos_eq
  running := level.running
  twinRunning := level.twinRunning
  furthest_eq := by rw [level.fresh, level.twinFresh]
  proper := .inl level.fresh
  grounds := level.grounds

theorem Level.failAll (level : pairing.Level state twin) (texts : List String) :
    pairing.Stuck (state.failAll texts) (twin.failAll texts) where
  place := .inr level.pos_eq
  running := level.running
  twinRunning := level.twinRunning
  furthest_eq := by simp only [State.failAll, level.fresh, level.twinFresh, level.pos_eq]
  proper := Failure.Proper.recordAll (.inl level.fresh) state.pos texts
  grounds := level.grounds

theorem Level.advance (level : pairing.Level state twin) :
    pairing.Level (pairing.first.advance state) (pairing.second.advance twin) :=
  { level with
    pos_eq := by simp only [Setup.advance, level.pos_eq]
    inside := Stream.succ_le_last level.inside }

theorem Level.holds_eq (level : pairing.Level state twin) (frame : Frame) (look : Look) :
    pairing.first.holds state frame look = pairing.second.holds twin frame look := by
  rw [Setup.holds_eq_plain _ _ _ level.running, Setup.holds_eq_plain _ _ _ level.twinRunning,
    level.pos_eq]

theorem Level.frame_eq (level : pairing.Level state twin) (kind : Node.Kind) :
    pairing.first.frame state kind = pairing.second.frame twin kind := by
  simp only [Setup.frame, level.pos_eq]

/-! ## Outcomes -/

/-- From the outcome of a phrase to that of what encloses it. -/
theorem Outcomes.enclose {outcome twinOutcome : Outcome}
    (outcomes : pairing.Outcomes consumes pos outcome twinOutcome) (outer frame : Frame) :
    pairing.Outcomes consumes pos (pairing.first.enclose outer outcome frame)
      (pairing.second.enclose outer twinOutcome frame) := by
  cases outcomes with
  | @ok state twin inner level moves =>
      have sameNode : pairing.first.finish state inner = pairing.second.finish twin inner := by
        simp only [Setup.finish, Setup.stopFrom, level.pos_eq]
      simp only [Setup.enclose, sameNode]
      exact .ok _ level moves
  | failed _ _ stuck => exact .failed _ _ stuck
  | lost _ lossy running => exact .lost _ lossy running
  | stopped fatal => exact .stopped (by rwa [Setup.enclose_state])
  | twinStopped fatal => exact .twinStopped (by rwa [Setup.enclose_state])

theorem Outcomes.covered {outcome twinOutcome : Outcome}
    (outcomes : pairing.Outcomes consumes pos outcome twinOutcome) (frame : Frame) :
    pairing.Outcomes consumes pos (pairing.first.covered outcome frame)
      (pairing.second.covered twinOutcome frame) := by
  cases outcomes with
  | ok _ level moves => exact .ok _ level moves
  | failed _ _ stuck => exact .failed _ _ stuck
  | lost _ lossy running => exact .lost _ lossy running
  | stopped fatal => exact .stopped (by rwa [Setup.covered_state])
  | twinStopped fatal => exact .twinStopped (by rwa [Setup.covered_state])

theorem Outcomes.documented {outcome twinOutcome : Outcome}
    (outcomes : pairing.Outcomes consumes pos outcome twinOutcome) (doc : Option Token) :
    pairing.Outcomes consumes pos (outcome.documented doc) (twinOutcome.documented doc) := by
  cases outcomes with
  | ok _ level moves => exact .ok _ level moves
  | failed _ _ stuck => exact .failed _ _ stuck
  | lost _ lossy running => exact .lost _ lossy running
  | stopped fatal => exact .stopped (by rwa [Outcome.documented_state])
  | twinStopped fatal => exact .twinStopped (by rwa [Outcome.documented_state])

theorem Replies.into {reply twinReply : Reply}
    (replies : pairing.Replies consumes pos reply twinReply) (frame : Frame) :
    pairing.Outcomes consumes pos (reply.into frame) (twinReply.into frame) := by
  cases replies with
  | some parts level moves => exact .ok _ level moves
  | none stuck => exact .failed _ _ stuck
  | lost lossy running => exact .lost _ lossy running
  | stopped fatal => exact .stopped (by simpa only [Reply.into_state] using fatal)
  | twinStopped fatal => exact .twinStopped (by simpa only [Reply.into_state] using fatal)

/-- Unless a parse was abandoned, the first rule succeeds where the second one
does. -/
theorem Replies.succeeds {reply twinReply : Reply}
    (replies : pairing.Replies consumes pos reply twinReply) (running : reply.state.fatal = .none)
    (twinRunning : twinReply.state.fatal = .none) (success : twinReply.parts?.isSome = true) :
    reply.parts?.isSome = true := by
  cases replies with
  | some parts level moves => rfl
  | none stuck => cases success
  | lost lossy notStopped => cases success
  | stopped fatal => simp [running] at fatal
  | twinStopped fatal => simp [twinRunning] at fatal

/-- Two rules leave the same. -/
structure Agree (pairing : Pairing) (consumes : Bool) (pos : Nat) (reply twinReply : Reply) :
    Prop where
  parts_eq : twinReply.parts? = reply.parts?
  furthest_eq : twinReply.state.furthest = reply.state.furthest
  proper : reply.state.furthest.Proper
  grounds : pairing.grounds reply.state.ground twinReply.state.ground
  fresh : reply.parts?.isSome = true → reply.state.furthest = .none
  pos_eq : reply.parts?.isSome = true → twinReply.state.pos = reply.state.pos
  moves : reply.parts?.isSome = true → Moves pairing.stream consumes pos reply.state.pos

/-- Unless a parse was abandoned, two rules in a pairing that is not lossy leave
the same. -/
theorem Replies.agree {reply twinReply : Reply}
    (replies : pairing.Replies consumes pos reply twinReply) (strict : pairing.lossy = false)
    (running : reply.state.fatal = .none) (twinRunning : twinReply.state.fatal = .none) :
    pairing.Agree consumes pos reply twinReply := by
  cases replies with
  | some parts level moves =>
      exact ⟨rfl, level.twinFresh.trans level.fresh.symm, .inl level.fresh, level.grounds,
        fun _ => level.fresh, fun _ => level.pos_eq, fun _ => moves⟩
  | none stuck =>
      exact ⟨rfl, stuck.furthest_eq, stuck.proper, stuck.grounds, by simp, by simp, by simp⟩
  | lost lossy notStopped => simp [strict] at lossy
  | stopped fatal => simp [running] at fatal
  | twinStopped fatal => simp [twinRunning] at fatal

/-- Behind two trials with the same answer the runs are level again. -/
theorem Level.trials {run twinRun : State → Reply} (level : pairing.Level state twin)
    (kept : (trial run state).2.fatal = .none → (trial twinRun twin).2.fatal = .none →
      (trial run state).1 = (trial twinRun twin).1 ∧
      pairing.grounds (trial run state).2.ground (trial twinRun twin).2.ground) :
    pairing.Trials state (trial run state) (trial twinRun twin) := by
  cases running : (trial run state).2.fatal with
  | some reason => exact .inr (.inl (by rw [running]; rfl))
  | none =>
      cases twinRunning : (trial twinRun twin).2.fatal with
      | some reason => exact .inr (.inr (by rw [twinRunning]; rfl))
      | none =>
          obtain ⟨same, grounds⟩ := kept running twinRunning
          exact .inl ⟨same, ⟨level.pos_eq, level.inside, running, twinRunning, level.fresh,
            level.twinFresh, grounds⟩, rfl⟩

/-- In a pairing that is not lossy two trials have the same answer. -/
theorem Level.trials_of_replies {run twinRun : State → Reply} (level : pairing.Level state twin)
    (strict : pairing.lossy = false)
    (replies : pairing.Replies consumes pos
      (run { state with speculating := state.speculating + 1 })
      (twinRun { twin with speculating := twin.speculating + 1 }))
    (back : pairing.grounds (run { state with speculating := state.speculating + 1 }).state.ground
        (twinRun { twin with speculating := twin.speculating + 1 }).state.ground →
      pairing.grounds (trial run state).2.ground (trial twinRun twin).2.ground) :
    pairing.Trials state (trial run state) (trial twinRun twin) := by
  refine level.trials fun running twinRunning => ?_
  have agree := replies.agree strict running twinRunning
  exact ⟨congrArg Option.isSome agree.parts_eq.symm, back agree.grounds⟩

/-! ## Phrases -/

/-- What starts behind a phrase that moved on has moved on as well. -/
theorem Outcomes.behind {before : Bool} {first : Nat} {outcome twinOutcome : Outcome}
    (moves : Moves pairing.stream before first pos)
    (outcomes : pairing.Outcomes consumes pos outcome twinOutcome) :
    pairing.Outcomes (before || consumes) first outcome twinOutcome := by
  cases outcomes with
  | ok frame level later => exact .ok frame level (moves.trans later)
  | failed frame other stuck => exact .failed frame other stuck
  | lost other lossy running => exact .lost other lossy running
  | stopped fatal => exact .stopped fatal
  | twinStopped fatal => exact .twinStopped fatal

theorem Outcomes.mono {less : Bool} {outcome twinOutcome : Outcome}
    (outcomes : pairing.Outcomes consumes pos outcome twinOutcome)
    (implied : less = true → consumes = true) : pairing.Outcomes less pos outcome twinOutcome := by
  cases outcomes with
  | ok frame level moves => exact .ok frame level (moves.mono implied)
  | failed frame other stuck => exact .failed frame other stuck
  | lost other lossy running => exact .lost other lossy running
  | stopped fatal => exact .stopped fatal
  | twinStopped fatal => exact .twinStopped fatal

/-- A phrase stays ready where the cursor has moved on. -/
theorem ready_of_moves {before : Bool} {phrase : Phrase} {after : Nat}
    (ready : Ready pairing.stream budget phrase pos)
    (moves : Moves pairing.stream before pos after) :
    Ready pairing.stream budget phrase after := by
  rcases Nat.lt_or_eq_of_le moves.le with forward | same
  · exact ready.of_lt phrase forward moves.inside
  · exact same ▸ ready

/-- Where a parse was abandoned, the phrase behind does not matter. -/
theorem Calls.stays (calls : pairing.Calls budget twinBudget call twinCall) (phrase : Phrase)
    (goesOn : Verdict) {outcome twinOutcome : Outcome}
    (fatal : outcome.state.fatal.isSome = true ∨ twinOutcome.state.fatal.isSome = true) :
    pairing.Outcomes consumes pos
      (if outcome.verdict = goesOn then
          pairing.first.run call phrase outcome.state outcome.frame
        else outcome)
      (if twinOutcome.verdict = goesOn then
          pairing.second.run twinCall phrase twinOutcome.state twinOutcome.frame
        else twinOutcome) := by
  rcases fatal with fatal | fatal
  · refine .stopped ?_
    split
    · exact (pairing.first.follows_run calls.keeps phrase _ _).stopped fatal
    · exact fatal
  · refine .twinStopped ?_
    split
    · exact (pairing.second.follows_run calls.twinKeeps phrase _ _).stopped fatal
    · exact fatal

/-- An attempt does not fail, so all that runs behind a failure is salvage. -/
theorem Calls.salvages (calls : pairing.Calls budget twinBudget call twinCall)
    {first second : Phrase} (frame : Frame)
    (settled : (Phrase.orElse first second).settled twin.trying = true)
    (failed : (pairing.second.run twinCall first twin frame).verdict = .failed)
    (running : (pairing.second.run twinCall first twin frame).state.fatal = .none) :
    second = .salvage := by
  rcases Phrase.settled_orElse settled with ⟨salvage, -⟩ | ⟨-, notTrying, rule, rfl, -⟩
  · exact salvage
  · rw [Setup.run_recover] at failed running
    rw [Reply.into_state] at running
    have gaveUp := Reply.failed_of_into failed
    have trying := trying_of_recovered (calls.twinKeeps rule) gaveUp running
    rw [notTrying] at trying
    cases trying

/-- Alternatives go on as their first phrases do. -/
theorem Calls.orElse (calls : pairing.Calls budget twinBudget call twinCall)
    {first second : Phrase} (frame : Frame)
    (settled : (Phrase.orElse first second).settled twin.trying = true)
    (once : pairing.Outcomes consumes pos (pairing.first.run call first state frame)
      (pairing.second.run twinCall first twin frame)) :
    pairing.Outcomes consumes pos (pairing.first.run call (.orElse first second) state frame)
      (pairing.second.run twinCall (.orElse first second) twin frame) := by
  have salvages := calls.salvages frame settled
  rw [Setup.run_orElse, Setup.run_orElse]
  generalize pairing.first.run call first state frame = outcome at once ⊢
  generalize pairing.second.run twinCall first twin frame = twinOutcome at once salvages ⊢
  cases once with
  | ok inner next moves => exact .ok inner next moves
  | failed _ _ stuck =>
      rw [salvages rfl stuck.twinRunning]
      simp only [Setup.run, Setup.salvage, stuck.running, stuck.twinRunning]
      exact .failed _ _ stuck
  | lost _ lossy running =>
      rw [salvages rfl running]
      simp only [Setup.run, Setup.salvage, running]
      exact .lost _ lossy running
  | stopped fatal => exact calls.stays second .failed (.inl fatal)
  | twinStopped fatal => exact calls.stays second .failed (.inr fatal)

/-- Loops go on level as their rounds do. -/
theorem Calls.repeatWhile (calls : pairing.Calls budget twinBudget call twinCall) {look : Look}
    {body : Phrase} {trying : Bool}
    (round : ∀ {state twin : State} (frame : Frame), pairing.Level state twin →
      twin.trying = trying → Ready pairing.stream budget body.lax state.pos →
      Ready pairing.stream twinBudget body.lax state.pos →
      pairing.Outcomes body.lax.consumes state.pos (pairing.first.run call body state frame)
        (pairing.second.run twinCall body twin frame))
    (rounds : Nat) {state twin : State} (frame : Frame) (level : pairing.Level state twin)
    (sameTrying : twin.trying = trying) (ready : Ready pairing.stream budget body.lax state.pos)
    (twinReady : Ready pairing.stream twinBudget body.lax state.pos) :
    pairing.Outcomes false state.pos
      (Parser.repeatWhile (fun state frame => pairing.first.holds state frame look)
        (fun state frame => pairing.first.run call body state frame) rounds state frame)
      (Parser.repeatWhile (fun state frame => pairing.second.holds state frame look)
        (fun state frame => pairing.second.run twinCall body state frame) rounds twin frame) := by
  induction rounds generalizing state twin frame with
  | zero => exact .ok frame level (.rest level.inside)
  | succ rounds ih =>
      have follows := pairing.first.follows_run calls.keeps body
      have twinFollows := pairing.second.follows_run calls.twinKeeps body
      simp only [Parser.repeatWhile, level.holds_eq frame look]
      split
      · have once := round frame level sameTrying ready twinReady
        have moved := twinFollows twin frame
        generalize pairing.first.run call body state frame = outcome at once ⊢
        generalize pairing.second.run twinCall body twin frame = twinOutcome at once moved ⊢
        cases once with
        | ok inner next moves =>
            exact ((ih inner next (moved.trying_eq.trans sameTrying) (ready_of_moves ready moves)
              (ready_of_moves twinReady moves)).behind moves).mono (by simp)
        | failed frame other stuck => exact .failed _ _ stuck
        | lost other lossy running => exact .lost _ lossy running
        | stopped fatal =>
            refine .stopped ?_
            split
            · exact (Setup.follows_repeatWhile follows _ _ _).stopped fatal
            · exact fatal
        | twinStopped fatal =>
            refine .twinStopped ?_
            split
            · exact (Setup.follows_repeatWhile twinFollows _ _ _).stopped fatal
            · exact fatal
      · exact .ok frame level (.rest level.inside)

/-- What may be run in a pairing: any phrase in a whole one, otherwise plain
ones only. -/
def Fits (pairing : Pairing) (phrase : Phrase) : Prop :=
  pairing.whole = true ∨ phrase.isPlain = true

theorem Fits.both {whole first second : Phrase} (fits : pairing.Fits whole)
    (parts : whole.isPlain = (first.isPlain && second.isPlain)) :
    pairing.Fits first ∧ pairing.Fits second := by
  rcases fits with all | plain
  · exact ⟨.inl all, .inl all⟩
  · rw [parts, Bool.and_eq_true] at plain
    exact ⟨.inr plain.1, .inr plain.2⟩

/-- Recovery and what belongs to it is left to whole pairings. -/
theorem Fits.whole {phrase : Phrase} (fits : pairing.Fits phrase)
    (recovers : phrase.isPlain = false) : pairing.whole = true := by
  rcases fits with all | plain
  · exact all
  · rw [recovers] at plain
    cases plain

/-- Two runs that start level go on level, fail with the same failure or part in
a way that the pairing allows. -/
theorem Calls.run (ordered : pairing.stream.Ordered)
    (calls : pairing.Calls budget twinBudget call twinCall) (phrase : Phrase) {state twin : State}
    (frame : Frame) (level : pairing.Level state twin)
    (ready : Ready pairing.stream budget phrase.lax state.pos)
    (twinReady : Ready pairing.stream twinBudget phrase.lax state.pos)
    (settled : phrase.settled twin.trying = true) (fits : pairing.Fits phrase) :
    pairing.Outcomes phrase.lax.consumes state.pos (pairing.first.run call phrase state frame)
      (pairing.second.run twinCall phrase twin frame) := by
  have follows := pairing.first.follows_run calls.keeps
  have twinFollows := pairing.second.follows_run calls.twinKeeps
  induction phrase generalizing state twin frame with
  | done | rekind => exact .ok _ level (.rest level.inside)
  | stop => exact .failed _ _ level.stuck
  | expected texts => exact .failed _ _ (level.failAll texts)
  | salvage =>
      simp only [Setup.run, Setup.salvage, level.running, level.twinRunning]
      exact .failed _ _ level.stuck
  | seq first second firstIh secondIh =>
      obtain ⟨firstSettled, secondSettled⟩ := Bool.and_eq_true_iff.mp settled
      obtain ⟨firstFits, secondFits⟩ := fits.both rfl
      have once := firstIh frame level ready.seq_first twinReady.seq_first firstSettled firstFits
      have moved := twinFollows first twin frame
      rw [Setup.run_seq, Setup.run_seq]
      generalize pairing.first.run call first state frame = outcome at once ⊢
      generalize pairing.second.run twinCall first twin frame = twinOutcome at once moved ⊢
      cases once with
      | ok inner next moves =>
          exact (secondIh inner next (ready.seq_second moves) (twinReady.seq_second moves)
            (by rw [moved.trying_eq]; exact secondSettled) secondFits).behind moves
      | failed _ _ stuck => exact .failed _ _ stuck
      | lost _ lossy running => exact .lost _ lossy running
      | stopped fatal => exact calls.stays second .ok (.inl fatal)
      | twinStopped fatal => exact calls.stays second .ok (.inr fatal)
  | token kind =>
      simp only [Setup.run, level.pos_eq]
      split
      · rename_i found
        refine .ok _ level.advance (.succ ordered level.inside fun consumed => ?_)
        simpa [found, Phrase.lax, Phrase.consumes] using consumed
      · exact .failed _ _ (level.failAll [kind.describe])
  | leaf node kind =>
      simp only [Setup.run, Setup.current, level.pos_eq]
      split
      · rename_i found
        refine .ok _ level.advance (.succ ordered level.inside fun consumed => ?_)
        simpa [found, Phrase.lax, Phrase.consumes] using consumed
      · exact .failed _ _ (level.failAll [kind.describe])
  | pick node accept | mark accept =>
      simp only [Setup.run, Setup.current, level.pos_eq]
      split
      · rename_i accepted
        refine .ok _ level.advance (.succ ordered level.inside fun consumed atEnd => ?_)
        simp [Phrase.lax, Phrase.consumes, ← atEnd, accepted] at consumed
      · exact .failed _ _ level.stuck
  | operator =>
      simp only [Setup.run, level.pos_eq]
      refine .ok _ { level with pos_eq := rfl, inside := ?_ }
        ⟨?_, ?_, by simp [Phrase.lax, Phrase.consumes]⟩
      · exact Stream.advance_le_last _ level.inside
      · exact pairing.stream.le_advance _ _
      · exact Stream.advance_le_last _ level.inside
  | node kind body ih =>
      simp only [Setup.run, level.frame_eq]
      exact (ih _ level (ready.mono fun _ => id) (twinReady.mono fun _ => id) settled fits).enclose
        frame frame
  | wrap kind body ih | reopen kind body ih =>
      simp only [Setup.run]
      split
      · exact .failed _ _ level.stuck
      · exact (ih _ level (ready.mono fun _ => id) (twinReady.mono fun _ => id) settled
          fits).enclose _ frame
  | cover kind body ih =>
      rw [Setup.run_cover, Setup.run_cover]
      exact (ih { kind, start := .origin } level (ready.mono fun _ => id)
        (twinReady.mono fun _ => id) settled fits).covered frame
  | branch look yes no yesIh noIh =>
      obtain ⟨yesSettled, noSettled⟩ := Bool.and_eq_true_iff.mp settled
      obtain ⟨yesFits, noFits⟩ := fits.both rfl
      rw [Setup.run_branch, Setup.run_branch, level.holds_eq frame look]
      split
      · exact (yesIh frame level ready.branches.1 twinReady.branches.1 yesSettled yesFits).mono
          fun consumed => (Bool.and_eq_true_iff.mp consumed).1
      · exact (noIh frame level ready.branches.2 twinReady.branches.2 noSettled noFits).mono
          fun consumed => (Bool.and_eq_true_iff.mp consumed).2
  | trial rule yes no yesIh noIh =>
      simp only [Phrase.settled, Bool.and_eq_true, bne_iff_ne] at settled
      obtain ⟨⟨notUnit, yesSettled⟩, noSettled⟩ := settled
      have fitting : (pairing.whole = true ∨ rule.isPlain = true) ∧ pairing.Fits yes ∧
          pairing.Fits no := by
        rcases fits with all | plain
        · exact ⟨.inl all, .inl all, .inl all⟩
        · simp only [Phrase.isPlain, Bool.and_eq_true] at plain
          exact ⟨.inr plain.1.1, .inr plain.1.2, .inr plain.2⟩
      obtain ⟨ruleFits, yesFits, noFits⟩ := fitting
      obtain ⟨enough, yesReady, noReady⟩ := ready.trials
      obtain ⟨twinEnough, twinYes, twinNo⟩ := twinReady.trials
      have tried := calls.trials rule level enough twinEnough notUnit ruleFits
      have moved := Setup.follows_trial (calls.twinKeeps rule) twin
      rw [Setup.run_trial, Setup.run_trial]
      generalize trial (call rule) state = attempt at tried ⊢
      generalize trial (twinCall rule) twin = twinAttempt at tried moved ⊢
      rcases tried with ⟨same, next, back⟩ | fatal | fatal
      · rw [same]
        split
        · refine (back ▸ yesIh frame next (back ▸ yesReady) (back ▸ twinYes)
            (by rw [moved.trying_eq]; exact yesSettled) yesFits).mono ?_
          exact fun consumed => (Bool.and_eq_true_iff.mp consumed).1
        · refine (back ▸ noIh frame next (back ▸ noReady) (back ▸ twinNo)
            (by rw [moved.trying_eq]; exact noSettled) noFits).mono ?_
          exact fun consumed => (Bool.and_eq_true_iff.mp consumed).2
      · exact .stopped ((follows _ _ _).stopped fatal)
      · exact .twinStopped ((twinFollows _ _ _).stopped fatal)
  | call rule =>
      rw [Setup.run_call, Setup.run_call]
      exact (calls.calls rule level ready.need_le twinReady.need_le
        (fun _ => by simpa [Phrase.settled] using settled) fits).into frame
  | recover rule =>
      have notUnit : rule ≠ .compilationUnit := by simpa [Phrase.settled] using settled
      rw [Setup.run_recover, Setup.run_recover]
      have replies := calls.recovers (fits.whole rfl) rule level ready.branches.1.need_le
        twinReady.branches.1.need_le notUnit
      exact (replies.into frame).mono (by simp [Phrase.lax, Phrase.consumes])
  | closing kind =>
      exact (calls.closes (fits.whole rfl) kind frame level).mono
        (by simp [Phrase.lax, Phrase.consumes])
  | orElse first second firstIh _ =>
      have whole : pairing.whole = true := fits.whole rfl
      have leads : ∀ limit, (Phrase.orElse first second).lax.leads limit →
          first.lax.leads limit := fun limit leads => (Bool.and_eq_true_iff.mp leads).1
      have firstSettled : first.settled twin.trying = true := by
        rcases Phrase.settled_orElse settled with ⟨-, inner⟩ | ⟨-, -, rule, rfl, notUnit⟩
        · exact inner
        · simpa [Phrase.settled] using notUnit
      exact calls.orElse frame settled
        (firstIh frame level (ready.mono leads) (twinReady.mono leads) firstSettled (.inl whole))
  | loop look body ih =>
      obtain ⟨-, bodySettled⟩ := Bool.and_eq_true_iff.mp settled
      simp only [Setup.run, level.pos_eq]
      refine calls.repeatWhile ?_ _ frame level rfl (ready.mono fun _ => id)
        (twinReady.mono fun _ => id)
      intro state other frame level sameTrying ready twinReady
      exact ih frame level ready twinReady (by rw [sameTrying]; exact bodySettled) fits
  | documented body ih =>
      rw [Setup.run_documented, Setup.run_documented, level.pos_eq]
      exact (ih frame level (ready.mono fun _ => id) (twinReady.mono fun _ => id) settled
        fits).documented _

/-! ## Rules -/

/-- Two ways to run a rule, with budgets for its call, go on as the pairing
says. -/
def GoesOn (pairing : Pairing) (budget twinBudget : Nat) (rule : Rule)
    (run twinRun : State → Reply) : Prop :=
  ∀ ⦃state twin : State⦄, pairing.Level state twin → need pairing.stream rule state.pos ≤ budget →
    need pairing.stream rule state.pos ≤ twinBudget →
    (twin.trying = true → rule ≠ .compilationUnit) →
    pairing.Replies rule.consumes state.pos (run state) (twinRun twin)

theorem Calls.runBody (ordered : pairing.stream.Ordered)
    (calls : pairing.Calls budget twinBudget call twinCall) {rule : Rule}
    (fits : pairing.Fits rule.body) :
    pairing.GoesOn (budget + 1) (twinBudget + 1) rule (pairing.first.runBody call rule)
      (pairing.second.runBody twinCall rule) := by
  intro state twin level enough twinEnough notUnit
  have ready : ∀ {budget : Nat}, need pairing.stream rule state.pos ≤ budget + 1 →
      Ready pairing.stream budget rule.body.lax state.pos :=
    fun enough => ⟨rule.rank, rule.body_lax_leads, Nat.le_of_succ_le_succ enough⟩
  have inner := calls.run ordered rule.body (pairing.first.frame state .error) level (ready enough)
    (ready twinEnough) (rule.body_settled twin.trying notUnit) fits
  simp only [Setup.runBody, ← level.frame_eq]
  generalize pairing.first.run call rule.body state _ = outcome at inner ⊢
  generalize pairing.second.run twinCall rule.body twin _ = twinOutcome at inner ⊢
  cases inner with
  | ok frame next moves => exact .some _ next (moves.mono Rule.body_lax_consumes)
  | failed _ _ stuck => exact .none stuck
  | lost _ lossy running => exact .lost lossy running
  | stopped fatal =>
      refine .stopped ?_
      split <;> exact fatal
  | twinStopped fatal =>
      refine .twinStopped ?_
      split <;> exact fatal

/-- A guard lets both runs in, or one of the parses is abandoned. -/
theorem Level.guarded {run twinRun : State → Reply} (level : pairing.Level state twin)
    (inner : ∀ {state' twin' : State}, pairing.Level state' twin' → state'.pos = state.pos →
      twin'.trying = twin.trying → pairing.Replies consumes pos (run state') (twinRun twin')) :
    pairing.Replies consumes pos (pairing.first.guarded run state)
      (pairing.second.guarded twinRun twin) := by
  rcases pairing.first.guarded_cases run state with ⟨-, same⟩ | ⟨after, same, fatal, -⟩
  · rcases pairing.second.guarded_cases twinRun twin with
      ⟨-, twinSame⟩ | ⟨after, twinSame, fatal, -⟩
    · have inside : pairing.Level
          { state with steps := state.steps + 1, depth := state.depth + 1 }
          { twin with steps := twin.steps + 1, depth := twin.depth + 1 } :=
        { level with pos_eq := level.pos_eq }
      have replies := inner inside rfl rfl
      rw [same, twinSame]
      generalize run { state with steps := state.steps + 1, depth := state.depth + 1 } = reply
        at replies ⊢
      generalize twinRun { twin with steps := twin.steps + 1, depth := twin.depth + 1 } = twinReply
        at replies ⊢
      cases replies with
      | some parts next moves => exact .some parts { next with pos_eq := next.pos_eq } moves
      | none stuck => exact .none { stuck with place := stuck.place }
      | lost lossy running => exact .lost lossy running
      | stopped fatal => exact .stopped fatal
      | twinStopped fatal => exact .twinStopped fatal
    · rw [twinSame]
      exact .twinStopped fatal
  · rw [same]
    exact .stopped fatal

theorem Calls.entered (ordered : pairing.stream.Ordered)
    (calls : pairing.Calls budget twinBudget call twinCall) {rule : Rule}
    (fits : pairing.Fits rule.body) :
    pairing.GoesOn (budget + 1) (twinBudget + 1) rule (pairing.first.entered call rule)
      (pairing.second.entered twinCall rule) := by
  have body := calls.runBody ordered fits
  intro state twin level enough twinEnough notUnit
  simp only [Setup.entered]
  split
  · refine level.guarded fun {state' twin'} inside samePos sameTrying => ?_
    rw [← samePos] at enough twinEnough ⊢
    exact body inside enough twinEnough (by rw [sameTrying]; exact notUnit)
  · exact body level enough twinEnough notUnit

end Pairing

end Phrases

end Parser

end JavaFront
