import JavaFront.Proofs.Parser.Plain

/-!
# The memo table on erroneous texts

Outside of trials a rule may recover from errors, so what the memo table keeps
of it may hold error nodes whose reports are not given again. That is all that
goes wrong: if every annotation of a text reads on its own, the rules that are
kept recover from nothing, each kept outcome is what its rule leaves whenever it
is run again, and the table makes no difference to the tree and the reports,
however many errors there are.
-/

namespace JavaFront

theorem Memo.Slot.rule_isPlain (slot : Memo.Slot) : slot.rule.isPlain = true := by
  cases slot <;> rfl

theorem Memo.Slot.rule_ne_unit (slot : Memo.Slot) : slot.rule ≠ .compilationUnit := by
  cases slot <;> decide

namespace Parser

/-! ## Outcomes that may be replayed -/

/-- Whenever the rule of an outcome is run again at its index, without the memo
table and with so many trials around it at least, it leaves this outcome and
reports nothing, or the parse is abandoned. -/
structure Replayable (setup : Setup) (least : Int) (key : Memo.Key) (outcome : Memo.Outcome) :
    Prop where
  proper : outcome.furthest.Proper
  fresh : outcome.parts?.isSome = true → outcome.furthest = .none
  moves : outcome.parts?.isSome = true →
    Moves setup.stream key.slot.rule.consumes key.pos outcome.stop
  again : ∀ {budget : Nat} {state : State} {reply : Reply}, state.pos = key.pos →
    state.fatal = none → state.furthest = .none → least ≤ state.speculating →
    need setup.stream key.slot.rule key.pos ≤ budget →
    (setup.withMemo false).callWith budget key.slot.rule state = reply →
    reply.state.fatal = none →
    reply.parts? = outcome.parts? ∧ reply.state.furthest = outcome.furthest ∧
      reply.state.diagnostics = state.diagnostics ∧
      (outcome.parts?.isSome = true → reply.state.pos = outcome.stop)

/-- A state from which a rule can be run to be compared with other runs. -/
structure Setup.Open (setup : Setup) (least : Int) (pos : Nat) (state : State) : Prop where
  pos_eq : state.pos = pos
  running : state.fatal = none
  fresh : state.furthest = .none
  least_le : least ≤ state.speculating

/-- Two runs of a rule without the memo table, with so many trials around them
at least, leave the same and report nothing. -/
def Setup.ReadsAlike (setup : Setup) (least : Int) (rule : Rule) : Prop :=
  ∀ {pos budget twinBudget : Nat} {state twin : State}, pos ≤ setup.stream.last →
    setup.Open least pos state → setup.Open least pos twin →
    need setup.stream rule pos ≤ budget → need setup.stream rule pos ≤ twinBudget →
    ((setup.withMemo false).callWith budget rule state).state.fatal = none →
    ((setup.withMemo false).callWith twinBudget rule twin).state.fatal = none →
    ((setup.withMemo false).callWith twinBudget rule twin).state.diagnostics =
        twin.diagnostics ∧
      ∃ pairing : Pairing, pairing.setup = setup ∧
        pairing.Agree rule.consumes pos ((setup.withMemo false).callWith budget rule state)
          ((setup.withMemo false).callWith twinBudget rule twin)

section Replays

variable {setup : Setup} {least : Int}

/-- Where annotations read on their own, the rules that the memo table keeps read
alike inside of trials and outside. -/
theorem Setup.readsAlike_of_annotated (ordered : setup.stream.Ordered)
    (annotated : (setup.withMemo false).Annotated) (slot : Memo.Slot) :
    setup.ReadsAlike 0 slot.rule := by
  intro pos budget twinBudget state twin inside first second enough twinEnough running twinRunning
  have level : (plainPairing setup state.diagnostics twin.diagnostics).Level state twin :=
    ⟨second.pos_eq.trans first.pos_eq.symm, first.pos_eq ▸ inside, first.running, second.running,
      first.fresh, second.fresh, first.least_le, second.least_le, rfl, rfl⟩
  have replies := setup.plain_alike ordered annotated budget twinBudget _ _ slot.rule
    slot.rule_isPlain level (first.pos_eq ▸ enough) (first.pos_eq ▸ twinEnough)
    fun _ => slot.rule_ne_unit
  have agree := replies.agree rfl running twinRunning
  exact ⟨agree.grounds.2.2.2, plainPairing setup state.diagnostics twin.diagnostics, rfl,
    first.pos_eq ▸ agree⟩

/-- Trials read alike. -/
theorem Setup.readsAlike_trying (ordered : setup.stream.Ordered) {rule : Rule}
    (notUnit : rule ≠ .compilationUnit) : setup.ReadsAlike 1 rule := by
  intro pos budget twinBudget state twin inside first second enough twinEnough running twinRunning
  have trying : 0 < state.speculating := first.least_le
  have twinTrying : 0 < twin.speculating := second.least_le
  have level : (trialPairing setup false state.diagnostics).Level state twin :=
    ⟨second.pos_eq.trans first.pos_eq.symm, first.pos_eq ▸ inside, first.running, second.running,
      first.fresh, second.fresh, Int.le_of_lt trying, fun _ => trying, twinTrying, rfl⟩
  have replies := (setup.tried_alike ordered false budget twinBudget).1 _ rule level
    (first.pos_eq ▸ enough) (first.pos_eq ▸ twinEnough) fun _ => notUnit
  have hushed := (setup.withMemo false).hushes_callWith twinBudget rule twin
  exact ⟨hushed.silent (decide_eq_true twinTrying) twinRunning,
    trialPairing setup false state.diagnostics, rfl,
    first.pos_eq ▸ replies.agree rfl running twinRunning⟩

/-- What a rule leaves that the memo table keeps may be replayed. -/
theorem Setup.ReadsAlike.replayable {slot : Memo.Slot} (alike : setup.ReadsAlike least slot.rule)
    {budget : Nat} {state : State} {reply : Reply} (inside : state.pos ≤ setup.stream.last)
    (running : state.fatal = none) (fresh : state.furthest = .none)
    (least_le : least ≤ state.speculating) (enough : need setup.stream slot.rule state.pos ≤ budget)
    (found : (setup.withMemo false).callWith budget slot.rule state = reply)
    (notStopped : reply.state.fatal = none) {stop : Nat}
    (stops : reply.parts?.isSome = true → reply.state.pos = stop) :
    Replayable setup least ⟨slot, state.pos⟩ ⟨reply.parts?, stop, reply.state.furthest⟩ := by
  subst found
  have here : setup.Open least state.pos state := ⟨rfl, running, fresh, least_le⟩
  obtain ⟨-, pairing, rfl, self⟩ := alike inside here here enough enough notStopped notStopped
  refine ⟨self.proper, self.fresh, fun success => stops success ▸ self.moves success, ?_⟩
  intro other twin twinReply samePos twinRunning twinFresh twinLeast twinEnough twinFound
    twinNotStopped
  subst twinFound
  obtain ⟨silent, pairing, -, agree⟩ := alike inside here ⟨samePos, twinRunning, twinFresh,
    twinLeast⟩ enough twinEnough notStopped twinNotStopped
  exact ⟨agree.parts_eq, agree.furthest_eq, silent,
    fun success => (agree.pos_eq success).trans (stops success)⟩

end Replays

/-! ## With the table and without it -/

/-- A run with the memo table and one without it, with so many trials around
them at least. They make the same reports, and all outcomes in the table may be
replayed. -/
def memoPairing (setup : Setup) (least : Int) : Pairing where
  setup := setup
  memo := true
  grounds ground twin :=
    least ≤ ground.speculating ∧ twin.speculating = ground.speculating ∧
      twin.diagnostics = ground.diagnostics ∧ ground.memo.All (Replayable setup least)
  whole := true
  lossy := false

/-- Calls with the memo table and without it go on in step. -/
def MemoAlike (setup : Setup) (least : Int) (budget : Nat) : Prop :=
  ∀ rule : Rule, (memoPairing setup least).GoesOn budget budget rule
    ((setup.withMemo true).callWith budget rule) ((setup.withMemo false).callWith budget rule)

section Memo

variable {setup : Setup} {least : Int} {budget : Nat} {state twin : State}

theorem MemoAlike.trials (alike : MemoAlike setup least budget) (rule : Rule)
    (level : (memoPairing setup least).Level state twin)
    (enough : need setup.stream rule state.pos ≤ budget) (notUnit : rule ≠ .compilationUnit) :
    (memoPairing setup least).Trials state
      (trial ((setup.withMemo true).callWith budget rule) state)
      (trial ((setup.withMemo false).callWith budget rule) twin) := by
  obtain ⟨enclosed, same, told, replayable⟩ := level.grounds
  have tried : (memoPairing setup least).Level { state with speculating := state.speculating + 1 }
      { twin with speculating := twin.speculating + 1 } :=
    { level with
      grounds := ⟨Int.le_add_one enclosed, congrArg (· + 1) same, told, replayable⟩ }
  have both := alike rule tried enough enough fun _ => notUnit
  have follows := Setup.follows_trial ((setup.withMemo true).keeps_callWith budget rule) state
  have twinFollows := Setup.follows_trial ((setup.withMemo false).keeps_callWith budget rule) twin
  refine level.trials_of_replies rfl both fun after => ?_
  obtain ⟨-, -, toldAfter, replayableAfter⟩ := after
  exact ⟨le_of_le_of_eq enclosed follows.speculating_eq.symm,
    twinFollows.speculating_eq.trans (same.trans follows.speculating_eq.symm), toldAfter,
    replayableAfter⟩

/-- The same failure at the same place makes the same diagnostic. -/
theorem Setup.diagnose_memo (setup : Setup) (samePos : twin.pos = state.pos) (failure : Failure) :
    (setup.withMemo false).diagnose twin failure =
      (setup.withMemo true).diagnose state failure := by
  simp only [Setup.diagnose, samePos]

/-- Grounds that are alike stay so where both runs report the same failure. -/
theorem Setup.report_grounds (setup : Setup) (samePos : twin.pos = state.pos)
    (grounds : (memoPairing setup least).grounds state.ground twin.ground) (failure : Failure) :
    (memoPairing setup least).grounds ((setup.withMemo true).report state failure).ground
      ((setup.withMemo false).report twin failure).ground := by
  have sameIndex : (if failure.pos < 0 then twin.pos else failure.pos.toNat) =
      if failure.pos < 0 then state.pos else failure.pos.toNat := by
    rw [samePos]
  obtain ⟨enclosed, same, told, replayable⟩ := grounds
  simp only [Setup.report, sameIndex, setup.diagnose_memo samePos]
  generalize (if failure.pos < 0 then state.pos else failure.pos.toNat) = index
  split
  · exact ⟨enclosed, same, told, replayable⟩
  · have toldAfter := congrArg
      (fun reports => reports.push ((setup.withMemo true).diagnose state failure)) told
    exact ⟨enclosed, same, toldAfter, replayable⟩

/-- Behind the same failure at the same place both runs skip the same. -/
theorem Setup.skipped_memo (setup : Setup) {after twinAfter : State}
    (samePos : twin.pos = state.pos) (sameAfter : twinAfter.pos = after.pos)
    (sameFurthest : twinAfter.furthest = after.furthest) :
    ((setup.withMemo false).skipped twin twinAfter).1 =
        ((setup.withMemo true).skipped state after).1 ∧
      ((setup.withMemo false).skipped twin twinAfter).2.pos =
        ((setup.withMemo true).skipped state after).2.pos := by
  have plain : ∀ (memo : Bool) (state : State) (message : Bytes) (expected : List String),
      (setup.withMemo memo).skip state message expected = setup.skip state message expected :=
    fun memo => setup.skip_under { setup.options with memo }
  simp only [Setup.skipped, plain false, plain true, sameFurthest, setup.diagnose_memo sameAfter]
  simp only [Setup.skip, Setup.current, Setup.stopFrom, samePos]
  exact ⟨rfl, trivial⟩

theorem MemoAlike.recovers (alike : MemoAlike setup least budget) (rule : Rule)
    (level : (memoPairing setup least).Level state twin)
    (enough : need setup.stream rule state.pos ≤ budget) (notUnit : rule ≠ .compilationUnit) :
    (memoPairing setup least).Replies false state.pos
      ((setup.withMemo true).recovered ((setup.withMemo true).callWith budget rule) state)
      ((setup.withMemo false).recovered ((setup.withMemo false).callWith budget rule) twin) := by
  have inside : (memoPairing setup least).Level { state with furthest := .none }
      { twin with furthest := .none } :=
    { level with fresh := rfl, twinFresh := rfl }
  have inner := alike rule inside enough enough fun _ => notUnit
  generalize found : (setup.withMemo true).callWith budget rule { state with furthest := .none } =
    reply at inner
  generalize twinFound : (setup.withMemo false).callWith budget rule
    { twin with furthest := .none } = twinReply at inner
  cases inner with
  | some parts next moves =>
      rw [Setup.recovered_of_some found, Setup.recovered_of_some twinFound]
      exact .some parts { next with fresh := level.fresh, twinFresh := level.twinFresh }
        (moves.mono (by simp))
  | @none after twinAfter stuck =>
      obtain ⟨enclosed, same, told, replayable⟩ := stuck.grounds
      by_cases trying : 0 < after.speculating
      · have twinTrying : 0 < twinAfter.speculating := lt_of_lt_of_eq trying same.symm
        rw [Setup.recovered_of_given found (.inl trying),
          Setup.recovered_of_given twinFound (.inl twinTrying)]
        refine .none { stuck with furthest_eq := ?_, proper := ?_ }
        · simp only [level.fresh, level.twinFresh, stuck.furthest_eq]
        · simp only [level.fresh, stuck.proper.none_merge]
          exact stuck.proper
      · have samePos : twinAfter.pos = after.pos :=
          stuck.place.resolve_left (by simpa [State.trying] using trying)
        have twinNot : ¬ 0 < twinAfter.speculating := by
          rwa [show twinAfter.speculating = after.speculating from same]
        have grounds : (memoPairing setup least).grounds
            ((setup.withMemo true).report after after.furthest).ground
            ((setup.withMemo false).report twinAfter twinAfter.furthest).ground := by
          rw [stuck.furthest_eq]
          exact setup.report_grounds samePos stuck.grounds after.furthest
        obtain ⟨sameNode, samePlace⟩ :=
          setup.skipped_memo level.pos_eq samePos stuck.furthest_eq
        have bounds := (setup.withMemo true).resume_bounds state.pos
          (setup.stream.size - state.pos) 0 state.pos level.inside
        rw [Setup.recovered_of_failed _ found trying stuck.running,
          Setup.recovered_of_failed _ twinFound twinNot stuck.twinRunning, sameNode]
        refine .some _ ⟨samePlace, bounds.2, ?_, ?_, level.fresh, level.twinFresh, grounds⟩
          ⟨bounds.1, bounds.2, by simp⟩
        · exact ((setup.withMemo true).report_fatal _ _).trans stuck.running
        · exact ((setup.withMemo false).report_fatal _ _).trans stuck.twinRunning
  | lost lossy running => cases lossy
  | stopped fatal => exact .stopped (by rw [Setup.recovered_fatal, found]; exact fatal)
  | twinStopped fatal => exact .twinStopped (by rw [Setup.recovered_fatal, twinFound]; exact fatal)

theorem MemoAlike.closes (kind : Token.Kind) (frame : Frame)
    (level : (memoPairing setup least).Level state twin) :
    (memoPairing setup least).Outcomes false state.pos
      ((setup.withMemo true).close kind state frame)
      ((setup.withMemo false).close kind twin frame) := by
  have sameGuess : twin.speculating = state.speculating := level.grounds.2.1
  by_cases found : setup.stream.kind state.pos = kind
  · simp only [Setup.close, level.pos_eq, found, if_true]
    exact .ok frame level.advance
      ⟨setup.stream.le_succ _, Stream.succ_le_last level.inside, by simp⟩
  · have twinFound : setup.stream.kind twin.pos ≠ kind := by rwa [level.pos_eq]
    have stuck :
        (memoPairing setup least).Stuck (state.fail kind.describe) (twin.fail kind.describe) :=
      level.failAll [kind.describe]
    by_cases given : 0 < state.speculating ∨ setup.stream.kind state.pos ≠ .eof
    · rw [(setup.withMemo true).close_of_open frame found given,
        (setup.withMemo false).close_of_open frame twinFound (by rwa [sameGuess, level.pos_eq])]
      exact .failed frame frame stuck
    · obtain ⟨notTrying, notEnd⟩ := not_or.mp given
      have atEnd := not_not.mp notEnd
      have samePos : (twin.fail kind.describe).pos = (state.fail kind.describe).pos := level.pos_eq
      have grounds := setup.report_grounds samePos stuck.grounds (state.fail kind.describe).furthest
      rw [(setup.withMemo true).close_of_cut frame found notTrying atEnd level.running rfl,
        (setup.withMemo false).close_of_cut frame twinFound (by rwa [sameGuess])
          (by rwa [level.pos_eq]) level.twinRunning rfl, stuck.furthest_eq,
        setup.diagnose_memo samePos]
      have place := (setup.withMemo true).report_pos (state.fail kind.describe)
        (state.fail kind.describe).furthest
      have twinPlace := (setup.withMemo false).report_pos (twin.fail kind.describe)
        (state.fail kind.describe).furthest
      simp only [Setup.errorMark, Setup.current, place, twinPlace, samePos]
      refine .ok _ ⟨rfl, level.inside, ?_, ?_, rfl, rfl, grounds⟩ (.rest level.inside)
      · exact ((setup.withMemo true).report_fatal _ _).trans level.running
      · exact ((setup.withMemo false).report_fatal _ _).trans level.twinRunning

theorem MemoAlike.calls (alike : MemoAlike setup least budget) :
    (memoPairing setup least).Calls budget budget ((setup.withMemo true).callWith budget)
      ((setup.withMemo false).callWith budget) where
  keeps := (setup.withMemo true).keeps_callWith budget
  twinKeeps := (setup.withMemo false).keeps_callWith budget
  calls := fun rule _ _ level enough twinEnough notUnit _ =>
    alike rule level enough twinEnough notUnit
  trials := fun rule _ _ level enough _ notUnit _ => alike.trials rule level enough notUnit
  recovers := fun _ rule _ _ level enough _ notUnit => alike.recovers rule level enough notUnit
  closes := fun _ kind frame _ _ level => closes kind frame level

/-- A run whose outcomes are kept goes on in step with one of the rule itself. -/
theorem remember_goesOn {slot : Memo.Slot} (alike : setup.ReadsAlike least slot.rule)
    {run : State → Reply}
    (goesOn : (memoPairing setup least).GoesOn budget budget slot.rule run
      ((setup.withMemo false).callWith budget slot.rule)) :
    (memoPairing setup least).GoesOn budget budget slot.rule
      (fun state => remember ⟨slot, state.pos⟩ run state)
      ((setup.withMemo false).callWith budget slot.rule) := by
  intro state twin level enough twinEnough notUnit
  have inside : (memoPairing setup least).Level { state with furthest := .none } twin :=
    { level with fresh := rfl }
  have inner := goesOn inside enough twinEnough notUnit
  obtain ⟨enclosed, same, -, -⟩ := level.grounds
  have kept : ∀ {reply : Reply} {stop : Nat},
      (setup.withMemo false).callWith budget slot.rule twin = reply →
      reply.state.fatal = none → (reply.parts?.isSome = true → reply.state.pos = stop) →
      Replayable setup least ⟨slot, state.pos⟩ ⟨reply.parts?, stop, reply.state.furthest⟩ := by
    intro reply stop found running stops
    rw [← level.pos_eq] at enough ⊢
    exact alike.replayable (by rw [level.pos_eq]; exact level.inside) level.twinRunning
      level.twinFresh (le_of_le_of_eq enclosed same.symm) enough found running stops
  simp only [remember]
  generalize run { state with furthest := .none } = reply at inner ⊢
  generalize found : (setup.withMemo false).callWith budget slot.rule twin = twinReply at inner ⊢
  cases inner with
  | @some after twinAfter parts next moves =>
      have replayable := kept found next.twinRunning fun _ => next.pos_eq
      have running : ¬ after.fatal.isSome = true := by simp [next.running]
      have same : state.furthest.merge after.furthest = after.furthest := by
        rw [level.fresh]
        exact Failure.Proper.none_merge (.inl next.fresh)
      obtain ⟨enclosedAfter, sameAfter, told, replayables⟩ := next.grounds
      rw [next.twinFresh.trans next.fresh.symm] at replayable
      simp only [running, same, Bool.false_eq_true, if_false, Option.isSome_some, if_true]
      exact .some parts ⟨next.pos_eq, next.inside, next.running, next.twinRunning, next.fresh,
        next.twinFresh, enclosedAfter, sameAfter, told, replayables.put replayable⟩ moves
  | @none after twinAfter stuck =>
      have replayable :
          Replayable setup least ⟨slot, state.pos⟩ ⟨none, state.pos, twinAfter.furthest⟩ :=
        kept found stuck.twinRunning (by simp)
      have running : ¬ after.fatal.isSome = true := by simp [stuck.running]
      have same : state.furthest.merge after.furthest = after.furthest := by
        rw [level.fresh]
        exact stuck.proper.none_merge
      obtain ⟨enclosedAfter, sameAfter, told, replayables⟩ := stuck.grounds
      rw [stuck.furthest_eq] at replayable
      simp only [running, same, Option.isSome_none, Bool.false_eq_true, if_false]
      exact .none ⟨stuck.place, stuck.running, stuck.twinRunning, stuck.furthest_eq, stuck.proper,
        enclosedAfter, sameAfter, told, replayables.put replayable⟩
  | lost lossy running => cases lossy
  | stopped fatal => exact .stopped (by rw [if_pos fatal]; exact fatal)
  | twinStopped fatal => exact .twinStopped fatal

/-- A look-up leaves two runs level. -/
theorem Pairing.Level.looked (level : (memoPairing setup least).Level state twin) (key : Memo.Key) :
    (memoPairing setup least).Level { state with memo := (state.memo.get key).2 } twin := by
  obtain ⟨enclosed, same, told, replayable⟩ := level.grounds
  exact { level with grounds := ⟨enclosed, same, told, replayable.get key⟩ }

/-- What the memo table has kept is what the run without it is left with. -/
theorem Pairing.Level.replayed {slot : Memo.Slot} {outcome : Memo.Outcome}
    (level : (memoPairing setup least).Level state twin)
    (replayable : Replayable setup least ⟨slot, state.pos⟩ outcome)
    (enough : need setup.stream slot.rule state.pos ≤ budget)
    (taken : outcome.parts?.isSome = true ∨ 0 < state.speculating) :
    (memoPairing setup least).Replies slot.rule.consumes state.pos
      ⟨outcome.parts?, { state with
        pos := if outcome.parts?.isSome then outcome.stop else state.pos
        furthest := state.furthest.merge outcome.furthest }⟩
      ((setup.withMemo false).callWith budget slot.rule twin) := by
  obtain ⟨enclosed, same, told, replayables⟩ := level.grounds
  have keeps := (setup.withMemo false).keeps_callWith budget slot.rule twin
  generalize found : (setup.withMemo false).callWith budget slot.rule twin = twinReply
    at keeps ⊢
  obtain ⟨parts?, stop, furthest⟩ := outcome
  obtain ⟨twinParts?, twinAfter⟩ := twinReply
  cases twinRunning : twinAfter.fatal with
  | some reason => exact .twinStopped (by rw [twinRunning]; rfl)
  | none =>
      obtain ⟨sameParts, sameFurthest, silent, samePos⟩ := replayable.again level.pos_eq
        level.twinRunning level.twinFresh (le_of_le_of_eq enclosed same.symm) enough found
        twinRunning
      have grounds : (memoPairing setup least).grounds state.ground twinAfter.ground :=
        ⟨enclosed, keeps.speculating_eq.trans same, silent.trans told, replayables⟩
      have merged : state.furthest.merge furthest = furthest := by
        rw [level.fresh]
        exact replayable.proper.none_merge
      subst sameParts
      simp only [merged]
      cases twinParts? with
      | some parts =>
          have moves := replayable.moves rfl
          have fresh := replayable.fresh rfl
          exact .some parts ⟨samePos rfl, moves.inside, level.running, twinRunning, fresh,
            sameFurthest.trans fresh, grounds⟩ moves
      | none =>
          have trying : state.trying = true := by simpa [State.trying] using taken
          exact .none ⟨.inl trying, level.running, twinRunning, sameFurthest, replayable.proper,
            grounds⟩

/-- With look-ups in front of a rule the run goes on in step with one of the rule
itself. -/
theorem memoized_goesOn {slot : Memo.Slot} (alike : setup.ReadsAlike least slot.rule)
    {run : State → Reply}
    (goesOn : (memoPairing setup least).GoesOn budget budget slot.rule run
      ((setup.withMemo false).callWith budget slot.rule)) :
    (memoPairing setup least).GoesOn budget budget slot.rule (memoized slot run)
      ((setup.withMemo false).callWith budget slot.rule) := by
  intro state twin level enough twinEnough notUnit
  have looked := level.looked ⟨slot, state.pos⟩
  have remembered := remember_goesOn alike goesOn looked enough twinEnough notUnit
  have kept := state.memo.get_fst ⟨slot, state.pos⟩
  have replayable : ∀ {outcome : Memo.Outcome},
      (state.memo.get ⟨slot, state.pos⟩).1 = some outcome →
      Replayable setup least ⟨slot, state.pos⟩ outcome :=
    fun found => level.grounds.2.2.2 _ _ (kept ▸ found)
  simp only [memoized]
  rcases found : (state.memo.get ⟨slot, state.pos⟩).1 with - | ⟨- | parts, stop, furthest⟩
  · exact remembered
  · dsimp only
    split
    · rename_i trying
      exact looked.replayed (replayable found) enough (.inr trying)
    · exact remembered
  · exact looked.replayed (replayable found) enough (.inl rfl)

/-- If the rules that the memo table keeps read alike, calls with the table and
without it go on in step. -/
theorem Setup.memo_alike (setup : Setup) (ordered : setup.stream.Ordered)
    (alike : ∀ slot : Memo.Slot, setup.ReadsAlike least slot.rule) (budget : Nat) :
    MemoAlike setup least budget := by
  induction budget with
  | zero =>
      intro rule state twin level enough
      simp [need] at enough
  | succ budget ih =>
      intro rule
      have entered : (memoPairing setup least).GoesOn _ _ rule _ _ :=
        ih.calls.entered ordered (.inl rfl)
      cases kept : Memo.Slot.of? rule with
      | none =>
          simp only [Setup.callWith, Setup.runRule_eq, kept]
          exact entered
      | some slot =>
          have same := Memo.Slot.rule_of? kept
          subst same
          have called : (setup.withMemo false).callWith (budget + 1) slot.rule =
              (setup.withMemo false).entered ((setup.withMemo false).callWith budget)
                slot.rule := by
            funext state
            simp only [Setup.callWith, Setup.runRule_eq, kept]
            rfl
          have goesOn := memoized_goesOn (alike slot) (called ▸ entered)
          simp only [called] at goesOn
          rw [called]
          simp only [Setup.callWith, Setup.runRule_eq, kept]
          exact goesOn

end Memo

/-! ## Whole parses -/

section Parses

variable {setup : Setup} {entry : Entry}

/-- The first calls of a parse with the memo table and of one without it go on
in step. -/
theorem Setup.reply_memo (setup : Setup) (ordered : setup.stream.Ordered)
    (annotated : (setup.withMemo false).Annotated) (entry : Entry) :
    (memoPairing setup 0).Replies entry.rule.consumes 0 ((setup.withMemo true).reply entry)
      ((setup.withMemo false).reply entry) := by
  have start : (memoPairing setup 0).Level (setup.withMemo true).initial
      (setup.withMemo false).initial :=
    ⟨rfl, Nat.zero_le _, rfl, rfl, rfl, rfl, Int.le_refl 0, rfl, rfl, Memo.All.empty⟩
  exact setup.memo_alike ordered (setup.readsAlike_of_annotated ordered annotated) setup.budget
    entry.rule start (setup.need_le_budget _ _) (setup.need_le_budget _ _) (by simp [initial, State.trying])

/-- Runs that are stuck at the same place report the same. -/
theorem Setup.report_stuck {state twin : State} (stuck : (memoPairing setup 0).Stuck state twin)
    (samePos : twin.pos = state.pos) :
    ((setup.withMemo true).report state state.furthest).diagnostics =
      ((setup.withMemo false).report twin twin.furthest).diagnostics := by
  rw [stuck.furthest_eq]
  exact (setup.report_grounds samePos stuck.grounds state.furthest).2.2.1.symm

/-- What a parse makes of the text behind its first call is the same with the
memo table and without it. -/
theorem Setup.whole_memo {rule : Rule} {consumes : Bool} {pos : Nat} {state twin : State}
    (replies : (memoPairing setup 0).Replies consumes pos ((setup.withMemo true).call rule state)
      ((setup.withMemo false).call rule twin))
    (running : ((setup.withMemo true).call rule state).state.fatal = none)
    (twinRunning : ((setup.withMemo false).call rule twin).state.fatal = none)
    (notTrying : ((setup.withMemo true).call rule state).state.trying = false) :
    ((setup.withMemo true).whole rule state).1 = ((setup.withMemo false).whole rule twin).1 ∧
      ((setup.withMemo true).whole rule state).2.diagnostics =
        ((setup.withMemo false).whole rule twin).2.diagnostics := by
  simp only [whole]
  generalize (setup.withMemo true).call rule state = reply at replies running notTrying ⊢
  generalize (setup.withMemo false).call rule twin = twinReply at replies twinRunning ⊢
  cases replies with
  | @some after twinAfter parts next moves =>
      simp only [next.running, next.twinRunning, next.pos_eq, Option.isSome_none,
        Bool.false_eq_true, if_false, Option.bind_some]
      split
      · exact ⟨rfl, next.grounds.2.2.1.symm⟩
      · cases parts.head? with
        | none => exact ⟨rfl, report_stuck next.stuck next.pos_eq⟩
        | some node =>
            exact ⟨rfl, report_stuck (next.failAll [Token.Kind.describe .eof]) next.pos_eq⟩
  | none stuck =>
      have samePos := stuck.place.resolve_left (by simp [notTrying])
      simp only [stuck.running, stuck.twinRunning, Option.isSome_none, Bool.false_eq_true, if_false,
        Option.bind_none, Bool.false_and]
      exact ⟨trivial, report_stuck stuck samePos⟩
  | lost lossy => cases lossy
  | stopped fatal => simp [running] at fatal
  | twinStopped fatal => simp [twinRunning] at fatal

/-- If every annotation of a text reads on its own, a parse with the memo table
and one without it that are not abandoned end in the same way. -/
theorem Setup.enterAt_memo (setup : Setup) (ordered : setup.stream.Ordered)
    (annotated : (setup.withMemo false).Annotated)
    (running : ((setup.withMemo true).enterAt entry).2.fatal = none)
    (twinRunning : ((setup.withMemo false).enterAt entry).2.fatal = none) :
    ((setup.withMemo true).enterAt entry).1 = ((setup.withMemo false).enterAt entry).1 ∧
      ((setup.withMemo true).enterAt entry).2.diagnostics =
        ((setup.withMemo false).enterAt entry).2.diagnostics := by
  have replies := setup.reply_memo ordered annotated entry
  have stillRunning := ((setup.withMemo true).enterAt_follows entry).fatal running
  have twinStillRunning := ((setup.withMemo false).enterAt_follows entry).fatal twinRunning
  have notTrying : ((setup.withMemo true).reply entry).state.trying = false :=
    ((setup.withMemo true).reply_follows entry).trying_eq
  cases entry with
  | unit =>
      have agree := replies.agree rfl stillRunning twinStillRunning
      exact ⟨congrArg (Option.bind · List.head?) agree.parts_eq.symm, agree.grounds.2.2.1.symm⟩
  | expression | statement => exact whole_memo replies stillRunning twinStillRunning notTrying

end Parses

end Parser

namespace Source

open JavaFront.Parser

/-- The memo table makes no difference to the tree and the reports of a text
whose annotations all read on their own, however many errors there are. -/
theorem parse_memo_annotated (source : Source) (entry : Entry) (options : Options)
    (annotated : (Setup.ofSource source { options with memo := false }).Annotated)
    (running : (source.parse entry { options with memo := true }).abandoned = none)
    (bareRunning : (source.parse entry { options with memo := false }).abandoned = none) :
    (source.parse entry { options with memo := true }).tree =
        (source.parse entry { options with memo := false }).tree ∧
      (source.parse entry { options with memo := true }).diagnostics =
        (source.parse entry { options with memo := false }).diagnostics := by
  let setup := Setup.ofSource source options
  have ordered : setup.stream.Ordered := Stream.ofSource_ordered source
  obtain ⟨tree, diagnostics, fatal⟩ := source.parse_of_accepted entry
    { options with memo := true } (accepted_of_running running)
  obtain ⟨bareTree, bareDiagnostics, bareFatal⟩ := source.parse_of_accepted entry
    { options with memo := false } (accepted_of_running bareRunning)
  obtain ⟨sameTree, sameDiagnostics⟩ := setup.enterAt_memo ordered annotated
    (fatal.symm.trans running) (bareFatal.symm.trans bareRunning)
  rw [tree, bareTree, diagnostics, bareDiagnostics]
  exact ⟨sameTree, congrArg Array.toList sameDiagnostics⟩

/-- The loop is cut off in front of its body, and what follows its first
semicolon is read a second time as a statement. The type in it has been kept. -/
theorem parse_memo_annotated_loop :
    ((of [] "{for(;x instanceof @A(b=1)T;]}").parse .statement).diagnostics.length = 2 ∧
      ((of [] "{for(;x instanceof @A(b=1)T;]}").parse .statement { memo := true }).tree =
        ((of [] "{for(;x instanceof @A(b=1)T;]}").parse .statement { memo := false }).tree ∧
      ((of [] "{for(;x instanceof @A(b=1)T;]}").parse .statement { memo := true }).diagnostics =
        ((of [] "{for(;x instanceof @A(b=1)T;]}").parse .statement
          { memo := false }).diagnostics := by
  refine ⟨by decide +kernel, parse_memo_annotated _ .statement {} ?_ (by decide +kernel)
    (by decide +kernel)⟩
  intro index sign named
  have inside : index < (Stream.ofSource (of [] "{for(;x instanceof @A(b=1)T;]}")).last :=
    (Stream.ofSource_ordered _).lt_last fun atEnd => by cases sign.symm.trans atEnd
  exact (by decide +kernel : ∀ index <
      (Stream.ofSource (of [] "{for(;x instanceof @A(b=1)T;]}")).last,
    (Stream.ofSource (of [] "{for(;x instanceof @A(b=1)T;]}")).kind index = .atSign →
    (Setup.ofSource (of [] "{for(;x instanceof @A(b=1)T;]}") { memo := false }).AnnotationReads
      index) index inside sign

/-- The condition of the loop is read a second time here as well, but the
annotation in its type argument recovers from an error. The type with the error
node is kept, so with the memo table a trial reads the annotation the second time,
and the condition becomes a call. Without the table it gives up again. -/
theorem parse_memo_recovered :
    ((of [] "{for(;a.<@A(b instanceof@C(new D(){e;})F)?>g();]}").parse .statement
        { memo := true }).abandoned = none ∧
      ((of [] "{for(;a.<@A(b instanceof@C(new D(){e;})F)?>g();]}").parse .statement
        { memo := false }).abandoned = none ∧
      ((of [] "{for(;a.<@A(b instanceof@C(new D(){e;})F)?>g();]}").parse .statement
          { memo := true }).tree ≠
        ((of [] "{for(;a.<@A(b instanceof@C(new D(){e;})F)?>g();]}").parse .statement
          { memo := false }).tree ∧
      ((of [] "{for(;a.<@A(b instanceof@C(new D(){e;})F)?>g();]}").parse .statement
          { memo := true }).diagnostics.map (·.start.offset) = [36, 41, 47] ∧
      ((of [] "{for(;a.<@A(b instanceof@C(new D(){e;})F)?>g();]}").parse .statement
          { memo := false }).diagnostics.map (·.start.offset) = [36, 41, 36, 41, 38, 47] := by
  have ends : ((of [] "{for(;a.<@A(b instanceof@C(new D(){e;})F)?>g();]}").parse .statement
        { memo := true }).abandoned = none ∧
      ((of [] "{for(;a.<@A(b instanceof@C(new D(){e;})F)?>g();]}").parse .statement
        { memo := true }).tree.map (·.children.map Node.kind) = some [.error, .exprStmt, .error] ∧
      ((of [] "{for(;a.<@A(b instanceof@C(new D(){e;})F)?>g();]}").parse .statement
        { memo := true }).diagnostics.map (·.start.offset) = [36, 41, 47] := by
    decide +kernel
  have bareEnds : ((of [] "{for(;a.<@A(b instanceof@C(new D(){e;})F)?>g();]}").parse .statement
        { memo := false }).abandoned = none ∧
      ((of [] "{for(;a.<@A(b instanceof@C(new D(){e;})F)?>g();]}").parse .statement
        { memo := false }).tree.map (·.children.map Node.kind) =
          some [.error, .error, .error, .error] ∧
      ((of [] "{for(;a.<@A(b instanceof@C(new D(){e;})F)?>g();]}").parse .statement
        { memo := false }).diagnostics.map (·.start.offset) = [36, 41, 36, 41, 38, 47] := by
    decide +kernel
  refine ⟨ends.1, bareEnds.1, fun same => ?_, ends.2.2, bareEnds.2.2⟩
  have sameKinds := congrArg (Option.map (·.children.map Node.kind)) same
  cases ends.2.1.symm.trans (sameKinds.trans bareEnds.2.1)

end Source

end JavaFront
