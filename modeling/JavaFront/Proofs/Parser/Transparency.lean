import JavaFront.Proofs.Parser.Whole

/-!
# The memo table changes nothing

A parse without the memo table and one with it go through the same text in
step. Where the first one meets no trouble, the second one meets none either:
it looks up what the first one reads, at the same index, nested as deeply and
inside as many trials. Both read the same tree then.
-/

namespace JavaFront.Parser

/-- The same setup with or without the memo table. -/
abbrev Setup.withMemo (setup : Setup) (memo : Bool) : Setup :=
  { setup with options := { setup.options with memo } }

/-- Two parses of one stream stand at the same place, and the second one has
met no trouble. -/
structure Twin (stream : Stream) (bare full : State) : Prop where
  pos_eq : full.pos = bare.pos
  depth_eq : full.depth = bare.depth
  speculating_eq : full.speculating = bare.speculating
  calm : full.Calm
  bareSound : MemoSound stream bare.memo
  fullSound : MemoSound stream full.memo

/-- Two phrases ended in the same way, and the second one has met no
trouble. -/
inductive Alike (stream : Stream) : Outcome → Outcome → Prop
  | ok {bare full : State} (frame : Frame) :
      Twin stream bare full → Alike stream ⟨.ok, bare, frame⟩ ⟨.ok, full, frame⟩
  | failed {bare full : State} (bareFrame fullFrame : Frame) :
      full.Calm → Alike stream ⟨.failed, bare, bareFrame⟩ ⟨.failed, full, fullFrame⟩

/-- Rules without and with the memo table are called in step: where the first
call meets no trouble, the second one meets none. -/
structure Lockstep (setup : Setup) (budget : Nat) (bare full : Caller) : Prop where
  bareReliable : bare.Reliable (setup.withMemo false) budget
  fullReliable : full.Reliable (setup.withMemo true) budget
  calm : ∀ (rule : Rule) (first second : State), Twin setup.stream first second →
    need setup.stream rule first.pos ≤ budget →
    (first.trying = true → rule ≠ .compilationUnit) → first.pos ≤ setup.stream.last →
    (bare rule first).state.Calm → (full rule second).state.Calm

namespace Twin

variable {stream : Stream} {first second : State}

theorem trying_eq (twin : Twin stream first second) : second.trying = first.trying := by
  simp only [State.trying, twin.speculating_eq]

/-- Behind two runs that ended at the same index the parses stand at the same
place again. -/
theorem follow {firstAfter secondAfter : State} (twin : Twin stream first second)
    (firstFollows : first.Follows firstAfter) (secondFollows : second.Follows secondAfter)
    (samePos : secondAfter.pos = firstAfter.pos) (calm : secondAfter.Calm)
    (firstSound : MemoSound stream firstAfter.memo)
    (secondSound : MemoSound stream secondAfter.memo) : Twin stream firstAfter secondAfter where
  pos_eq := samePos
  depth_eq := by rw [secondFollows.depth_eq, firstFollows.depth_eq, twin.depth_eq]
  speculating_eq := by
    rw [secondFollows.speculating_eq, firstFollows.speculating_eq, twin.speculating_eq]
  calm := calm
  bareSound := firstSound
  fullSound := secondSound

end Twin

section Phrases

variable {setup : Setup} {budget : Nat} {bare full : Caller}

/-- Parses that go on in step see the same. -/
theorem Twin.holds_eq {first second : State} (twin : Twin setup.stream first second)
    (running : first.fatal = none) (frame : Frame) (look : Look) :
    (setup.withMemo true).holds second frame look =
      (setup.withMemo false).holds first frame look := by
  rw [Setup.holds_eq_plain _ _ _ running, Setup.holds_eq_plain _ _ _ twin.calm.fatal, twin.pos_eq]

theorem Twin.frame_eq {first second : State} (twin : Twin setup.stream first second)
    (kind : Node.Kind) :
    (setup.withMemo true).frame second kind = (setup.withMemo false).frame first kind := by
  simp only [Setup.frame, twin.pos_eq]

/-- What is read without trouble by both parses is the same. -/
theorem alike_of_calm (ordered : setup.stream.Ordered)
    (regular : ∀ index, setup.stream.kind index ≠ .error)
    (lockstep : Lockstep setup budget bare full) {phrase : Phrase} {first second : State}
    (twin : Twin setup.stream first second) (frame : Frame)
    (ready : Ready setup.stream budget phrase first.pos)
    (settled : phrase.settled first.trying = true) (inside : first.pos ≤ setup.stream.last)
    (bareCalm : ((setup.withMemo false).run bare phrase first frame).state.Calm)
    (fullCalm : ((setup.withMemo true).run full phrase second frame).state.Calm) :
    Alike setup.stream ((setup.withMemo false).run bare phrase first frame)
      ((setup.withMemo true).run full phrase second frame) := by
  have bareRan := (setup.withMemo false).run_faithful ordered regular lockstep.bareReliable
    phrase first frame ready settled inside twin.bareSound bareCalm
  have fullRan := (setup.withMemo true).run_faithful ordered regular lockstep.fullReliable
    phrase second frame (twin.pos_eq ▸ ready) (by rw [twin.trying_eq]; exact settled)
    (twin.pos_eq ▸ inside) twin.fullSound fullCalm
  have bareFollows := (setup.withMemo false).follows_run lockstep.bareReliable.keeps
    phrase first frame
  have fullFollows := (setup.withMemo true).follows_run lockstep.fullReliable.keeps
    phrase second frame
  have fullReads := fullRan.reads
  rw [twin.pos_eq] at fullReads
  have sameRead := bareRan.reads.unique fullReads
  have bareProper := bareRan.proper
  have fullProper := fullRan.proper
  have bareSound := bareRan.sound
  have fullSound := fullRan.sound
  generalize (setup.withMemo false).run bare phrase first frame = bareOutcome at *
  generalize (setup.withMemo true).run full phrase second frame = fullOutcome at *
  obtain ⟨bareVerdict, bareState, bareFrame⟩ := bareOutcome
  obtain ⟨fullVerdict, fullState, fullFrame⟩ := fullOutcome
  cases bareVerdict <;> cases fullVerdict <;> simp [Outcome.read?] at *
  · obtain ⟨samePos, rfl⟩ := sameRead
    exact .ok bareFrame
      (twin.follow bareFollows fullFollows samePos.symm fullCalm bareSound fullSound)
  · exact .failed _ _ fullCalm

/-- Two calls in step build the same parts. -/
theorem Lockstep.replies (lockstep : Lockstep setup budget bare full) {rule : Rule}
    {first second : State} (twin : Twin setup.stream first second)
    (enough : need setup.stream rule first.pos ≤ budget)
    (notUnit : first.trying = true → rule ≠ .compilationUnit)
    (inside : first.pos ≤ setup.stream.last) (calm : (bare rule first).state.Calm) :
    (full rule second).state.Calm ∧ (full rule second).parts? = (bare rule first).parts? := by
  have fullCalm := lockstep.calm rule first second twin enough notUnit inside calm
  have bareTold := lockstep.bareReliable.faithful rule first enough notUnit inside twin.bareSound
    calm
  have fullTold := lockstep.fullReliable.faithful rule second (twin.pos_eq ▸ enough)
    (by rw [twin.trying_eq]; exact notUnit) (twin.pos_eq ▸ inside) twin.fullSound fullCalm
  have fullReads := fullTold.reads
  rw [twin.pos_eq] at fullReads
  exact ⟨fullCalm, (bareTold.reads.unique fullReads).1.symm⟩

theorem Lockstep.trials (lockstep : Lockstep setup budget bare full) {rule : Rule}
    {first second : State} (twin : Twin setup.stream first second)
    (enough : need setup.stream rule first.pos ≤ budget) (notUnit : rule ≠ .compilationUnit)
    (inside : first.pos ≤ setup.stream.last) (calm : (trial (bare rule) first).2.Calm) :
    (trial (full rule) second).1 = (trial (bare rule) first).1 ∧
      Twin setup.stream (trial (bare rule) first).2 (trial (full rule) second).2 := by
  have tried : Twin setup.stream { first with speculating := first.speculating + 1 }
      { second with speculating := second.speculating + 1 } :=
    ⟨twin.pos_eq, twin.depth_eq, congrArg (· + 1) twin.speculating_eq,
      ⟨twin.calm.fatal, twin.calm.diagnostics⟩, twin.bareSound, twin.fullSound⟩
  obtain ⟨fullCalm, sameParts⟩ := lockstep.replies tried enough (fun _ => notUnit) inside
    ⟨calm.fatal, calm.diagnostics⟩
  have calmAfter : (trial (full rule) second).2.Calm := ⟨fullCalm.fatal, fullCalm.diagnostics⟩
  have bareTried := trial_faithful lockstep.bareReliable enough notUnit inside twin.bareSound calm
  have fullTried := trial_faithful lockstep.fullReliable (twin.pos_eq ▸ enough) notUnit
    (twin.pos_eq ▸ inside) twin.fullSound calmAfter
  refine ⟨congrArg Option.isSome sameParts, twin.follow
    (Setup.follows_trial (lockstep.bareReliable.keeps rule) first)
    (Setup.follows_trial (lockstep.fullReliable.keeps rule) second) twin.pos_eq calmAfter
    bareTried.2.2 fullTried.2.2⟩

/-- A rule that is read without trouble has nothing to recover from, with the
memo table as without. -/
theorem Lockstep.recovered (lockstep : Lockstep setup budget bare full)
    (regular : ∀ index, setup.stream.kind index ≠ .error) {rule : Rule}
    {first second : State} (twin : Twin setup.stream first second)
    (enough : need setup.stream rule first.pos ≤ budget) (notUnit : rule ≠ .compilationUnit)
    (inside : first.pos ≤ setup.stream.last)
    (calm : ((setup.withMemo false).recovered (bare rule) first).state.Calm) :
    ((setup.withMemo true).recovered (full rule) second).state.Calm := by
  have fresh :
      Twin setup.stream { first with furthest := .none } { second with furthest := .none } :=
    ⟨twin.pos_eq, twin.depth_eq, twin.speculating_eq,
      ⟨twin.calm.fatal, twin.calm.diagnostics⟩, twin.bareSound, twin.fullSound⟩
  have replies := lockstep.replies fresh enough (fun _ => notUnit) inside
  have bareFollows := lockstep.bareReliable.keeps rule { first with furthest := .none }
  have fullFollows := lockstep.fullReliable.keeps rule { second with furthest := .none }
  simp only [Setup.recovered] at calm ⊢
  rcases bareFound : bare rule { first with furthest := .none } with ⟨bareParts, bareAfter⟩
  rcases fullFound : full rule { second with furthest := .none } with ⟨fullParts, fullAfter⟩
  rw [bareFound, fullFound] at replies
  rw [bareFound] at bareFollows
  rw [fullFound] at fullFollows
  simp only [bareFound] at calm ⊢
  cases bareParts with
  | some parts =>
      obtain ⟨fullCalm, rfl⟩ := replies ⟨calm.fatal, calm.diagnostics⟩
      exact ⟨fullCalm.fatal, fullCalm.diagnostics⟩
  | none =>
      dsimp only at calm
      split at calm
      · rename_i given
        obtain ⟨fullCalm, rfl⟩ := replies ⟨calm.fatal, calm.diagnostics⟩
        have running : bareAfter.fatal = none := calm.fatal
        have bareTrying : 0 < bareAfter.speculating := by simpa [running] using given
        have trying : 0 < fullAfter.speculating := by
          rw [fullFollows.speculating_eq]
          rw [bareFollows.speculating_eq] at bareTrying
          simpa [twin.speculating_eq] using bareTrying
        simp only [trying, decide_true, Bool.true_or, if_true]
        exact ⟨fullCalm.fatal, fullCalm.diagnostics⟩
      · exact absurd calm.diagnostics (Setup.diagnostics_report_ne regular _ _)

theorem Twin.close (regular : ∀ index, setup.stream.kind index ≠ .error) {kind : Token.Kind}
    {first second : State} (twin : Twin setup.stream first second) {frame : Frame}
    (running : first.fatal = none)
    (calm : ((setup.withMemo false).close kind first frame).state.Calm) :
    ((setup.withMemo true).close kind second frame).state.Calm := by
  simp only [Setup.close, State.fail, twin.pos_eq, twin.speculating_eq, twin.calm.fatal, running]
    at calm ⊢
  by_cases found : setup.stream.kind first.pos = kind
  · rw [if_pos found]
    exact ⟨twin.calm.fatal, twin.calm.diagnostics⟩
  · rw [if_neg found] at calm ⊢
    split at calm
    · rename_i given
      rw [if_pos given]
      exact ⟨rfl, twin.calm.diagnostics⟩
    · exact absurd calm.diagnostics (Setup.diagnostics_report_ne regular _ _)

/-- A loop whose body goes in step goes in step. -/
theorem Lockstep.repeatWhile (lockstep : Lockstep setup budget bare full)
    (ordered : setup.stream.Ordered) (regular : ∀ index, setup.stream.kind index ≠ .error)
    {look : Look} {body : Phrase} (consumes : body.consumes = true) {trying : Bool}
    (settled : body.settled trying = true)
    (calmBody : ∀ (first second : State) (frame : Frame), Twin setup.stream first second →
      Ready setup.stream budget body first.pos → first.trying = trying →
      first.pos ≤ setup.stream.last →
      ((setup.withMemo false).run bare body first frame).state.Calm →
      ((setup.withMemo true).run full body second frame).state.Calm)
    (rounds : Nat) (first second : State) (frame : Frame) (twin : Twin setup.stream first second)
    (ready : Ready setup.stream budget body first.pos) (sameTrying : first.trying = trying)
    (inside : first.pos ≤ setup.stream.last)
    (calm : (Parser.repeatWhile (fun state frame => (setup.withMemo false).holds state frame look)
      (fun state frame => (setup.withMemo false).run bare body state frame)
      rounds first frame).state.Calm) :
    (Parser.repeatWhile (fun state frame => (setup.withMemo true).holds state frame look)
      (fun state frame => (setup.withMemo true).run full body state frame)
      rounds second frame).state.Calm := by
  induction rounds generalizing first second frame with
  | zero => exact twin.calm
  | succ rounds ih =>
      have follows := (setup.withMemo false).follows_run lockstep.bareReliable.keeps body
      have running : first.fatal = none :=
        (Setup.follows_repeatWhile (fun state frame => follows state frame) _ _ _).fatal calm.fatal
      simp only [Parser.repeatWhile, twin.holds_eq running] at calm ⊢
      by_cases goesOn : (setup.withMemo false).holds first frame look = true
      · simp only [goesOn, if_true] at calm ⊢
        have bareCalm : ((setup.withMemo false).run bare body first frame).state.Calm := by
          split at calm
          · rename_i found
            rw [found]
            exact (Setup.follows_repeatWhile (fun state frame => follows state frame) _ _ _).calm
              calm
          · exact calm
        have fullCalm := calmBody first second frame twin ready sameTrying inside bareCalm
        have moved := follows first frame
        have ran := (setup.withMemo false).run_faithful ordered regular lockstep.bareReliable
          body first frame ready (by rw [sameTrying]; exact settled) inside twin.bareSound bareCalm
        have alike := alike_of_calm ordered regular lockstep twin frame ready
          (by rw [sameTrying]; exact settled) inside bareCalm fullCalm
        generalize (setup.withMemo false).run bare body first frame = bareOutcome at *
        generalize (setup.withMemo true).run full body second frame = fullOutcome at *
        cases alike with
        | @ok bareAfter fullAfter inner after =>
            have moves := ran.reads.moves ordered inside rfl
            exact ih bareAfter fullAfter inner after
              (ready.of_lt body (moves.lt consumes) moves.inside)
              (moved.trying_eq.trans sameTrying) moves.inside calm
        | failed _ _ after => exact after
      · simp only [goesOn, Bool.false_eq_true, if_false]
        exact twin.calm

/-- Where a phrase meets no trouble without the memo table, it meets none with
it. -/
theorem Lockstep.run_calm (lockstep : Lockstep setup budget bare full)
    (ordered : setup.stream.Ordered) (regular : ∀ index, setup.stream.kind index ≠ .error)
    (phrase : Phrase) (first second : State) (frame : Frame)
    (twin : Twin setup.stream first second) (ready : Ready setup.stream budget phrase first.pos)
    (settled : phrase.settled first.trying = true) (inside : first.pos ≤ setup.stream.last)
    (calm : ((setup.withMemo false).run bare phrase first frame).state.Calm) :
    ((setup.withMemo true).run full phrase second frame).state.Calm := by
  have follows := (setup.withMemo false).follows_run lockstep.bareReliable.keeps
  have running : first.fatal = none := (follows phrase first frame).fatal calm.fatal
  induction phrase generalizing first second frame with
  | done | stop | rekind | operator | expected => exact ⟨twin.calm.fatal, twin.calm.diagnostics⟩
  | token | leaf | pick | mark =>
      simp only [Setup.run]
      split <;> exact ⟨twin.calm.fatal, twin.calm.diagnostics⟩
  | seq phrase next firstIh secondIh =>
      obtain ⟨firstSettled, secondSettled⟩ := Bool.and_eq_true_iff.mp settled
      have bareCalm := ((setup.withMemo false).follows_seq lockstep.bareReliable.keeps phrase next
        first frame).calm calm
      simp only [Setup.run] at calm ⊢
      have fullCalm := firstIh first second frame twin ready.seq_first firstSettled inside bareCalm
        running
      have moved := follows phrase first frame
      have ran := (setup.withMemo false).run_faithful ordered regular lockstep.bareReliable
        phrase first frame ready.seq_first firstSettled inside twin.bareSound bareCalm
      have alike := alike_of_calm ordered regular lockstep twin frame ready.seq_first firstSettled
        inside bareCalm fullCalm
      generalize (setup.withMemo false).run bare phrase first frame = bareOutcome at *
      generalize (setup.withMemo true).run full phrase second frame = fullOutcome at *
      cases alike with
      | @ok bareAfter fullAfter inner after =>
          have moves := ran.reads.moves ordered inside rfl
          exact secondIh bareAfter fullAfter inner after (ready.seq_second moves)
            (by rw [moved.trying_eq]; exact secondSettled) moves.inside calm bareCalm.fatal
      | failed _ _ after => exact after
  | node kind body ih =>
      simp only [Setup.run, Setup.enclose_state] at calm ⊢
      rw [twin.frame_eq]
      exact ih first second _ twin (ready.mono fun _ => id) settled inside calm running
  | wrap kind body ih | reopen kind body ih =>
      simp only [Setup.run] at calm ⊢
      split at calm
      · exact twin.calm
      · rw [Setup.enclose_state] at calm ⊢
        exact ih first second _ twin (ready.mono fun _ => id) settled inside calm running
  | cover kind body ih =>
      rw [Setup.run_cover, Setup.covered_state] at calm ⊢
      exact ih first second { kind, start := .origin } twin (ready.mono fun _ => id) settled inside
        calm running
  | branch look yes no yesIh noIh =>
      obtain ⟨yesSettled, noSettled⟩ := Bool.and_eq_true_iff.mp settled
      rw [Setup.run_branch] at calm ⊢
      rw [twin.holds_eq running]
      generalize (setup.withMemo false).holds first frame look = chosen at calm ⊢
      cases chosen with
      | true => exact yesIh first second frame twin ready.branches.1 yesSettled inside calm running
      | false => exact noIh first second frame twin ready.branches.2 noSettled inside calm running
  | trial rule yes no yesIh noIh =>
      simp only [Phrase.settled, Bool.and_eq_true, bne_iff_ne] at settled
      obtain ⟨⟨notUnit, yesSettled⟩, noSettled⟩ := settled
      obtain ⟨enough, yesReady, noReady⟩ := ready.trials
      have tried := lockstep.trials twin enough notUnit inside
      have bareTried := trial_faithful lockstep.bareReliable enough notUnit inside twin.bareSound
      have moved := Setup.follows_trial (lockstep.bareReliable.keeps rule) first
      rw [Setup.run_trial] at calm ⊢
      generalize trial (bare rule) first = bareAttempt at calm tried bareTried moved
      generalize trial (full rule) second = fullAttempt at tried ⊢
      obtain ⟨success, bareAfter⟩ := bareAttempt
      obtain ⟨fullSuccess, fullAfter⟩ := fullAttempt
      dsimp only at calm tried bareTried moved ⊢
      have bareCalm := (follows (if success then yes else no) bareAfter frame).calm calm
      obtain ⟨rfl, after⟩ := tried bareCalm
      obtain ⟨-, samePos, -⟩ := bareTried bareCalm
      cases fullSuccess with
      | true =>
          exact yesIh bareAfter fullAfter frame after (samePos ▸ yesReady)
            (by rw [moved.trying_eq]; exact yesSettled) (samePos ▸ inside) calm bareCalm.fatal
      | false =>
          exact noIh bareAfter fullAfter frame after (samePos ▸ noReady)
            (by rw [moved.trying_eq]; exact noSettled) (samePos ▸ inside) calm bareCalm.fatal
  | call rule =>
      have notUnit : rule ≠ .compilationUnit := by simpa [Phrase.settled] using settled
      rw [Setup.run_call, Reply.into_state] at calm ⊢
      exact lockstep.calm rule first second twin ready.need_le (fun _ => notUnit) inside calm
  | recover rule =>
      have notUnit : rule ≠ .compilationUnit := by simpa [Phrase.settled] using settled
      rw [Setup.run_recover, Reply.into_state] at calm ⊢
      exact lockstep.recovered regular twin (ready.mono fun _ => id).need_le notUnit inside calm
  | orElse phrase other firstIh _ =>
      have before := ((setup.withMemo false).follows_orElse lockstep.bareReliable.keeps phrase other
        first frame).calm calm
      have after := fun firstSettled => firstIh first second frame twin
        (ready.mono fun _ leads => (Bool.and_eq_true_iff.mp leads).1) firstSettled inside before
        running
      rcases Phrase.settled_orElse settled with
        ⟨rfl, firstSettled⟩ | ⟨rfl, -, rule, rfl, notUnit⟩
      · have fullCalm := after firstSettled
        rwa [(setup.withMemo true).run_orElse_salvage full fullCalm.fatal]
      · have fullCalm := after (by simpa [Phrase.settled] using notUnit)
        rw [Setup.run_orElse]
        split <;> exact fullCalm
  | loop look body ih =>
      obtain ⟨consumes, bodySettled⟩ := Bool.and_eq_true_iff.mp settled
      simp only [Setup.run, twin.pos_eq] at calm ⊢
      refine lockstep.repeatWhile ordered regular consumes bodySettled ?_ _ first second frame twin
        (ready.mono fun _ => id) rfl inside calm
      intro bareState fullState inner innerTwin innerReady sameTrying innerInside innerCalm
      exact ih bareState fullState inner innerTwin innerReady
        (by rw [sameTrying]; exact bodySettled) innerInside innerCalm
        ((follows body bareState inner).fatal innerCalm.fatal)
  | documented body ih =>
      rw [Setup.run_documented, Outcome.documented_state] at calm ⊢
      exact ih first second frame twin (ready.mono fun _ => id) settled inside calm running
  | closing kind => exact twin.close regular running calm
  | salvage =>
      simp only [Setup.run, Setup.salvage, twin.calm.fatal]
      exact twin.calm

end Phrases

/-! ## Rules -/

section Rules

variable {setup : Setup} {rule : Rule} {bare full : State → Reply}

/-- Where one way to run a rule meets no trouble, another one meets none, from
the states of which `given` holds. -/
def Calmly (setup : Setup) (rule : Rule) (given : Nat → Prop) (bare full : State → Reply) : Prop :=
  ∀ first second : State, Twin setup.stream first second → given first.pos →
    (first.trying = true → rule ≠ .compilationUnit) → first.pos ≤ setup.stream.last →
    (bare first).state.Calm → (full second).state.Calm

theorem Lockstep.runBody_calm {budget : Nat} {bare full : Caller}
    (lockstep : Lockstep setup budget bare full) (ordered : setup.stream.Ordered)
    (regular : ∀ index, setup.stream.kind index ≠ .error) (rule : Rule) :
    Calmly setup rule (fun pos => need setup.stream rule pos ≤ budget + 1)
      ((setup.withMemo false).runBody bare rule) ((setup.withMemo true).runBody full rule) := by
  intro first second twin enough notUnit inside calm
  have inner := lockstep.run_calm ordered regular rule.body first second
    ((setup.withMemo false).frame first .error) twin (.of_body enough)
    (rule.body_settled first.trying notUnit) inside
  rw [Setup.runBody_state] at calm ⊢
  rw [twin.frame_eq]
  exact inner calm

/-- A guard lets the second parse in where it let in the first, which is nested
as deeply. -/
theorem guarded_calm {given : Nat → Prop} (patient : setup.options.patience = none)
    (calmly : Calmly setup rule given bare full) :
    Calmly setup rule given ((setup.withMemo false).guarded bare)
      ((setup.withMemo true).guarded full) := by
  intro first second twin holds notUnit inside calm
  have never : ∀ steps, (setup.withMemo true).canceledAt steps = false := by
    intro steps
    simp [Setup.canceledAt, patient]
  rcases (setup.withMemo false).guarded_cases bare first with
    ⟨notDeep, same⟩ | ⟨after, same, stopped, -⟩
  · rw [same] at calm
    have entered : Twin setup.stream
        { first with steps := first.steps + 1, depth := first.depth + 1 }
        { second with steps := second.steps + 1, depth := first.depth + 1 } :=
      ⟨twin.pos_eq, rfl, twin.speculating_eq, ⟨twin.calm.fatal, twin.calm.diagnostics⟩,
        twin.bareSound, twin.fullSound⟩
    have inner := calmly _ _ entered holds notUnit inside ⟨calm.fatal, calm.diagnostics⟩
    have running : second.fatal.isSome = false := by rw [twin.calm.fatal]; rfl
    simp only [Setup.guarded, Setup.enter, never, running, twin.depth_eq, notDeep,
      Bool.false_eq_true, if_false]
    exact ⟨inner.fatal, inner.diagnostics⟩
  · rw [same] at calm
    rw [calm.fatal] at stopped
    cases stopped

/-- The memo table never makes trouble: it is looked up, or the rule is run. -/
theorem memoized_calm {given : Nat → Prop} (slot : Memo.Slot)
    (calmly : Calmly setup rule given bare full) :
    Calmly setup rule given bare (memoized slot full) := by
  intro first second twin holds notUnit inside calm
  have remembered : ∀ memo, MemoSound setup.stream memo →
      (remember ⟨slot, second.pos⟩ full { second with memo }).state.Calm := by
    intro memo sound
    have fresh : Twin setup.stream first { second with memo, furthest := .none } :=
      ⟨twin.pos_eq, twin.depth_eq, twin.speculating_eq,
        ⟨twin.calm.fatal, twin.calm.diagnostics⟩, twin.bareSound, sound⟩
    have inner := calmly _ _ fresh holds notUnit inside calm
    simp only [remember]
    split <;> exact ⟨inner.fatal, inner.diagnostics⟩
  have lookedUp := Memo.All.get twin.fullSound ⟨slot, second.pos⟩
  simp only [memoized]
  split
  · exact ⟨twin.calm.fatal, twin.calm.diagnostics⟩
  · split
    · exact ⟨twin.calm.fatal, twin.calm.diagnostics⟩
    · exact remembered _ lookedUp
  · exact remembered _ lookedUp

end Rules

/-- Calls without and with the memo table are in step. -/
theorem Setup.callWith_lockstep (setup : Setup) (ordered : setup.stream.Ordered)
    (regular : ∀ index, setup.stream.kind index ≠ .error)
    (patient : setup.options.patience = none) (budget : Nat) :
    Lockstep setup budget ((setup.withMemo false).callWith budget)
      ((setup.withMemo true).callWith budget) := by
  have reliable : ∀ (memo : Bool) (budget : Nat),
      Caller.Reliable ((setup.withMemo memo).callWith budget) (setup.withMemo memo) budget :=
    fun memo => (setup.withMemo memo).callWith_reliable ordered regular
  induction budget with
  | zero =>
      refine ⟨reliable false 0, reliable true 0, ?_⟩
      intro rule first second _ enough
      simp [need] at enough
  | succ budget ih =>
      refine ⟨reliable false (budget + 1), reliable true (budget + 1), ?_⟩
      intro rule
      have plain := ih.runBody_calm ordered regular rule
      have body : Calmly setup rule (fun pos => need setup.stream rule pos ≤ budget + 1)
          ((setup.withMemo false).entered ((setup.withMemo false).callWith budget) rule)
          ((setup.withMemo true).entered ((setup.withMemo true).callWith budget) rule) := by
        simp only [entered]
        split
        · exact guarded_calm patient plain
        · exact plain
      have steps : Calmly setup rule (fun pos => need setup.stream rule pos ≤ budget + 1)
          ((setup.withMemo false).runRule ((setup.withMemo false).callWith budget) rule)
          ((setup.withMemo true).runRule ((setup.withMemo true).callWith budget) rule) := by
        rw [runRule_eq, runRule_eq]
        cases Memo.Slot.of? rule with
        | none => exact body
        | some slot => exact memoized_calm slot body
      exact steps

/-- The first call of a parse that meets no trouble without the memo table
meets none with it and builds the same parts up to the same index. -/
theorem Setup.reply_withMemo {setup : Setup} {entry : Entry} (ordered : setup.stream.Ordered)
    (patient : setup.options.patience = none)
    (calm : ((setup.withMemo false).reply entry).state.Calm) :
    ((setup.withMemo true).reply entry).state.Calm ∧
      ((setup.withMemo true).reply entry).parts? = ((setup.withMemo false).reply entry).parts? ∧
      (((setup.withMemo false).reply entry).parts?.isSome →
        ((setup.withMemo true).reply entry).state.pos =
          ((setup.withMemo false).reply entry).state.pos) := by
  have start := ((setup.withMemo false).reply_follows entry).calm calm
  have regular := regular_of_calm ordered start
  have twin : Twin setup.stream (setup.withMemo false).initial (setup.withMemo true).initial :=
    ⟨rfl, rfl, rfl, start, Memo.All.empty, Memo.All.empty⟩
  have fullCalm := (setup.callWith_lockstep ordered regular patient _).calm entry.rule _ _ twin
    (setup.need_le_budget _ _) (by simp [initial, State.trying]) (Nat.zero_le _) calm
  have bareTold := (setup.withMemo false).reply_faithful ordered calm
  have fullTold := (setup.withMemo true).reply_faithful ordered fullCalm
  obtain ⟨sameParts, samePos⟩ := bareTold.reads.unique fullTold.reads
  exact ⟨fullCalm, sameParts.symm, fun built => (samePos built).symm⟩

end JavaFront.Parser

namespace JavaFront.Source

open JavaFront.Parser

/-- The memo table is transparent. A parse that may take its time and finds no
errors without the table finds none with it and gives the same tree, for every
text, every entry and every limit on the depth and the size. -/
theorem parse_memo (source : Source) (entry : Entry) (options : Options)
    (patient : options.patience = none)
    (clean : (source.parse entry { options with memo := false }).hasErrors = false) :
    (source.parse entry { options with memo := true }).hasErrors = false ∧
      (source.parse entry { options with memo := true }).tree =
        (source.parse entry { options with memo := false }).tree := by
  obtain ⟨accepted, bareCalm, complete, bareTree⟩ := parse_of_clean clean
  let setup := Setup.ofSource source options
  obtain ⟨fullCalm, sameParts, samePos⟩ :=
    setup.reply_withMemo (Stream.ofSource_ordered source) patient bareCalm
  have sameNode : (setup.withMemo true).node? entry = (setup.withMemo false).node? entry := by
    simp only [Setup.node?, sameParts]
  have fullComplete : (setup.withMemo true).Complete entry := by
    rcases complete with isUnit | ⟨built, atEnd⟩
    · exact .inl isUnit
    · refine .inr ⟨by rw [sameNode]; exact built, ?_⟩
      rw [samePos (Option.isSome_of_isSome_bind built)]
      exact atEnd
  have entered : (Setup.ofSource source { options with memo := true }).enterAt entry =
      ((setup.withMemo true).node? entry, ((setup.withMemo true).reply entry).state) :=
    Setup.enterAt_of_complete fullCalm.fatal fullComplete
  obtain ⟨fullTree, fullDiagnostics, fullFatal⟩ :=
    source.parse_of_accepted entry { options with memo := true } accepted
  rw [entered] at fullTree fullDiagnostics fullFatal
  constructor
  · refine hasErrors_eq_false_iff.mpr ⟨fullFatal.trans fullCalm.fatal, ?_⟩
    simp [fullDiagnostics, fullCalm.diagnostics]
  · exact fullTree.trans (sameNode.trans bareTree.symm)

/-- The type of a cast is read twice, the second time from the table. -/
theorem parse_memo_cast :
    ((of [] "(int)1").parse .expression { memo := true }).hasErrors = false ∧
      ((of [] "(int)1").parse .expression { memo := true }).tree =
        ((of [] "(int)1").parse .expression { memo := false }).tree ∧
      ((of [] "(int)1").parse .expression { memo := true }).tree.isSome = true ∧
      0 < ((of [] "(int)1").parse .expression { memo := true }).stats.memoHits := by
  obtain ⟨clean, same⟩ := parse_memo (of [] "(int)1") .expression {} rfl (by decide +kernel)
  exact ⟨clean, same, by decide +kernel, by decide +kernel⟩

end JavaFront.Source
