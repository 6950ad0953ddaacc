import JavaFront.Proofs.Parser.Comparison
import JavaFront.Proofs.Parser.Diagnoses

/-!
# Abandoned parses

A guard only cuts a parse short. The guarded run keeps together with the full
one step by step; where the guard strikes, it reports that once and from there
on reports nothing, while the full run goes on to report what it has to. What
the guarded run has read of a unit by then is what the full run has read, and at
most one part is left over from where it stopped.
-/

namespace JavaFront.Parser

/-- The same parse under other options. -/
def Setup.under (setup : Setup) (options : JavaFront.Options) : Setup :=
  { setup with options }

/-- The guarded run has been abandoned and has reported that behind what the
full run has reported as well, or the full run has been abandoned itself. -/
def State.CutOff (state full : State) : Prop :=
  full.fatal.isSome = true ∨
    ∃ reason before notice, state.fatal = some reason ∧
      state.diagnostics.toList = before ++ [notice] ∧ notice.message = reason.notice ∧
      before <+: full.diagnostics.toList

namespace State.CutOff

variable {stream : Stream} {state full later : State}

/-- However the guarded run goes on, it stays cut off. -/
theorem left (cutOff : state.CutOff full) (records : state.Records stream later) :
    later.CutOff full := by
  rcases cutOff with stopped | ⟨reason, before, notice, fatal, same, message, front⟩
  · exact .inl stopped
  · obtain ⟨sameFatal, sameDiagnostics⟩ := records.still (by simp [fatal])
    exact .inr ⟨reason, before, notice, sameFatal.trans fatal, sameDiagnostics ▸ same, message,
      front⟩

/-- However the full run goes on, it has reported what the guarded one has. -/
theorem right (cutOff : state.CutOff full) (records : full.Records stream later) :
    state.CutOff later := by
  rcases cutOff with stopped | ⟨reason, before, notice, fatal, same, message, front⟩
  · exact .inl (by rw [(records.still stopped).1]; exact stopped)
  · exact .inr ⟨reason, before, notice, fatal, same, message, front.trans records.prefix_toList⟩

end State.CutOff

/-- Two runs keep together if they are the same and go on. -/
def cutLikeness : Likeness where
  states state full := state = full ∧ state.fatal = none
  frames := Eq
  parts := Eq
  parted := State.CutOff

theorem Setup.report_fatal (setup : Setup) (state : State) (failure : Failure) :
    (setup.report state failure).fatal = state.fatal := by
  simp only [report]
  generalize (if failure.pos < 0 then state.pos else failure.pos.toNat) = index
  split <;> rfl

theorem Setup.close_fatal (setup : Setup) (kind : Token.Kind) (state : State) (frame : Frame) :
    (setup.close kind state frame).state.fatal = state.fatal := by
  simp only [close]
  split
  · rfl
  · split
    · rfl
    · exact setup.report_fatal (state.fail kind.describe) _

section Guards

variable {setup : Setup} {options : JavaFront.Options}

theorem cutLikeness_steps (setup : Setup) (options : JavaFront.Options) :
    cutLikeness.Steps (setup.under options) setup := by
  refine .ofSame rfl ?_ ?_ ?_ ?_ ?_ ?_
  · rintro state _ ⟨rfl, -⟩
    rfl
  · rintro look state _ frame ⟨rfl, running⟩
    rw [Setup.holds_eq_plain _ _ _ running, Setup.holds_eq_plain _ _ _ running]
    rfl
  · rintro state _ ⟨rfl, running⟩ pos
    exact ⟨rfl, running⟩
  · rintro texts state _ ⟨rfl, running⟩
    exact ⟨rfl, running⟩
  · rintro kind state _ frame ⟨rfl, running⟩
    exact .inl ⟨rfl, ⟨rfl, (setup.close_fatal kind state frame).trans running⟩, rfl⟩
  · rintro state _ frame ⟨rfl, running⟩
    simp only [Setup.salvage, running]
    exact .inl ⟨rfl, ⟨rfl, running⟩, rfl⟩

/-- A parse that is abandoned is cut off from any run that goes on from the same
state. -/
theorem Setup.abandon_cutOff (setup : Setup) {stream : Stream} {state later : State}
    (reason : Abandonment) (running : state.fatal = none) (records : state.Records stream later) :
    (setup.abandon state reason).CutOff later := by
  simp only [abandon, running]
  exact .inr ⟨reason, state.diagnostics.toList, _, rfl, Array.toList_push, rfl,
    records.prefix_toList⟩

/-- Rules that keep together leave the same behind. -/
theorem cutLikeness_replies {reply full : Reply} :
    cutLikeness.Replies reply full ↔
      (reply = full ∧ reply.state.fatal = none) ∨ reply.state.CutOff full.state := by
  obtain ⟨parts?, after⟩ := reply
  obtain ⟨fullParts?, fullAfter⟩ := full
  constructor
  · rintro (⟨alike, same, running⟩ | parted)
    · cases same
      cases alike with
      | none => exact .inl ⟨rfl, running⟩
      | some sameParts =>
          cases sameParts
          exact .inl ⟨rfl, running⟩
    · exact .inr parted
  · rintro (⟨same, running⟩ | parted)
    · cases same
      refine .inl ⟨?_, rfl, running⟩
      cases parts? with
      | none => exact .none
      | some parts => exact .some rfl
    · exact .inr parted

/-- Phrases that keep together leave the same behind. -/
theorem cutLikeness_outcomes {outcome full : Outcome}
    (outcomes : cutLikeness.Outcomes outcome full) :
    (outcome = full ∧ outcome.state.fatal = none) ∨ outcome.state.CutOff full.state := by
  obtain ⟨verdict, after, frame⟩ := outcome
  obtain ⟨fullVerdict, fullAfter, fullFrame⟩ := full
  rcases outcomes with ⟨sameVerdict, ⟨sameState, running⟩, sameFrame⟩ | parted
  · cases sameVerdict
    cases sameState
    cases sameFrame
    exact .inl ⟨rfl, running⟩
  · exact .inr parted

/-- Two ways to run a rule keep together until the first is cut off. -/
def CutsShort (run full : State → Reply) : Prop :=
  ∀ state : State, state.fatal = none →
    (run state = full state ∧ (run state).state.fatal = none) ∨
      (run state).state.CutOff (full state).state

variable {run full : State → Reply}

/-- A running parse is abandoned at a guard or enters one level deeper. -/
theorem Setup.enter_cases (setup : Setup) {state : State} (running : state.fatal = none) :
    (∃ steps reason, setup.enter state = (false, setup.abandon { state with steps } reason)) ∨
      setup.enter state =
        (true, { state with steps := state.steps + 1, depth := state.depth + 1 }) := by
  unfold enter
  rw [if_neg (by simp [running])]
  split
  · exact .inl ⟨state.steps, .tooDeep setup.options.maxDepth, rfl⟩
  · dsimp only
    split
    · exact .inl ⟨state.steps + 1, .canceled, rfl⟩
    · exact .inr rfl

theorem cutsShort_guarded (logs : setup.Logs full) (cuts : CutsShort run full) :
    CutsShort ((setup.under options).guarded run) (setup.guarded full) := by
  intro state running
  have records := setup.logs_guarded logs state
  rcases (setup.under options).enter_cases running with ⟨steps, reason, stops⟩ | enters
  · right
    have cutOff := (setup.under options).abandon_cutOff reason
      (show State.fatal { state with steps } = none from running)
      ⟨records.still, records.grows, records.covers⟩
    change State.CutOff ((setup.under options).guarded run state).state
      (setup.guarded full state).state
    rw [Setup.guarded, stops]
    exact cutOff
  · rcases setup.enter_cases running with ⟨steps, reason, stops⟩ | fullEnters
    · right
      left
      simp only [Setup.guarded, stops]
      exact (setup.abandon_cases _ reason).1
    · simp only [Setup.guarded, enters, fullEnters]
      rcases cuts { state with steps := state.steps + 1, depth := state.depth + 1 } running with
        ⟨same, stillRunning⟩ | cutOff
      · rw [same] at stillRunning ⊢
        exact .inl ⟨rfl, stillRunning⟩
      · exact .inr cutOff

theorem remember_fatal (key : Memo.Key) (run : State → Reply) (state : State) :
    (remember key run state).state.fatal = (run { state with furthest := .none }).state.fatal := by
  simp only [remember]
  split <;> rfl

theorem cutsShort_memoized (setup : Setup) (cuts : CutsShort run full) (slot : Memo.Slot) :
    CutsShort (memoized slot run) (memoized slot full) := by
  intro state running
  have remembered : ∀ memo,
      (remember ⟨slot, state.pos⟩ run { state with memo } =
          remember ⟨slot, state.pos⟩ full { state with memo } ∧
        (remember ⟨slot, state.pos⟩ run { state with memo }).state.fatal = none) ∨
      (remember ⟨slot, state.pos⟩ run { state with memo }).state.CutOff
        (remember ⟨slot, state.pos⟩ full { state with memo }).state := by
    intro memo
    have records : ∀ run : State → Reply,
        (run { state with memo, furthest := .none }).state.Records setup.stream
          (remember ⟨slot, state.pos⟩ run { state with memo }).state := by
      intro run
      simp only [remember]
      split <;> exact .of_same rfl rfl
    rcases cuts { state with memo, furthest := .none } running with ⟨same, stillRunning⟩ | cutOff
    · left
      rw [remember_fatal]
      refine ⟨?_, stillRunning⟩
      simp only [remember, same]
    · exact .inr ((cutOff.left (records run)).right (records full))
  simp only [memoized]
  split
  · exact .inl ⟨rfl, running⟩
  · split
    · exact .inl ⟨rfl, running⟩
    · exact remembered _
  · exact remembered _

theorem cutsShort_trials (cuts : CutsShort run full) {state : State}
    (running : state.fatal = none) :
    cutLikeness.Trials (trial run state) (trial full state) := by
  rcases cuts { state with speculating := state.speculating + 1 } running with
    ⟨same, stillRunning⟩ | cutOff
  · left
    simp only [trial, same]
    rw [same] at stillRunning
    exact ⟨trivial, rfl, stillRunning⟩
  · exact .inr cutOff

/-- Options have no say in where reading is taken up again. -/
theorem Setup.skip_under (setup : Setup) (options : JavaFront.Options) (state : State)
    (message : Bytes) (expected : List String) :
    (setup.under options).skip state message expected = setup.skip state message expected := by
  have sameResume : ∀ start budget depth pos, (setup.under options).resume start budget depth pos =
      setup.resume start budget depth pos := by
    intro start budget
    induction budget with
    | zero => intro depth pos; rfl
    | succ budget ih =>
        intro depth pos
        simp only [resume, ih]
        rfl
  simp only [skip, sameResume]
  rfl

theorem Setup.recovered_fatal (setup : Setup) (run : State → Reply) (state : State) :
    (setup.recovered run state).state.fatal =
      (run { state with furthest := .none }).state.fatal := by
  rcases setup.recovered_cases run state with
    ⟨parts, after, found, same⟩ | ⟨after, found, ⟨-, same⟩ | ⟨-, -, same⟩⟩
  · rw [found, same]
  · rw [found, same]
  · rw [found, same]
    exact setup.report_fatal _ _

theorem cutsShort_recovered (cuts : CutsShort run full) :
    CutsShort ((setup.under options).recovered run) (setup.recovered full) := by
  intro state running
  rcases cuts { state with furthest := .none } running with ⟨same, stillRunning⟩ | cutOff
  · left
    rw [Setup.recovered_fatal]
    refine ⟨?_, stillRunning⟩
    simp only [Setup.recovered, same, Setup.skip_under]
    rfl
  · right
    exact (cutOff.left ((setup.under options).records_recovered run state)).right
      (setup.records_recovered full state)

variable {call fullCall : Caller}

/-- Calls that are only ever cut off keep together. -/
theorem cutsShort_calls (logs : ∀ rule, (setup.under options).Logs (call rule))
    (fullLogs : ∀ rule, setup.Logs (fullCall rule))
    (cuts : ∀ rule, CutsShort (call rule) (fullCall rule)) :
    cutLikeness.Calls (setup.under options) setup call fullCall := by
  constructor
  · rintro rule state _ ⟨rfl, running⟩
    exact cutLikeness_replies.mpr (cuts rule state running)
  · rintro rule state _ ⟨rfl, running⟩
    exact cutsShort_trials (cuts rule) running
  · rintro rule state _ ⟨rfl, running⟩
    exact cutLikeness_replies.mpr (cutsShort_recovered (cuts rule) state running)
  · intro phrase state full frame cutOff
    exact cutOff.left ((setup.under options).records_run logs phrase state frame)
  · intro phrase state full frame cutOff
    exact cutOff.right (setup.records_run fullLogs phrase full frame)

/-- A call under a guard keeps together with a call without it until it is cut
off. -/
theorem Setup.callWith_cutsShort (setup : Setup) {options : JavaFront.Options}
    (sameMemo : options.memo = setup.options.memo) (budget : Nat) (rule : Rule) :
    CutsShort ((setup.under options).callWith budget rule) (setup.callWith budget rule) := by
  induction budget generalizing rule with
  | zero => exact fun state running => .inl ⟨rfl, running⟩
  | succ budget ih =>
      have fullLogs := setup.logs_callWith budget
      have calls := cutsShort_calls ((setup.under options).logs_callWith budget) fullLogs ih
      have body : CutsShort ((setup.under options).runBody ((setup.under options).callWith budget)
          rule) (setup.runBody (setup.callWith budget) rule) := by
        intro state running
        exact cutLikeness_replies.mp
          (calls.runBody (cutLikeness_steps setup options) rule ⟨rfl, running⟩)
      have entered : CutsShort ((setup.under options).entered
          ((setup.under options).callWith budget) rule)
          (setup.entered (setup.callWith budget) rule) := by
        simp only [Setup.entered]
        split
        · exact cutsShort_guarded (setup.logs_runBody fullLogs rule) body
        · exact body
      simp only [callWith, runRule_eq]
      cases Memo.Slot.of? rule with
      | none => exact entered
      | some slot =>
          have sameUse : (setup.under options).options.memo = setup.options.memo := sameMemo
          simp only [sameUse]
          split
          · exact cutsShort_memoized setup entered slot
          · exact entered

end Guards

/-! ## Single parts -/

/-- A rule builds one part whenever it succeeds, be the parse abandoned or
not. -/
def Singles (run : State → Reply) : Prop :=
  ∀ state parts, (run state).parts? = some parts → parts.length = 1

/-- Wherever the phrase succeeds in a frame with so many parts, it leaves so
many, be the parse abandoned or not. -/
inductive Counted : (before after : Nat) → Phrase → Prop
  | node {before kind body} : Counted before (before + 1) (.node kind body)
  | wrap {before kind body} : Counted before before (.wrap kind body)
  | expected {before after texts} : Counted before after (.expected texts)
  | modifiers {before} : Counted before (before + 1) (.call .modifiers)
  | seq {before between after first second} : Counted before between first →
      Counted between after second → Counted before after (.seq first second)
  | branch {before after look yes no} : Counted before after yes → Counted before after no →
      Counted before after (.branch look yes no)
  | documented {before after body} : Counted before after body →
      Counted before after (.documented body)

/-- The outcome of a phrase that was counted. -/
def Outcome.Leaves (outcome : Outcome) (count : Nat) : Prop :=
  outcome.verdict = .failed ∨ outcome.verdict = .ok ∧ outcome.frame.parts.length = count

section Singles

variable {setup : Setup} {run : State → Reply} {call : Caller}

theorem Setup.enclose_leaves {outer kept : Frame} {outcome : Outcome} {count : Nat}
    (length : outer.parts.length = count) :
    (setup.enclose outer outcome kept).Leaves (count + 1) := by
  simp only [enclose]
  split
  · exact .inl rfl
  · exact .inr ⟨rfl, congrArg (· + 1) length⟩

theorem Counted.leaves {before after : Nat} {phrase : Phrase}
    (counted : Counted before after phrase)
    (modifiers : Singles (call .modifiers)) (state : State) (frame : Frame)
    (length : frame.parts.length = before) : (setup.run call phrase state frame).Leaves after := by
  induction counted generalizing state frame with
  | node => exact Setup.enclose_leaves length
  | wrap =>
      simp only [Setup.run]
      split
      · exact .inl rfl
      · rename_i latest others parts
        rw [parts, List.length_cons] at length
        subst length
        exact Setup.enclose_leaves rfl
  | expected => exact .inl rfl
  | modifiers =>
      rw [Setup.run_call]
      simp only [Reply.into]
      split
      · rename_i parts built
        refine .inr ⟨rfl, ?_⟩
        rw [Frame.pushAll, List.length_append, modifiers state parts built, length, Nat.add_comm]
      · exact .inl rfl
  | seq _ _ firstIh secondIh =>
      rw [Setup.run_seq]
      rcases firstIh state frame length with failed | ⟨succeeded, counted⟩
      · rw [failed]
        exact .inl failed
      · rw [if_pos succeeded]
        exact secondIh _ _ counted
  | branch _ _ yesIh noIh =>
      rw [Setup.run_branch]
      split
      · exact yesIh state frame length
      · exact noIh state frame length
  | @documented before after body _ ih =>
      have inner := ih state frame length
      simp only [Setup.run]
      generalize setup.run call body state frame = outcome at inner ⊢
      obtain ⟨verdict, later, filled⟩ := outcome
      rcases inner with rfl | ⟨rfl, counted⟩
      · exact .inl rfl
      · refine .inr ⟨rfl, ?_⟩
        simp only [Frame.document] at counted ⊢
        split <;> simp_all

theorem Setup.singles_guarded (setup : Setup) (singles : Singles run) :
    Singles (setup.guarded run) := by
  intro state parts built
  rcases setup.guarded_cases run state with ⟨-, same⟩ | ⟨after, same, -⟩
  · rw [same] at built
    exact singles _ parts built
  · rw [same] at built
    cases built

theorem Setup.singles_recovered (setup : Setup) (singles : Singles run) :
    Singles (setup.recovered run) := by
  intro state parts built
  rcases setup.recovered_cases run state with
    ⟨others, after, found, same⟩ | ⟨after, found, ⟨-, same⟩ | ⟨-, -, same⟩⟩
  · rw [same] at built
    cases built
    exact singles _ parts (by rw [found])
  · rw [same] at built
    cases built
  · rw [same] at built
    cases built
    rfl

/-- A rule whose outcomes are not kept builds one part if its body is counted
so. -/
theorem Setup.singles_callWith (setup : Setup) {rule : Rule} (fresh : Memo.Slot.of? rule = none)
    (counted : Counted 0 1 rule.body) (budget : Nat) : Singles (setup.callWith budget rule) := by
  have step : ∀ {rule : Rule} {budget : Nat}, Memo.Slot.of? rule = none →
      Counted 0 1 rule.body → Singles (setup.callWith budget .modifiers) →
      Singles (setup.callWith (budget + 1) rule) := by
    intro rule budget fresh counted modifiers
    have body : Singles (setup.runBody (setup.callWith budget) rule) := by
      intro state parts built
      have leaves : (setup.run (setup.callWith budget) rule.body state
          (setup.frame state .error)).Leaves 1 := counted.leaves modifiers _ _ rfl
      obtain ⟨succeeds, rfl⟩ := setup.runBody_of_some _ built
      exact (leaves.resolve_left succeeds).2
    exact setup.runRule_induction body setup.singles_guarded (by simp [fresh])
  have modifiers : ∀ budget, Singles (setup.callWith budget .modifiers) := by
    intro budget
    induction budget with
    | zero => exact fun _ _ built => by cases built
    | succ budget ih => exact step rfl .node ih
  cases budget with
  | zero => exact fun _ _ built => by cases built
  | succ budget => exact step fresh counted (modifiers budget)

end Singles

/-! ## Units -/

/-- Phrases of a unit that always succeed and add one part at most: a rule that
is attempted, a semicolon that is skipped, and choices between such phrases. -/
inductive Attempts : Phrase → Prop
  | done : Attempts .done
  | rule {rule} : Memo.Slot.of? rule = none → Counted 0 1 rule.body →
      Attempts (Grammar.attempt rule)
  | skip {kind no} : Attempts no → Attempts (.branch (.is kind) (.token kind) no)
  | branch {look yes no} : Attempts yes → Attempts no → Attempts (.branch look yes no)
  | trial {rule yes no} : Attempts yes → Attempts no → Attempts (.trial rule yes no)

/-- Phrases of a unit that go on for as long as the parse is not abandoned. -/
inductive Rounds : Phrase → Prop
  | loop {look phrase} : Attempts phrase → Rounds (.loop (.and look (.not .abandoned)) phrase)
  | seq {first second} : Rounds first → Rounds second → Rounds (.seq first second)

/-- A unit attempts its package, and then imports and types in rounds. -/
theorem body_unit : ∃ package rounds,
    Rule.compilationUnit.body = .cover .compilationUnit (.seq package rounds) ∧
    Attempts package ∧ Rounds rounds := by
  have package : Counted 0 1 Rule.packageDecl.body := .documented .node
  have imports : Counted 0 1 Rule.importDecl.body := .node
  have types : Counted 0 1 Rule.typeDecl.body :=
    .documented (.seq .modifiers (.branch .wrap (.branch .wrap (.branch .wrap
      (.branch .wrap .expected)))))
  exact ⟨_, _, rfl,
    .branch (.rule rfl package) (.branch (.trial (.rule rfl package) .done) .done),
    .seq (.loop (.rule rfl imports)) (.loop (.skip (.rule rfl types)))⟩

section Units

variable {setup : Setup} {options : JavaFront.Options} {budget : Nat}

/-- The phrase succeeds and adds so many parts at most. -/
def Outcome.Adds (frame : Frame) (most : Nat) (outcome : Outcome) : Prop :=
  outcome.verdict = .ok ∧
    ∃ parts, outcome.frame = frame.pushAll parts ∧ parts.length ≤ most

theorem Attempts.adds {phrase : Phrase} (attempts : Attempts phrase) (setup : Setup) (budget : Nat)
    (state : State) (frame : Frame) :
    (setup.run (setup.callWith budget) phrase state frame).Adds frame 1 := by
  have rest : ∀ state, Outcome.Adds frame 1 ⟨.ok, state, frame⟩ :=
    fun state => ⟨rfl, [], rfl, Nat.zero_le 1⟩
  induction attempts generalizing state with
  | done => exact rest state
  | rule fresh counted =>
      have single := setup.singles_recovered (setup.singles_callWith fresh counted budget) state
      simp only [Grammar.attempt, Setup.run]
      generalize setup.recovered _ state = reply at single ⊢
      obtain ⟨parts?, after⟩ := reply
      cases parts? with
      | none => exact rest after
      | some parts => exact ⟨rfl, parts, rfl, Nat.le_of_eq (single parts rfl)⟩
  | skip _ ih =>
      rw [Setup.run_branch]
      split
      · rename_i found
        simp only [Look.is, Setup.holds, decide_eq_true_eq] at found
        simp only [Setup.run, found, if_true]
        exact rest _
      · exact ih state
  | branch _ _ yesIh noIh =>
      rw [Setup.run_branch]
      split
      · exact yesIh state
      · exact noIh state
  | trial _ _ yesIh noIh =>
      rw [Setup.run_trial]
      split
      · exact yesIh _
      · exact noIh _

theorem Frame.pushAll_pushAll (frame : Frame) {parts others : List Node} :
    (frame.pushAll parts).pushAll others = frame.pushAll (others ++ parts) := by
  simp only [pushAll, List.append_assoc]

/-- Loops add to the frame what their rounds add. -/
theorem Attempts.repeatWhile_adds {phrase : Phrase} (attempts : Attempts phrase) (setup : Setup)
    (budget : Nat) (look : Look) (rounds : Nat) (state : State) (frame : Frame) :
    ∃ most, (repeatWhile (fun state frame => setup.holds state frame look)
      (fun state frame => setup.run (setup.callWith budget) phrase state frame) rounds state
      frame).Adds frame most := by
  induction rounds generalizing state frame with
  | zero => exact ⟨0, rfl, [], rfl, Nat.le_refl 0⟩
  | succ rounds ih =>
      simp only [repeatWhile]
      split
      · obtain ⟨succeeded, parts, same, -⟩ := attempts.adds setup budget state frame
        generalize setup.run (setup.callWith budget) phrase state frame = outcome
          at succeeded same ⊢
        obtain ⟨verdict, after, filled⟩ := outcome
        cases succeeded
        cases same
        obtain ⟨most, ends, later, sameLater, -⟩ := ih after (frame.pushAll parts)
        exact ⟨_, ends, later ++ parts, sameLater.trans frame.pushAll_pushAll, Nat.le_refl _⟩
      · exact ⟨0, rfl, [], rfl, Nat.le_refl 0⟩

/-- The guarded run has been abandoned, and what it has read is what the full
run has read but for one part. -/
structure Outcome.FallsShort (outcome full : Outcome) : Prop where
  stopped : outcome.state.fatal.isSome = true
  verdict : outcome.verdict = .ok
  fullVerdict : full.verdict = .ok
  parts : ∃ extra kept, outcome.frame.parts = extra ++ kept ∧ extra.length ≤ 1 ∧
    kept <:+ full.frame.parts

/-- Two runs of a phrase of a unit are the same, unless the guarded one falls
short of the full one or the full one has been abandoned itself. -/
def Outcome.Cuts (outcome full : Outcome) : Prop :=
  (outcome = full ∧ full.state.fatal = none) ∨ full.state.fatal.isSome = true ∨
    outcome.FallsShort full

theorem State.Follows.stopped {before after : State} (follows : before.Follows after)
    (stopped : before.fatal.isSome = true) : after.fatal.isSome = true := by
  cases running : after.fatal with
  | none =>
      rw [follows.fatal running] at stopped
      cases stopped
  | some reason => rfl

/-- However the full run goes on, the guarded one falls short of it. -/
theorem Outcome.FallsShort.adds {outcome full later : Outcome} {most : Nat}
    (short : outcome.FallsShort full) (adds : later.Adds full.frame most) :
    outcome.FallsShort later := by
  obtain ⟨succeeded, parts, same, -⟩ := adds
  obtain ⟨extra, kept, split, one, front⟩ := short.parts
  refine ⟨short.stopped, short.verdict, succeeded, extra, kept, split, one, ?_⟩
  rw [same]
  exact front.trans (List.suffix_append _ _)

/-- Phrases that do nothing once the parse has been abandoned. -/
structure Idles (setup : Setup) (options : JavaFront.Options) (budget : Nat) (phrase : Phrase) :
    Prop where
  cuts : ∀ state frame, state.fatal = none →
    ((setup.under options).run ((setup.under options).callWith budget) phrase state frame).Cuts
      (setup.run (setup.callWith budget) phrase state frame)
  idle : ∀ (state : State) frame, state.fatal.isSome = true →
    (setup.under options).run ((setup.under options).callWith budget) phrase state frame =
      ⟨.ok, state, frame⟩
  adds : ∀ state frame,
    ∃ most, (setup.run (setup.callWith budget) phrase state frame).Adds frame most

variable (sameMemo : options.memo = setup.options.memo)

include sameMemo

/-- Runs of the same phrase are the same until the guarded one is cut off. -/
theorem run_cutOff (phrase : Phrase) {state : State} (frame : Frame)
    (running : state.fatal = none) :
    ((setup.under options).run ((setup.under options).callWith budget) phrase state frame =
          setup.run (setup.callWith budget) phrase state frame ∧
        (setup.run (setup.callWith budget) phrase state frame).state.fatal = none) ∨
      ((setup.under options).run ((setup.under options).callWith budget) phrase state
        frame).state.CutOff (setup.run (setup.callWith budget) phrase state frame).state := by
  have calls := cutsShort_calls ((setup.under options).logs_callWith budget)
    (setup.logs_callWith budget) (setup.callWith_cutsShort sameMemo budget)
  rcases cutLikeness_outcomes
    (calls.run (cutLikeness_steps setup options) phrase ⟨rfl, running⟩ (Eq.refl frame)) with
    ⟨same, stillRunning⟩ | cutOff
  · exact .inl ⟨same, same ▸ stillRunning⟩
  · exact .inr cutOff

theorem Attempts.cuts {phrase : Phrase} (attempts : Attempts phrase) {state : State} (frame : Frame)
    (running : state.fatal = none) :
    ((setup.under options).run ((setup.under options).callWith budget) phrase state frame).Cuts
      (setup.run (setup.callWith budget) phrase state frame) := by
  obtain ⟨succeeded, parts, same, one⟩ := attempts.adds (setup.under options) budget state frame
  obtain ⟨fullSucceeded, fullParts, fullSame, -⟩ := attempts.adds setup budget state frame
  rcases run_cutOff sameMemo phrase frame running with both | stopped | ⟨reason, -, -, fatal, -⟩
  · exact .inl both
  · exact .inr (.inl stopped)
  · refine .inr (.inr ⟨by simp [fatal], succeeded, fullSucceeded, parts, frame.parts,
      congrArg Frame.parts same, one, ?_⟩)
    rw [fullSame]
    exact List.suffix_append _ _

omit sameMemo in
theorem repeatWhile_stopped (setup : Setup) (look : Look) (step : State → Frame → Outcome)
    (rounds : Nat) {state : State} (frame : Frame) (stopped : state.fatal.isSome = true) :
    repeatWhile (fun state frame => setup.holds state frame (.and look (.not .abandoned))) step
      rounds state frame = ⟨.ok, state, frame⟩ := by
  cases rounds with
  | zero => rfl
  | succ rounds => simp [repeatWhile, Setup.holds, stopped]

/-- Two loops of a unit cut as their rounds do. -/
theorem Attempts.repeatWhile_cuts {phrase : Phrase} (attempts : Attempts phrase) (look : Look)
    (rounds : Nat) {state : State} (frame : Frame) (running : state.fatal = none) :
    (repeatWhile (fun state frame => (setup.under options).holds state frame
          (.and look (.not .abandoned)))
        (fun state frame => (setup.under options).run ((setup.under options).callWith budget) phrase
          state frame) rounds state frame).Cuts
      (repeatWhile (fun state frame => setup.holds state frame (.and look (.not .abandoned)))
        (fun state frame => setup.run (setup.callWith budget) phrase state frame) rounds state
        frame) := by
  induction rounds generalizing state frame with
  | zero => exact .inl ⟨rfl, running⟩
  | succ rounds ih =>
      have sameTest : (setup.under options).holds state frame (.and look (.not .abandoned)) =
          setup.holds state frame (.and look (.not .abandoned)) :=
        (cutLikeness_steps setup options).holds _ ⟨rfl, running⟩ rfl
      have once : Outcome.Cuts _ (setup.run (setup.callWith budget) phrase state frame) :=
        attempts.cuts sameMemo frame running
      obtain ⟨fullSucceeded, -⟩ := attempts.adds setup budget state frame
      have follows := setup.follows_run (setup.keeps_callWith budget) phrase
      simp only [repeatWhile, sameTest]
      split
      · generalize (setup.under options).run _ phrase state frame = outcome at once ⊢
        generalize found : setup.run (setup.callWith budget) phrase state frame = full
          at once fullSucceeded ⊢
        obtain ⟨fullVerdict, fullAfter, fullFilled⟩ := full
        cases fullSucceeded
        rcases once with ⟨rfl, stillRunning⟩ | stopped | short
        · exact ih fullFilled stillRunning
        · exact .inr (.inl ((Setup.follows_repeatWhile follows _ fullAfter fullFilled).stopped
            stopped))
        · obtain ⟨verdict, after, filled⟩ := outcome
          cases short.verdict
          right
          right
          obtain ⟨most, adds⟩ := attempts.repeatWhile_adds setup budget
            (.and look (.not .abandoned)) rounds fullAfter fullFilled
          have stays := repeatWhile_stopped (setup.under options) look
            (fun state frame => (setup.under options).run ((setup.under options).callWith budget)
              phrase state frame) rounds filled short.stopped
          dsimp only
          rw [stays]
          exact short.adds adds
      · exact .inl ⟨rfl, running⟩

omit sameMemo in
/-- A run cuts behind a phrase that did as the run of that phrase does. -/
theorem Idles.seq_cuts {first second : Phrase} (idles : Idles setup options budget second)
    {state : State} {frame : Frame}
    (cuts : ((setup.under options).run ((setup.under options).callWith budget) first state
      frame).Cuts (setup.run (setup.callWith budget) first state frame))
    (succeeds : (setup.run (setup.callWith budget) first state frame).verdict = .ok) :
    ((setup.under options).run ((setup.under options).callWith budget) (.seq first second) state
      frame).Cuts (setup.run (setup.callWith budget) (.seq first second) state frame) := by
  rw [Setup.run_seq, Setup.run_seq, if_pos succeeds]
  rcases cuts with ⟨same, running⟩ | stopped | short
  · rw [same, if_pos succeeds]
    exact idles.cuts _ _ running
  · right
    left
    exact (setup.follows_run (setup.keeps_callWith budget) second _ _).stopped stopped
  · right
    right
    obtain ⟨most, adds⟩ := idles.adds (setup.run (setup.callWith budget) first state frame).state
      (setup.run (setup.callWith budget) first state frame).frame
    rw [if_pos short.verdict, idles.idle _ _ short.stopped]
    exact Outcome.FallsShort.adds ⟨short.stopped, rfl, short.fullVerdict, short.parts⟩ adds

omit sameMemo in
theorem Idles.seq {first second : Phrase} (idles : Idles setup options budget first)
    (later : Idles setup options budget second) :
    Idles setup options budget (.seq first second) := by
  constructor
  · intro state frame running
    obtain ⟨-, succeeds, -⟩ := idles.adds state frame
    exact later.seq_cuts (idles.cuts state frame running) succeeds
  · intro state frame stopped
    rw [Setup.run_seq, idles.idle state frame stopped, if_pos rfl]
    exact later.idle state frame stopped
  · intro state frame
    obtain ⟨most, succeeds, parts, same, few⟩ := idles.adds state frame
    rw [Setup.run_seq, if_pos succeeds, same]
    obtain ⟨more, ends, others, sameLater, -⟩ := later.adds _ (frame.pushAll parts)
    exact ⟨_, ends, others ++ parts, sameLater.trans frame.pushAll_pushAll, Nat.le_refl _⟩

/-- The rounds of a unit do nothing once the parse has been abandoned. -/
theorem Rounds.idles {phrase : Phrase} (rounds : Rounds phrase) :
    Idles setup options budget phrase := by
  induction rounds with
  | seq _ _ firstIh secondIh => exact firstIh.seq secondIh
  | @loop look phrase attempts =>
      constructor
      · intro state frame running
        exact attempts.repeatWhile_cuts sameMemo look _ frame running
      · intro state frame stopped
        exact repeatWhile_stopped _ look _ _ frame stopped
      · intro state frame
        exact attempts.repeatWhile_adds setup budget _ _ state frame

/-- The node of a guarded unit has the children of the full one up to where it
was cut off, and one more at most. -/
theorem Setup.node?_cut {tree : Node} (running : (setup.reply .unit).state.fatal = none)
    (built : setup.node? .unit = some tree) :
    ∃ cut, (setup.under options).node? .unit = some cut ∧
      ∃ kept extra, cut.children = kept ++ extra ∧ kept <+: tree.children ∧ extra.length ≤ 1 := by
  obtain ⟨package, rounds, body, attempts, idles⟩ := body_unit
  let frame : Frame := { kind := .compilationUnit, start := .origin }
  have first := attempts.adds setup (setup.budget - 1) setup.initial frame
  have cuts := (idles.idles sameMemo).seq_cuts (attempts.cuts sameMemo frame rfl) first.1
  have steady : (Phrase.seq package rounds).steady = true := by
    have whole := Rule.compilationUnit_steady
    rwa [body] at whole
  have reply := setup.reply_unit body rfl (setup.run_steady _ _ steady _ _)
  have cutReply := (setup.under options).reply_unit body rfl
    ((setup.under options).run_steady _ _ steady _ _)
  rw [reply] at running
  simp only [node?, reply, Option.bind_some, List.head?_cons, Option.some.injEq] at built
  refine ⟨_, by rw [node?, cutReply]; rfl, ?_⟩
  subst built
  rcases cuts with ⟨same, -⟩ | stopped | short
  · have sameParts := congrArg (fun outcome => outcome.frame.parts.reverse) same
    exact ⟨_, [], (List.append_nil _).symm, ⟨[], (List.append_nil _).trans sameParts⟩,
      Nat.zero_le 1⟩
  · rw [Option.isSome_iff_ne_none] at stopped
    exact absurd running stopped
  · obtain ⟨extra, kept, split, one, front⟩ := short.parts
    refine ⟨kept.reverse, extra.reverse, ?_, List.reverse_prefix.mpr front, by simpa using one⟩
    rw [← List.reverse_append, ← split]
    rfl

end Units

end JavaFront.Parser

namespace JavaFront.Source

open JavaFront.Parser

/-- A guard only cuts a unit short. Take a parse that is not abandoned, and the
same parse under another limit of depth and with other patience. If that one is
not abandoned either, it is the same parse. Otherwise it reports what the full
parse reports up to some point and then that it has been abandoned, and its tree
has the children of the full tree up to some point and one more at most. -/
theorem parse_cut (source : Source) (full : Options) (maxDepth : Int) (patience : Option Int)
    (running : (source.parse .unit full).abandoned = none) :
    ((source.parse .unit { full with maxDepth, patience }).abandoned = none →
      (source.parse .unit { full with maxDepth, patience }).tree =
          (source.parse .unit full).tree ∧
        (source.parse .unit { full with maxDepth, patience }).diagnostics =
          (source.parse .unit full).diagnostics ∧
        (source.parse .unit { full with maxDepth, patience }).stats =
          (source.parse .unit full).stats) ∧
    ∀ reason, (source.parse .unit { full with maxDepth, patience }).abandoned = some reason →
      (∃ before notice, (source.parse .unit { full with maxDepth, patience }).diagnostics =
          before ++ [notice] ∧ notice.message = reason.notice ∧
          before <+: (source.parse .unit full).diagnostics) ∧
        ∃ cut tree, (source.parse .unit { full with maxDepth, patience }).tree = some cut ∧
          (source.parse .unit full).tree = some tree ∧
          ∃ kept extra, cut.children = kept ++ extra ∧ kept <+: tree.children ∧
            extra.length ≤ 1 := by
  let limited : Options := { full with maxDepth, patience }
  let setup := Setup.ofSource source full
  have accepted := accepted_of_running running
  have sameMemo : limited.memo = setup.options.memo := rfl
  obtain ⟨fullTree, fullDiagnostics, fullFatal⟩ := source.parse_of_accepted .unit full accepted
  obtain ⟨tree, diagnostics, fatal⟩ := source.parse_of_accepted .unit limited accepted
  have stillRunning : (setup.reply .unit).state.fatal = none := fullFatal.symm.trans running
  have cuts : ((setup.under limited).reply .unit = setup.reply .unit ∧
      ((setup.under limited).reply .unit).state.fatal = none) ∨
      ((setup.under limited).reply .unit).state.CutOff (setup.reply .unit).state :=
    setup.callWith_cutsShort sameMemo setup.budget .compilationUnit setup.initial rfl
  constructor
  · intro notStopped
    have notFatal : ((setup.under limited).reply .unit).state.fatal = none :=
      fatal.symm.trans notStopped
    rcases cuts with ⟨same, -⟩ | stopped | ⟨reason, -, -, isFatal, -⟩
    · refine ⟨tree.trans (Eq.trans ?_ fullTree.symm),
        diagnostics.trans (Eq.trans ?_ fullDiagnostics.symm), ?_⟩
      · exact congrArg (fun reply : Reply => reply.parts?.bind List.head?) same
      · exact congrArg (fun reply : Reply => reply.state.diagnostics.toList) same
      · refine (source.stats_of_accepted .unit limited accepted).trans
          (Eq.trans ?_ (source.stats_of_accepted .unit full accepted).symm)
        exact congrArg (fun reply : Reply => setup.stats reply.state) same
    · rw [stillRunning] at stopped
      cases stopped
    · rw [notFatal] at isFatal
      cases isFatal
  · intro reason abandoned
    have isFatal : ((setup.under limited).reply .unit).state.fatal = some reason :=
      fatal.symm.trans abandoned
    constructor
    · rcases cuts with
        ⟨-, notFatal⟩ | stopped | ⟨other, before, notice, found, same, message, front⟩
      · rw [isFatal] at notFatal
        cases notFatal
      · rw [stillRunning] at stopped
        cases stopped
      · rw [isFatal] at found
        cases found
        exact ⟨before, notice, diagnostics.trans same, message, fullDiagnostics ▸ front⟩
    · obtain ⟨node, built⟩ := Option.isSome_iff_exists.mp setup.node?_unit
      obtain ⟨cut, cutBuilt, children⟩ := Setup.node?_cut sameMemo stillRunning built
      exact ⟨cut, node, tree.trans cutBuilt, fullTree.trans built, children⟩

/-- With four levels the first error of the second class is reported and its
second field is not read. -/
theorem parse_cut_nested :
    ((of [] "class A {} class B { int 1; int x = ((1)); } class C {}").parse .unit).abandoned =
        none ∧
      ((of [] "class A {} class B { int 1; int x = ((1)); } class C {}").parse .unit
        { maxDepth := 4 }).abandoned = some (.tooDeep 4) ∧
      (∃ before notice, ((of [] "class A {} class B { int 1; int x = ((1)); } class C {}").parse
          .unit { maxDepth := 4 }).diagnostics = before ++ [notice] ∧
        notice.message = (Abandonment.tooDeep 4).notice ∧ before.length = 1 ∧
        before <+: ((of [] "class A {} class B { int 1; int x = ((1)); } class C {}").parse
          .unit).diagnostics) ∧
      ∃ cut tree, ((of [] "class A {} class B { int 1; int x = ((1)); } class C {}").parse .unit
          { maxDepth := 4 }).tree = some cut ∧
        ((of [] "class A {} class B { int 1; int x = ((1)); } class C {}").parse .unit).tree =
          some tree ∧
        ∃ kept extra, cut.children = kept ++ extra ∧ kept <+: tree.children ∧
          extra.length ≤ 1 := by
  have running : ((of [] "class A {} class B { int 1; int x = ((1)); } class C {}").parse
      .unit).abandoned = none := by
    decide +kernel
  have stops : ((of [] "class A {} class B { int 1; int x = ((1)); } class C {}").parse .unit
      { maxDepth := 4 }).abandoned = some (.tooDeep 4) := by
    decide +kernel
  have two : ((of [] "class A {} class B { int 1; int x = ((1)); } class C {}").parse .unit
      { maxDepth := 4 }).diagnostics.length = 2 := by
    decide +kernel
  obtain ⟨⟨before, notice, same, message, front⟩, children⟩ :=
    (parse_cut (of [] "class A {} class B { int 1; int x = ((1)); } class C {}") {} 4 none
      running).2 _ stops
  refine ⟨running, stops, ⟨before, notice, same, message, ?_, front⟩, children⟩
  rw [same, List.length_append, List.length_singleton] at two
  omega

end JavaFront.Source
