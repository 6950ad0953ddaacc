import JavaFront.Proofs.Parser.Budget
import JavaFront.Proofs.Parser.MemoTable
import JavaFront.Proofs.Parser.Persistence

/-!
# Runs without trouble read what phrases read

A run that ends without a report and without being abandoned does what `Reads`
says, whatever its limits and with or without the memo table. Two facts carry
the induction over the calls: the budget is enough for every call that is made,
and every outcome in the memo table is one that its rule reads.
-/

namespace JavaFront.Parser

/-! ## Calm states -/

/-- Nothing has been reported and the parse has not been abandoned. -/
structure State.Calm (state : State) : Prop where
  fatal : state.fatal = none
  diagnostics : state.diagnostics = #[]

theorem State.Follows.calm {before after : State} (follows : before.Follows after)
    (calm : after.Calm) : before.Calm :=
  ⟨follows.fatal calm.fatal, follows.diagnostics calm.diagnostics⟩

/-- Without lexical errors every report leaves a diagnostic. -/
theorem Setup.diagnostics_report_ne {setup : Setup}
    (regular : ∀ index, setup.stream.kind index ≠ .error) (state : State) (failure : Failure) :
    (setup.report state failure).diagnostics ≠ #[] := by
  simp only [report, regular, if_false]
  simp

/-! ## Agreement -/

/-- What a phrase has read, seen from what it leaves behind. -/
def Outcome.read? (outcome : Outcome) : Option (Nat × Frame) :=
  if outcome.verdict = .failed then none else some (outcome.state.pos, outcome.frame)

/-- What a phrase leaves behind is what it reads, and the memo table stays
sound. -/
structure Outcome.Faithful (stream : Stream) (phrase : Phrase) (pos : Nat) (frame : Frame)
    (outcome : Outcome) : Prop where
  reads : Reads stream phrase pos frame outcome.read?
  proper : outcome.verdict ≠ .ended
  sound : MemoSound stream outcome.state.memo

/-- What a rule leaves behind is what it reads, and the memo table stays
sound. -/
structure Reply.Faithful (stream : Stream) (rule : Rule) (pos : Nat) (reply : Reply) : Prop where
  reads : RuleReads stream rule pos reply.parts? reply.state.pos
  sound : MemoSound stream reply.state.memo

/-- A trial is under way. -/
def State.trying (state : State) : Bool :=
  0 < state.speculating

theorem State.Follows.trying_eq {before after : State} (follows : before.Follows after) :
    after.trying = before.trying := by
  simp only [State.trying, follows.speculating_eq]

/-- A way to call rules that keeps to what rules read wherever the budget is
enough. -/
structure Caller.Reliable (call : Caller) (setup : Setup) (budget : Nat) : Prop where
  keeps : ∀ rule, Keeps (call rule)
  faithful : ∀ (rule : Rule) (state : State), need setup.stream rule state.pos ≤ budget →
    (state.trying = true → rule ≠ .compilationUnit) → state.pos ≤ setup.stream.last →
    MemoSound setup.stream state.memo → (call rule state).state.Calm →
    (call rule state).Faithful setup.stream rule state.pos

section Phrases

variable {setup : Setup} {budget : Nat} {call : Caller}

/-- A trial finds out whether its rule reads, and returns to where it
started. -/
theorem trial_faithful (reliable : call.Reliable setup budget) {rule : Rule} {state : State}
    (enough : need setup.stream rule state.pos ≤ budget) (notUnit : rule ≠ .compilationUnit)
    (inside : state.pos ≤ setup.stream.last) (sound : MemoSound setup.stream state.memo)
    (calm : (trial (call rule) state).2.Calm) :
    (∃ tried, (trial (call rule) state).1 = tried.isSome ∧
      Reads setup.stream rule.body state.pos
        ((Setup.plain setup.stream).frame { pos := state.pos } .error) tried) ∧
      (trial (call rule) state).2.pos = state.pos ∧
      MemoSound setup.stream (trial (call rule) state).2.memo := by
  have answered := reliable.faithful rule { state with speculating := state.speculating + 1 } enough
    (fun _ => notUnit) inside sound ⟨calm.fatal, calm.diagnostics⟩
  refine ⟨?_, rfl, answered.sound⟩
  have reads := answered.reads
  simp only [trial]
  cases parts : (call rule { state with speculating := state.speculating + 1 }).parts? with
  | some found =>
      rw [parts] at reads
      obtain ⟨inner, -, reads⟩ := reads
      exact ⟨_, rfl, reads⟩
  | none =>
      rw [parts] at reads
      exact ⟨_, rfl, reads⟩

/-- Where nothing is reported, a rule with recovery is the rule itself, and
outside of trials it does not fail. -/
theorem recovered_faithful (regular : ∀ index, setup.stream.kind index ≠ .error)
    (reliable : call.Reliable setup budget) {rule : Rule} {state : State}
    (enough : need setup.stream rule state.pos ≤ budget) (notUnit : rule ≠ .compilationUnit)
    (inside : state.pos ≤ setup.stream.last) (sound : MemoSound setup.stream state.memo)
    (calm : (setup.recovered (call rule) state).state.Calm) :
    (setup.recovered (call rule) state).Faithful setup.stream rule state.pos ∧
      ((setup.recovered (call rule) state).parts? = none → state.trying = true) := by
  have answered := reliable.faithful rule { state with furthest := .none } enough
    (fun _ => notUnit) inside sound
  have follows := reliable.keeps rule { state with furthest := .none }
  simp only [Setup.recovered] at calm ⊢
  rcases found : call rule { state with furthest := .none } with ⟨parts?, after⟩
  rw [found] at answered follows
  simp only [found] at calm ⊢
  cases parts? with
  | some parts =>
      have once := answered ⟨calm.fatal, calm.diagnostics⟩
      exact ⟨⟨once.reads, once.sound⟩, by simp⟩
  | none =>
      dsimp only at calm ⊢
      split at calm
      · rename_i given
        have once := answered ⟨calm.fatal, calm.diagnostics⟩
        rw [if_pos given]
        have running : after.fatal = none := calm.fatal
        have trying : 0 < after.speculating := by simpa [running] using given
        rw [follows.speculating_eq] at trying
        exact ⟨⟨once.reads, once.sound⟩, fun _ => by simpa [State.trying] using trying⟩
      · exact absurd calm.diagnostics (Setup.diagnostics_report_ne regular _ _)

/-- Where nothing is reported, what closes a body is a token. -/
theorem close_faithful (regular : ∀ index, setup.stream.kind index ≠ .error) {kind : Token.Kind}
    {state : State} {frame : Frame} (sound : MemoSound setup.stream state.memo)
    (calm : (setup.close kind state frame).state.Calm) :
    (setup.close kind state frame).Faithful setup.stream (.closing kind) state.pos frame := by
  have reads : Reads setup.stream (.closing kind) state.pos frame _ := .closing .token
  by_cases found : setup.stream.kind state.pos = kind
  · rw [if_pos found] at reads
    simp only [Setup.close, if_pos found]
    exact ⟨reads, by simp, sound⟩
  · rw [if_neg found] at reads
    simp only [Setup.close, if_neg found] at calm ⊢
    split at calm
    · rename_i given
      rw [if_pos given]
      exact ⟨reads, by simp, sound⟩
    · exact absurd calm.diagnostics (Setup.diagnostics_report_ne regular _ _)

/-- A loop whose body is faithful and reads a token in every round is faithful,
and its budget of rounds is not used up. -/
theorem repeatWhile_faithful (ordered : setup.stream.Ordered) {look : Look} {body : Phrase}
    (keeps : ∀ rule, Keeps (call rule)) (consumes : body.consumes = true) {trying : Bool}
    (faithful : ∀ (state : State) (frame : Frame), Ready setup.stream budget body state.pos →
      state.trying = trying → state.pos ≤ setup.stream.last →
      MemoSound setup.stream state.memo → (setup.run call body state frame).state.Calm →
      (setup.run call body state frame).Faithful setup.stream body state.pos frame)
    (rounds : Nat) (state : State) (frame : Frame)
    (ready : Ready setup.stream budget body state.pos) (sameTrying : state.trying = trying)
    (inside : state.pos ≤ setup.stream.last) (enough : setup.stream.last < state.pos + rounds)
    (sound : MemoSound setup.stream state.memo)
    (calm : (repeatWhile (fun state frame => setup.holds state frame look)
      (fun state frame => setup.run call body state frame) rounds state frame).state.Calm) :
    (repeatWhile (fun state frame => setup.holds state frame look)
      (fun state frame => setup.run call body state frame) rounds state frame).Faithful
        setup.stream (.loop look body) state.pos frame := by
  induction rounds generalizing state frame with
  | zero => omega
  | succ rounds ih =>
      have follows := setup.follows_run keeps body
      have running : state.fatal = none :=
        (Setup.follows_repeatWhile (fun state frame => follows state frame) _ _ _).fatal calm.fatal
      have sameLook := setup.holds_eq_plain frame look running
      simp only [repeatWhile] at calm ⊢
      by_cases goesOn : setup.holds state frame look = true
      · simp only [goesOn, if_true] at calm ⊢
        rw [sameLook] at goesOn
        have inner := faithful state frame ready sameTrying inside sound
        have moved := follows state frame
        rcases found : setup.run call body state frame with ⟨verdict, middle, between⟩
        rw [found] at inner moved
        simp only [found] at calm ⊢
        cases verdict with
        | ok =>
            have innerCalm : middle.Calm :=
              (Setup.follows_repeatWhile (fun state frame => follows state frame) _ _ _).calm calm
            have once := inner innerCalm
            have moves := once.reads.moves ordered inside rfl
            have forward : state.pos < middle.pos := moves.lt consumes
            have rest := ih middle between (ready.of_lt body forward moves.inside)
              (moved.trying_eq.trans sameTrying) moves.inside (by omega) once.sound calm
            exact ⟨.loop goesOn (.seq once.reads rest.reads), rest.proper, rest.sound⟩
        | failed =>
            have once := inner calm
            exact ⟨.loop goesOn (.seqFails once.reads), once.proper, once.sound⟩
        | ended => exact absurd rfl (inner calm).proper
      · simp only [goesOn, Bool.false_eq_true, if_false] at calm ⊢
        rw [sameLook] at goesOn
        exact ⟨.loopEnds (by simpa using goesOn), by simp, sound⟩

/-- A node around a body that is faithful is faithful. -/
theorem Setup.enclose_faithful {body whole : Phrase} {pos : Nat} {frame outer opened : Frame}
    {outcome : Outcome} (inner : outcome.Faithful setup.stream body pos opened)
    (reads : ∀ {result}, Reads setup.stream body pos opened result →
      Reads setup.stream whole pos frame (result.map fun (after, filled) =>
        (after, outer.push ((Setup.plain setup.stream).finish { pos := after } filled)))) :
    (setup.enclose outer outcome frame).Faithful setup.stream whole pos frame := by
  obtain ⟨verdict, state, filled⟩ := outcome
  cases verdict with
  | ok => exact ⟨reads inner.reads, by simp [enclose], inner.sound⟩
  | failed => exact ⟨reads inner.reads, by simp [enclose], inner.sound⟩
  | ended => exact absurd rfl inner.proper

theorem Setup.covered_faithful {kind : Node.Kind} {body : Phrase} {pos : Nat} {frame : Frame}
    {outcome : Outcome}
    (inner : outcome.Faithful setup.stream body pos { kind, start := .origin }) :
    (setup.covered outcome frame).Faithful setup.stream (.cover kind body) pos frame := by
  obtain ⟨verdict, state, filled⟩ := outcome
  cases verdict with
  | ok | failed => exact ⟨.cover inner.reads, by simp [covered], inner.sound⟩
  | ended => exact absurd rfl inner.proper

theorem Outcome.Faithful.documented {stream : Stream} {body : Phrase} {pos : Nat} {frame : Frame}
    {outcome : Outcome} (inner : outcome.Faithful stream body pos frame) :
    (outcome.documented (stream.docBefore? pos)).Faithful stream (.documented body) pos frame := by
  obtain ⟨verdict, state, filled⟩ := outcome
  cases verdict with
  | ok | failed => exact ⟨.documented inner.reads, by simp [Outcome.documented], inner.sound⟩
  | ended => exact absurd rfl inner.proper

/-- The parts of a rule that is faithful are what its call reads. -/
theorem Reply.Faithful.into {stream : Stream} {rule : Rule} {pos : Nat} {reply : Reply}
    (answered : reply.Faithful stream rule pos) (frame : Frame) :
    (reply.into frame).Faithful stream (.call rule) pos frame := by
  obtain ⟨parts?, state⟩ := reply
  cases parts? <;> exact ⟨answered.reads.call frame, by simp [Reply.into], answered.sound⟩

/-- A rule that recovers reads what the rule alone reads. -/
theorem Outcome.Faithful.recover {stream : Stream} {rule : Rule} {pos : Nat} {frame : Frame}
    {outcome : Outcome} (called : outcome.Faithful stream (.call rule) pos frame) :
    outcome.Faithful stream (.recover rule) pos frame :=
  ⟨.recover called.reads, called.proper, called.sound⟩

theorem Outcome.Faithful.orElse {stream : Stream} {first second : Phrase} {pos : Nat}
    {frame : Frame} {outcome : Outcome} (once : outcome.Faithful stream first pos frame) :
    outcome.Faithful stream (.orElse first second) pos frame :=
  ⟨.orElse once.reads, once.proper, once.sound⟩

theorem faithful_ite {condition : Prop} [Decidable condition] {yes no : Outcome} {phrase : Phrase}
    {pos : Nat} {frame : Frame}
    (reads : Reads setup.stream phrase pos frame (if condition then yes.read? else no.read?))
    (yesProper : yes.verdict ≠ .ended) (noProper : no.verdict ≠ .ended)
    (yesSound : MemoSound setup.stream yes.state.memo)
    (noSound : MemoSound setup.stream no.state.memo) :
    (if condition then yes else no).Faithful setup.stream phrase pos frame := by
  split at reads
  · rw [if_pos (by assumption)]
    exact ⟨reads, yesProper, yesSound⟩
  · rw [if_neg (by assumption)]
    exact ⟨reads, noProper, noSound⟩

/-- A phrase that is run without trouble, by calls that are reliable, leaves
behind what it reads. -/
theorem Setup.run_faithful (setup : Setup) (ordered : setup.stream.Ordered)
    (regular : ∀ index, setup.stream.kind index ≠ .error) (reliable : call.Reliable setup budget)
    (phrase : Phrase) (state : State) (frame : Frame)
    (ready : Ready setup.stream budget phrase state.pos)
    (settled : phrase.settled state.trying = true) (inside : state.pos ≤ setup.stream.last)
    (sound : MemoSound setup.stream state.memo)
    (calm : (setup.run call phrase state frame).state.Calm) :
    (setup.run call phrase state frame).Faithful setup.stream phrase state.pos frame := by
  have keeps := reliable.keeps
  have running : state.fatal = none := (setup.follows_run keeps phrase state frame).fatal calm.fatal
  induction phrase generalizing state frame with
  | done => exact ⟨.done, by simp [Setup.run], sound⟩
  | stop => exact ⟨.stop, by simp [Setup.run], sound⟩
  | expected texts => exact ⟨.expected, by simp [Setup.run], sound⟩
  | seq first second firstIh secondIh =>
      obtain ⟨firstSettled, secondSettled⟩ := Bool.and_eq_true_iff.mp settled
      have before := firstIh state frame ready.seq_first firstSettled inside sound
      have moved := setup.follows_run keeps first state frame
      simp only [Setup.run] at calm ⊢
      rcases found : setup.run call first state frame with ⟨verdict, middle, between⟩
      rw [found] at before moved
      simp only [found] at calm ⊢
      cases verdict with
      | ok =>
          have behind := setup.follows_run keeps second middle between
          have once := before (behind.calm calm) running
          have moves := once.reads.moves ordered inside rfl
          have rest := secondIh middle between (ready.seq_second moves)
            (by rw [moved.trying_eq]; exact secondSettled) moves.inside once.sound calm
            (behind.fatal calm.fatal)
          exact ⟨.seq once.reads rest.reads, rest.proper, rest.sound⟩
      | failed =>
          have once := before calm running
          exact ⟨.seqFails once.reads, once.proper, once.sound⟩
      | ended => exact absurd rfl (before calm running).proper
  | token kind => exact faithful_ite .token (by simp) (by simp) sound sound
  | leaf node kind => exact faithful_ite .leaf (by simp) (by simp) sound sound
  | pick node accept => exact faithful_ite .pick (by simp) (by simp) sound sound
  | mark accept => exact faithful_ite .mark (by simp) (by simp) sound sound
  | operator => exact ⟨.operator, by simp [Setup.run], sound⟩
  | node kind body ih =>
      simp only [Setup.run, Setup.enclose_state] at calm
      have inner := ih state _ (ready.mono fun _ => id) settled inside sound calm running
      exact enclose_faithful inner .node
  | wrap kind body ih =>
      simp only [Setup.run] at calm ⊢
      split at calm
      · rename_i none
        exact ⟨.wrapFails none, by simp, sound⟩
      · rename_i first others filled
        rw [Setup.enclose_state] at calm
        have inner := ih state _ (ready.mono fun _ => id) settled inside sound calm running
        exact enclose_faithful inner (.wrap filled)
  | reopen kind body ih =>
      simp only [Setup.run] at calm ⊢
      split at calm
      · rename_i none
        exact ⟨.reopenFails none, by simp, sound⟩
      · rename_i first others filled
        rw [Setup.enclose_state] at calm
        have inner := ih state _ (ready.mono fun _ => id) settled inside sound calm running
        exact enclose_faithful inner (.reopen filled)
  | cover kind body ih =>
      rw [Setup.run_cover] at calm ⊢
      rw [Setup.covered_state] at calm
      exact covered_faithful (ih state { kind, start := .origin } (ready.mono fun _ => id) settled
        inside sound calm running)
  | rekind kind => exact ⟨.rekind, by simp [Setup.run], sound⟩
  | branch look yes no yesIh noIh =>
      obtain ⟨yesSettled, noSettled⟩ := Bool.and_eq_true_iff.mp settled
      have sameLook := setup.holds_eq_plain frame look running
      rw [Setup.run_branch] at calm ⊢
      generalize setup.holds state frame look = chosen at calm sameLook ⊢
      have inner : (setup.run call (if chosen then yes else no) state frame).Faithful setup.stream
          (if chosen then yes else no) state.pos frame := by
        cases chosen with
        | true => exact yesIh state frame ready.branches.1 yesSettled inside sound calm running
        | false => exact noIh state frame ready.branches.2 noSettled inside sound calm running
      exact ⟨.branch (sameLook ▸ inner.reads), inner.proper, inner.sound⟩
  | trial rule yes no yesIh noIh =>
      simp only [Phrase.settled, Bool.and_eq_true, bne_iff_ne] at settled
      obtain ⟨⟨notUnit, yesSettled⟩, noSettled⟩ := settled
      obtain ⟨enough, yesReady, noReady⟩ := ready.trials
      have behind := Setup.follows_trial (keeps rule) state
      have tried := trial_faithful reliable enough notUnit inside sound
      rw [Setup.run_trial] at calm ⊢
      generalize trial (call rule) state = attempt at calm behind tried ⊢
      obtain ⟨success, after⟩ := attempt
      have later := setup.follows_run keeps (if success then yes else no) after frame
      obtain ⟨⟨result, answer, reads⟩, samePos, afterSound⟩ := tried (later.calm calm)
      have rest : (setup.run call (if success then yes else no) after frame).Faithful setup.stream
          (if success then yes else no) after.pos frame := by
        cases success with
        | true =>
            exact yesIh after frame (samePos ▸ yesReady)
              (by rw [behind.trying_eq]; exact yesSettled) (samePos ▸ inside) afterSound calm
              (later.fatal calm.fatal)
        | false =>
            exact noIh after frame (samePos ▸ noReady)
              (by rw [behind.trying_eq]; exact noSettled) (samePos ▸ inside) afterSound calm
              (later.fatal calm.fatal)
      refine ⟨.trial reads ?_, rest.proper, rest.sound⟩
      rw [← answer, ← samePos]
      exact rest.reads
  | call rule =>
      rw [Setup.run_call] at calm ⊢
      rw [Reply.into_state] at calm
      exact (reliable.faithful rule state ready.need_le
        (fun _ => by simpa [Phrase.settled] using settled) inside sound calm).into frame
  | recover rule =>
      have notUnit : rule ≠ .compilationUnit := by simpa [Phrase.settled] using settled
      rw [Setup.run_recover] at calm ⊢
      rw [Reply.into_state] at calm
      exact ((recovered_faithful regular reliable (ready.mono fun _ => id).need_le notUnit inside
        sound calm).1.into frame).recover
  | orElse first second firstIh _ =>
      have firstReady := ready.mono fun _ leads => (Bool.and_eq_true_iff.mp leads).1
      have once := firstIh state frame firstReady
      rcases Phrase.settled_orElse settled with
        ⟨rfl, firstSettled⟩ | ⟨rfl, notTrying, rule, rfl, notUnit⟩
      · have before := (setup.follows_orElse keeps first .salvage state frame).calm calm
        rw [setup.run_orElse_salvage call before.fatal]
        exact (once firstSettled inside sound before running).orElse
      · have answered := recovered_faithful regular reliable firstReady.need_le notUnit inside sound
        rw [Setup.run_orElse, Setup.run_recover, Reply.into_state] at calm
        rw [Setup.run_orElse, Setup.run_recover]
        by_cases failed : ((setup.recovered (call rule) state).into frame).verdict = .failed
        · rw [if_pos failed] at calm
          have trying := (answered calm).2 (Reply.failed_of_into failed)
          rw [notTrying] at trying
          cases trying
        · rw [if_neg failed, Reply.into_state] at calm
          rw [if_neg failed]
          exact ((answered calm).1.into frame).recover.orElse
  | loop look body ih =>
      obtain ⟨consumes, bodySettled⟩ := Bool.and_eq_true_iff.mp settled
      refine repeatWhile_faithful ordered keeps consumes ?_ _ state frame (ready.mono fun _ => id)
        rfl inside ?_ sound calm
      · intro other otherFrame otherReady sameTrying otherInside otherSound otherCalm
        exact ih other otherFrame otherReady (by rw [sameTrying]; exact bodySettled) otherInside
          otherSound otherCalm
          ((setup.follows_run keeps body other otherFrame).fatal otherCalm.fatal)
      · simp only [Stream.size]
        omega
  | documented body ih =>
      rw [Setup.run_documented] at calm ⊢
      rw [Outcome.documented_state] at calm
      exact (ih state frame (ready.mono fun _ => id) settled inside sound calm running).documented
  | closing kind => exact close_faithful regular sound calm
  | salvage =>
      simp only [Setup.run, Setup.salvage, running]
      exact ⟨.salvage, by simp, sound⟩

end Phrases

/-! ## Rules -/

/-- A way to run one rule that keeps to what the rule reads, from the states of
which `given` holds. -/
def Truthful (setup : Setup) (rule : Rule) (given : Nat → Prop) (run : State → Reply) : Prop :=
  ∀ state : State, given state.pos → (state.trying = true → rule ≠ .compilationUnit) →
    state.pos ≤ setup.stream.last → MemoSound setup.stream state.memo → (run state).state.Calm →
    (run state).Faithful setup.stream rule state.pos

section Rules

variable {setup : Setup} {rule : Rule} {given : Nat → Prop} {run : State → Reply}

theorem Setup.runBody_truthful {budget : Nat} {call : Caller} (ordered : setup.stream.Ordered)
    (regular : ∀ index, setup.stream.kind index ≠ .error) (reliable : call.Reliable setup budget)
    (rule : Rule) :
    Truthful setup rule (fun pos => need setup.stream rule pos ≤ budget + 1)
      (setup.runBody call rule) := by
  intro state enough notUnit inside sound calm
  have ran := setup.run_faithful ordered regular reliable rule.body state (setup.frame state .error)
    (.of_body enough) (rule.body_settled state.trying notUnit) inside sound
  simp only [runBody] at calm ⊢
  rcases found : setup.run call rule.body state (setup.frame state .error) with
    ⟨verdict, after, inner⟩
  rw [found] at ran
  simp only [found] at calm ⊢
  cases verdict with
  | ok =>
      have once := ran calm
      exact ⟨⟨inner, rfl, once.reads⟩, once.sound⟩
  | failed =>
      have once := ran calm
      exact ⟨once.reads, once.sound⟩
  | ended => exact absurd rfl (ran calm).proper

/-- A guard that lets a rule in changes nothing of what it reads; one that does
not abandons the parse. -/
theorem Setup.guarded_truthful (truthful : Truthful setup rule given run) :
    Truthful setup rule given (setup.guarded run) := by
  intro state holds notUnit inside sound calm
  rcases setup.guarded_cases run state with ⟨-, same⟩ | ⟨after, same, stopped, -⟩
  · rw [same] at calm ⊢
    have inner := truthful { state with steps := state.steps + 1, depth := state.depth + 1 }
      holds notUnit inside sound ⟨calm.fatal, calm.diagnostics⟩
    exact ⟨inner.reads, inner.sound⟩
  · rw [same] at calm
    rw [calm.fatal] at stopped
    cases stopped

theorem remember_truthful {slot : Memo.Slot} (kept : Memo.Slot.of? rule = some slot)
    (truthful : Truthful setup rule given run) (state : State) (holds : given state.pos)
    (notUnit : state.trying = true → rule ≠ .compilationUnit)
    (inside : state.pos ≤ setup.stream.last) (sound : MemoSound setup.stream state.memo)
    (calm : (remember ⟨slot, state.pos⟩ run state).state.Calm) :
    (remember ⟨slot, state.pos⟩ run state).Faithful setup.stream rule state.pos := by
  have ran := truthful { state with furthest := .none } holds notUnit inside sound
  simp only [remember] at calm ⊢
  rcases found : run { state with furthest := .none } with ⟨parts?, after⟩
  rw [found] at ran
  simp only [found] at calm ⊢
  split at calm
  · rename_i stopped
    have running : after.fatal = none := calm.fatal
    simp [running] at stopped
  · rename_i running
    rw [if_neg running]
    have once := ran ⟨calm.fatal, calm.diagnostics⟩
    refine ⟨once.reads, Memo.All.put once.sound ?_⟩
    rw [Memo.Slot.rule_of? kept]
    cases parts? with
    | some parts => exact once.reads
    | none => exact once.reads

/-- Looking an outcome up tells what running the rule would. -/
theorem memoized_truthful {slot : Memo.Slot} (kept : Memo.Slot.of? rule = some slot)
    (truthful : Truthful setup rule given run) :
    Truthful setup rule given (memoized slot run) := by
  intro state holds notUnit inside sound calm
  have lookedUp := Memo.All.get sound ⟨slot, state.pos⟩
  have remembered := remember_truthful kept truthful
    { state with memo := (state.memo.get ⟨slot, state.pos⟩).2 } holds notUnit inside lookedUp
  have told : ∀ outcome, (state.memo.get ⟨slot, state.pos⟩).1 = some outcome →
      RuleReads setup.stream rule state.pos outcome.parts? outcome.stop := by
    intro outcome found
    rw [state.memo.get_fst] at found
    have reads : RuleReads setup.stream slot.rule state.pos outcome.parts? outcome.stop :=
      sound _ _ found
    rwa [Memo.Slot.rule_of? kept] at reads
  simp only [memoized] at calm ⊢
  split at calm
  · rename_i parts stop furthest found
    exact ⟨told _ found, lookedUp⟩
  · rename_i stop furthest found
    have reads := told _ found
    split at calm
    · rename_i trying
      rw [if_pos trying]
      exact ⟨reads, lookedUp⟩
    · rename_i notTrying
      rw [if_neg notTrying]
      exact remembered calm
  · exact remembered calm

end Rules

/-- The budget of a call is never used up, so a call without trouble leaves
behind what its rule reads. -/
theorem Setup.callWith_reliable (setup : Setup) (ordered : setup.stream.Ordered)
    (regular : ∀ index, setup.stream.kind index ≠ .error) (budget : Nat) :
    Caller.Reliable (setup.callWith budget) setup budget := by
  induction budget with
  | zero =>
      refine ⟨setup.keeps_callWith 0, ?_⟩
      intro rule state enough
      simp [need] at enough
  | succ budget ih =>
      refine ⟨setup.keeps_callWith (budget + 1), ?_⟩
      intro rule
      exact setup.runRule_induction (runBody_truthful ordered regular ih rule) guarded_truthful
        memoized_truthful

end JavaFront.Parser
