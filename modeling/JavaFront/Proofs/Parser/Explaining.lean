import JavaFront.Proofs.Parser.Foresight
import JavaFront.Proofs.Parser.Furthest
import JavaFront.Proofs.Parser.Limits
import JavaFront.Proofs.Parser.Successes
import JavaFront.Proofs.Parser.Trials

/-!
# Failures are told where the parse stopped

Outside of trials a rule starts without a failure on record. If it gives up, the
furthest failure is at the cursor and says what would have been accepted there;
if it succeeds, there is none. The phrases that give up without a word stand where
they cannot: what is known in front of them, the sight, leaves no token for that,
or a trial of the rule has succeeded and foretells that the rule will. So whatever
is reported tells what would have been accepted.
-/

namespace JavaFront

/-- The diagnostic tells what would have been accepted, nothing twice. -/
structure Diagnostic.Explains (diagnostic : Diagnostic) : Prop where
  expected : diagnostic.expected ≠ []
  nodup : diagnostic.expected.Nodup

namespace Failure

/-- The failure is at an index and tells what would have been accepted there,
nothing twice. -/
structure Explains (failure : Failure) (pos : Nat) : Prop where
  here : failure.pos = pos
  expected : failure.expected ≠ []
  nodup : failure.expected.Nodup

variable {failure : Failure} {pos : Nat}

theorem explains_record (pos : Nat) (text : String) : (none.record pos text).Explains pos := by
  have first : none.record pos text = ⟨pos, [text]⟩ :=
    if_pos (Int.lt_of_lt_of_le (by decide) (Int.natCast_nonneg pos))
  rw [first]
  exact ⟨rfl, List.cons_ne_nil _ _, List.nodup_singleton _⟩

theorem Explains.record (explains : failure.Explains pos) (text : String) :
    (failure.record pos text).Explains pos := by
  have again : failure.record pos text = ⟨failure.pos, addText failure.expected text⟩ := by
    rw [Failure.record, if_neg (Int.not_lt.mpr (Int.le_of_eq explains.here.symm)),
      if_pos explains.here]
  rw [again]
  refine ⟨explains.here, fun empty => ?_, nodup_addText explains.nodup text⟩
  have member : text ∈ addText failure.expected text := mem_addText.mpr (.inr rfl)
  rw [show addText failure.expected text = [] from empty] at member
  cases member

theorem explains_recordAll {texts : List String} (some : texts ≠ []) (pos : Nat) :
    (none.recordAll pos texts).Explains pos := by
  obtain ⟨first, others, rfl⟩ := List.exists_cons_of_ne_nil some
  have further : ∀ {failure : Failure}, failure.Explains pos →
      (failure.recordAll pos others).Explains pos := by
    clear some
    induction others with
    | nil => exact id
    | cons text others ih => exact fun explains => ih (explains.record text)
  exact further (explains_record pos first)

/-- Merging it into nothing leaves it as it is. -/
theorem Explains.none_merge (explains : failure.Explains pos) : none.merge failure = failure :=
  Proper.none_merge (.inr (explains.here ▸ Int.natCast_nonneg pos))

end Failure

namespace Parser

/-! ## What is told -/

/-- The failure met furthest is at the cursor and tells what would have been
accepted. -/
abbrev State.Explains (state : State) : Prop :=
  state.furthest.Explains state.pos

/-- All that was reported between two states tells what would have been
accepted. -/
def State.Tells (before after : State) : Prop :=
  ∀ diagnostic ∈ after.diagnostics, diagnostic ∈ before.diagnostics ∨ diagnostic.Explains

namespace State.Tells

variable {first second third : State}

theorem of_same (same : second.diagnostics = first.diagnostics) : first.Tells second :=
  fun _ member => .inl (same ▸ member)

theorem trans (before : first.Tells second) (behind : second.Tells third) : first.Tells third :=
  fun diagnostic member => (behind diagnostic member).elim (before diagnostic) .inr

/-- A failure that tells what would have been accepted may be reported. -/
theorem report (setup : Setup) {failure : Failure} {pos : Nat} (explains : failure.Explains pos)
    (before : first.Tells second) : first.Tells (setup.report second failure) := by
  intro diagnostic member
  simp only [Setup.report] at member
  generalize (if failure.pos < 0 then second.pos else failure.pos.toNat) = index at member
  split at member
  · exact before diagnostic member
  · rcases Array.mem_push.mp member with earlier | rfl
    · exact before diagnostic earlier
    · exact .inr ⟨explains.expected, explains.nodup⟩

end State.Tells

/-- A state outside of trials and without a failure. -/
structure State.Fresh (stream : Stream) (state : State) : Prop extends state.Placed stream where
  unblamed : MemoUnblamed state.memo
  outside : state.speculating = 0
  furthest : state.furthest = .none

/-- What was reported on the way of a phrase tells what would have been accepted,
and if the phrase gave up, so does the failure. -/
structure Outcome.Explained (state : State) (outcome : Outcome) : Prop where
  tells : state.Tells outcome.state
  explains : outcome.verdict = .failed → outcome.state.Explains

/-- What was reported on the way of a rule tells what would have been accepted,
and if the rule failed, so does the failure. -/
structure Reply.Explained (state : State) (reply : Reply) : Prop where
  tells : state.Tells reply.state
  explains : reply.parts? = none → reply.state.Explains

/-- A phrase that succeeds explains what has been reported. -/
theorem Outcome.Explained.ok {state after : State} {frame : Frame} (tells : state.Tells after) :
    Outcome.Explained state ⟨.ok, after, frame⟩ :=
  ⟨tells, fun failed => by cases failed⟩

/-- A rule that succeeds explains what has been reported. -/
theorem Reply.Explained.some {state after : State} {parts : List Node}
    (tells : state.Tells after) : Reply.Explained state ⟨some parts, after⟩ :=
  ⟨tells, fun failed => by cases failed⟩

theorem State.Fresh.explains_fail {stream : Stream} {state : State} (fresh : state.Fresh stream)
    (text : String) : (state.fail text).Explains := by
  simpa only [State.Explains, State.fail, fresh.furthest] using
    Failure.explains_record state.pos text

theorem State.Fresh.trying_eq {stream : Stream} {state : State} (fresh : state.Fresh stream) :
    state.trying = false := by
  simp only [State.trying, fresh.outside]
  rfl

theorem Reply.Explained.into {state : State} {reply : Reply} (explained : reply.Explained state)
    (frame : Frame) : (reply.into frame).Explained state := by
  rw [Reply.into]
  split
  · exact .ok explained.tells
  · rename_i failed
    exact ⟨explained.tells, fun _ => explained.explains failed⟩

end Parser

/-! ## Sights -/

namespace Sight

open JavaFront.Parser

/-- The tokens at an index are among those that may stand there. -/
structure Fits (sight : Sight) (stream : Stream) (pos : Nat) : Prop where
  here : sight.here (stream.kind pos) = true
  next : sight.next (stream.kind (pos + 1)) = true
  operator : sight.operator (stream.operator pos).1 = true

namespace Fits

variable {sight other : Sight} {stream : Stream} {pos : Nat}

/-- Nothing known fits anywhere. -/
theorem any (filled : Bool) (tried : Option Rule) :
    Fits { filled, tried } stream pos :=
  ⟨rfl, rfl, rfl⟩

theorem not_isVoid (fits : sight.Fits stream pos) : sight.isVoid ≠ true := by
  intro void
  simp only [isVoid, Bool.or_eq_true, List.all_eq_true] at void
  rcases void with (here | next) | operator
  · simpa [fits.here] using here (stream.kind pos) (Token.Kind.mem_all _)
  · simpa [fits.next] using next (stream.kind (pos + 1)) (Token.Kind.mem_all _)
  · simpa [fits.operator] using operator (stream.operator pos).1 (Token.Kind.mem_all _)

theorem either_left (fits : sight.Fits stream pos) : (sight.either other).Fits stream pos := by
  simp only [either]
  exact ⟨by simp [fits.here], by simp [fits.next], by simp [fits.operator]⟩

theorem either_right (fits : other.Fits stream pos) : (sight.either other).Fits stream pos := by
  simp only [either]
  exact ⟨by simp [fits.here], by simp [fits.next], by simp [fits.operator]⟩

/-- What a look finds may be taken into account. -/
theorem narrow {setup : Setup} {state : State} {frame : Frame} {look : Look} {answer : Bool}
    (fits : sight.Fits setup.stream state.pos) (running : state.fatal = none)
    (holds : setup.holds state frame look = answer) :
    (sight.narrow answer look).Fits setup.stream state.pos := by
  induction look generalizing sight answer with
  | here accept =>
      have found : accept (setup.stream.kind state.pos) = answer := holds
      refine ⟨by simp [Sight.narrow, fits.here, found], fits.next, ?_⟩
      rcases setup.stream.operator_cases state.pos with single | ⟨composed, -⟩
      · have operator := fits.operator
        rw [single] at operator
        simp [Sight.narrow, single, operator, found]
      · simp [Sight.narrow, fits.operator, composed]
  | next accept =>
      have found : accept (setup.stream.kind (state.pos + 1)) = answer := holds
      exact ⟨fits.here, by simp [Sight.narrow, fits.next, found], fits.operator⟩
  | operator accept =>
      have found : accept (setup.stream.operator state.pos).1 = answer := holds
      exact ⟨fits.here, fits.next, by simp [Sight.narrow, fits.operator, found]⟩
  | genericName | latest | latestVariadic => exact fits
  | abandoned =>
      have found : state.fatal.isSome = answer := holds
      rw [running] at found
      subst found
      exact fits
  | not look ih =>
      refine ih fits ?_
      rw [← holds]
      exact (Bool.not_not _).symm
  | and first second firstIh secondIh =>
      have both : (setup.holds state frame first && setup.holds state frame second) = answer :=
        holds
      cases answer with
      | true =>
          obtain ⟨one, two⟩ := Bool.and_eq_true_iff.mp both
          exact secondIh (firstIh fits one) two
      | false =>
          simp only [Sight.narrow, Bool.false_eq_true, if_false]
          split
          · rename_i void
            refine secondIh fits ((Bool.and_eq_false_iff.mp both).resolve_left fun one => ?_)
            exact (firstIh fits one).not_isVoid void
          · exact fits
  | or first second firstIh secondIh =>
      have either : (setup.holds state frame first || setup.holds state frame second) = answer :=
        holds
      cases answer with
      | true =>
          rcases Bool.or_eq_true_iff.mp either with one | two
          · exact (firstIh fits one).either_left
          · exact (secondIh fits two).either_right
      | false =>
          obtain ⟨one, two⟩ := Bool.or_eq_false_iff.mp either
          exact secondIh (firstIh fits one) two

/-- A rule that is called where it may be finds what it counts on. -/
theorem suits (fits : sight.Fits stream pos) {rule : Rule} (suits : sight.suits rule = true) :
    rule.isMute = false ∧ rule.sight.Fits stream pos := by
  simp only [Sight.suits, Bool.and_eq_true, Bool.not_eq_true', List.all_eq_true] at suits
  obtain ⟨speaks, all⟩ := suits
  refine ⟨speaks, ?_, ?_, ?_⟩
  · simpa [fits.here] using (all _ (Token.Kind.mem_all (stream.kind pos))).1
  · simpa [fits.next] using (all _ (Token.Kind.mem_all (stream.kind (pos + 1)))).2
  · cases rule <;> rfl

end Fits

/-- A look tells nothing about the frame, nor about what was tried. -/
theorem narrow_keeps (sight : Sight) (answer : Bool) (look : Look) :
    (sight.narrow answer look).filled = sight.filled ∧
      (sight.narrow answer look).tried = sight.tried := by
  induction look generalizing sight answer with
  | abandoned => cases answer <;> exact ⟨rfl, rfl⟩
  | not look ih => exact ih sight (!answer)
  | and first second firstIh secondIh =>
      cases answer with
      | true =>
          have outer := secondIh (sight.narrow true first) true
          have inner := firstIh sight true
          exact ⟨outer.1.trans inner.1, outer.2.trans inner.2⟩
      | false =>
          simp only [narrow, Bool.false_eq_true, if_false]
          split
          · exact secondIh sight false
          · exact ⟨rfl, rfl⟩
  | or first second firstIh secondIh =>
      cases answer with
      | true => exact firstIh sight true
      | false =>
          have outer := secondIh (sight.narrow false first) false
          have inner := firstIh sight false
          exact ⟨outer.1.trans inner.1, outer.2.trans inner.2⟩
  | _ => exact ⟨rfl, rfl⟩

end Sight

namespace Parser

variable {setup : Setup} {budget : Nat}

/-! ## Trials -/

/-- A way to run a rule succeeds in this state and reports nothing, or the parse
is abandoned. -/
def Foreseen (run : State → Reply) (state : State) : Prop :=
  (run state).state.fatal.isSome = true ∨
    (run state).parts?.isSome = true ∧ (run state).state.diagnostics = state.diagnostics

/-- A trial that succeeds foretells a success. -/
theorem Setup.foreseen_of_trial {rule : Rule} {state : State} (part : rule ≠ .compilationUnit)
    (outside : state.speculating = 0)
    (success : (trial (setup.callWith budget rule) state).1 = true)
    (running : (trial (setup.callWith budget rule) state).2.fatal = none) :
    Foreseen (setup.callWith budget rule) (trial (setup.callWith budget rule) state).2 := by
  let tried := setup.callWith budget rule { state with speculating := state.speculating + 1 }
  let after := (trial (setup.callWith budget rule) state).2
  let echo : Echo := ⟨tried.state.memo, after.diagnostics, after.trying⟩
  have follows : state.Follows after := follows_trial (setup.keeps_callWith budget rule) state
  have level : echo.Level { state with speculating := state.speculating + 1 } after := by
    refine ⟨⟨running, rfl, rfl, ?_, rfl⟩, rfl, ?_⟩
    · exact Int.le_of_eq (follows.speculating_eq.trans outside).symm
    · simp only [State.trying, outside]
      rfl
  have replies := (setup.callWith_echoes budget).replies echo rule level part ⟨running, .of_eq rfl⟩
  rcases replies.foretells success with stopped | ⟨succeeds, -, -, silent⟩
  · exact .inl stopped
  · exact .inr ⟨succeeds, silent⟩

/-- A trial leaves a fresh state as it was, and reports nothing unless the parse
is abandoned. -/
theorem State.Fresh.trial (ordered : setup.stream.Ordered) {rule : Rule} {state : State}
    (fresh : state.Fresh setup.stream)
    (running : (trial (setup.callWith budget rule) state).2.fatal = none) :
    (trial (setup.callWith budget rule) state).2.Fresh setup.stream ∧
      (trial (setup.callWith budget rule) state).2.diagnostics = state.diagnostics := by
  have follows := Setup.follows_trial (setup.keeps_callWith budget rule) state
  have reached := (setup.callWith_advances ordered budget rule).reaches_trial fresh.toPlaced
  have memo := (setup.callWith_settles budget rule).memo
    { state with speculating := state.speculating + 1 } fresh.unblamed
  refine ⟨⟨reached.placed, memo, follows.speculating_eq.trans fresh.outside, fresh.furthest⟩, ?_⟩
  have tried : 0 < state.speculating + 1 := by
    rw [fresh.outside]
    decide
  rcases (setup.discreet_callWith budget rule
    { state with speculating := state.speculating + 1 }).silent tried with
    ⟨-, same⟩ | ⟨reason, -, -, stopped, -⟩
  · exact same
  · cases stopped.symm.trans running

/-! ## Phrases -/

/-- What is known in front of a phrase holds for the state and the frame. -/
structure Sees (sight : Sight) (setup : Setup) (budget : Nat) (state : State) (frame : Frame) :
    Prop extends sight.Fits setup.stream state.pos where
  filled : sight.filled = true → frame.parts ≠ []
  tried : ∀ rule, sight.tried = some rule → Foreseen (setup.callWith budget rule) state

/-- A way to run a rule that explains where the rule fails, with a budget that is
enough. -/
def ExplainsRule (setup : Setup) (budget : Nat) (rule : Rule) (run : State → Reply) : Prop :=
  ∀ state : State, state.Fresh setup.stream → need setup.stream rule state.pos ≤ budget →
    rule.sight.Fits setup.stream state.pos → (run state).state.fatal = none →
    (run state).Explained state

/-- With this budget for nested calls, rules explain where they fail. -/
def Explaining (setup : Setup) (budget : Nat) : Prop :=
  ∀ rule : Rule, rule.isMute = false →
    ExplainsRule setup budget rule (setup.callWith budget rule)

/-- Behind a phrase that succeeded the state is fresh again. -/
theorem State.Fresh.behind (ordered : setup.stream.Ordered) {phrase : Phrase}
    {state middle : State} {frame between : Frame} (fresh : state.Fresh setup.stream)
    (settled : phrase.settled false = true)
    (found : setup.run (setup.callWith budget) phrase state frame = ⟨.ok, middle, between⟩)
    (running : middle.fatal = none) :
    middle.Fresh setup.stream ∧ Unblamed phrase state middle frame between := by
  have calls := setup.callWith_settles budget
  have reached := setup.run_reaches (setup.callWith_advances ordered budget) phrase state frame
    fresh.toPlaced
  have memo := setup.run_unblamed calls phrase frame fresh.unblamed
  have follows := setup.follows_run (setup.keeps_callWith budget) phrase state frame
  have settles := setup.run_settles calls phrase state frame
    (by rw [fresh.trying_eq]; exact settled) fresh.unblamed
  rw [found] at reached memo follows settles
  have unblamed := (settles running).get
  exact ⟨⟨reached.placed, memo, follows.speculating_eq.trans fresh.outside,
    unblamed.furthest fresh.furthest⟩, unblamed⟩

/-- What is known behind a phrase holds there. -/
theorem Sees.behind {sight : Sight} {phrase : Phrase} {state middle : State}
    {frame between : Frame} (sees : Sees sight setup budget state frame)
    (found : setup.run (setup.callWith budget) phrase state frame = ⟨.ok, middle, between⟩)
    (unblamed : Unblamed phrase state middle frame between) :
    Sees (phrase.behind sight) setup budget middle between := by
  by_cases renames : ∃ kind, phrase = .rekind kind
  · obtain ⟨kind, rfl⟩ := renames
    cases found
    exact ⟨sees.toFits, sees.filled, sees.tried⟩
  · have same : phrase.behind sight = { filled := phrase.leaves sight.filled } := by
      cases phrase with
      | rekind kind => exact absurd ⟨kind, rfl⟩ renames
      | _ => rfl
    rw [same]
    exact ⟨.any _ _, unblamed.parts sight.filled sees.filled, fun _ tried => by cases tried⟩

/-- Rounds one after another explain where they give up if each of them does. -/
theorem rounds_explain (ordered : setup.stream.Ordered) {look : Look} {body : Phrase}
    {filled : Bool} (settled : body.settled false = true)
    (round : ∀ (state : State) (frame : Frame), state.Fresh setup.stream →
      Room setup.stream budget body state.pos → (filled = true → frame.parts ≠ []) →
      setup.holds state frame look = true →
      (setup.run (setup.callWith budget) body state frame).state.fatal = none →
      (setup.run (setup.callWith budget) body state frame).Explained state)
    (rounds : Nat) (state : State) (frame : Frame) (fresh : state.Fresh setup.stream)
    (room : Room setup.stream budget body state.pos) (has : filled = true → frame.parts ≠ [])
    (running : (repeatWhile (fun state frame => setup.holds state frame look)
      (fun state frame => setup.run (setup.callWith budget) body state frame) rounds state
      frame).state.fatal = none) :
    (repeatWhile (fun state frame => setup.holds state frame look)
      (fun state frame => setup.run (setup.callWith budget) body state frame) rounds state
      frame).Explained state := by
  have follows := setup.follows_run (setup.keeps_callWith budget)
  induction rounds generalizing state frame with
  | zero => exact .ok (.of_same rfl)
  | succ rounds ih =>
      simp only [repeatWhile] at running ⊢
      split
      · rename_i goesOn
        rw [if_pos goesOn] at running
        have once := round state frame fresh room has goesOn
        have reached := setup.run_reaches (setup.callWith_advances ordered budget) body state frame
          fresh.toPlaced
        rcases found : setup.run (setup.callWith budget) body state frame with
          ⟨verdict, middle, between⟩
        rw [found] at once reached
        simp only [found] at running ⊢
        cases verdict with
        | ok =>
            have stillRunning : middle.fatal = none :=
              (Setup.follows_repeatWhile (follows body) rounds middle between).fatal running
            obtain ⟨freshAfter, unblamed⟩ := fresh.behind ordered settled found stillRunning
            have roomAfter : Room setup.stream budget body middle.pos := by
              rcases Nat.lt_or_eq_of_le reached.le with moved | same
              · exact room.of_lt body moved reached.placed.inside
              · exact same ▸ room
            have late := ih middle between freshAfter roomAfter
              (fun isFilled => unblamed.parts true (fun _ => has isFilled) body.leaves_true) running
            exact ⟨(once stillRunning).tells.trans late.tells, late.explains⟩
        | failed => exact once running
        | ended => exact once running
      · exact .ok (.of_same rfl)

/-- What is around a phrase explains what the phrase does. -/
theorem Outcome.Explained.enclose {state : State} {outcome : Outcome}
    (explained : outcome.Explained state) (outer kept : Frame) :
    (setup.enclose outer outcome kept).Explained state := by
  obtain ⟨verdict, after, filled⟩ := outcome
  cases verdict with
  | failed => exact ⟨explained.tells, explained.explains⟩
  | ok | ended => exact .ok explained.tells

/-- What is known of the tokens in front of a node is known in front of what it is
built from. -/
theorem Sees.opened {sight : Sight} {state : State} {frame : Frame}
    (sees : Sees sight setup budget state frame) (inner : Frame) :
    Sees { sight with filled := false } setup budget state inner :=
  ⟨⟨sees.here, sees.next, sees.operator⟩, Bool.false_ne_true.elim, sees.tried⟩

/-- Behind a trial it is known whether the rule will succeed. -/
theorem Sees.behindTrial {sight : Sight} {state after : State} {frame : Frame}
    (sees : Sees sight setup budget state frame) {tried : Option Rule}
    (foreseen : ∀ rule, tried = some rule → Foreseen (setup.callWith budget rule) after)
    (back : after.pos = state.pos) : Sees { sight with tried } setup budget after frame := by
  refine ⟨?_, sees.filled, foreseen⟩
  rw [back]
  exact ⟨sees.here, sees.next, sees.operator⟩

/-- Behind a look more is known. -/
theorem Sees.narrow {sight : Sight} {state : State} {frame : Frame}
    (sees : Sees sight setup budget state frame) (running : state.fatal = none) {look : Look}
    {answer : Bool} (holds : setup.holds state frame look = answer) :
    Sees (sight.narrow answer look) setup budget state frame := by
  obtain ⟨sameFilled, sameTried⟩ := sight.narrow_keeps answer look
  exact ⟨sees.toFits.narrow running holds, fun filled => sees.filled (sameFilled ▸ filled),
    fun rule tried => sees.tried rule (sameTried ▸ tried)⟩

/-- A rule that is called where it may be explains where it fails. -/
theorem Explaining.call (explaining : Explaining setup budget) {rule : Rule} {sight : Sight}
    {state : State} (fresh : state.Fresh setup.stream)
    (room : Room setup.stream budget (.call rule) state.pos)
    (fits : sight.Fits setup.stream state.pos) (suits : sight.suits rule = true)
    (running : (setup.callWith budget rule state).state.fatal = none) :
    (setup.callWith budget rule state).Explained state := by
  obtain ⟨speaks, counted⟩ := fits.suits suits
  exact explaining rule speaks state fresh room.need_le counted running

/-- Wherever it may stand, the phrase explains where it gives up. -/
def ExplainsPhrase (setup : Setup) (budget : Nat) (phrase : Phrase) : Prop :=
  ∀ (sight : Sight) (state : State) (frame : Frame), state.Fresh setup.stream →
    Room setup.stream budget phrase state.pos → phrase.settled false = true →
    Sees sight setup budget state frame → phrase.explains sight = true →
    (setup.run (setup.callWith budget) phrase state frame).state.fatal = none →
    (setup.run (setup.callWith budget) phrase state frame).Explained state

namespace ExplainsPhrase

variable {first second body yes no : Phrase}

theorem closing (kind : Token.Kind) : ExplainsPhrase setup budget (.closing kind) := by
  intro sight state frame fresh _ _ _ _ _
  simp only [Setup.run, Setup.close]
  split
  · exact .ok (.of_same rfl)
  · split
    · exact ⟨.of_same rfl, fun _ => fresh.explains_fail _⟩
    · exact .ok (State.Tells.report setup (fresh.explains_fail _) (.of_same rfl))

/-- Behind the first phrase the state is fresh again, so the second one explains
where it gives up. -/
theorem seq (ordered : setup.stream.Ordered) (before : ExplainsPhrase setup budget first)
    (behind : ExplainsPhrase setup budget second) :
    ExplainsPhrase setup budget (.seq first second) := by
  intro sight state frame fresh room settled sees explains running
  obtain ⟨firstSettled, secondSettled⟩ := Bool.and_eq_true_iff.mp settled
  obtain ⟨firstExplains, secondExplains⟩ := Bool.and_eq_true_iff.mp explains
  have firstRoom : Room setup.stream budget first state.pos :=
    room.mono fun _ descends => (Bool.and_eq_true_iff.mp descends).1
  have advances := setup.callWith_advances ordered budget
  have reached := setup.run_reaches advances first state frame fresh.toPlaced
  have passes := setup.run_passes advances ordered first state frame false fresh.toPlaced
    (by simp)
  have early := before sight state frame fresh firstRoom firstSettled sees firstExplains
  rw [Setup.run_seq] at running ⊢
  rcases found : setup.run (setup.callWith budget) first state frame with
    ⟨verdict, middle, between⟩
  rw [found] at running early reached passes
  cases verdict with
  | ok =>
      have stillRunning : middle.fatal = none :=
        (setup.follows_run (setup.keeps_callWith budget) second middle between).fatal running
      obtain ⟨freshAfter, unblamed⟩ := fresh.behind ordered firstSettled found stillRunning
      have secondRoom := room.second reached.le reached.placed.inside (passes false rfl)
      have late := behind _ middle between freshAfter secondRoom secondSettled
        (sees.behind found unblamed) secondExplains running
      exact ⟨(early stillRunning).tells.trans late.tells, late.explains⟩
  | failed => exact early running
  | ended => exact early running

theorem node (kind : Node.Kind) (inner : ExplainsPhrase setup budget body) :
    ExplainsPhrase setup budget (.node kind body) := by
  intro sight state frame fresh room settled sees explains running
  simp only [Setup.run, Setup.enclose_state] at running ⊢
  exact (inner _ state _ fresh (room.mono fun _ => id) settled (sees.opened _) explains
    running).enclose _ _

theorem wrap (kind : Node.Kind) (inner : ExplainsPhrase setup budget body) :
    ExplainsPhrase setup budget (.wrap kind body) := by
  intro sight state frame fresh room settled sees explains running
  obtain ⟨isFilled, bodyExplains⟩ := Bool.and_eq_true_iff.mp explains
  simp only [Setup.run] at running ⊢
  split at running
  · rename_i empty
    exact absurd empty (sees.filled isFilled)
  · simp only [Setup.enclose_state] at running ⊢
    exact (inner _ state _ fresh (room.mono fun _ => id) settled
      ⟨sees.toFits, fun _ => List.cons_ne_nil _ _, sees.tried⟩ bodyExplains running).enclose _ _

theorem reopen (kind : Node.Kind) (inner : ExplainsPhrase setup budget body) :
    ExplainsPhrase setup budget (.reopen kind body) := by
  intro sight state frame fresh room settled sees explains running
  obtain ⟨isFilled, bodyExplains⟩ := Bool.and_eq_true_iff.mp explains
  simp only [Setup.run] at running ⊢
  split at running
  · rename_i empty
    exact absurd empty (sees.filled isFilled)
  · simp only [Setup.enclose_state] at running ⊢
    exact (inner _ state _ fresh (room.mono fun _ => id) settled (sees.opened _) bodyExplains
      running).enclose _ _

theorem cover (kind : Node.Kind) (inner : ExplainsPhrase setup budget body) :
    ExplainsPhrase setup budget (.cover kind body) := by
  intro sight state frame fresh room settled sees explains running
  have opened := inner _ state { kind, start := .origin } fresh (room.mono fun _ => id) settled
    (sees.opened _) explains
  simp only [Setup.run] at running ⊢
  rcases found : setup.run (setup.callWith budget) body state { kind, start := .origin } with
    ⟨verdict, after, filled⟩
  rw [found] at opened
  simp only [found] at running ⊢
  cases verdict with
  | failed => exact ⟨(opened running).tells, (opened running).explains⟩
  | ok | ended => exact .ok (opened running).tells

theorem branch (look : Look) (holding : ExplainsPhrase setup budget yes)
    (otherwise : ExplainsPhrase setup budget no) :
    ExplainsPhrase setup budget (.branch look yes no) := by
  intro sight state frame fresh room settled sees explains running
  obtain ⟨yesSettled, noSettled⟩ := Bool.and_eq_true_iff.mp settled
  obtain ⟨yesExplains, noExplains⟩ := Bool.and_eq_true_iff.mp explains
  have stillRunning :=
    (setup.follows_run (setup.keeps_callWith budget) (.branch look yes no) state frame).fatal
      running
  rw [Setup.run_branch] at running ⊢
  cases holds : setup.holds state frame look with
  | true =>
      simp only [holds, if_true] at running ⊢
      exact holding _ state frame fresh
        (room.mono fun _ descends => (Bool.and_eq_true_iff.mp descends).1) yesSettled
        (sees.narrow stillRunning holds) yesExplains running
  | false =>
      simp only [holds, Bool.false_eq_true, if_false] at running ⊢
      exact otherwise _ state frame fresh
        (room.mono fun _ descends => (Bool.and_eq_true_iff.mp descends).2) noSettled
        (sees.narrow stillRunning holds) noExplains running

/-- A trial leaves the state fresh. Where it succeeds, so will the rule. -/
theorem trial (ordered : setup.stream.Ordered) (rule : Rule)
    (success : ExplainsPhrase setup budget yes) (failure : ExplainsPhrase setup budget no) :
    ExplainsPhrase setup budget (.trial rule yes no) := by
  intro sight state frame fresh room settled sees explains running
  simp only [Phrase.settled, Bool.and_eq_true, bne_iff_ne] at settled
  obtain ⟨⟨part, yesSettled⟩, noSettled⟩ := settled
  obtain ⟨yesExplains, noExplains⟩ := Bool.and_eq_true_iff.mp explains
  have rooms : Room setup.stream budget yes state.pos ∧ Room setup.stream budget no state.pos := by
    constructor
    all_goals
      refine room.mono fun limit descends => ?_
      simp only [Phrase.descends, Bool.and_eq_true] at descends
    · exact descends.1.2
    · exact descends.2
  rw [Setup.run_trial] at running ⊢
  have stillRunning : (Parser.trial (setup.callWith budget rule) state).2.fatal = none :=
    (setup.follows_run (setup.keeps_callWith budget) _ _ frame).fatal running
  obtain ⟨freshAfter, silent⟩ := fresh.trial ordered stillRunning
  cases found : (Parser.trial (setup.callWith budget rule) state).1 with
  | true =>
      simp only [found, if_true] at running ⊢
      have foreseen := setup.foreseen_of_trial part fresh.outside found stillRunning
      have late := success _ _ frame freshAfter rooms.1 yesSettled
        (sees.behindTrial (fun _ same => Option.some.inj same ▸ foreseen) rfl) yesExplains running
      exact ⟨(State.Tells.of_same silent).trans late.tells, late.explains⟩
  | false =>
      simp only [found, Bool.false_eq_true, if_false] at running ⊢
      have late := failure _ _ frame freshAfter rooms.2 noSettled
        (sees.behindTrial (fun _ same => by cases same) rfl) noExplains running
      exact ⟨(State.Tells.of_same silent).trans late.tells, late.explains⟩

/-- A rule is called where it may be, or a trial has foretold that it succeeds. -/
theorem call (explaining : Explaining setup budget) (rule : Rule) :
    ExplainsPhrase setup budget (.call rule) := by
  intro sight state frame fresh room _ sees explains running
  rw [Setup.run_call, Reply.into_state] at running
  rw [Setup.run_call]
  refine Reply.Explained.into ?_ frame
  rcases Bool.or_eq_true_iff.mp explains with tried | suits
  · rcases sees.tried rule (beq_iff_eq.mp tried) with stopped | ⟨succeeds, silent⟩
    · rw [running] at stopped
      cases stopped
    · exact ⟨.of_same silent, fun failed => by simp [failed] at succeeds⟩
  · exact explaining.call fresh room sees.toFits suits running

/-- Recovery tells what it reports. -/
theorem recover (explaining : Explaining setup budget) (rule : Rule) :
    ExplainsPhrase setup budget (.recover rule) := by
  intro sight state frame fresh room _ sees suits running
  have clean : { state with furthest := .none } = state := by rw [← fresh.furthest]
  have called := explaining.call fresh (room.mono fun _ => id) sees.toFits suits
  have follows := setup.keeps_callWith budget rule state
  rw [Setup.run_recover, Reply.into_state] at running
  rw [Setup.run_recover]
  refine Reply.Explained.into ?_ frame
  rcases setup.recovered_cases (setup.callWith budget rule) state with
    ⟨parts, after, found, same⟩ | ⟨after, found, ⟨given, same⟩ | ⟨-, stillRunning, same⟩⟩
  all_goals
    rw [clean] at found
    rw [found] at called follows
    rw [same] at running ⊢
  · exact .some (called running).tells
  · rcases given with trying | stopped
    · rw [follows.speculating_eq, fresh.outside] at trying
      exact absurd trying (Int.lt_irrefl 0)
    · rw [show after.fatal = none from running] at stopped
      cases stopped
  · have failed := called stillRunning
    exact .some (failed.tells.report setup (failed.explains rfl))

/-- Of the two ways to go on after a phrase gave up, the one needs the parse to be
abandoned, and the other stands behind recovery, which succeeds. -/
theorem orElse (explaining : Explaining setup budget) (before : ExplainsPhrase setup budget first) :
    ExplainsPhrase setup budget (.orElse first second) := by
  intro sight state frame fresh room settled sees explains running
  have follows := setup.follows_run (setup.keeps_callWith budget)
  have firstRoom : Room setup.stream budget first state.pos :=
    room.mono fun _ descends => (Bool.and_eq_true_iff.mp descends).1
  rw [Setup.run_orElse] at running ⊢
  rcases Phrase.settled_orElse settled with ⟨rfl, inner⟩ | ⟨rfl, -, rule, rfl, notUnit⟩
  · have early := before sight state frame fresh firstRoom inner sees explains
    split at running
    · rename_i gaveUp
      have stillRunning := (follows .salvage _ _).fatal running
      rw [if_pos gaveUp]
      simp only [Setup.run, Setup.salvage, stillRunning]
      exact ⟨(early stillRunning).tells, fun _ => (early stillRunning).explains gaveUp⟩
    · rename_i goesOn
      rw [if_neg goesOn]
      exact early running
  · have stands : (setup.run (setup.callWith budget) (.recover rule) state
        frame).state.fatal = none → _ :=
      ((setup.callWith_settles budget rule).recover state frame fresh.unblamed notUnit).2
        fresh.trying_eq
    split at running
    · rename_i gaveUp
      exact absurd gaveUp (stands ((follows .done _ _).fatal running))
    · rename_i goesOn
      rw [if_neg goesOn]
      exact recover explaining rule sight state frame fresh firstRoom (bne_iff_ne.mpr notUnit) sees
        explains running

/-- What is known in front of a round holds for the look alone, so that it holds in
front of every round. -/
theorem loop (ordered : setup.stream.Ordered) (look : Look)
    (inner : ExplainsPhrase setup budget body) :
    ExplainsPhrase setup budget (.loop look body) := by
  intro sight state frame fresh room settled sees explains running
  have bodySettled := (Bool.and_eq_true_iff.mp settled).2
  refine rounds_explain ordered bodySettled
    (fun other frame fresh room has holds running => ?_) _ state frame fresh
    (room.mono fun _ => id) sees.filled running
  have stillRunning :=
    (setup.follows_run (setup.keeps_callWith budget) body other frame).fatal running
  have ahead : Sees { filled := sight.filled } setup budget other frame :=
    ⟨.any _ none, has, fun _ same => by cases same⟩
  exact inner _ other frame fresh room bodySettled (ahead.narrow stillRunning holds) explains
    running

theorem documented (inner : ExplainsPhrase setup budget body) :
    ExplainsPhrase setup budget (.documented body) := by
  intro sight state frame fresh room settled sees explains running
  have read := inner sight state frame fresh (room.mono fun _ => id) settled sees explains
  simp only [Setup.run] at running ⊢
  rcases found : setup.run (setup.callWith budget) body state frame with
    ⟨verdict, after, filled⟩
  rw [found] at read
  simp only [found] at running ⊢
  cases verdict with
  | ok => exact .ok (read running).tells
  | failed => exact read running
  | ended => exact read running

end ExplainsPhrase

/-- Phrases explain where they give up if the rules they call do. -/
theorem Explaining.run (explaining : Explaining setup budget) (ordered : setup.stream.Ordered)
    (phrase : Phrase) : ExplainsPhrase setup budget phrase := by
  induction phrase with
  | done | rekind | operator => exact fun _ _ _ _ _ _ _ _ _ => .ok (.of_same rfl)
  | stop | salvage =>
      -- what gives up without a word stands where no token is left for it
      exact fun _ _ _ _ _ _ sees explains _ => absurd explains sees.not_isVoid
  | expected texts =>
      intro sight state frame fresh _ _ _ explains _
      have some : texts ≠ [] := by simpa [Phrase.explains] using explains
      refine ⟨.of_same rfl, fun _ => ?_⟩
      simpa only [State.Explains, Setup.run, State.failAll, fresh.furthest] using
        Failure.explains_recordAll some state.pos
  | token kind | leaf part kind =>
      intro sight state frame fresh _ _ _ _ _
      simp only [Setup.run]
      split
      · exact .ok (.of_same rfl)
      · exact ⟨.of_same rfl, fun _ => fresh.explains_fail _⟩
  | pick part accept | mark accept =>
      intro sight state frame _ _ _ sees explains _
      have accepted : accept (setup.stream.kind state.pos) = true := by
        have all :=
          List.all_eq_true.mp explains _ (Token.Kind.mem_all (setup.stream.kind state.pos))
        simpa [sees.here] using all
      simp only [Setup.run, accepted, if_true]
      exact .ok (.of_same rfl)
  | closing kind => exact .closing kind
  | seq first second firstIh secondIh => exact firstIh.seq ordered secondIh
  | node kind body ih => exact ih.node kind
  | wrap kind body ih => exact ih.wrap kind
  | reopen kind body ih => exact ih.reopen kind
  | cover kind body ih => exact ih.cover kind
  | branch look yes no yesIh noIh => exact yesIh.branch look noIh
  | trial rule yes no yesIh noIh => exact yesIh.trial ordered rule noIh
  | call rule => exact .call explaining rule
  | recover rule => exact .recover explaining rule
  | orElse first second firstIh _ => exact firstIh.orElse explaining
  | loop look body ih => exact ih.loop ordered look
  | documented body ih => exact ih.documented

/-! ## Rules -/

theorem Explaining.runBody (explaining : Explaining setup budget) (ordered : setup.stream.Ordered)
    {rule : Rule} (speaks : rule.isMute = false) :
    ExplainsRule setup (budget + 1) rule (setup.runBody (setup.callWith budget) rule) := by
  intro state fresh enough fits running
  have inner := explaining.run ordered rule.body _ state (setup.frame state .error) fresh
    (.of_body enough) (rule.body_settled false Bool.false_ne_true.elim)
    ⟨fits, fun filled => by simp [rule.sight_plain.1] at filled,
      fun _ tried => by simp [rule.sight_plain.2] at tried⟩ (rule.body_explains speaks)
  simp only [Setup.runBody] at running ⊢
  rcases found : setup.run (setup.callWith budget) rule.body state (setup.frame state .error) with
    ⟨verdict, after, filled⟩
  rw [found] at inner
  simp only [found] at running ⊢
  cases verdict with
  | failed => exact ⟨(inner running).tells, fun _ => (inner running).explains rfl⟩
  | ok | ended => exact .some (inner running).tells

theorem guarded_explains {rule : Rule} {run : State → Reply}
    (explains : ExplainsRule setup budget rule run) :
    ExplainsRule setup budget rule (setup.guarded run) := by
  intro state fresh enough fits running
  rcases setup.guarded_cases run state with ⟨-, same⟩ | ⟨after, same, stopped, -⟩
  · rw [same] at running ⊢
    have inner := explains { state with steps := state.steps + 1, depth := state.depth + 1 }
      ⟨⟨fresh.inside, fresh.memo⟩, fresh.unblamed, fresh.outside, fresh.furthest⟩ enough fits
      running
    exact ⟨inner.tells, inner.explains⟩
  · rw [same] at running
    rw [show after.fatal = none from running] at stopped
    cases stopped

/-- A kept success brings no failure along. A kept failure is not taken over
outside of trials. -/
theorem memoized_explains {rule : Rule} {run : State → Reply} (slot : Memo.Slot)
    (explains : ExplainsRule setup budget rule run) :
    ExplainsRule setup budget rule (memoized slot run) := by
  intro state fresh enough fits running
  let looked : State := { state with memo := (state.memo.get ⟨slot, state.pos⟩).2 }
  have freshLooked : looked.Fresh setup.stream :=
    ⟨⟨fresh.inside, Memo.All.get fresh.memo _⟩, Memo.All.get fresh.unblamed _, fresh.outside,
      fresh.furthest⟩
  have remembered : (remember ⟨slot, state.pos⟩ run looked).state.fatal = none →
      (remember ⟨slot, state.pos⟩ run looked).Explained state := by
    intro running
    have clean : { looked with furthest := .none } = looked := by rw [← freshLooked.furthest]
    have inner := explains looked freshLooked enough fits
    have merged : (run looked).parts? = none → (run looked).state.fatal = none →
        looked.furthest.merge (run looked).state.furthest = (run looked).state.furthest := by
      intro failed running
      rw [freshLooked.furthest]
      exact ((inner running).explains failed).none_merge
    simp only [remember, clean] at running ⊢
    split at running
    · rename_i stopped
      rw [show (run looked).state.fatal = none from running] at stopped
      cases stopped
    · rename_i notStopped
      rw [if_neg notStopped]
      refine ⟨(inner running).tells, fun failed => ?_⟩
      change Failure.Explains (looked.furthest.merge (run looked).state.furthest) _
      rw [merged failed running]
      exact (inner running).explains failed
  simp only [memoized] at running ⊢
  split at running
  · exact .some (.of_same rfl)
  · split at running
    · rename_i trying
      rw [show looked.speculating = 0 from fresh.outside] at trying
      exact absurd trying (Int.lt_irrefl 0)
    · rename_i notTrying
      rw [if_neg notTrying]
      exact remembered running
  · exact remembered running

/-- Every rule that may be called explains where it fails. -/
theorem Setup.callWith_explaining (setup : Setup) (ordered : setup.stream.Ordered) (budget : Nat) :
    Explaining setup budget := by
  induction budget with
  | zero =>
      intro rule _ state _ enough
      exact absurd enough (Nat.not_succ_le_zero _)
  | succ budget ih =>
      intro rule speaks
      exact setup.runRule_induction (ih.runBody ordered speaks) guarded_explains
        fun {slot _} _ => memoized_explains slot

/-! ## Parses -/

section Parses

variable (setup : Setup)

theorem Setup.initial_fresh : setup.initial.Fresh setup.stream :=
  ⟨⟨Nat.zero_le _, Memo.All.empty⟩, Memo.All.empty, rfl, rfl⟩

/-- The first call of a parse explains what it reports. -/
theorem Setup.reply_explained (ordered : setup.stream.Ordered) (entry : Entry)
    (running : (setup.reply entry).state.fatal = none) :
    (setup.reply entry).Explained setup.initial := by
  have speaks : entry.rule.isMute = false := by cases entry <;> rfl
  have counted : entry.rule.sight.Fits setup.stream setup.initial.pos := by
    cases entry <;> exact ⟨rfl, rfl, rfl⟩
  exact setup.callWith_explaining ordered setup.budget entry.rule speaks setup.initial
    setup.initial_fresh (setup.need_le_budget _ _) counted running

/-- A tree in front of further tokens leaves no failure but that the text should
end there. -/
theorem Setup.whole_tells (ordered : setup.stream.Ordered) (entry : Entry)
    (single : entry.rule.isSingle = true)
    (running : (setup.whole entry.rule setup.initial).2.fatal = none) :
    setup.initial.Tells (setup.whole entry.rule setup.initial).2 := by
  have explained := setup.reply_explained ordered entry
  have settles := (setup.callWith_settles setup.budget entry.rule).settles setup.initial
    setup.initial_fresh.unblamed (by simp [State.trying, Setup.initial])
  simp only [Setup.reply, Setup.whole] at running explained ⊢
  change (setup.call entry.rule setup.initial).Settles entry.rule setup.initial at settles
  generalize setup.call entry.rule setup.initial = reply at running explained settles ⊢
  obtain ⟨parts?, after⟩ := reply
  split at running
  · rename_i stopped
    rw [show after.fatal = none from running] at stopped
    cases stopped
  · rename_i notStopped
    have stillRunning : after.fatal = none := Option.not_isSome_iff_eq_none.mp notStopped
    have said := explained stillRunning
    rw [if_neg notStopped]
    split
    · exact said.tells
    · rcases parts? with - | parts
      · exact said.tells.report setup (said.explains rfl)
      · obtain ⟨clean, some⟩ := settles stillRunning parts rfl
        obtain ⟨tree, others, rfl⟩ := List.exists_cons_of_ne_nil (some single)
        have none : after.furthest = .none := clean rfl
        have untold : (after.fail (Token.Kind.describe .eof)).Explains := by
          simpa only [State.Explains, State.fail, none] using Failure.explains_record after.pos _
        exact State.Tells.report setup untold said.tells

/-- A parse that is not abandoned explains what it reports. -/
theorem Setup.enterAt_tells (ordered : setup.stream.Ordered) (entry : Entry)
    (running : (setup.enterAt entry).2.fatal = none) :
    setup.initial.Tells (setup.enterAt entry).2 := by
  cases entry with
  | unit => exact (setup.reply_explained ordered .unit running).tells
  | expression => exact setup.whole_tells ordered .expression rfl running
  | statement => exact setup.whole_tells ordered .statement rfl running

end Parses

end Parser

namespace Source

open JavaFront.Parser

/-- All that a parse reports tells what would have been accepted, but for lexical
errors and the one notice that it was abandoned. -/
theorem parse_tells (source : Source) (entry : Entry) (options : Options) :
    ∃ before notices, (source.parse entry options).diagnostics = before ++ notices ∧
      notices.map (·.message) =
        ((source.parse entry options).abandoned.map Abandonment.notice).toList ∧
      ∀ diagnostic ∈ before,
        diagnostic ∈ (source.tokens.filter (·.kind = .error)).map
            (Setup.ofSource source options).lexicalError ∨ diagnostic.Explains := by
  let setup := Setup.ofSource source options
  have ordered : setup.stream.Ordered := Stream.ofSource_ordered source
  have lexical : ∀ diagnostic ∈ setup.initial.diagnostics,
      diagnostic ∈ (source.tokens.filter (·.kind = .error)).map setup.lexicalError := by
    intro diagnostic member
    rw [← Stream.lexicalErrors_ofSource]
    simpa [Setup.initial, setup, Setup.ofSource] using member
  by_cases accepted : source.Accepted options
  · obtain ⟨-, diagnostics, fatal⟩ := source.parse_of_accepted entry options accepted
    rw [diagnostics, fatal]
    cases stopped : (setup.enterAt entry).2.fatal with
    | none =>
        refine ⟨_, [], (List.append_nil _).symm, rfl, fun diagnostic member => ?_⟩
        have tells := setup.enterAt_tells ordered entry stopped
        exact (tells diagnostic (Array.mem_toList_iff.mp member)).imp_left (lexical diagnostic)
    | some reason =>
        -- up to the notice the parse reports what it reports without limits
        obtain ⟨before, notice, shape, message, early⟩ := setup.enterAt_abandoned entry stopped
        refine ⟨before, [notice], shape, congrArg ([·]) message, fun diagnostic member => ?_⟩
        have running : (setup.unlimited.reply entry).state.fatal = none :=
          setup.unlimited_running entry.rule rfl rfl
        have tells := (setup.unlimited.reply_explained ordered entry running).tells
        exact (tells diagnostic (Array.mem_toList_iff.mp (early.subset member))).imp_left
          (lexical diagnostic)
  · have refused : source.parse entry options = source.refuse options.maxSize := by
      rw [parse, if_pos (not_not.mp accepted)]
    rw [refused]
    exact ⟨[], _, rfl, rfl, List.forall_mem_nil _⟩

/-- Outside of trials, with no failure on record and a table that calls over the
stream have led to, a rule that fails leaves a failure at the cursor that tells what
would have been accepted there, nothing twice, and a rule that succeeds leaves none.
The head of a cast may fail without a word, and with it the cast, and so may the four
heads that no phrase ever calls but only tries; dimensions are only read in front of a
pair of brackets. Where the parse is abandoned on the way, nothing is said. So
whatever a parse reports tells what would have been accepted, but for lexical errors
and the one notice that it was abandoned. -/
theorem parse_explains (source : Source) (options : Options) :
    let setup := Setup.ofSource source options
    (∀ (rule : Rule) (state : State), state.pos ≤ setup.stream.last →
      TableReached setup.stream state.memo → state.speculating = 0 → state.furthest = .none →
      let reply := setup.call rule state
      reply.state.fatal = none →
      (reply.parts? = none →
        rule ∉ [.castHead, .cast, .dims, .wildcardHead, .localClassHead, .enhancedForHead,
          .packageHead] →
        reply.state.furthest.Explains reply.state.pos) ∧
      (reply.parts?.isSome = true → reply.state.furthest = .none)) ∧
    ∀ entry : Entry, ∃ before notices,
      (source.parse entry options).diagnostics = before ++ notices ∧
      notices.map (·.message) =
        ((source.parse entry options).abandoned.map Abandonment.notice).toList ∧
      ∀ diagnostic ∈ before,
        diagnostic ∈ (source.tokens.filter (·.kind = .error)).map setup.lexicalError ∨
          diagnostic.Explains := by
  intro setup
  have ordered : setup.stream.Ordered := Stream.ofSource_ordered source
  refine ⟨?_, fun entry => source.parse_tells entry options⟩
  intro rule state inside reached outside clean reply running
  have fresh : state.Fresh setup.stream :=
    ⟨⟨inside, (reached.straight ordered).1⟩, reached.unblamed, outside, clean⟩
  constructor
  · intro failed listed
    have speaks : rule.isMute = false ∧ rule.sight = {} := by
      cases rule <;> first | exact ⟨rfl, rfl⟩ | simp at listed
    have explained : reply.Explained state :=
      setup.callWith_explaining ordered setup.budget rule speaks.1 state fresh
        (setup.need_le_budget rule state.pos) (speaks.2 ▸ .any false none) running
    exact explained.explains failed
  · intro success
    obtain ⟨parts, built⟩ := Option.isSome_iff_exists.mp success
    have settles : reply.Settles rule state :=
      (setup.callWith_settles setup.budget rule).settles state reached.unblamed
        fun trying => by simp [fresh.trying_eq] at trying
    exact (settles running parts built).1 clean

/-- An operand behind another one. -/
def crowded : Setup :=
  .ofSource (of [] "x = (a + b) c;") {}

/-- The state behind a trial of the statement. -/
def crowdedTried : State :=
  (trial (crowded.call .blockStatement) crowded.initial).2

/-- In front of the second operand only a semicolon would have been accepted. What
the trial has met, the head of a cast among it, is not told. -/
theorem parse_explains_crowded :
    0 < crowdedTried.memo.size ∧ crowdedTried.pos ≤ crowded.stream.last ∧
      TableReached crowded.stream crowdedTried.memo ∧ crowdedTried.speculating = 0 ∧
      crowdedTried.furthest = .none ∧
      (crowded.call .blockStatement crowdedTried).state.fatal = none ∧
      (crowded.call .blockStatement crowdedTried).parts? = none ∧
      (crowded.call .blockStatement crowdedTried).state.furthest.expected = ["';'"] ∧
      (crowded.call .blockStatement crowdedTried).state.furthest.Explains
        (crowded.call .blockStatement crowdedTried).state.pos := by
  have inside : crowdedTried.pos ≤ crowded.stream.last := Nat.zero_le _
  have reached : TableReached crowded.stream crowdedTried.memo :=
    .call rfl (Nat.zero_le _) (fun _ => by decide) (.empty rfl) rfl
  have outside : crowdedTried.speculating = 0 := by decide +kernel
  have clean : crowdedTried.furthest = .none := rfl
  have running : (crowded.call .blockStatement crowdedTried).state.fatal = none := by
    decide +kernel
  have failed : (crowded.call .blockStatement crowdedTried).parts? = none := by
    decide +kernel
  have explains := (parse_explains (of [] "x = (a + b) c;") {}).1 .blockStatement crowdedTried
    inside reached outside clean running
  exact ⟨by decide +kernel, inside, reached, outside, clean, running, failed, by decide +kernel,
    explains.1 failed (by decide)⟩

/-- Not every rule that fails tells what would have been accepted. A cast fails with its
head, which does not look for an operand in vain; the heads that are only tried have
nothing to tell; and where a parse is abandoned on the way, that is reported in place of
a failure. -/
theorem parse_withholds :
    (∀ place ∈ [("(int) ;", Rule.cast), ("x", .wildcardHead), ("x", .localClassHead),
        ("int x;", .enhancedForHead), ("x", .packageHead)],
      let setup := Setup.ofSource (of [] (Bytes.ofString place.1)) {}
      let reply := setup.call place.2 setup.initial
      reply.state.fatal = none ∧ reply.parts?.isSome = false ∧ reply.state.furthest = .none) ∧
    let shallow := Setup.ofSource (of [] "a") { maxDepth := 0 }
    let reply := shallow.call .expression shallow.initial
    shallow.initial.fatal = none ∧ reply.parts?.isSome = false ∧ reply.state.furthest = .none := by
  decide +kernel

end Source

end JavaFront
