import JavaFront.Proofs.Grammar.Forward
import JavaFront.Proofs.Parser.Nesting

/-!
# The cursor moves forward

No run takes the cursor back or beyond the end of the text, and a rule that
reads a token whenever it succeeds moves it on whenever it leaves a part. That
holds of runs that recover, of runs that end early because the parse has been
abandoned, and of replays from the memo table, provided that every success in
the table lies ahead of its key. Every run keeps the table like that.
-/

namespace JavaFront.Parser

/-- Every success in the memo table ends ahead of its key, inside of the
stream. -/
def MemoAhead (stream : Stream) (memo : Memo) : Prop :=
  memo.All fun key outcome => outcome.parts?.isSome = true →
    key.pos < outcome.stop ∧ outcome.stop ≤ stream.last

/-- The cursor stands inside of the stream and the memo table leads it on. -/
structure State.Placed (stream : Stream) (state : State) : Prop where
  inside : state.pos ≤ stream.last
  memo : MemoAhead stream state.memo

/-- The state `after` may stand behind a run from the state `before`, as far as
the cursor is concerned. -/
structure State.Reaches (stream : Stream) (before after : State) : Prop where
  placed : after.Placed stream
  le : before.pos ≤ after.pos

/-- A way to run a rule that moves the cursor on if the rule reads a token
whenever it succeeds. -/
structure Advances (stream : Stream) (rule : Rule) (run : State → Reply) : Prop where
  reaches : ∀ state : State, state.Placed stream → state.Reaches stream (run state).state
  lt : ∀ state : State, state.Placed stream → (run state).parts?.isSome = true →
    rule.consumes = true → state.pos < (run state).state.pos

/-- A phrase has moved the cursor on from an index if it promises that. -/
def Outcome.Passes (outcome : Outcome) (phrase : Phrase) (ahead : Bool) (pos : Nat) : Prop :=
  ∀ ended : Bool, outcome.verdict = (if ended then .ended else .ok) →
    phrase.forward ended ahead = true → pos < outcome.state.pos

/-- The rules whose outcomes are kept read a token whenever they succeed. -/
theorem consumes_of_slot {slot : Memo.Slot} {rule : Rule} (kept : Memo.Slot.of? rule = some slot) :
    rule.consumes = true := by
  cases rule <;> cases kept <;> rfl

namespace State.Reaches

variable {stream : Stream} {first second third : State}

theorem refl (placed : first.Placed stream) : first.Reaches stream first :=
  ⟨placed, Nat.le_refl _⟩

theorem trans (before : first.Reaches stream second) (behind : second.Reaches stream third) :
    first.Reaches stream third :=
  ⟨behind.placed, Nat.le_trans before.le behind.le⟩

end State.Reaches

section Steps

variable {setup : Setup} {rule : Rule} {run : State → Reply} {state : State}

/-! ## Single steps -/

theorem Setup.reaches_close (placed : state.Placed setup.stream) (kind : Token.Kind)
    (frame : Frame) : state.Reaches setup.stream (setup.close kind state frame).state := by
  simp only [close]
  split
  · exact ⟨⟨Stream.succ_le_last placed.inside, placed.memo⟩, setup.stream.le_succ _⟩
  · split
    · exact ⟨⟨placed.inside, placed.memo⟩, Nat.le_refl _⟩
    · have samePos := setup.report_pos (state.fail kind.describe)
        (state.fail kind.describe).furthest
      have sameMemo := setup.report_memo (state.fail kind.describe)
        (state.fail kind.describe).furthest
      exact ⟨⟨samePos.symm ▸ placed.inside, sameMemo.symm ▸ placed.memo⟩,
        Nat.le_of_eq samePos.symm⟩

theorem Setup.reaches_salvage (placed : state.Placed setup.stream) (frame : Frame) :
    state.Reaches setup.stream (setup.salvage state frame).state := by
  simp only [salvage]
  split
  · exact .refl placed
  · split
    · exact .refl placed
    · split
      · exact .refl placed
      · exact ⟨⟨placed.inside, placed.memo⟩, Nat.le_refl _⟩

theorem Advances.reaches_trial (advances : Advances setup.stream rule run)
    (placed : state.Placed setup.stream) : state.Reaches setup.stream (trial run state).2 :=
  ⟨⟨placed.inside, (advances.reaches { state with speculating := state.speculating + 1 }
    ⟨placed.inside, placed.memo⟩).placed.memo⟩, Nat.le_refl _⟩

theorem Advances.reaches_recovered (advances : Advances setup.stream rule run)
    (placed : state.Placed setup.stream) :
    state.Reaches setup.stream (setup.recovered run state).state := by
  have inner := advances.reaches { state with furthest := .none } ⟨placed.inside, placed.memo⟩
  rcases setup.recovered_cases run state with
    ⟨parts, after, found, same⟩ | ⟨after, found, ⟨-, same⟩ | ⟨-, -, same⟩⟩
  all_goals
    rw [found] at inner
    rw [same]
  · exact ⟨⟨inner.placed.inside, inner.placed.memo⟩, inner.le⟩
  · exact ⟨⟨inner.placed.inside, inner.placed.memo⟩, inner.le⟩
  · obtain ⟨forward, within⟩ :=
      setup.resume_bounds state.pos (setup.stream.size - state.pos) 0 state.pos placed.inside
    exact ⟨⟨within, (setup.report_memo after after.furthest).symm ▸ inner.placed.memo⟩, forward⟩

/-- In front of the end, recovery moves on: it reads the rule or skips input. -/
theorem Advances.lt_recovered (advances : Advances setup.stream rule run)
    (ordered : setup.stream.Ordered) (placed : state.Placed setup.stream)
    (ahead : state.pos < setup.stream.last) (consumes : rule.consumes = true)
    (success : (setup.recovered run state).parts?.isSome = true) :
    state.pos < (setup.recovered run state).state.pos := by
  have inner := advances.lt { state with furthest := .none } ⟨placed.inside, placed.memo⟩
  rcases setup.recovered_cases run state with
    ⟨parts, after, found, same⟩ | ⟨after, found, ⟨-, same⟩ | ⟨-, -, same⟩⟩
  all_goals
    rw [found] at inner
    rw [same] at success ⊢
  · exact inner rfl consumes
  · cases success
  · exact setup.lt_resume ordered ahead

end Steps

/-! ## Phrases -/

section Phrases

variable {setup : Setup} {call : Caller}

/-- No phrase takes the cursor back. -/
theorem Setup.run_reaches (advances : ∀ rule, Advances setup.stream rule (call rule))
    (phrase : Phrase) (state : State) (frame : Frame) (placed : state.Placed setup.stream) :
    state.Reaches setup.stream (setup.run call phrase state frame).state := by
  let relation (before after : State) : Prop :=
    before.Placed setup.stream → before.Reaches setup.stream after
  have relates : setup.Relates call relation := by
    constructor
    · exact fun state => .refl
    · exact fun before behind placed => (before placed).trans (behind (before placed).placed)
    · exact fun state placed =>
        ⟨⟨Stream.succ_le_last placed.inside, placed.memo⟩, setup.stream.le_succ _⟩
    · exact fun state placed =>
        ⟨⟨Stream.advance_le_last _ placed.inside, placed.memo⟩, setup.stream.le_advance _ _⟩
    · exact fun state texts placed => ⟨⟨placed.inside, placed.memo⟩, Nat.le_refl _⟩
    · exact fun kind state frame placed => setup.reaches_close placed kind frame
    · exact fun state frame placed => setup.reaches_salvage placed frame
    · exact fun rule state placed => (advances rule).reaches state placed
    · exact fun rule state placed => (advances rule).reaches_trial placed
    · exact fun rule state placed => (advances rule).reaches_recovered placed
  exact setup.run_relates relates phrase state frame placed

/-- Where a look shows that there is a token ahead, there is one. -/
theorem Setup.lt_last_of_shows (ordered : setup.stream.Ordered) {state : State} {frame : Frame}
    {look : Look} {answer ahead : Bool} (known : ahead = true → state.pos < setup.stream.last)
    (holds : setup.holds state frame look = answer)
    (either : (ahead || look.shows answer) = true) : state.pos < setup.stream.last := by
  rcases Bool.or_eq_true_iff.mp either with already | shows
  · exact known already
  · exact ordered.lt_last (setup.notEnd_of_shows shows holds)

variable {ahead : Bool} {state : State} {frame : Frame}

theorem Outcome.Passes.mono {outcome : Outcome} {part whole : Phrase} {aheadPart : Bool} {pos : Nat}
    (passes : outcome.Passes part aheadPart pos)
    (promises : ∀ {ended}, whole.forward ended ahead = true →
      part.forward ended aheadPart = true) : outcome.Passes whole ahead pos :=
  fun ended verdict promised => passes ended verdict (promises promised)

/-- What gives up promises nothing. -/
theorem Outcome.Passes.failed {phrase : Phrase} {pos : Nat} :
    Outcome.Passes ⟨.failed, state, frame⟩ phrase ahead pos := by
  rintro (_ | _) verdict promised <;> cases verdict

/-- A rule whose parts are taken over has moved on if it has done so wherever it
leaves parts. -/
theorem Reply.into_passes {phrase : Phrase} {reply : Reply} {pos : Nat}
    (moved : phrase.forward false ahead = true → reply.parts?.isSome = true →
      pos < reply.state.pos) : (reply.into frame).Passes phrase ahead pos := by
  intro ended verdict promised
  obtain ⟨- | parts, after⟩ := reply
  · cases ended <;> cases verdict
  · cases ended with
    | false => exact moved promised rfl
    | true => cases verdict

/-- What reads one token moves on, unless it is the end. -/
theorem Setup.succ_passes (ordered : setup.stream.Ordered) {phrase : Phrase} {pos : Nat}
    {after : State} (here : after.pos = setup.stream.succ pos)
    (notEnd : phrase.forward false ahead = true → setup.stream.kind pos ≠ .eof) :
    Outcome.Passes ⟨.ok, after, frame⟩ phrase ahead pos := by
  intro ended verdict promised
  cases ended with
  | false =>
      rw [here, Stream.succ_of_lt (ordered.lt_last (notEnd promised))]
      exact Nat.lt_succ_self pos
  | true => cases verdict

/-- What encloses a phrase has moved on if the phrase has. -/
theorem Setup.enclose_passes {body whole : Phrase} {pos : Nat} {outcome : Outcome}
    {outer kept : Frame} (passes : outcome.Passes body ahead pos)
    (promises : whole.forward false ahead = (body.forward false ahead && body.forward true ahead)) :
    (setup.enclose outer outcome kept).Passes whole ahead pos := by
  intro ended verdict promised
  rw [enclose_state]
  cases ended with
  | false =>
      obtain ⟨promisesOk, promisesEnded⟩ := Bool.and_eq_true_iff.mp (promises ▸ promised)
      cases found : outcome.verdict with
      | ok => exact passes false found promisesOk
      | ended => exact passes true found promisesEnded
      | failed =>
          simp only [enclose, found] at verdict
          cases verdict
  | true =>
      simp only [enclose] at verdict
      split at verdict <;> cases verdict

theorem Setup.covered_passes {kind : Node.Kind} {body : Phrase} {pos : Nat} {outcome : Outcome}
    (passes : outcome.Passes body ahead pos) :
    (setup.covered outcome frame).Passes (.cover kind body) ahead pos := by
  obtain ⟨verdict, after, filled⟩ := outcome
  cases verdict with
  | failed => exact .failed
  | ok =>
      rintro (_ | _) shown promised
      · exact passes false rfl (Bool.and_eq_true_iff.mp promised).1
      · cases shown
  | ended =>
      rintro (_ | _) shown promised
      · exact passes true rfl (Bool.and_eq_true_iff.mp promised).2
      · cases shown

theorem Outcome.Passes.documented {body : Phrase} {pos : Nat} {outcome : Outcome}
    (passes : outcome.Passes body ahead pos) (doc : Option Token) :
    (outcome.documented doc).Passes (.documented body) ahead pos := by
  intro ended verdict promised
  rw [Outcome.documented_state]
  exact passes ended ((outcome.documented_verdict doc).symm.trans verdict) promised

/-- A loop that ends the node under construction has moved on in its last round
if its body promises that. -/
theorem repeatWhile_passes (ordered : setup.stream.Ordered) {look : Look} {body : Phrase}
    (reaches : ∀ (state : State) frame, state.Placed setup.stream →
      state.Reaches setup.stream (setup.run call body state frame).state)
    (passes : ∀ (state : State) frame (ahead : Bool), state.Placed setup.stream →
      (ahead = true → state.pos < setup.stream.last) →
      (setup.run call body state frame).Passes body ahead state.pos)
    (budget : Nat) (state : State) (frame : Frame) (placed : state.Placed setup.stream) :
    (repeatWhile (fun state frame => setup.holds state frame look)
      (fun state frame => setup.run call body state frame) budget state frame).Passes
        (.loop look body) ahead state.pos := by
  intro ended verdict promised
  obtain ⟨rfl, inner⟩ := Bool.and_eq_true_iff.mp promised
  induction budget generalizing state frame with
  | zero => cases verdict
  | succ budget ih =>
      simp only [repeatWhile] at verdict ⊢
      by_cases goesOn : setup.holds state frame look = true
      · have moved := reaches state frame placed
        have passed := passes state frame _ placed fun shows =>
          ordered.lt_last (setup.notEnd_of_shows shows goesOn)
        rw [if_pos goesOn] at verdict ⊢
        rcases found : setup.run call body state frame with ⟨outcome, middle, between⟩
        rw [found] at moved passed
        simp only [found] at verdict ⊢
        cases outcome with
        | ok => exact Nat.lt_of_le_of_lt moved.le (ih middle between moved.placed verdict)
        | failed => cases verdict
        | ended => exact passed true rfl inner
      · rw [if_neg goesOn] at verdict
        cases verdict

/-- A phrase moves the cursor on if it promises that. -/
theorem Setup.run_passes (advances : ∀ rule, Advances setup.stream rule (call rule))
    (ordered : setup.stream.Ordered) (phrase : Phrase) (state : State) (frame : Frame)
    (ahead : Bool) (placed : state.Placed setup.stream)
    (known : ahead = true → state.pos < setup.stream.last) :
    (setup.run call phrase state frame).Passes phrase ahead state.pos := by
  have reaches := setup.run_reaches advances
  induction phrase generalizing state frame ahead with
  | done | rekind | operator =>
      rintro (_ | _) verdict promised
      · cases promised
      · cases verdict
  | stop | expected => exact .failed
  | seq first second firstIh secondIh =>
      have early := firstIh state frame ahead placed known
      have moved := reaches first state frame placed
      rw [run_seq]
      generalize setup.run call first state frame = outcome at early moved ⊢
      have late := secondIh outcome.state outcome.frame false moved.placed (by simp)
      have behind := (reaches second outcome.state outcome.frame moved.placed).le
      intro ended verdict promised
      simp only [Phrase.forward, Bool.and_eq_true, Bool.or_eq_true] at promised
      obtain ⟨promisesEnded, promises⟩ := promised
      split at verdict
      · rename_i success
        rw [if_pos success]
        rcases promises with first | second
        · exact Nat.lt_of_lt_of_le (early false success first) behind
        · exact Nat.lt_of_le_of_lt moved.le (late ended verdict second)
      · rename_i notOk
        rw [if_neg notOk]
        cases ended with
        | false => exact absurd verdict notOk
        | true => exact early true verdict (by simpa using promisesEnded)
  | token kind | leaf _ kind =>
      simp only [run]
      split
      · rename_i here
        exact setup.succ_passes ordered rfl fun notEnd =>
          here ▸ by simpa [Phrase.forward] using notEnd
      · exact .failed
  | pick _ accept | mark accept =>
      simp only [run]
      split
      · rename_i accepted
        refine setup.succ_passes ordered rfl fun notEnd atEnd => ?_
        rw [atEnd] at accepted
        simp [Phrase.forward, accepted] at notEnd
      · exact .failed
  | node kind body ih => exact setup.enclose_passes (ih state _ ahead placed known) rfl
  | wrap kind body ih | reopen kind body ih =>
      simp only [run]
      split
      · exact .failed
      · exact setup.enclose_passes (ih state _ ahead placed known) rfl
  | cover kind body ih =>
      rw [run_cover]
      exact setup.covered_passes (ih state { kind, start := .origin } ahead placed known)
  | branch look yes no yesIh noIh =>
      rw [run_branch]
      split
      · rename_i holds
        exact (yesIh state frame _ placed (lt_last_of_shows ordered known holds)).mono
          fun promised => (Bool.and_eq_true_iff.mp promised).1
      · rename_i fails
        exact (noIh state frame _ placed
          (lt_last_of_shows ordered known (Bool.not_eq_true _ ▸ fails))).mono
          fun promised => (Bool.and_eq_true_iff.mp promised).2
  | trial rule yes no yesIh noIh =>
      have back := ((advances rule).reaches_trial placed).placed
      rw [run_trial]
      split
      · exact (yesIh (trial (call rule) state).2 frame ahead back known).mono
          fun promised => (Bool.and_eq_true_iff.mp promised).1
      · exact (noIh (trial (call rule) state).2 frame ahead back known).mono
          fun promised => (Bool.and_eq_true_iff.mp promised).2
  | call rule =>
      rw [run_call]
      exact Reply.into_passes fun consumes success =>
        (advances rule).lt state placed success consumes
  | recover rule =>
      rw [run_recover]
      refine Reply.into_passes fun promised success => ?_
      obtain ⟨isAhead, consumes⟩ := Bool.and_eq_true_iff.mp promised
      exact (advances rule).lt_recovered ordered placed (known isAhead) consumes success
  | orElse first second firstIh secondIh =>
      have early := firstIh state frame ahead placed known
      have moved := reaches first state frame placed
      rw [run_orElse]
      generalize setup.run call first state frame = outcome at early moved ⊢
      have late := secondIh outcome.state outcome.frame false moved.placed (by simp)
      intro ended verdict promised
      obtain ⟨promisesFirst, promisesSecond⟩ := Bool.and_eq_true_iff.mp promised
      split at verdict
      · rename_i gaveUp
        rw [if_pos gaveUp]
        exact Nat.lt_of_le_of_lt moved.le (late ended verdict promisesSecond)
      · rename_i goesOn
        rw [if_neg goesOn]
        exact early ended verdict promisesFirst
  | loop look body ih =>
      exact repeatWhile_passes ordered (reaches body)
        (fun state frame ahead placed known => ih state frame ahead placed known) _ state frame
        placed
  | documented body ih =>
      rw [run_documented]
      exact (ih state frame ahead placed known).documented _
  | closing kind =>
      rintro (_ | _) verdict promised
      · cases promised
      · simp only [run, close] at verdict
        split at verdict
        · cases verdict
        · split at verdict <;> cases verdict
  | salvage =>
      rintro (_ | _) verdict promised
      · simp only [run, salvage] at verdict
        split at verdict
        · cases verdict
        · split at verdict
          · cases verdict
          · split at verdict <;> cases verdict
      · cases promised

end Phrases

/-! ## Rules -/

section Rules

variable {setup : Setup} {rule : Rule} {run : State → Reply}

theorem Setup.runBody_advances {call : Caller} (ordered : setup.stream.Ordered)
    (advances : ∀ rule, Advances setup.stream rule (call rule)) (rule : Rule) :
    Advances setup.stream rule (setup.runBody call rule) := by
  constructor
  · intro state placed
    rw [runBody_state]
    exact setup.run_reaches advances rule.body state _ placed
  · intro state placed success consumes
    have passes := setup.run_passes advances ordered rule.body state (setup.frame state .error)
      false placed (by simp)
    simp only [runBody] at success ⊢
    rcases found : setup.run call rule.body state (setup.frame state .error) with
      ⟨verdict, after, filled⟩
    rw [found] at passes
    simp only [found] at success ⊢
    cases verdict with
    | failed => cases success
    | ok => exact passes false rfl (rule.body_forward consumes false)
    | ended => exact passes true rfl (rule.body_forward consumes true)

theorem Setup.guarded_advances (advances : Advances setup.stream rule run) :
    Advances setup.stream rule (setup.guarded run) := by
  constructor
  · intro state placed
    rcases setup.guarded_cases run state with ⟨-, same⟩ | ⟨after, same, -, -, samePos, sameMemo⟩
    · have inner := advances.reaches
        { state with steps := state.steps + 1, depth := state.depth + 1 }
        ⟨placed.inside, placed.memo⟩
      rw [same]
      exact ⟨⟨inner.placed.inside, inner.placed.memo⟩, inner.le⟩
    · rw [same]
      exact ⟨⟨samePos.symm ▸ placed.inside, sameMemo.symm ▸ placed.memo⟩,
        Nat.le_of_eq samePos.symm⟩
  · intro state placed success consumes
    rcases setup.guarded_cases run state with ⟨-, same⟩ | ⟨after, same, -⟩
    · rw [same] at success ⊢
      exact advances.lt { state with steps := state.steps + 1, depth := state.depth + 1 }
        ⟨placed.inside, placed.memo⟩ success consumes
    · rw [same] at success
      cases success

theorem remember_advances {slot : Memo.Slot} (kept : Memo.Slot.of? rule = some slot)
    (advances : Advances setup.stream rule run) (state : State)
    (placed : state.Placed setup.stream) :
    state.Reaches setup.stream (remember ⟨slot, state.pos⟩ run state).state ∧
      ((remember ⟨slot, state.pos⟩ run state).parts?.isSome = true →
        state.pos < (remember ⟨slot, state.pos⟩ run state).state.pos) := by
  have inner := advances.reaches { state with furthest := .none } ⟨placed.inside, placed.memo⟩
  have moved : (run { state with furthest := .none }).parts?.isSome = true →
      state.pos < (run { state with furthest := .none }).state.pos := fun success =>
    advances.lt { state with furthest := .none } ⟨placed.inside, placed.memo⟩ success
      (consumes_of_slot kept)
  simp only [remember]
  split
  · exact ⟨⟨⟨inner.placed.inside, inner.placed.memo⟩, inner.le⟩, moved⟩
  · refine ⟨⟨⟨inner.placed.inside, Memo.All.put inner.placed.memo ?_⟩, inner.le⟩, moved⟩
    intro success
    rw [if_pos success]
    exact ⟨moved success, inner.placed.inside⟩

theorem memoized_advances {slot : Memo.Slot} (kept : Memo.Slot.of? rule = some slot)
    (advances : Advances setup.stream rule run) :
    Advances setup.stream rule (memoized slot run) := by
  have both : ∀ state : State, state.Placed setup.stream →
      state.Reaches setup.stream (memoized slot run state).state ∧
        ((memoized slot run state).parts?.isSome = true →
          state.pos < (memoized slot run state).state.pos) := by
    intro state placed
    have lookedUp := Memo.All.get placed.memo ⟨slot, state.pos⟩
    have remembered := remember_advances kept advances
      { state with memo := (state.memo.get ⟨slot, state.pos⟩).2 } ⟨placed.inside, lookedUp⟩
    simp only [memoized]
    split
    · rename_i parts stop furthest found
      rw [state.memo.get_fst] at found
      obtain ⟨forward, within⟩ := placed.memo _ _ found rfl
      exact ⟨⟨⟨within, lookedUp⟩, Nat.le_of_lt forward⟩, fun _ => forward⟩
    · split
      · exact ⟨⟨⟨placed.inside, lookedUp⟩, Nat.le_refl _⟩, fun success => by cases success⟩
      · exact ⟨⟨remembered.1.placed, remembered.1.le⟩, remembered.2⟩
    · exact ⟨⟨remembered.1.placed, remembered.1.le⟩, remembered.2⟩
  exact ⟨fun state placed => (both state placed).1,
    fun state placed success _ => (both state placed).2 success⟩

/-- Every call of a rule moves the cursor on, whatever happens to the parse. -/
theorem Setup.callWith_advances (ordered : setup.stream.Ordered) (budget : Nat) (rule : Rule) :
    Advances setup.stream rule (setup.callWith budget rule) := by
  induction budget generalizing rule with
  | zero =>
      refine ⟨fun state => .refl, fun state placed success => ?_⟩
      cases success
  | succ budget ih =>
      have body := setup.runBody_advances ordered ih rule
      have entered : Advances setup.stream rule (setup.entered (setup.callWith budget) rule) := by
        simp only [Setup.entered]
        split
        · exact setup.guarded_advances body
        · exact body
      simp only [callWith, runRule_eq]
      cases kept : Memo.Slot.of? rule with
      | none => exact entered
      | some slot =>
          dsimp only
          split
          · exact memoized_advances kept entered
          · exact entered

end Rules

end JavaFront.Parser
