import JavaFront.Proofs.Grammar.Explaining
import JavaFront.Proofs.Parser.Straight

/-!
# What a success leaves behind

A phrase that succeeds leaves no failure behind that was not there before. What a
trial has met is forgotten, what was recovered from has been reported, and nothing
else goes on behind a failure. So the successes in the memo table come without a
failure, and taking one over brings none back. Each of them has left a part.
-/

namespace JavaFront.Parser

/-! ## What is left -/

/-- Every success in the table has left a part and no failure. -/
def MemoUnblamed (memo : Memo) : Prop :=
  memo.All fun _ outcome => ∀ parts, outcome.parts? = some parts →
    outcome.furthest = .none ∧ parts ≠ []

/-- What a phrase that succeeded has left. -/
structure Unblamed (phrase : Phrase) (state after : State) (frame inner : Frame) : Prop where
  furthest : state.furthest = .none → after.furthest = .none
  parts : ∀ filled, (filled = true → frame.parts ≠ []) → phrase.leaves filled = true →
    inner.parts ≠ []

/-- A phrase succeeds without a failure or gives up, unless the parse has been
abandoned. -/
def Outcome.Settles (phrase : Phrase) (state : State) (frame : Frame) (outcome : Outcome) : Prop :=
  outcome.state.fatal = none →
    outcome.verdict.Grants (Unblamed phrase state outcome.state frame outcome.frame)

/-- A rule that succeeded has left no failure, and a part if it always builds
one, unless the parse has been abandoned. -/
def Reply.Settles (rule : Rule) (state : State) (reply : Reply) : Prop :=
  reply.state.fatal = none → ∀ parts, reply.parts? = some parts →
    (state.furthest = .none → reply.state.furthest = .none) ∧
      (rule.isSingle = true → parts ≠ [])

/-- A way to run a rule whose successes leave no failure. -/
structure SettlesRule (rule : Rule) (run : State → Reply) : Prop where
  keeps : Keeps run
  memo : ∀ state : State, MemoUnblamed state.memo → MemoUnblamed (run state).state.memo
  settles : ∀ state : State, MemoUnblamed state.memo →
    (state.trying = true → rule ≠ .compilationUnit) → (run state).Settles rule state

/-- The rules whose outcomes are kept build one node and may be tried. -/
theorem single_of_slot {slot : Memo.Slot} {rule : Rule} (kept : Memo.Slot.of? rule = some slot) :
    rule.isSingle = true ∧ rule ≠ .compilationUnit := by
  cases rule <;> cases kept <;> decide

namespace Unblamed

variable {phrase : Phrase} {state after : State} {frame inner : Frame}

/-- No part is added, and no failure is recorded. -/
theorem rest (same : after.furthest = state.furthest) (parts : inner.parts = frame.parts)
    (leaves : ∀ filled, phrase.leaves filled = filled) : Unblamed phrase state after frame inner :=
  ⟨same.trans, fun filled has promised => parts ▸ has (leaves filled ▸ promised)⟩

/-- Some part is there. -/
theorem filled (same : after.furthest = state.furthest) (parts : inner.parts ≠ []) :
    Unblamed phrase state after frame inner :=
  ⟨same.trans, fun _ _ _ => parts⟩

/-- The parts of a rule are taken over. -/
theorem pushAll {rule : Rule} {parts : List Node}
    (furthest : state.furthest = .none → after.furthest = .none)
    (leaves : ∀ filled, phrase.leaves filled = (filled || rule.isSingle))
    (single : rule.isSingle = true → parts ≠ []) :
    Unblamed phrase state after frame (frame.pushAll parts) := by
  refine ⟨furthest, fun filled has promised => ?_⟩
  rw [leaves] at promised
  rcases Bool.or_eq_true_iff.mp promised with isFilled | isSingle
  · exact List.append_ne_nil_of_right_ne_nil _ (has isFilled)
  · exact List.append_ne_nil_of_left_ne_nil (single isSingle) _

theorem seq {first second : Phrase} {middle : State} {between : Frame}
    (early : Unblamed first state middle frame between)
    (late : Unblamed second middle after between inner) :
    Unblamed (.seq first second) state after frame inner :=
  ⟨late.furthest ∘ early.furthest,
    fun filled has => late.parts (first.leaves filled) (early.parts filled has)⟩

/-- Behind one phrase another one leaves as much that promises less. -/
theorem mono {other : Phrase} (unblamed : Unblamed phrase state after frame inner)
    (leaves : ∀ filled, other.leaves filled = true → phrase.leaves filled = true) :
    Unblamed other state after frame inner :=
  ⟨unblamed.furthest, fun filled has promised => unblamed.parts filled has (leaves filled promised)⟩

/-- A documentation comment changes no number of parts. -/
theorem document (unblamed : Unblamed phrase state after frame inner) (doc : Option Token) :
    Unblamed (.documented phrase) state after frame (inner.document doc) := by
  refine ⟨unblamed.furthest, fun filled has promised => ?_⟩
  have parts := unblamed.parts filled has promised
  simp only [Frame.document]
  split
  · exact parts
  · exact List.cons_ne_nil _ _

end Unblamed

/-! ## Phrases -/

section Phrases

variable {setup : Setup} {call : Caller}

/-- No phrase spoils the table. -/
theorem Setup.run_unblamed (calls : ∀ rule, SettlesRule rule (call rule)) (phrase : Phrase)
    {state : State} (frame : Frame) (memo : MemoUnblamed state.memo) :
    MemoUnblamed (setup.run call phrase state frame).state.memo := by
  let relation (before after : State) : Prop :=
    MemoUnblamed before.memo → MemoUnblamed after.memo
  have relates : setup.Relates call relation :=
    { refl := fun _ => id
      trans := fun before behind => behind ∘ before
      advance := fun _ => id
      operator := fun _ => id
      failAll := fun _ _ => id
      close := fun kind state frame before => (setup.close_memo kind state frame).symm ▸ before
      salvage := fun state frame before => (setup.salvage_memo state frame).symm ▸ before
      calls := fun rule => (calls rule).memo
      trials := fun rule state => (calls rule).memo
        { state with speculating := state.speculating + 1 }
      recovers := fun rule state before => (setup.recovered_memo (call rule) state).symm ▸
        (calls rule).memo { state with furthest := .none } before }
  exact setup.run_relates relates phrase state frame memo

/-- Recovery leaves no failure, and a part where the rule would. Outside of
trials it succeeds. -/
theorem SettlesRule.recover {rule : Rule} (settles : SettlesRule rule (call rule)) (state : State)
    (frame : Frame) (memo : MemoUnblamed state.memo) (notUnit : rule ≠ .compilationUnit) :
    (setup.run call (.recover rule) state frame).Settles (.recover rule) state frame ∧
      (state.trying = false → (setup.run call (.recover rule) state frame).state.fatal = none →
        (setup.run call (.recover rule) state frame).verdict ≠ .failed) := by
  have inner := settles.settles { state with furthest := .none } memo fun _ => notUnit
  have follows := settles.keeps { state with furthest := .none }
  simp only [Outcome.Settles, Setup.run_recover]
  rcases setup.recovered_cases (call rule) state with
    ⟨parts, after, found, same⟩ | ⟨after, found, ⟨given, same⟩ | ⟨-, -, same⟩⟩
  all_goals
    rw [found] at inner follows
    rw [same]
  · exact ⟨fun running => .ok (.pushAll id (fun _ => rfl) (inner running parts rfl).2), by
      simp [Reply.into]⟩
  · refine ⟨fun _ => .failed, fun outside running => ?_⟩
    rcases given with trying | stopped
    · rw [follows.speculating_eq] at trying
      exact absurd trying (of_decide_eq_false outside)
    · rw [show after.fatal = none from running] at stopped
      cases stopped
  · exact ⟨fun _ => .ok (.filled rfl (List.cons_ne_nil _ _)), by simp [Reply.into]⟩

/-- Loops settle as their rounds do. -/
theorem Setup.loop_settles (calls : ∀ rule, SettlesRule rule (call rule)) {look : Look}
    {body : Phrase} {trying : Bool}
    (round : ∀ (state : State) (frame : Frame), MemoUnblamed state.memo → state.trying = trying →
      (setup.run call body state frame).Settles body state frame)
    (rounds : Nat) (state : State) (frame : Frame) (memo : MemoUnblamed state.memo)
    (level : state.trying = trying) :
    (repeatWhile (fun state frame => setup.holds state frame look)
      (fun state frame => setup.run call body state frame) rounds state frame).Settles
        (.loop look body) state frame := by
  have follows := setup.follows_run fun rule => (calls rule).keeps
  induction rounds generalizing state frame with
  | zero => exact fun _ => .ok (.rest rfl rfl fun _ => rfl)
  | succ rounds ih =>
      intro running
      simp only [repeatWhile] at running ⊢
      split
      · rename_i goesOn
        rw [if_pos goesOn] at running
        have once := round state frame memo level
        have moved := follows body state frame
        have memoAfter := setup.run_unblamed calls body frame memo
        rcases found : setup.run call body state frame with ⟨verdict, middle, between⟩
        rw [found] at once moved memoAfter
        simp only [found] at running ⊢
        cases verdict with
        | ok =>
            have stillRunning : middle.fatal = none :=
              (Setup.follows_repeatWhile (follows body) rounds middle between).fatal running
            have early := (once stillRunning).get
            refine (ih middle between memoAfter (moved.trying_eq.trans level) running).imp ?_
            refine fun late => ⟨late.furthest ∘ early.furthest, fun filled has promised => ?_⟩
            -- what a frame holds is not lost in a round
            exact late.parts filled
              (fun isFilled => early.parts true (fun _ => has isFilled) body.leaves_true) promised
        | failed => exact .failed
        | ended => cases once running
      · exact .ok (.rest rfl rfl fun _ => rfl)

/-- A node is added to the frame around it. -/
theorem Setup.enclose_settles {body whole : Phrase} {state : State}
    {frame inner outer kept : Frame} {outcome : Outcome}
    (settles : outcome.Settles body state inner) : (setup.enclose outer outcome kept).Settles whole state frame := by
  intro running
  rw [enclose_state] at running ⊢
  obtain ⟨verdict, after, filled⟩ := outcome
  cases verdict with
  | ok => exact .ok ⟨(settles running).get.furthest, fun _ _ _ => List.cons_ne_nil _ _⟩
  | failed => exact .failed
  | ended => cases settles running

/-- What settles either of two phrases settles the choice between them. -/
theorem Outcome.Settles.either {yes no whole : Phrase} {state : State} {frame : Frame}
    {outcome : Outcome} (chosen : Bool)
    (settles : outcome.Settles (if chosen then yes else no) state frame)
    (leaves : ∀ filled, whole.leaves filled = (yes.leaves filled && no.leaves filled)) :
    outcome.Settles whole state frame := by
  refine fun running => (settles running).imp fun unblamed =>
    unblamed.mono fun filled promised => ?_
  rw [leaves, Bool.and_eq_true] at promised
  cases chosen with
  | true => exact promised.1
  | false => exact promised.2

/-- Wherever it may stand, the phrase settles. -/
def SettlesPhrase (setup : Setup) (call : Caller) (phrase : Phrase) : Prop :=
  ∀ (state : State) (frame : Frame), phrase.settled state.trying = true →
    MemoUnblamed state.memo → (setup.run call phrase state frame).Settles phrase state frame

namespace SettlesPhrase

variable {first second body yes no : Phrase}

theorem closing (kind : Token.Kind) : SettlesPhrase setup call (.closing kind) := by
  intro state frame _ _ running
  simp only [Setup.run, Setup.close]
  split
  · exact .ok (.rest rfl rfl fun _ => rfl)
  · split
    · exact .failed
    · exact .ok ⟨fun _ => rfl, fun _ _ _ => List.cons_ne_nil _ _⟩

theorem salvage : SettlesPhrase setup call .salvage := by
  intro state frame _ _ running
  have stillRunning := (setup.follows_salvage state frame).fatal running
  simp only [Setup.run, Setup.salvage, stillRunning]
  exact .failed

theorem seq (calls : ∀ rule, SettlesRule rule (call rule))
    (before : SettlesPhrase setup call first) (behind : SettlesPhrase setup call second) :
    SettlesPhrase setup call (.seq first second) := by
  intro state frame settled memo running
  obtain ⟨firstSettled, secondSettled⟩ := Bool.and_eq_true_iff.mp settled
  have follows := setup.follows_run fun rule => (calls rule).keeps
  have early := before state frame firstSettled memo
  have moved := follows first state frame
  have memoAfter := setup.run_unblamed calls first frame memo
  simp only [Setup.run] at running ⊢
  rcases found : setup.run call first state frame with ⟨verdict, middle, between⟩
  rw [found] at early moved memoAfter
  simp only [found] at running ⊢
  cases verdict with
  | ok =>
      have late := behind middle between (by rw [moved.trying_eq]; exact secondSettled)
        memoAfter running
      exact late.imp (early ((follows second middle between).fatal running)).get.seq
  | failed => exact .failed
  | ended => cases early running

theorem cover (kind : Node.Kind) (inner : SettlesPhrase setup call body) :
    SettlesPhrase setup call (.cover kind body) := by
  intro state frame settled memo running
  have opened := inner state { kind, start := .origin } settled memo
  simp only [Setup.run] at running ⊢
  rcases found : setup.run call body state { kind, start := .origin } with
    ⟨verdict, after, filled⟩
  rw [found] at opened
  simp only [found] at running ⊢
  cases verdict with
  | ok => exact .ok ⟨(opened running).get.furthest, fun _ _ _ => List.cons_ne_nil _ _⟩
  | failed => exact .failed
  | ended => cases opened running

theorem branch (look : Look) (holding : SettlesPhrase setup call yes)
    (otherwise : SettlesPhrase setup call no) : SettlesPhrase setup call (.branch look yes no) := by
  intro state frame settled memo
  obtain ⟨yesSettled, noSettled⟩ := Bool.and_eq_true_iff.mp settled
  rw [Setup.run_branch]
  refine .either (setup.holds state frame look) ?_ fun _ => rfl
  split
  · exact holding state frame yesSettled memo
  · exact otherwise state frame noSettled memo

theorem trial (calls : ∀ rule, SettlesRule rule (call rule)) (rule : Rule)
    (success : SettlesPhrase setup call yes) (failure : SettlesPhrase setup call no) :
    SettlesPhrase setup call (.trial rule yes no) := by
  intro state frame settled memo running
  simp only [Phrase.settled, Bool.and_eq_true] at settled
  obtain ⟨⟨-, yesSettled⟩, noSettled⟩ := settled
  have moved := Setup.follows_trial (calls rule).keeps state
  have memoAfter : MemoUnblamed (Parser.trial (call rule) state).2.memo :=
    (calls rule).memo { state with speculating := state.speculating + 1 } memo
  rw [Setup.run_trial] at running ⊢
  have chosen : (setup.run call (if (Parser.trial (call rule) state).1 then yes else no)
      (Parser.trial (call rule) state).2 frame).Settles
        (if (Parser.trial (call rule) state).1 then yes else no)
        (Parser.trial (call rule) state).2 frame := by
    split
    · exact success _ frame (by rw [moved.trying_eq]; exact yesSettled) memoAfter
    · exact failure _ frame (by rw [moved.trying_eq]; exact noSettled) memoAfter
  have whole : Outcome.Settles (.trial rule yes no) (Parser.trial (call rule) state).2 frame _ :=
    chosen.either _ fun _ => rfl
  -- a trial forgets the failures that it has met
  exact (whole running).imp fun unblamed => ⟨unblamed.furthest, unblamed.parts⟩

theorem called (calls : ∀ rule, SettlesRule rule (call rule)) (rule : Rule) :
    SettlesPhrase setup call (.call rule) := by
  intro state frame settled memo
  have notUnit : rule ≠ .compilationUnit := by simpa [Phrase.settled] using settled
  have called := (calls rule).settles state memo fun _ => notUnit
  rw [Setup.run_call]
  rcases found : call rule state with ⟨- | parts, after⟩
  · exact fun _ => .failed
  · rw [found] at called
    intro running
    obtain ⟨furthest, single⟩ := called running parts rfl
    exact .ok (.pushAll furthest (fun _ => rfl) single)

/-- Only behind recovery the second phrase goes on outside of an abandoned parse, and
recovery does not fail. -/
theorem orElse (calls : ∀ rule, SettlesRule rule (call rule))
    (before : SettlesPhrase setup call first) :
    SettlesPhrase setup call (.orElse first second) := by
  intro state frame settled memo
  have follows := setup.follows_run fun rule => (calls rule).keeps
  rw [Setup.run_orElse]
  split
  · rename_i gaveUp
    intro running
    have stillRunning := (follows second (setup.run call first state frame).state
      (setup.run call first state frame).frame).fatal running
    rcases Phrase.settled_orElse settled with ⟨rfl, -⟩ | ⟨rfl, outside, rule, rfl, notUnit⟩
    · simp only [Setup.run, Setup.salvage, stillRunning]
      exact .failed
    · exact absurd gaveUp (((calls rule).recover state frame memo notUnit).2 outside stillRunning)
  · have early : (setup.run call first state frame).Settles first state frame := by
      rcases Phrase.settled_orElse settled with ⟨rfl, inner⟩ | ⟨rfl, -, rule, rfl, notUnit⟩
      · exact before state frame inner memo
      · exact ((calls rule).recover state frame memo notUnit).1
    exact fun running => (early running).imp fun unblamed => unblamed.mono fun _ => id

theorem documented (inner : SettlesPhrase setup call body) :
    SettlesPhrase setup call (.documented body) := by
  intro state frame settled memo running
  have read := inner state frame settled memo
  simp only [Setup.run] at running ⊢
  rcases found : setup.run call body state frame with ⟨verdict, after, filled⟩
  rw [found] at read
  simp only [found] at running ⊢
  cases verdict with
  | ok => exact .ok ((read running).get.document _)
  | failed => exact .failed
  | ended => cases read running

end SettlesPhrase

/-- Phrases settle if the rules they call do. -/
theorem Setup.run_settles (calls : ∀ rule, SettlesRule rule (call rule)) (phrase : Phrase) :
    SettlesPhrase setup call phrase := by
  induction phrase with
  | done | rekind => exact fun _ _ _ _ _ => .ok (.rest rfl rfl fun _ => rfl)
  | stop | expected => exact fun _ _ _ _ _ => .failed
  | operator => exact fun _ _ _ _ _ => .ok (.filled rfl (List.cons_ne_nil _ _))
  | token kind | mark accept =>
      intro state frame _ _ running
      simp only [run]
      split
      · exact .ok (.rest rfl rfl fun _ => rfl)
      · exact .failed
  | leaf part kind | pick part accept =>
      intro state frame _ _ running
      simp only [run]
      split
      · exact .ok (.filled rfl (List.cons_ne_nil _ _))
      · exact .failed
  | closing kind => exact .closing kind
  | salvage => exact .salvage
  | seq first second firstIh secondIh => exact firstIh.seq calls secondIh
  | node kind body ih => exact fun state _ settled memo => enclose_settles (ih state _ settled memo)
  | wrap kind body ih | reopen kind body ih =>
      intro state frame settled memo
      simp only [run]
      split
      · exact fun _ => .failed
      · exact enclose_settles (ih state _ settled memo)
  | cover kind body ih => exact ih.cover kind
  | branch look yes no yesIh noIh => exact yesIh.branch look noIh
  | trial rule yes no yesIh noIh => exact yesIh.trial calls rule noIh
  | call rule => exact .called calls rule
  | recover rule =>
      intro state frame settled memo
      have notUnit : rule ≠ .compilationUnit := by simpa [Phrase.settled] using settled
      exact ((calls rule).recover state frame memo notUnit).1
  | orElse first second firstIh _ => exact firstIh.orElse calls
  | loop look body ih =>
      intro state frame settled memo
      exact loop_settles calls (fun other frame memo level => ih other frame
        (by rw [level]; exact (Bool.and_eq_true_iff.mp settled).2) memo) _ state frame memo rfl
  | documented body ih => exact ih.documented

end Phrases

/-! ## Rules -/

section Rules

variable {setup : Setup} {rule : Rule} {run : State → Reply}

theorem Setup.runBody_settles {call : Caller} (calls : ∀ rule, SettlesRule rule (call rule))
    (rule : Rule) : SettlesRule rule (setup.runBody call rule) := by
  refine ⟨setup.keeps_runBody (fun rule => (calls rule).keeps) rule, ?_, ?_⟩
  · intro state memo
    rw [runBody_state]
    exact setup.run_unblamed calls rule.body _ memo
  · intro state memo notUnit running parts built
    have inner := setup.run_settles calls rule.body state (setup.frame state .error)
      (rule.body_settled state.trying notUnit) memo
    simp only [runBody] at running built ⊢
    rcases found : setup.run call rule.body state (setup.frame state .error) with
      ⟨verdict, after, filled⟩
    rw [found] at inner
    simp only [found] at running built ⊢
    cases verdict with
    | ok =>
        cases built
        have unblamed := (inner running).get
        exact ⟨unblamed.furthest, fun single =>
          unblamed.parts false Bool.false_ne_true.elim (rule.body_leaves single)⟩
    | failed => cases built
    | ended => cases inner running

theorem Setup.guarded_settles (settles : SettlesRule rule run) :
    SettlesRule rule (setup.guarded run) := by
  refine ⟨setup.keeps_guarded settles.keeps, ?_, ?_⟩
  · intro state memo
    rcases setup.guarded_cases run state with ⟨-, same⟩ | ⟨after, same, -, -, -, sameMemo⟩
    · rw [same]
      exact settles.memo { state with steps := state.steps + 1, depth := state.depth + 1 } memo
    · rw [same]
      exact sameMemo ▸ memo
  · intro state memo notUnit running parts built
    rcases setup.guarded_cases run state with ⟨-, same⟩ | ⟨after, same, -⟩
    · rw [same] at running built ⊢
      exact settles.settles { state with steps := state.steps + 1, depth := state.depth + 1 } memo
        notUnit running parts built
    · rw [same] at built
      cases built

theorem remember_settles {slot : Memo.Slot} (kept : Memo.Slot.of? rule = some slot)
    (settles : SettlesRule rule run) (state : State) (memo : MemoUnblamed state.memo) :
    MemoUnblamed (remember ⟨slot, state.pos⟩ run state).state.memo ∧
      (remember ⟨slot, state.pos⟩ run state).Settles rule state := by
  obtain ⟨single, notUnit⟩ := single_of_slot kept
  have memoAfter := settles.memo { state with furthest := .none } memo
  have inner := settles.settles { state with furthest := .none } memo fun _ => notUnit
  simp only [remember]
  rcases found : run { state with furthest := .none } with ⟨parts?, after⟩
  rw [found] at memoAfter inner
  dsimp only
  split
  · rename_i stopped
    refine ⟨memoAfter, fun running => ?_⟩
    rw [show after.fatal = none from running] at stopped
    cases stopped
  · rename_i running
    have stillRunning : after.fatal = none := Option.not_isSome_iff_eq_none.mp running
    refine ⟨Memo.All.put memoAfter ?_, fun _ parts built => ?_⟩
    · intro parts built
      obtain ⟨furthest, some⟩ := inner stillRunning parts built
      exact ⟨furthest rfl, some single⟩
    · obtain ⟨furthest, some⟩ := inner stillRunning parts built
      refine ⟨fun none => ?_, some⟩
      change state.furthest.merge after.furthest = .none
      rw [none, furthest rfl]
      rfl

theorem memoized_settles {slot : Memo.Slot} (kept : Memo.Slot.of? rule = some slot)
    (settles : SettlesRule rule run) : SettlesRule rule (memoized slot run) := by
  have both : ∀ state : State, MemoUnblamed state.memo →
      MemoUnblamed (memoized slot run state).state.memo ∧
        (memoized slot run state).Settles rule state := by
    intro state memo
    have lookedUp := Memo.All.get memo ⟨slot, state.pos⟩
    have remembered := remember_settles kept settles
      { state with memo := (state.memo.get ⟨slot, state.pos⟩).2 } lookedUp
    simp only [memoized]
    split
    · rename_i parts stop furthest found
      rw [state.memo.get_fst] at found
      obtain ⟨none, some⟩ := memo _ _ found parts rfl
      refine ⟨lookedUp, fun _ others same => ?_⟩
      cases same
      refine ⟨fun unblamed => ?_, fun _ => some⟩
      change state.furthest.merge furthest = .none
      rw [unblamed, show furthest = .none from none]
      rfl
    · split
      · exact ⟨lookedUp, fun _ _ built => by cases built⟩
      · exact remembered
    · exact remembered
  exact ⟨Setup.keeps_memoized slot settles.keeps, fun state memo => (both state memo).1,
    fun state memo _ => (both state memo).2⟩

end Rules

/-- No rule leaves a failure behind where it succeeds. -/
theorem Setup.callWith_settles (setup : Setup) (budget : Nat) (rule : Rule) :
    SettlesRule rule (setup.callWith budget rule) := by
  induction budget generalizing rule with
  | zero => exact ⟨setup.keeps_callWith 0 rule, fun _ => id, fun _ _ _ _ _ built => by cases built⟩
  | succ budget ih =>
      exact setup.runRule_induction (setup.runBody_settles ih rule) setup.guarded_settles
        memoized_settles

/-- The tables that calls lead to hold no failures of successes. -/
theorem TableReached.unblamed {stream : Stream} {memo : Memo}
    (reached : TableReached stream memo) : MemoUnblamed memo := by
  induction reached with
  | empty sameTable =>
      have start : MemoUnblamed {} := Memo.All.empty
      exact fun key outcome found => start key outcome (sameTable ▸ found)
  | @call setup rule state memo _ _ _ _ sameTable ih =>
      exact fun key outcome found =>
        (setup.callWith_settles setup.budget rule).memo state ih key outcome (sameTable ▸ found)

end JavaFront.Parser
