import JavaFront.Proofs.Parser.Steps

/-!
# What a run never takes back

A parse that has been abandoned stays so, and a diagnostic that has been
reported stays reported. The nesting and the number of trials around a run are
the same behind it as in front of it. So whatever holds of the last state of a
parse in this respect holds of every state on the way.
-/

namespace JavaFront.Parser

/-- The state `after` may stand behind a run from the state `before`. -/
structure State.Follows (before after : State) : Prop where
  depth_eq : after.depth = before.depth
  speculating_eq : after.speculating = before.speculating
  fatal : after.fatal = none → before.fatal = none
  diagnostics : after.diagnostics = #[] → before.diagnostics = #[]

namespace State.Follows

variable {first second third : State}

@[refl]
theorem refl (state : State) : state.Follows state :=
  ⟨rfl, rfl, id, id⟩

theorem trans (before : first.Follows second) (behind : second.Follows third) :
    first.Follows third :=
  ⟨behind.depth_eq.trans before.depth_eq, behind.speculating_eq.trans before.speculating_eq,
    before.fatal ∘ behind.fatal, before.diagnostics ∘ behind.diagnostics⟩

end State.Follows

/-- A rule only leads to states that may follow. -/
def Keeps (rule : State → Reply) : Prop :=
  ∀ state : State, state.Follows (rule state).state

namespace Setup

variable (setup : Setup)

/-! ## Single steps -/

theorem follows_report (state : State) (failure : Failure) :
    state.Follows (setup.report state failure) := by
  simp only [report]
  generalize (if failure.pos < 0 then state.pos else failure.pos.toNat) = index
  split
  · rfl
  · exact ⟨rfl, rfl, id, by simp⟩

theorem follows_abandon (state : State) (reason : Abandonment) :
    state.Follows (setup.abandon state reason) := by
  simp only [abandon]
  split
  · rfl
  · exact ⟨rfl, rfl, by simp, by simp⟩

theorem follows_close (kind : Token.Kind) (state : State) (frame : Frame) :
    state.Follows (setup.close kind state frame).state := by
  simp only [close]
  split
  · exact ⟨rfl, rfl, id, id⟩
  · split
    · exact ⟨rfl, rfl, id, id⟩
    · have reported := setup.follows_report (state.fail kind.describe)
        (state.fail kind.describe).furthest
      exact ⟨reported.depth_eq, reported.speculating_eq, reported.fatal, reported.diagnostics⟩

theorem follows_salvage (state : State) (frame : Frame) :
    state.Follows (setup.salvage state frame).state := by
  simp only [salvage]
  split
  · rfl
  · split
    · rfl
    · split
      · rfl
      · exact ⟨rfl, rfl, id, id⟩

/-! ## Rules in their settings -/

/-- An abandoned parse stands where it stood. -/
theorem abandon_cases (state : State) (reason : Abandonment) :
    (setup.abandon state reason).fatal.isSome = true ∧
      (setup.abandon state reason).pos = state.pos ∧
      (setup.abandon state reason).memo = state.memo := by
  simp only [abandon]
  split
  · rename_i stopped
    exact ⟨stopped, rfl, rfl⟩
  · exact ⟨rfl, rfl, rfl⟩

/-- A guard lets a rule in one level deeper, or the parse is abandoned. -/
theorem guarded_cases (run : State → Reply) (state : State) :
    (¬ setup.options.maxDepth ≤ state.depth ∧ setup.guarded run state =
      ⟨(run { state with steps := state.steps + 1, depth := state.depth + 1 }).parts?,
        (run { state with steps := state.steps + 1, depth := state.depth + 1 }).state.leave⟩) ∨
    ∃ after, setup.guarded run state = ⟨none, after⟩ ∧ after.fatal.isSome = true ∧
      state.Follows after ∧ after.pos = state.pos ∧ after.memo = state.memo := by
  simp only [guarded, enter]
  by_cases stopped : state.fatal.isSome
  · simp only [stopped, if_true]
    exact .inr ⟨state, rfl, stopped, .refl state, rfl, rfl⟩
  · simp only [stopped, Bool.false_eq_true, if_false]
    by_cases deep : setup.options.maxDepth ≤ state.depth
    · simp only [deep, if_true]
      obtain ⟨fatal, samePos, sameMemo⟩ :=
        setup.abandon_cases state (.tooDeep setup.options.maxDepth)
      exact .inr ⟨_, rfl, fatal, setup.follows_abandon state _, samePos, sameMemo⟩
    · simp only [deep, if_false]
      by_cases canceled : setup.canceledAt (state.steps + 1)
      · simp only [canceled, if_true]
        have abandoned := setup.follows_abandon { state with steps := state.steps + 1 } .canceled
        obtain ⟨fatal, samePos, sameMemo⟩ :=
          setup.abandon_cases { state with steps := state.steps + 1 } .canceled
        exact .inr ⟨_, rfl, fatal, ⟨abandoned.depth_eq, abandoned.speculating_eq, abandoned.fatal,
          abandoned.diagnostics⟩, samePos, sameMemo⟩
      · simp only [canceled, Bool.false_eq_true, if_false]
        exact .inl ⟨not_false, trivial⟩

/-- Behind a guard the nesting is what it was, whether or not the rule was
entered. -/
theorem keeps_guarded {rule : State → Reply} (keeps : Keeps rule) :
    Keeps (setup.guarded rule) := by
  intro state
  rcases setup.guarded_cases rule state with ⟨-, same⟩ | ⟨after, same, -, follows, -⟩
  · have inner := keeps { state with steps := state.steps + 1, depth := state.depth + 1 }
    rw [same]
    refine ⟨?_, inner.speculating_eq, inner.fatal, inner.diagnostics⟩
    simp only [State.leave, inner.depth_eq, Nat.add_sub_cancel]
  · rw [same]
    exact follows

theorem keeps_remember {rule : State → Reply} (key : Memo.Key) (keeps : Keeps rule) :
    Keeps (remember key rule) := by
  intro state
  have inner := keeps { state with furthest := .none }
  simp only [remember]
  split
  · exact ⟨inner.depth_eq, inner.speculating_eq, inner.fatal, inner.diagnostics⟩
  · exact ⟨inner.depth_eq, inner.speculating_eq, inner.fatal, inner.diagnostics⟩

theorem keeps_memoized {rule : State → Reply} (slot : Memo.Slot) (keeps : Keeps rule) :
    Keeps (memoized slot rule) := by
  intro state
  have remembered : ∀ memo,
      state.Follows (remember ⟨slot, state.pos⟩ rule { state with memo }).state := by
    intro memo
    have inner := keeps_remember ⟨slot, state.pos⟩ keeps { state with memo }
    exact ⟨inner.depth_eq, inner.speculating_eq, inner.fatal, inner.diagnostics⟩
  simp only [memoized]
  split
  · exact ⟨rfl, rfl, id, id⟩
  · split
    · exact ⟨rfl, rfl, id, id⟩
    · exact remembered _
  · exact remembered _

theorem follows_trial {rule : State → Reply} (keeps : Keeps rule) (state : State) :
    state.Follows (trial rule state).2 := by
  have inner := keeps { state with speculating := state.speculating + 1 }
  refine ⟨inner.depth_eq, ?_, inner.fatal, inner.diagnostics⟩
  simp only [trial, inner.speculating_eq]
  omega

/-! ## Recovery -/

/-- Where reading goes on behind a failure that is reported. -/
def skipped (state after : State) : Node × State :=
  setup.skip
    { setup.report after after.furthest with furthest := state.furthest, pos := state.pos }
    (setup.diagnose after after.furthest).message (setup.diagnose after after.furthest).expected

variable {setup} in
/-- Recovery takes a success over. -/
theorem recovered_of_some {run : State → Reply} {state after : State} {parts : List Node}
    (found : run { state with furthest := .none } = ⟨some parts, after⟩) :
    setup.recovered run state = ⟨some parts, { after with furthest := state.furthest }⟩ := by
  simp only [recovered, found]

variable {setup} in
/-- Inside of a trial, and once the parse is abandoned, a failure is handed on. -/
theorem recovered_of_given {run : State → Reply} {state after : State}
    (failed : run { state with furthest := .none } = ⟨none, after⟩)
    (given : 0 < after.speculating ∨ after.fatal.isSome = true) :
    setup.recovered run state =
      ⟨none, { after with furthest := state.furthest.merge after.furthest }⟩ := by
  rcases given with trying | stopped
  · simp only [recovered, failed, trying, decide_true, Bool.true_or, if_true]
  · simp only [recovered, failed, stopped, Bool.or_true, if_true]

/-- Outside of trials a failure is reported and skipped. -/
theorem recovered_of_failed {run : State → Reply} {state after : State}
    (failed : run { state with furthest := .none } = ⟨none, after⟩)
    (notTrying : ¬ 0 < after.speculating) (running : after.fatal = none) :
    setup.recovered run state =
      ⟨some [(setup.skipped state after).1], (setup.skipped state after).2⟩ := by
  simp only [recovered, failed, notTrying, running, decide_false, Option.isSome_none,
    Bool.or_false, Bool.false_eq_true, if_false]
  rfl

/-- A rule that is read with recovery succeeds, hands its failure on, or has it
reported and skipped. -/
theorem recovered_cases (run : State → Reply) (state : State) :
    (∃ parts after, run { state with furthest := .none } = ⟨some parts, after⟩ ∧
      setup.recovered run state = ⟨some parts, { after with furthest := state.furthest }⟩) ∨
    ∃ after, run { state with furthest := .none } = ⟨none, after⟩ ∧
      ((0 < after.speculating ∨ after.fatal.isSome = true) ∧ setup.recovered run state =
          ⟨none, { after with furthest := state.furthest.merge after.furthest }⟩ ∨
        ¬ 0 < after.speculating ∧ after.fatal = none ∧ setup.recovered run state =
          ⟨some [(setup.skipped state after).1], (setup.skipped state after).2⟩) := by
  rcases found : run { state with furthest := .none } with ⟨- | parts, after⟩
  · refine .inr ⟨after, rfl, ?_⟩
    by_cases given : 0 < after.speculating ∨ after.fatal.isSome = true
    · exact .inl ⟨given, recovered_of_given found given⟩
    · obtain ⟨notTrying, notStopped⟩ := not_or.mp given
      have running : after.fatal = none := Option.not_isSome_iff_eq_none.mp notStopped
      exact .inr ⟨notTrying, running, setup.recovered_of_failed found notTrying running⟩
  · exact .inl ⟨parts, after, rfl, recovered_of_some found⟩

theorem keeps_recovered {rule : State → Reply} (keeps : Keeps rule) :
    Keeps (setup.recovered rule) := by
  intro state
  have inner := keeps { state with furthest := .none }
  simp only [recovered]
  split
  · exact ⟨inner.depth_eq, inner.speculating_eq, inner.fatal, inner.diagnostics⟩
  · split
    · exact ⟨inner.depth_eq, inner.speculating_eq, inner.fatal, inner.diagnostics⟩
    · have all := inner.trans
        (setup.follows_report _ (rule { state with furthest := .none }).state.furthest)
      exact ⟨all.depth_eq, all.speculating_eq, all.fatal, all.diagnostics⟩

/-! ## Phrases and rules -/

/-- A relation between states that every step of a phrase keeps to. -/
structure Relates (call : Caller) (relation : State → State → Prop) : Prop where
  refl : ∀ state, relation state state
  trans : ∀ {first second third}, relation first second → relation second third →
    relation first third
  advance : ∀ state, relation state (setup.advance state)
  operator : ∀ state : State,
    relation state { state with pos := setup.stream.afterOperator state.pos }
  failAll : ∀ (state : State) texts, relation state (state.failAll texts)
  close : ∀ kind state frame, relation state (setup.close kind state frame).state
  salvage : ∀ state frame, relation state (setup.salvage state frame).state
  calls : ∀ rule state, relation state (call rule state).state
  trials : ∀ rule state, relation state (trial (call rule) state).2
  recovers : ∀ rule state, relation state (setup.recovered (call rule) state).state

theorem repeatWhile_relates {relation : State → State → Prop} (refl : ∀ state, relation state state)
    (trans : ∀ {first second third}, relation first second → relation second third →
      relation first third)
    {test : State → Frame → Bool} {step : State → Frame → Outcome}
    (relates : ∀ state frame, relation state (step state frame).state) (budget : Nat)
    (state : State) (frame : Frame) :
    relation state (repeatWhile test step budget state frame).state := by
  induction budget generalizing state frame with
  | zero => exact refl state
  | succ budget ih =>
      simp only [repeatWhile]
      split
      · have once := relates state frame
        split
        · rename_i found
          rw [found] at once
          exact trans once (ih _ _)
        · exact once
      · exact refl state

/-- What every step of a phrase keeps to, the phrase keeps to. -/
theorem run_relates {call : Caller} {relation : State → State → Prop}
    (relates : setup.Relates call relation) (phrase : Phrase) (state : State) (frame : Frame) :
    relation state (setup.run call phrase state frame).state := by
  induction phrase generalizing state frame with
  | done | stop | rekind => exact relates.refl state
  | expected texts => exact relates.failAll state texts
  | operator => exact relates.operator state
  | seq first second firstIh secondIh =>
      rw [run_seq]
      split
      · exact relates.trans (firstIh state frame) (secondIh _ _)
      · exact firstIh state frame
  | token kind | leaf _ kind =>
      simp only [run]
      split
      · exact relates.advance state
      · exact relates.failAll state [kind.describe]
  | pick | mark =>
      simp only [run]
      split
      · exact relates.advance state
      · exact relates.refl state
  | node kind body ih =>
      simp only [run, enclose_state]
      exact ih _ _
  | wrap kind body ih | reopen kind body ih =>
      simp only [run]
      split
      · exact relates.refl state
      · rw [enclose_state]
        exact ih _ _
  | cover kind body ih =>
      rw [run_cover, covered_state]
      exact ih _ _
  | branch look yes no yesIh noIh =>
      rw [run_branch]
      split
      · exact yesIh _ _
      · exact noIh _ _
  | trial rule yes no yesIh noIh =>
      have tried := relates.trials rule state
      rw [run_trial]
      split
      · exact relates.trans tried (yesIh _ _)
      · exact relates.trans tried (noIh _ _)
  | call rule =>
      rw [run_call, Reply.into_state]
      exact relates.calls rule state
  | recover rule =>
      rw [run_recover, Reply.into_state]
      exact relates.recovers rule state
  | orElse first second firstIh secondIh =>
      rw [run_orElse]
      split
      · exact relates.trans (firstIh state frame) (secondIh _ _)
      · exact firstIh state frame
  | loop look body ih =>
      exact repeatWhile_relates relates.refl relates.trans (fun state frame => ih state frame) _ _ _
  | documented body ih =>
      rw [run_documented, Outcome.documented_state]
      exact ih _ _
  | closing kind => exact relates.close kind state frame
  | salvage => exact relates.salvage state frame

/-- A phrase whose calls keep to it leads only to states that may follow. -/
theorem follows_run {call : Caller} (keeps : ∀ rule, Keeps (call rule)) (phrase : Phrase)
    (state : State) (frame : Frame) : state.Follows (setup.run call phrase state frame).state := by
  refine setup.run_relates ⟨?_, ?_, ?_, ?_, ?_, ?_, ?_, ?_, ?_, ?_⟩ phrase state frame
  · exact .refl
  · exact .trans
  · exact fun state => ⟨rfl, rfl, id, id⟩
  · exact fun state => ⟨rfl, rfl, id, id⟩
  · exact fun state texts => ⟨rfl, rfl, id, id⟩
  · exact setup.follows_close
  · exact setup.follows_salvage
  · exact keeps
  · exact fun rule => follows_trial (keeps rule)
  · exact fun rule => setup.keeps_recovered (keeps rule)

/-- The second of two phrases goes on from where the first one ended. -/
theorem follows_seq {call : Caller} (keeps : ∀ rule, Keeps (call rule)) (first second : Phrase)
    (state : State) (frame : Frame) : (setup.run call first state frame).state.Follows
      (setup.run call (.seq first second) state frame).state := by
  rw [run_seq]
  split
  · exact setup.follows_run keeps second _ _
  · rfl

theorem follows_orElse {call : Caller} (keeps : ∀ rule, Keeps (call rule)) (first second : Phrase)
    (state : State) (frame : Frame) : (setup.run call first state frame).state.Follows
      (setup.run call (.orElse first second) state frame).state := by
  rw [run_orElse]
  split
  · exact setup.follows_run keeps second _ _
  · rfl

theorem follows_repeatWhile {test : State → Frame → Bool} {step : State → Frame → Outcome}
    (follows : ∀ (state : State) frame, state.Follows (step state frame).state) (budget : Nat)
    (state : State) (frame : Frame) :
    state.Follows (repeatWhile test step budget state frame).state :=
  repeatWhile_relates .refl .trans follows budget state frame

theorem keeps_reads {call : Caller} (keeps : ∀ rule, Keeps (call rule)) (phrase : Phrase) :
    Keeps (setup.reads call phrase) := by
  intro state
  rw [reads_state]
  exact setup.follows_run keeps _ _ _

theorem keeps_runBody {call : Caller} (keeps : ∀ rule, Keeps (call rule)) (rule : Rule) :
    Keeps (setup.runBody call rule) :=
  setup.keeps_reads keeps rule.body

/-- The body of a rule inside its guard, if it has one. -/
def entered (call : Caller) (rule : Rule) : State → Reply :=
  if rule.isGuarded then setup.guarded (setup.runBody call rule) else setup.runBody call rule

theorem runRule_eq (call : Caller) (rule : Rule) :
    setup.runRule call rule =
      match Memo.Slot.of? rule with
      | some slot =>
        if setup.options.memo then memoized slot (setup.entered call rule)
        else setup.entered call rule
      | none => setup.entered call rule := by
  funext state
  have inside : (fun state => if rule.isGuarded then setup.guarded (setup.runBody call rule) state
      else setup.runBody call rule state) = setup.entered call rule := by
    funext state
    simp only [entered]
    split <;> rfl
  simp only [runRule, inside]
  cases Memo.Slot.of? rule with
  | none => exact congrFun inside state
  | some slot =>
      dsimp only
      split
      · rfl
      · exact congrFun inside state

/-- What holds of the body of a rule and is kept by guard and memo table holds
of the rule. -/
theorem runRule_induction {holds : (State → Reply) → Prop} {call : Caller} {rule : Rule}
    (body : holds (setup.runBody call rule))
    (guards : ∀ {run}, holds run → holds (setup.guarded run))
    (remembers : ∀ {slot run}, Memo.Slot.of? rule = some slot → holds run →
      holds (memoized slot run)) : holds (setup.runRule call rule) := by
  have inside : holds (setup.entered call rule) := by
    simp only [entered]
    split
    · exact guards body
    · exact body
  rw [runRule_eq]
  split
  · rename_i slot kept
    split
    · exact remembers kept inside
    · exact inside
  · exact inside

theorem keeps_callWith (budget : Nat) (rule : Rule) : Keeps (setup.callWith budget rule) := by
  induction budget generalizing rule with
  | zero =>
      intro state
      rfl
  | succ budget ih =>
      exact setup.runRule_induction (setup.keeps_runBody ih rule) setup.keeps_guarded
        (fun _ => keeps_memoized _)

end Setup

end JavaFront.Parser
