import JavaFront.Parser
import JavaFront.Proofs.Parser.Persistence

/-!
# What a trial leaves behind

During a trial a rule may nest further trials, points of recovery, bodies that
the end of the text cuts off and look-ups in the memo table. None of them
reports a failure or cuts a node short as long as a trial is going on; the one
thing that can be reported is that the parse is abandoned. So a trial changes
nothing that can be seen from outside but its counters and the memo table, or
it abandons the parse.
-/

namespace JavaFront.Parser

/-- Between two states nothing was reported, or the parse was abandoned and just
that was reported. -/
def State.Silent (before after : State) : Prop :=
  (after.fatal = before.fatal ∧ after.diagnostics = before.diagnostics) ∨
    ∃ reason diagnostic, before.fatal = none ∧ after.fatal = some reason ∧
      diagnostic.message = reason.notice ∧
      after.diagnostics = before.diagnostics.push diagnostic

namespace State.Silent

variable {first second third : State}

theorem trans (before : first.Silent second) (behind : second.Silent third) :
    first.Silent third := by
  rcases before with ⟨sameFatal, sameDiagnostics⟩ |
    ⟨reason, diagnostic, running, stopped, message, pushed⟩
  · rw [State.Silent, sameFatal, sameDiagnostics] at behind
    exact behind
  · rcases behind with ⟨sameFatal, sameDiagnostics⟩ | ⟨_, _, stillRunning, -⟩
    · right
      exact ⟨reason, diagnostic, running, sameFatal.trans stopped, message,
        sameDiagnostics.trans pushed⟩
    · rw [stopped] at stillRunning
      cases stillRunning

end State.Silent

/-- The state `after` may stand behind a run from the state `before`, and if a
trial was going on, no node was cut short and no failure reported. -/
structure State.Discreet (before after : State) : Prop extends before.Follows after where
  cut_eq : 0 < before.speculating → after.cut = before.cut
  silent : 0 < before.speculating → before.Silent after

namespace State.Discreet

variable {first second third : State}

@[refl]
theorem refl (state : State) : state.Discreet state :=
  ⟨.refl state, fun _ => rfl, fun _ => .inl ⟨rfl, rfl⟩⟩

theorem trans (before : first.Discreet second) (behind : second.Discreet third) :
    first.Discreet third := by
  have level : 0 < first.speculating → 0 < second.speculating := by
    rw [before.speculating_eq]
    exact id
  refine ⟨before.toFollows.trans behind.toFollows, ?_, ?_⟩
  · intro trying
    exact (behind.cut_eq (level trying)).trans (before.cut_eq trying)
  · intro trying
    exact (before.silent trying).trans (behind.silent (level trying))

end State.Discreet

/-- A rule is discreet during a trial. -/
def Discreet (run : State → Reply) : Prop :=
  ∀ state : State, state.Discreet (run state).state

namespace Setup

variable (setup : Setup) {run : State → Reply}

/-! ## Single steps -/

theorem silent_abandon (state : State) (reason : Abandonment) :
    state.Silent (setup.abandon state reason) := by
  simp only [abandon]
  split
  · exact .inl ⟨rfl, rfl⟩
  · rename_i notStopped
    right
    exact ⟨reason, _, Option.not_isSome_iff_eq_none.mp notStopped, rfl, rfl, rfl⟩

theorem cut_abandon (state : State) (reason : Abandonment) :
    (setup.abandon state reason).cut = state.cut := by
  simp only [abandon]
  split <;> rfl

theorem discreet_close (kind : Token.Kind) (state : State) (frame : Frame) :
    state.Discreet (setup.close kind state frame).state := by
  refine ⟨setup.follows_close kind state frame, ?_, ?_⟩
  · intro trying
    simp only [close, State.fail, trying, decide_true, Bool.true_or, if_true]
    split <;> rfl
  · intro trying
    simp only [close, State.fail, trying, decide_true, Bool.true_or, if_true]
    left
    split <;> exact ⟨rfl, rfl⟩

theorem discreet_salvage (state : State) (frame : Frame) :
    state.Discreet (setup.salvage state frame).state := by
  refine ⟨setup.follows_salvage state frame, ?_, ?_⟩
  · intro trying
    simp only [salvage, trying, if_true]
    split <;> rfl
  · intro trying
    simp only [salvage, trying, if_true]
    left
    split <;> exact ⟨rfl, rfl⟩

/-! ## Rules in their settings -/

theorem discreet_enter (state : State) :
    (setup.enter state).2.speculating = state.speculating ∧
      (setup.enter state).2.cut = state.cut ∧ state.Silent (setup.enter state).2 := by
  have abandoned : ∀ (state : State) reason,
      (setup.abandon state reason).speculating = state.speculating ∧
        (setup.abandon state reason).cut = state.cut ∧
        state.Silent (setup.abandon state reason) :=
    fun state reason => ⟨(setup.follows_abandon state reason).speculating_eq,
      setup.cut_abandon state reason, setup.silent_abandon state reason⟩
  simp only [enter]
  split
  · exact ⟨rfl, rfl, .inl ⟨rfl, rfl⟩⟩
  · split
    · exact abandoned state _
    · split
      · exact abandoned { state with steps := state.steps + 1 } _
      · exact ⟨rfl, rfl, .inl ⟨rfl, rfl⟩⟩

theorem discreet_guarded (discreet : Discreet run) : Discreet (setup.guarded run) := by
  intro state
  have follows := setup.keeps_guarded (fun state => (discreet state).toFollows) state
  obtain ⟨sameLevel, sameCut, silent⟩ := setup.discreet_enter state
  simp only [guarded] at follows ⊢
  rcases entry : setup.enter state with ⟨entered, inside⟩
  rw [entry] at follows sameLevel sameCut silent
  cases entered with
  | false => exact ⟨follows, fun _ => sameCut, fun _ => silent⟩
  | true =>
      refine ⟨follows, ?_, ?_⟩
      · intro trying
        exact ((discreet inside).cut_eq (sameLevel ▸ trying)).trans sameCut
      · intro trying
        exact silent.trans ((discreet inside).silent (sameLevel ▸ trying))

theorem discreet_remember (discreet : Discreet run) (key : Memo.Key) :
    Discreet (remember key run) := by
  intro state
  have inner := discreet { state with furthest := .none }
  refine ⟨keeps_remember key (fun state => (discreet state).toFollows) state, ?_, ?_⟩
  · intro trying
    simp only [remember]
    split <;> exact inner.cut_eq trying
  · intro trying
    simp only [remember]
    split <;> exact inner.silent trying

theorem discreet_memoized (discreet : Discreet run) (slot : Memo.Slot) :
    Discreet (memoized slot run) := by
  intro state
  have remembered : ∀ memo,
      { state with memo }.Discreet (remember ⟨slot, state.pos⟩ run { state with memo }).state :=
    fun memo => discreet_remember discreet ⟨slot, state.pos⟩ { state with memo }
  refine ⟨keeps_memoized slot (fun state => (discreet state).toFollows) state, ?_, ?_⟩
  · intro trying
    simp only [memoized, trying, if_true]
    split
    · rfl
    · rfl
    · exact (remembered _).cut_eq trying
  · intro trying
    simp only [memoized, trying, if_true]
    split
    · exact .inl ⟨rfl, rfl⟩
    · exact .inl ⟨rfl, rfl⟩
    · exact (remembered _).silent trying

/-- A trial inside of a trial is as discreet as the trial around it. -/
theorem discreet_trial (discreet : Discreet run) (state : State) :
    state.Discreet (trial run state).2 := by
  have inner := discreet { state with speculating := state.speculating + 1 }
  have deeper : 0 < state.speculating → 0 < state.speculating + 1 := by omega
  exact ⟨follows_trial (fun state => (discreet state).toFollows) state,
    fun trying => inner.cut_eq (deeper trying), fun trying => inner.silent (deeper trying)⟩

theorem discreet_recovered (discreet : Discreet run) (state : State) :
    state.Discreet (setup.recovered run state).state := by
  have inner := discreet { state with furthest := .none }
  have follows := setup.keeps_recovered (fun state => (discreet state).toFollows) state
  rcases setup.recovered_cases run state with
    ⟨parts, after, found, same⟩ | ⟨after, found, ⟨-, same⟩ | ⟨notTrying, -, same⟩⟩
  · rw [found] at inner
    rw [same] at follows ⊢
    exact ⟨follows, inner.cut_eq, inner.silent⟩
  · rw [found] at inner
    rw [same] at follows ⊢
    exact ⟨follows, inner.cut_eq, inner.silent⟩
  · rw [found] at inner
    have level : 0 < state.speculating → False := by
      intro trying
      exact notTrying (inner.speculating_eq ▸ trying)
    exact ⟨follows, fun trying => (level trying).elim, fun trying => (level trying).elim⟩

/-! ## Phrases and rules -/

/-- A phrase is discreet if the rules that it calls are. -/
theorem discreet_reads {call : Caller} (calls : ∀ rule, Discreet (call rule)) (phrase : Phrase) :
    Discreet (setup.reads call phrase) := by
  intro state
  have moved : ∀ (state : State) (pos : Nat) (furthest : Failure),
      state.Discreet { state with pos, furthest } :=
    fun state pos furthest => ⟨⟨rfl, rfl, id, id⟩, fun _ => rfl, fun _ => .inl ⟨rfl, rfl⟩⟩
  have relates : setup.Relates call State.Discreet :=
    { refl := .refl
      trans := .trans
      advance := fun state => moved state _ state.furthest
      operator := fun state => moved state _ state.furthest
      failAll := fun state texts => moved state state.pos _
      close := setup.discreet_close
      salvage := setup.discreet_salvage
      calls := calls
      trials := fun rule => discreet_trial (calls rule)
      recovers := fun rule => setup.discreet_recovered (calls rule) }
  rw [reads_state]
  exact setup.run_relates relates _ _ _

/-- No call of a rule reports a failure or cuts a node short during a trial. -/
theorem discreet_callWith (budget : Nat) (rule : Rule) :
    Discreet (setup.callWith budget rule) := by
  induction budget generalizing rule with
  | zero => exact fun state => .refl state
  | succ budget ih =>
      exact setup.runRule_induction (setup.discreet_reads ih rule.body) setup.discreet_guarded
        (fun _ discreet => discreet_memoized discreet _)

/-- A trial of anything that can be read, of a rule (the phrase that calls it, by
`reads_call`) or of any other phrase, in any state and within whatever budget,
leaves all as it was but the counters of the guards and trials and the memo table,
unless it abandons the parse, which is then the one thing that is reported. The
number of trials going on is never negative. -/
theorem trial_hidden (budget : Nat) (phrase : Phrase) (state : State)
    (proper : 0 ≤ state.speculating) :
    let after := (trial (setup.reads (setup.callWith budget) phrase) state).2
    after = { state with
      steps := after.steps
      speculations := after.speculations
      memo := after.memo
      fatal := after.fatal
      diagnostics := after.diagnostics } ∧ state.Silent after := by
  intro after
  have inner := setup.discreet_reads (setup.discreet_callWith budget) phrase
    { state with speculating := state.speculating + 1 }
  have trying : 0 < state.speculating + 1 := by omega
  constructor
  · have sameLevel : after.speculating = state.speculating :=
      (follows_trial (setup.keeps_reads (setup.keeps_callWith budget) phrase) state).speculating_eq
    have sameDepth : after.depth = state.depth := inner.depth_eq
    have sameCut : after.cut = state.cut := inner.cut_eq trying
    calc after = { after with
          pos := state.pos
          furthest := state.furthest
          speculating := state.speculating
          depth := state.depth
          cut := state.cut } := by rw [← sameLevel, ← sameDepth, ← sameCut]; rfl
      _ = _ := rfl
  · exact inner.silent trying

/-- Two levels are not enough for a number in three pairs of parentheses: the
trial of it reports that once, although it tries casts and lambda expressions at
each of them. -/
theorem trial_hidden_tooDeep :
    let setup := Setup.ofSource (.of [] "(((1)))") { maxDepth := 2 }
    let after :=
      (trial (setup.reads (setup.callWith setup.budget) (.call .expression)) setup.initial).2
    after.fatal = some (.tooDeep 2) ∧ after.diagnostics.size = 1 ∧ 0 < after.speculations ∧
      0 ≤ setup.initial.speculating ∧
      after = { setup.initial with
        steps := after.steps
        speculations := after.speculations
        memo := after.memo
        fatal := after.fatal
        diagnostics := after.diagnostics } ∧ setup.initial.Silent after := by
  refine ⟨by decide +kernel, by decide +kernel, by decide +kernel, by decide, ?_⟩
  exact trial_hidden _ _ (.call .expression) _ (by decide)

end Setup

end JavaFront.Parser
