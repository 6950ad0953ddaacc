import JavaFront.Proofs.Parser.Abandonment

/-!
# Limits that are wide enough

A parse enters one guard at most for every nested call. So where the depth limit
has a level for each of them and there is no hurry, no call is abandoned, and a
parse that is not abandoned under narrower limits goes the same way.
-/

namespace JavaFront.Parser

/-- Behind a run the nesting is what it was, and where so many levels were left
the parse goes on. -/
def Setup.Runs (setup : Setup) (levels : Nat) (before after : State) : Prop :=
  before.fatal = none → before.depth + levels ≤ setup.options.maxDepth →
    after.fatal = none ∧ after.depth = before.depth

section Levels

variable {setup : Setup} {levels : Nat}

/-- A phrase goes on as its calls do. -/
theorem Setup.run_runs {call : Caller} (keeps : ∀ rule, Keeps (call rule))
    (runs : ∀ rule state, setup.Runs levels state (call rule state).state) (phrase : Phrase)
    (state : State) (frame : Frame) :
    setup.Runs levels state (setup.run call phrase state frame).state := by
  refine setup.run_relates ⟨?_, ?_, ?_, ?_, ?_, ?_, ?_, ?_, ?_, ?_⟩ phrase state frame
  · exact fun state running _ => ⟨running, rfl⟩
  · intro first second third before behind running room
    obtain ⟨goesOn, sameDepth⟩ := before running room
    obtain ⟨ends, depth⟩ := behind goesOn (by rwa [sameDepth])
    exact ⟨ends, depth.trans sameDepth⟩
  · exact fun state running _ => ⟨running, rfl⟩
  · exact fun state running _ => ⟨running, rfl⟩
  · exact fun state texts running _ => ⟨running, rfl⟩
  · intro kind state frame running _
    exact ⟨(setup.close_fatal kind state frame).trans running,
      (setup.follows_close kind state frame).depth_eq⟩
  · intro state frame running _
    have ends : setup.salvage state frame = ⟨.failed, state, frame⟩ := by
      simp only [salvage, running]
    rw [ends]
    exact ⟨running, rfl⟩
  · exact runs
  · exact fun rule state running room =>
      runs rule { state with speculating := state.speculating + 1 } running room
  · intro rule state running room
    rw [setup.recovered_fatal]
    exact ⟨(runs rule { state with furthest := .none } running room).1,
      (setup.keeps_recovered (keeps rule) state).depth_eq⟩

/-- A guard takes one level. -/
theorem Setup.guarded_runs {run : State → Reply} (patient : setup.options.patience = none)
    (runs : ∀ state, setup.Runs levels state (run state).state) (state : State) :
    setup.Runs (levels + 1) state (setup.guarded run state).state := by
  intro running room
  have notDeep : ¬ setup.options.maxDepth ≤ state.depth := by omega
  have notCanceled : setup.canceledAt (state.steps + 1) = false := by
    simp only [canceledAt, patient]
  have enters : setup.enter state =
      (true, { state with steps := state.steps + 1, depth := state.depth + 1 }) := by
    simp only [enter, running, notDeep, notCanceled, Option.isSome_none, Bool.false_eq_true,
      if_false]
  obtain ⟨goesOn, sameDepth⟩ :=
    runs { state with steps := state.steps + 1, depth := state.depth + 1 } running
      (by dsimp only; omega)
  rw [guarded, enters]
  exact ⟨goesOn, by simp only [State.leave, sameDepth, Nat.add_sub_cancel]⟩

theorem memoized_runs (slot : Memo.Slot) {run : State → Reply}
    (runs : ∀ state, setup.Runs levels state (run state).state) (state : State) :
    setup.Runs levels state (memoized slot run state).state := by
  have remembered : ∀ memo, setup.Runs levels state
      (remember ⟨slot, state.pos⟩ run { state with memo }).state := by
    intro memo running room
    have inner := runs { state with memo, furthest := .none } running room
    simp only [remember]
    split <;> exact inner
  simp only [memoized]
  split
  · exact fun running _ => ⟨running, rfl⟩
  · split
    · exact fun running _ => ⟨running, rfl⟩
    · exact remembered _
  · exact remembered _

end Levels

/-- With a level left for every nested call and all the time it takes, no call
is abandoned. -/
theorem Setup.callWith_runs (setup : Setup) (patient : setup.options.patience = none)
    (budget : Nat) (rule : Rule) (state : State) :
    setup.Runs budget state (setup.callWith budget rule state).state := by
  induction budget generalizing rule state with
  | zero => exact fun running _ => ⟨running, rfl⟩
  | succ budget ih =>
      have body : ∀ state, setup.Runs budget state
          (setup.runBody (setup.callWith budget) rule state).state := by
        intro state
        rw [runBody_state]
        exact setup.run_runs (setup.keeps_callWith budget) ih rule.body state
          (setup.frame state .error)
      have entered : ∀ state, setup.Runs (budget + 1) state
          (setup.entered (setup.callWith budget) rule state).state := by
        intro state
        simp only [Setup.entered]
        split
        · exact setup.guarded_runs patient body state
        · intro running room
          exact body state running (by omega)
      simp only [callWith, runRule_eq]
      split
      · split
        · exact memoized_runs _ entered state
        · exact entered state
      · exact entered state

/-- The setup with a level for every nested call and all the time it takes. -/
def Setup.unlimited (setup : Setup) : Setup :=
  setup.under { setup.options with maxDepth := setup.budget, patience := none }

theorem Setup.unlimited_running (setup : Setup) (rule : Rule) {state : State}
    (running : state.fatal = none) (outermost : state.depth = 0) :
    (setup.unlimited.call rule state).state.fatal = none := by
  have room : (state.depth : Int) + setup.budget ≤ setup.unlimited.options.maxDepth := by
    rw [outermost]
    exact Int.le_of_eq (Int.zero_add _)
  exact (setup.unlimited.callWith_runs rfl setup.budget rule state running room).1

/-- A call that is not abandoned does what it does without limits. -/
theorem Setup.call_unlimited (setup : Setup) (rule : Rule) {state : State}
    (start : state.fatal = none) (outermost : state.depth = 0)
    (running : (setup.call rule state).state.fatal = none) :
    setup.unlimited.call rule state = setup.call rule state := by
  have cuts : CutsShort (setup.call rule) (setup.unlimited.call rule) :=
    @Setup.callWith_cutsShort setup.unlimited setup.options rfl setup.budget rule
  rcases cuts state start with ⟨same, -⟩ | stopped | ⟨reason, -, -, fatal, -⟩
  · exact same.symm
  · simp [setup.unlimited_running rule start outermost] at stopped
  · cases running.symm.trans fatal

/-- A call that is abandoned reports up to some point what it reports without
limits, and then that it has been abandoned. -/
theorem Setup.call_abandoned (setup : Setup) (rule : Rule) {state : State}
    (start : state.fatal = none) (outermost : state.depth = 0) {reason : Abandonment}
    (stopped : (setup.call rule state).state.fatal = some reason) :
    ∃ before notice, (setup.call rule state).state.diagnostics.toList = before ++ [notice] ∧
      notice.message = reason.notice ∧
      before <+: (setup.unlimited.call rule state).state.diagnostics.toList := by
  have cuts : CutsShort (setup.call rule) (setup.unlimited.call rule) :=
    @Setup.callWith_cutsShort setup.unlimited setup.options rfl setup.budget rule
  rcases cuts state start with ⟨-, running⟩ | full | ⟨other, before, notice, fatal, shape⟩
  · cases stopped.symm.trans running
  · simp [setup.unlimited_running rule start outermost] at full
  · cases stopped.symm.trans fatal
    exact ⟨before, notice, shape⟩

/-- An abandoned parse reports up to some point what its first call reports
without limits, and then that it has been abandoned. -/
theorem Setup.enterAt_abandoned (setup : Setup) (entry : Entry) {reason : Abandonment}
    (stopped : (setup.enterAt entry).2.fatal = some reason) :
    ∃ before notice, (setup.enterAt entry).2.diagnostics.toList = before ++ [notice] ∧
      notice.message = reason.notice ∧
      before <+: (setup.unlimited.reply entry).state.diagnostics.toList := by
  have whole : ∀ rule, (setup.whole rule setup.initial).2.fatal = some reason →
      (setup.whole rule setup.initial).2 = (setup.call rule setup.initial).state := by
    intro rule abandoned
    cases fatal : (setup.call rule setup.initial).state.fatal with
    | some _ => simp only [Setup.whole, fatal, Option.isSome_some, if_true]
    | none =>
        simp only [Setup.whole, fatal, Option.isSome_none, Bool.false_eq_true, if_false]
          at abandoned
        split at abandoned
        · cases fatal.symm.trans abandoned
        · rw [setup.report_fatal] at abandoned
          split at abandoned <;> cases fatal.symm.trans abandoned
  have called : (setup.enterAt entry).2 = (setup.reply entry).state := by
    cases entry with
    | unit => rfl
    | expression => exact whole .expression stopped
    | statement => exact whole .blockStatement stopped
  rw [called] at stopped ⊢
  exact setup.call_abandoned entry.rule rfl rfl stopped

theorem Setup.enterAt_running {setup : Setup} (entry : Entry)
    (patient : setup.options.patience = none)
    (deep : (setup.budget : Int) ≤ setup.options.maxDepth) :
    (setup.enterAt entry).2.fatal = none := by
  have called : ∀ rule, (setup.call rule setup.initial).state.fatal = none := by
    intro rule
    refine (setup.callWith_runs patient setup.budget rule setup.initial rfl ?_).1
    simpa [initial] using deep
  have whole : ∀ rule, (setup.whole rule setup.initial).2.fatal = none := by
    intro rule
    have goesOn := called rule
    simp only [Setup.whole, goesOn, Option.isSome_none, Bool.false_eq_true, if_false]
    split
    · exact goesOn
    · rw [setup.report_fatal]
      split
      · exact goesOn
      · exact goesOn
  cases entry with
  | unit => exact called .compilationUnit
  | expression => exact whole .expression
  | statement => exact whole .blockStatement

end JavaFront.Parser

namespace JavaFront.Source

open JavaFront.Parser

/-- A patient parse of a text that is not too large is not abandoned if the depth
limit has a level for every nested call. -/
theorem parse_running {source : Source} (entry : Entry) {options : Options}
    (accepted : source.Accepted options) (patient : options.patience = none)
    (deep : ((Setup.ofSource source options).budget : Int) ≤ options.maxDepth) :
    (source.parse entry options).abandoned = none := by
  rw [(source.parse_of_accepted entry options accepted).2.2]
  exact Setup.enterAt_running entry patient deep

/-- The last report of an abandoned parse is that it has been abandoned. -/
theorem parse_abandoned {source : Source} {entry : Entry} {options : Options}
    {reason : Abandonment} (abandoned : (source.parse entry options).abandoned = some reason) :
    ∃ before notice, (source.parse entry options).diagnostics = before ++ [notice] ∧
      notice.message = reason.notice := by
  by_cases accepted : source.Accepted options
  · obtain ⟨-, diagnostics, fatal⟩ := source.parse_of_accepted entry options accepted
    obtain ⟨before, notice, shape, message, -⟩ :=
      (Setup.ofSource source options).enterAt_abandoned entry (fatal.symm.trans abandoned)
    exact ⟨before, notice, diagnostics.trans shape, message⟩
  · have refused : source.parse entry options = source.refuse options.maxSize := by
      rw [parse, if_pos (not_not.mp accepted)]
    rw [refused] at abandoned ⊢
    cases abandoned
    exact ⟨[], _, rfl, rfl⟩

/-- A parse without diagnostics has no errors. -/
theorem clean_of_silent {source : Source} {entry : Entry} {options : Options}
    (silent : (source.parse entry options).diagnostics = []) :
    (source.parse entry options).hasErrors = false := by
  refine hasErrors_eq_false_iff.mpr ⟨?_, silent⟩
  by_contra stopped
  obtain ⟨reason, abandoned⟩ := Option.ne_none_iff_exists'.mp stopped
  obtain ⟨before, notice, shape, -⟩ := parse_abandoned abandoned
  cases (List.append_eq_nil_iff.mp (shape.symm.trans silent)).2

end JavaFront.Source
