import JavaFront.Proofs.Grammar.Recovery
import JavaFront.Proofs.Parser.Conservation

/-!
# Error nodes and diagnostics

A parse that is not abandoned leaves an error node in its tree exactly if it
reports something. What a phrase builds is either clean, and then nothing was
reported while it was built and every token it passed matches a lexical rule, or
it holds an error node, and then there is a diagnostic. The memo table keeps to
that, and trials report nothing.
-/

namespace JavaFront

/-! ## Clean trees -/

namespace Node

/-- No tree holds a node for input that could not be read. -/
def Clean (nodes : List Node) : Prop :=
  ∀ node ∈ forest nodes, node.kind ≠ .error

variable {node : Node} {nodes others : List Node}

@[simp]
theorem clean_nil : Clean [] := by
  simp [Clean]

@[simp]
theorem clean_cons :
    Clean (node :: nodes) ↔ node.kind ≠ .error ∧ Clean node.children ∧ Clean nodes := by
  simp [Clean, or_imp, forall_and]

@[simp]
theorem clean_append : Clean (nodes ++ others) ↔ Clean nodes ∧ Clean others := by
  induction nodes with
  | nil => simp
  | cons node nodes ih => simp [ih, and_assoc]

@[simp]
theorem clean_reverse : Clean nodes.reverse ↔ Clean nodes := by
  induction nodes with
  | nil => simp
  | cons node nodes ih =>
      rw [List.reverse_cons, clean_append, ih, and_comm]
      simp [and_assoc]

/-- A tree is clean if it has no error nodes. -/
theorem errors_eq_nil_iff : node.errors = [] ↔ Clean [node] := by
  simp [errors, isError, Clean, forest, List.filter_eq_nil_iff]

end Node

/-! ## Regular stretches -/

/-- All tokens from one index up to another match a lexical rule. -/
def Stream.Regular (stream : Stream) (first after : Nat) : Prop :=
  ∀ index, first ≤ index → index < after → stream.kind index ≠ .error

namespace Stream.Regular

variable {stream : Stream} {first middle after pos : Nat}

theorem rest : stream.Regular pos pos := by
  intro index low high
  omega

theorem append (front : stream.Regular first middle) (back : stream.Regular middle after) :
    stream.Regular first after := by
  intro index low high
  by_cases early : index < middle
  · exact front index low early
  · exact back index (Nat.not_lt.mp early) high

theorem succ (regular : stream.kind pos ≠ .error) : stream.Regular pos (stream.succ pos) := by
  intro index low high
  have step : stream.succ pos ≤ pos + 1 := stream.advance_le pos 1
  obtain rfl : index = pos := by omega
  exact regular

/-- An operator is made of tokens that match a lexical rule if its first token
does. -/
theorem operator (regular : stream.kind pos ≠ .error) :
    stream.Regular pos (stream.afterOperator pos) := by
  rcases stream.operator_cases pos with single | ⟨-, pieces⟩
  · rw [(operatorToken_of_single single).2]
    exact succ regular
  · intro index low high isError
    have bound := stream.advance_le pos (stream.operator pos).2
    have piece := pieces (index - pos) (by simp only [afterOperator] at high; omega)
    rw [Nat.add_sub_cancel' low, isError] at piece
    cases piece

end Stream.Regular

namespace Parser

/-! ## Trials are silent -/

/-- The state `after` may stand behind a run from the state `before`, and during
a trial nothing was reported on the way. -/
structure State.Hushed (before after : State) : Prop extends before.Follows after where
  silent : before.trying = true → after.fatal = none → after.diagnostics = before.diagnostics

namespace State.Hushed

variable {first second third : State}

theorem refl (state : State) : state.Hushed state :=
  ⟨.refl state, fun _ _ => rfl⟩

theorem trans (before : first.Hushed second) (behind : second.Hushed third) :
    first.Hushed third := by
  refine ⟨before.toFollows.trans behind.toFollows, ?_⟩
  intro trying running
  rw [behind.silent (by rw [before.toFollows.trying_eq]; exact trying) running]
  exact before.silent trying (behind.fatal running)

end State.Hushed

/-- A rule reports nothing during a trial. -/
def Hushes (run : State → Reply) : Prop :=
  ∀ state : State, state.Hushed (run state).state

namespace Setup

variable (setup : Setup) {run : State → Reply}

theorem hushed_close (kind : Token.Kind) (state : State) (frame : Frame) :
    state.Hushed (setup.close kind state frame).state := by
  refine ⟨setup.follows_close kind state frame, ?_⟩
  intro trying running
  have positive : 0 < state.speculating := by simpa [State.trying] using trying
  simp only [close, State.fail, positive, decide_true, Bool.true_or, if_true]
  split <;> rfl

theorem hushed_salvage (state : State) (frame : Frame) :
    state.Hushed (setup.salvage state frame).state := by
  refine ⟨setup.follows_salvage state frame, ?_⟩
  intro _ running
  have notFatal := (setup.follows_salvage state frame).fatal running
  simp only [salvage, notFatal]

theorem hushed_trial (hushed : Hushes run) (state : State) :
    state.Hushed (trial run state).2 := by
  refine ⟨follows_trial (fun state => (hushed state).toFollows) state, ?_⟩
  intro trying running
  have positive : 0 < state.speculating := by simpa [State.trying] using trying
  refine (hushed { state with speculating := state.speculating + 1 }).silent ?_ running
  simp only [State.trying, decide_eq_true_eq]
  omega

theorem hushed_recovered (hushed : Hushes run) (state : State) :
    state.Hushed (setup.recovered run state).state := by
  refine ⟨setup.keeps_recovered (fun state => (hushed state).toFollows) state, ?_⟩
  have inner := hushed { state with furthest := .none }
  intro trying running
  have positive : 0 < (run { state with furthest := .none }).state.speculating := by
    rw [inner.speculating_eq]
    simpa [State.trying] using trying
  rcases setup.recovered_cases run state with
    ⟨parts, after, found, same⟩ | ⟨after, found, ⟨-, same⟩ | ⟨notTrying, -, same⟩⟩
  · rw [found] at inner
    rw [same] at running ⊢
    exact inner.silent trying running
  · rw [found] at inner
    rw [same] at running ⊢
    exact inner.silent trying running
  · rw [found] at positive
    exact absurd positive notTrying

theorem hushes_guarded (hushed : Hushes run) : Hushes (setup.guarded run) := by
  intro state
  refine ⟨setup.keeps_guarded (fun state => (hushed state).toFollows) state, ?_⟩
  intro trying running
  rcases setup.guarded_cases run state with ⟨-, same⟩ | ⟨after, same, stopped, -⟩
  · rw [same] at running ⊢
    exact (hushed { state with steps := state.steps + 1, depth := state.depth + 1 }).silent
      trying running
  · rw [same] at running
    rw [running] at stopped
    cases stopped

theorem hushes_memoized (hushed : Hushes run) (slot : Memo.Slot) : Hushes (memoized slot run) := by
  intro state
  refine ⟨keeps_memoized slot (fun state => (hushed state).toFollows) state, ?_⟩
  have remembered : ∀ memo, state.trying = true →
      (remember ⟨slot, state.pos⟩ run { state with memo }).state.fatal = none →
      (remember ⟨slot, state.pos⟩ run { state with memo }).state.diagnostics =
        state.diagnostics := by
    intro memo trying running
    have inner := hushed { state with memo, furthest := .none }
    simp only [remember] at running ⊢
    split at running
    · rename_i stopped
      rw [if_pos stopped]
      exact inner.silent trying running
    · rename_i notFatal
      rw [if_neg notFatal]
      exact inner.silent trying running
  intro trying running
  simp only [memoized] at running ⊢
  split at running
  · rfl
  · split at running
    · rename_i given
      rw [if_pos given]
    · rename_i given
      rw [if_neg given]
      exact remembered _ trying running
  · exact remembered _ trying running

/-- No call of a rule reports anything during a trial. -/
theorem hushes_callWith (budget : Nat) (rule : Rule) : Hushes (setup.callWith budget rule) := by
  induction budget generalizing rule with
  | zero => exact fun state => .refl state
  | succ budget ih =>
      have relates : setup.Relates (setup.callWith budget) State.Hushed :=
        { refl := .refl
          trans := .trans
          advance := fun state => ⟨⟨rfl, rfl, id, id⟩, fun _ _ => rfl⟩
          operator := fun state => ⟨⟨rfl, rfl, id, id⟩, fun _ _ => rfl⟩
          failAll := fun state texts => ⟨⟨rfl, rfl, id, id⟩, fun _ _ => rfl⟩
          close := setup.hushed_close
          salvage := setup.hushed_salvage
          calls := ih
          trials := fun rule => hushed_trial (ih rule)
          recovers := fun rule => setup.hushed_recovered (ih rule) }
      have body : Hushes (setup.runBody (setup.callWith budget) rule) := by
        intro state
        rw [runBody_state]
        exact setup.run_relates relates _ _ _
      exact setup.runRule_induction body setup.hushes_guarded
        (fun _ hushed => hushes_memoized hushed _)

end Setup

/-! ## What is told -/

/-- What parts that were read from one index up to another say about the tokens
between and about the diagnostics at hand. -/
structure Answered (stream : Stream) (diagnostics : Array Diagnostic) (pos : Nat)
    (parts : List Node) (stop : Nat) : Prop where
  regular : Node.Clean parts → stream.Regular pos stop
  told : ¬ Node.Clean parts → diagnostics ≠ #[]

theorem Answered.mono {stream : Stream} {before after : Array Diagnostic} {pos stop : Nat}
    {parts : List Node} (answered : Answered stream before pos parts stop)
    (grows : after = #[] → before = #[]) : Answered stream after pos parts stop :=
  ⟨answered.regular, fun dirty empty => answered.told dirty (grows empty)⟩

/-- Lexical errors have been reported, and so has every error node in the memo
table. -/
structure State.Honest (stream : Stream) (state : State) : Prop where
  level : 0 ≤ state.speculating
  lexical : ∀ index, stream.kind index = .error → state.diagnostics ≠ #[]
  memo : state.memo.All fun key outcome => ∀ parts, outcome.parts? = some parts →
    Answered stream state.diagnostics key.pos parts outcome.stop

/-- A state stays honest for as long as its memo table stays as it is. -/
theorem State.Honest.follow {stream : Stream} {before after : State}
    (honest : before.Honest stream) (follows : before.Follows after)
    (sameTable : after.memo.table = before.memo.table) : after.Honest stream := by
  refine ⟨follows.speculating_eq ▸ honest.level, ?_, ?_⟩
  · intro index isError empty
    exact honest.lexical index isError (follows.diagnostics empty)
  · intro key outcome found parts built
    rw [sameTable] at found
    exact (honest.memo key outcome found parts built).mono follows.diagnostics

/-- The parts of a frame are clean. -/
def Frame.Clean (frame : Frame) : Prop :=
  Node.Clean frame.parts

/-- What a phrase that succeeded has told: nothing if all it built is clean, and
something if it built an error node. -/
structure Told (stream : Stream) (before : State) (frame : Frame) (after : State)
    (inner : Frame) : Prop where
  clean : inner.Clean → frame.Clean ∧ after.diagnostics = before.diagnostics ∧
    stream.Regular before.pos after.pos
  dirty : ¬ inner.Clean → frame.Clean → after.diagnostics ≠ #[]

namespace Told

variable {stream : Stream} {before middle after : State} {frame between inner : Frame}

theorem trans (first : Told stream before frame middle between)
    (second : Told stream middle between after inner) (follows : middle.Follows after) :
    Told stream before frame after inner := by
  constructor
  · intro clean
    obtain ⟨betweenClean, sameLater, later⟩ := second.clean clean
    obtain ⟨frameClean, same, regular⟩ := first.clean betweenClean
    exact ⟨frameClean, sameLater.trans same, regular.append later⟩
  · intro dirty clean
    by_cases betweenClean : between.Clean
    · exact second.dirty dirty betweenClean
    · exact fun empty => first.dirty betweenClean clean (follows.diagnostics empty)

/-- New parts that were answered for are told. -/
theorem pushAll {parts : List Node} (same : inner.parts = parts ++ frame.parts)
    (answered : Answered stream after.diagnostics before.pos parts after.pos)
    (silent : Node.Clean parts → after.diagnostics = before.diagnostics) :
    Told stream before frame after inner := by
  have cleanIff : inner.Clean ↔ Node.Clean parts ∧ frame.Clean := by
    simp only [Frame.Clean, same, Node.clean_append]
  constructor
  · intro clean
    obtain ⟨partsClean, frameClean⟩ := cleanIff.mp clean
    exact ⟨frameClean, silent partsClean, answered.regular partsClean⟩
  · intro dirty clean
    exact answered.told fun partsClean => dirty (cleanIff.mpr ⟨partsClean, clean⟩)

/-- Without new parts there is nothing to tell. -/
theorem pass (same : inner.parts = frame.parts) (silent : after.diagnostics = before.diagnostics)
    (regular : stream.Regular before.pos after.pos) : Told stream before frame after inner := by
  have none : Answered stream after.diagnostics before.pos [] after.pos :=
    ⟨fun _ => regular, fun dirty => absurd Node.clean_nil dirty⟩
  exact pushAll (same.trans (List.nil_append _).symm) none fun _ => silent

theorem rest (same : inner.parts = frame.parts) : Told stream before frame before inner :=
  pass same rfl .rest

/-- A leaf is clean. -/
theorem leaf {kind : Node.Kind} {token : Token} (proper : kind ≠ .error)
    (same : inner = frame.push (.leaf kind token))
    (silent : after.diagnostics = before.diagnostics)
    (regular : stream.Regular before.pos after.pos) : Told stream before frame after inner := by
  have clean : Node.Clean [.leaf kind token] := by simp [Node.leaf, proper]
  have answered : Answered stream after.diagnostics before.pos [.leaf kind token] after.pos :=
    ⟨fun _ => regular, fun dirty => absurd clean dirty⟩
  exact pushAll (same ▸ rfl) answered fun _ => silent

/-- A node tells what its parts tell. The frame it goes into is clean if the
other parts are and the frame it was opened with is. -/
theorem enclose {opened filled : Frame} {others : List Node} {stop : Pos}
    (told : Told stream before opened after filled) (proper : filled.kind ≠ .error)
    (splits : frame.Clean ↔ opened.Clean ∧ Node.Clean others)
    (same : inner.parts = filled.toNode stop :: others) :
    Told stream before frame after inner := by
  have cleanIff : inner.Clean ↔ filled.Clean ∧ Node.Clean others := by
    simp [Frame.Clean, same, Frame.toNode, proper]
  constructor
  · intro clean
    obtain ⟨filledClean, othersClean⟩ := cleanIff.mp clean
    obtain ⟨openedClean, silent, regular⟩ := told.clean filledClean
    exact ⟨splits.mpr ⟨openedClean, othersClean⟩, silent, regular⟩
  · intro dirty clean
    obtain ⟨openedClean, othersClean⟩ := splits.mp clean
    exact told.dirty (fun filledClean => dirty (cleanIff.mpr ⟨filledClean, othersClean⟩))
      openedClean

/-- A documentation comment tells nothing. -/
theorem document (told : Told stream before frame after inner) (doc : Option Token) :
    Told stream before frame after (inner.document doc) := by
  have cleanIff : (inner.document doc).Clean ↔ inner.Clean := by
    simp only [Frame.Clean, Frame.document]
    split <;> simp_all
  exact ⟨fun clean => told.clean (cleanIff.mp clean),
    fun dirty clean => told.dirty (fun other => dirty (cleanIff.mpr other)) clean⟩

end Told

/-- What a phrase leaves behind has been told, unless the parse has been
abandoned. -/
def Outcome.Reports (stream : Stream) (state : State) (frame : Frame) (outcome : Outcome) : Prop :=
  outcome.state.fatal = none →
    outcome.verdict.Grants (Told stream state frame outcome.state outcome.frame)

/-- What a rule leaves behind has been told, unless the parse has been
abandoned. -/
def Reply.Reports (stream : Stream) (state : State) (reply : Reply) : Prop :=
  reply.state.fatal = none → ∀ parts, reply.parts? = some parts →
    Answered stream reply.state.diagnostics state.pos parts reply.state.pos ∧
      (Node.Clean parts → reply.state.diagnostics = state.diagnostics)

/-- A way to call rules that leaves error nodes exactly where it reports
something. -/
structure Caller.Reporting (call : Caller) (setup : Setup) : Prop where
  conserving : call.Conserving setup
  hushes : ∀ rule, Hushes (call rule)
  honest : ∀ (rule : Rule) (state : State), state.Tidy setup.stream →
    state.Honest setup.stream → (call rule state).state.Honest setup.stream
  reports : ∀ (rule : Rule) (state : State), state.Tidy setup.stream →
    state.Honest setup.stream → (state.trying = true → rule ≠ .compilationUnit) →
    rule ≠ .enhancedForHead → (call rule state).Reports setup.stream state

/-! ## Steps of a phrase -/

section Phrases

variable {setup : Setup} {call : Caller}

/-- A report leaves a diagnostic, unless there are some already. -/
theorem Setup.diagnostics_report_of_honest (setup : Setup) {state : State} (failure : Failure)
    (lexical : ∀ index, setup.stream.kind index = .error → state.diagnostics ≠ #[]) :
    (setup.report state failure).diagnostics ≠ #[] := by
  simp only [report]
  generalize (if failure.pos < 0 then state.pos else failure.pos.toNat) = index
  split
  · rename_i isError
    exact lexical index isError
  · simp

theorem Setup.close_reports {kind : Token.Kind} {state : State} {frame : Frame}
    (honest : state.Honest setup.stream) (proper : kind ≠ .error) :
    (setup.close kind state frame).Reports setup.stream state frame := by
  intro running
  simp only [close] at running ⊢
  by_cases found : setup.stream.kind state.pos = kind
  · rw [if_pos found]
    exact .ok (.pass rfl rfl (.succ (found ▸ proper)))
  · rw [if_neg found]
    split
    · exact .failed
    · have failed : ∀ index, setup.stream.kind index = .error →
          (state.fail kind.describe).diagnostics ≠ #[] := honest.lexical
      have reported := setup.diagnostics_report_of_honest (state.fail kind.describe).furthest failed
      refine .ok ⟨?_, fun _ _ => reported⟩
      intro clean
      simp [Frame.Clean, Frame.push, errorMark] at clean

theorem Setup.honest_close {kind : Token.Kind} {state : State} {frame : Frame}
    (honest : state.Honest setup.stream) :
    (setup.close kind state frame).state.Honest setup.stream :=
  honest.follow (setup.follows_close kind state frame)
    (congrArg Memo.table (setup.close_memo kind state frame))

theorem Setup.honest_salvage {state : State} {frame : Frame} (honest : state.Honest setup.stream) :
    (setup.salvage state frame).state.Honest setup.stream :=
  honest.follow (setup.follows_salvage state frame)
    (congrArg Memo.table (setup.salvage_memo state frame))

namespace Caller.Reporting

theorem honest_trial (reporting : call.Reporting setup) (rule : Rule) {state : State}
    (tidy : state.Tidy setup.stream) (honest : state.Honest setup.stream) :
    (trial (call rule) state).2.Honest setup.stream := by
  have tried : State.Honest setup.stream { state with speculating := state.speculating + 1 } :=
    ⟨by have := honest.level; show 0 ≤ state.speculating + 1; omega, honest.lexical, honest.memo⟩
  have inner := reporting.honest rule { state with speculating := state.speculating + 1 }
    ⟨tidy.inside, tidy.memo⟩ tried
  have follows := Setup.follows_trial (reporting.conserving.follows rule) state
  exact ⟨follows.speculating_eq ▸ honest.level, inner.lexical, inner.memo⟩

theorem honest_recovered (reporting : call.Reporting setup) {rule : Rule} {state : State}
    (tidy : state.Tidy setup.stream) (honest : state.Honest setup.stream) :
    (setup.recovered (call rule) state).state.Honest setup.stream := by
  have inner := reporting.honest rule { state with furthest := .none } ⟨tidy.inside, tidy.memo⟩
    ⟨honest.level, honest.lexical, honest.memo⟩
  rcases setup.recovered_cases (call rule) state with
    ⟨parts, after, found, same⟩ | ⟨after, found, ⟨-, same⟩ | ⟨-, -, same⟩⟩
  · rw [found] at inner
    rw [same]
    exact ⟨inner.level, inner.lexical, inner.memo⟩
  · rw [found] at inner
    rw [same]
    exact ⟨inner.level, inner.lexical, inner.memo⟩
  · rw [found] at inner
    rw [same]
    have told := inner.follow (setup.follows_report after after.furthest)
      (by rw [setup.report_memo])
    exact ⟨told.level, told.lexical, told.memo⟩

/-- No phrase spoils the memo table or leaves a lexical error untold. -/
theorem honest_run (reporting : call.Reporting setup) (phrase : Phrase) {state : State}
    (frame : Frame) (tidy : state.Tidy setup.stream) (honest : state.Honest setup.stream) :
    (setup.run call phrase state frame).state.Honest setup.stream := by
  let relation (before after : State) : Prop :=
    before.Tidy setup.stream ∧ before.Honest setup.stream →
      after.Tidy setup.stream ∧ after.Honest setup.stream
  have relates : setup.Relates call relation :=
    { refl := fun state => id
      trans := fun before behind => behind ∘ before
      advance := fun state both => ⟨⟨Stream.succ_le_last both.1.inside, both.1.memo⟩,
        both.2.follow ⟨rfl, rfl, id, id⟩ rfl⟩
      operator := fun state both => ⟨⟨Stream.advance_le_last _ both.1.inside, both.1.memo⟩,
        both.2.follow ⟨rfl, rfl, id, id⟩ rfl⟩
      failAll := fun state texts both => ⟨⟨both.1.inside, both.1.memo⟩,
        both.2.follow ⟨rfl, rfl, id, id⟩ rfl⟩
      close := fun kind state frame both => ⟨Setup.tidy_close both.1, Setup.honest_close both.2⟩
      salvage := fun state frame both => ⟨Setup.tidy_salvage both.1, Setup.honest_salvage both.2⟩
      calls := fun rule state both => ⟨reporting.conserving.tidy rule state both.1,
        reporting.honest rule state both.1 both.2⟩
      trials := fun rule state both => ⟨reporting.conserving.tidy_trial rule both.1,
        reporting.honest_trial rule both.1 both.2⟩
      recovers := fun rule state both => ⟨reporting.conserving.tidy_recovered both.1,
        reporting.honest_recovered both.1 both.2⟩ }
  exact (setup.run_relates relates phrase state frame ⟨tidy, honest⟩).2

/-- A rule with recovery tells what it has read, or that it could not be
read. -/
theorem recovered (reporting : call.Reporting setup) {rule : Rule} {state : State}
    (tidy : state.Tidy setup.stream) (honest : state.Honest setup.stream)
    (notUnit : rule ≠ .compilationUnit) (kept : rule ≠ .enhancedForHead) :
    (setup.recovered (call rule) state).Reports setup.stream state := by
  have freshTidy : State.Tidy setup.stream { state with furthest := .none } :=
    ⟨tidy.inside, tidy.memo⟩
  have freshHonest : State.Honest setup.stream { state with furthest := .none } :=
    ⟨honest.level, honest.lexical, honest.memo⟩
  have reports := reporting.reports rule _ freshTidy freshHonest (fun _ => notUnit) kept
  have honestAfter := reporting.honest rule _ freshTidy freshHonest
  intro running parts built
  rcases setup.recovered_cases (call rule) state with
    ⟨others, after, found, same⟩ | ⟨after, found, ⟨-, same⟩ | ⟨-, -, same⟩⟩
  · rw [found] at reports
    rw [same] at running built ⊢
    cases built
    exact reports running parts rfl
  · rw [same] at built
    cases built
  · rw [found] at honestAfter
    have reported := setup.diagnostics_report_of_honest after.furthest honestAfter.lexical
    rw [same] at built ⊢
    cases built
    refine ⟨⟨?_, fun _ => reported⟩, ?_⟩
    · intro clean
      simp [Setup.skipped, Setup.skip] at clean
    · intro clean
      simp [Setup.skipped, Setup.skip] at clean

/-- A call tells what its rule tells. -/
theorem told_of_reports {state after : State} {parts : List Node} (frame : Frame)
    (reports : Reply.Reports setup.stream state ⟨some parts, after⟩)
    (running : after.fatal = none) :
    Told setup.stream state frame after (frame.pushAll parts) := by
  obtain ⟨answered, silent⟩ := reports running parts rfl
  exact .pushAll rfl answered silent

theorem call_reports (reporting : call.Reporting setup) {rule : Rule} {state : State}
    (tidy : state.Tidy setup.stream) (honest : state.Honest setup.stream)
    (notUnit : rule ≠ .compilationUnit) (kept : rule ≠ .enhancedForHead) (frame : Frame) :
    (setup.run call (.call rule) state frame).Reports setup.stream state frame := by
  have reports := reporting.reports rule state tidy honest (fun _ => notUnit) kept
  intro running
  simp only [Setup.run] at running ⊢
  rcases found : call rule state with ⟨parts?, after⟩
  rw [found] at reports
  simp only [found] at running ⊢
  cases parts? with
  | some parts => exact .ok (told_of_reports frame reports running)
  | none => exact .failed

theorem recover_reports (reporting : call.Reporting setup) {rule : Rule} {state : State}
    (tidy : state.Tidy setup.stream) (honest : state.Honest setup.stream)
    (notUnit : rule ≠ .compilationUnit) (kept : rule ≠ .enhancedForHead) (frame : Frame) :
    (setup.run call (.recover rule) state frame).Reports setup.stream state frame := by
  have reports := reporting.recovered tidy honest notUnit kept
  intro running
  simp only [Setup.run] at running ⊢
  rcases found : setup.recovered (call rule) state with ⟨parts?, after⟩
  rw [found] at reports
  simp only [found] at running ⊢
  cases parts? with
  | some parts => exact .ok (told_of_reports frame reports running)
  | none => exact .failed

/-- A trial leaves the reports as they are. -/
theorem diagnostics_trial (reporting : call.Reporting setup) (rule : Rule) {state : State}
    (honest : state.Honest setup.stream) (running : (trial (call rule) state).2.fatal = none) :
    (trial (call rule) state).2.diagnostics = state.diagnostics := by
  refine (reporting.hushes rule { state with speculating := state.speculating + 1 }).silent ?_
    running
  have := honest.level
  simp only [State.trying, decide_eq_true_eq]
  omega

end Caller.Reporting

/-- A frame that is never turned into an error stays what it is. -/
theorem Kept.kind_ne_error {stream : Stream} {phrase : Phrase} {pos after : Nat}
    {frame inner : Frame} (kept : Kept stream phrase pos after frame inner)
    (proper : (frame.kind :: phrase.rekinds).contains .error = false) : inner.kind ≠ .error := by
  intro isError
  have member : inner.kind ∈ frame.kind :: phrase.rekinds := by
    rcases kept.kind with same | renamed
    · exact same ▸ List.mem_cons_self
    · exact List.mem_cons_of_mem _ renamed
  rw [isError] at member
  rw [List.contains_iff_mem.mpr member] at proper
  cases proper

/-- A finished node tells what was told while it was under construction. -/
theorem Setup.enclose_reports {body : Phrase} {state : State} {frame outer opened : Frame}
    {outcome : Outcome} (reports : outcome.Reports setup.stream state opened)
    (conserves : outcome.Conserves setup.stream body state.pos opened)
    (proper : (opened.kind :: body.rekinds).contains .error = false)
    (splits : frame.Clean ↔ opened.Clean ∧ Node.Clean outer.parts) :
    (setup.enclose outer outcome frame).Reports setup.stream state frame := by
  obtain ⟨verdict, after, filled⟩ := outcome
  intro running
  rw [enclose_state] at running
  cases reports running with
  | ok told =>
      have kept := (conserves running).get
      exact .ok (told.enclose (kept.kind_ne_error proper) splits rfl)
  | failed => exact .failed

/-- A node from the start of the text tells what its parts tell. -/
theorem Setup.covered_reports {kind : Node.Kind} {body : Phrase} {state : State} {frame : Frame}
    {outcome : Outcome} (proper : (kind :: body.rekinds).contains .error = false)
    (reports : outcome.Reports setup.stream state { kind, start := .origin })
    (conserves : outcome.Conserves setup.stream body state.pos { kind, start := .origin }) :
    (setup.covered outcome frame).Reports setup.stream state frame := by
  obtain ⟨verdict, after, filled⟩ := outcome
  intro running
  rw [covered_state] at running
  cases reports running with
  | ok told =>
      have kept := (conserves running).get
      exact .ok (told.enclose (kept.kind_ne_error proper) (by simp [Frame.Clean]) rfl)
  | failed => exact .failed

theorem Outcome.Reports.documented {stream : Stream} {state : State} {frame : Frame}
    {outcome : Outcome} (reports : outcome.Reports stream state frame) (doc : Option Token) :
    (outcome.documented doc).Reports stream state frame := by
  obtain ⟨verdict, after, filled⟩ := outcome
  intro running
  rw [Outcome.documented_state] at running
  cases reports running with
  | ok told => exact .ok (told.document _)
  | failed => exact .failed

/-- What was told from one state on was told from any other that stands at the
same place and has the same reports. -/
theorem Outcome.Reports.of_same {stream : Stream} {state other : State} {frame : Frame}
    {outcome : Outcome} (reports : outcome.Reports stream other frame)
    (samePos : other.pos = state.pos)
    (silent : outcome.state.fatal = none → other.diagnostics = state.diagnostics) :
    outcome.Reports stream state frame := by
  intro running
  refine (reports running).imp fun told => ⟨fun clean => ?_, told.dirty⟩
  rw [← samePos, ← silent running]
  exact told.clean clean

/-- An alternative tells what the first phrase tells, where the first does not
fail or what was skipped cannot be salvaged. -/
theorem Setup.orElse_reports {first second : Phrase} {state : State} {frame : Frame}
    (before : (setup.run call first state frame).Reports setup.stream state frame)
    (follows : ∀ (state : State) (frame : Frame),
      state.Follows (setup.run call second state frame).state)
    (fails : ∀ {after inner}, setup.run call first state frame = ⟨.failed, after, inner⟩ →
      after.fatal = none → (setup.run call second after inner).verdict = .failed) :
    (setup.run call (.orElse first second) state frame).Reports setup.stream state frame := by
  intro running
  simp only [run] at running ⊢
  rcases found : setup.run call first state frame with ⟨verdict, after, inner⟩
  rw [found] at before
  simp only [found] at running ⊢
  cases verdict with
  | ok => exact before running
  | failed =>
      rw [fails found ((follows after inner).fatal running)]
      exact .failed
  | ended => cases before running

/-- Behind one phrase another one tells what both tell. -/
theorem Setup.seq_reports (follows : ∀ rule, Keeps (call rule)) {first second : Phrase}
    {state : State} {frame : Frame}
    (before : (setup.run call first state frame).Reports setup.stream state frame)
    (behind : ∀ {middle between}, setup.run call first state frame = ⟨.ok, middle, between⟩ →
      middle.fatal = none →
      (setup.run call second middle between).Reports setup.stream middle between) :
    (setup.run call (.seq first second) state frame).Reports setup.stream state frame := by
  intro running
  simp only [run] at running ⊢
  rcases found : setup.run call first state frame with ⟨verdict, middle, between⟩
  rw [found] at before
  simp only [found] at running ⊢
  cases verdict with
  | ok =>
      have later := setup.follows_run follows second middle between
      have stillRunning := later.fatal running
      exact (behind found stillRunning running).imp fun told =>
        (before stillRunning).get.trans told later
  | failed => exact .failed
  | ended => cases before running

/-- A loop tells what its rounds tell. -/
theorem repeatWhile_reports {look : Look} {body : Phrase} (follows : ∀ rule, Keeps (call rule))
    {trying : Bool}
    (keeps : ∀ (state : State) frame, state.Tidy setup.stream → state.Honest setup.stream →
      (setup.run call body state frame).state.Tidy setup.stream ∧
        (setup.run call body state frame).state.Honest setup.stream)
    (reports : ∀ (state : State) (frame : Frame), setup.holds state frame look = true →
      state.Tidy setup.stream → state.Honest setup.stream → state.trying = trying →
      (setup.run call body state frame).Reports setup.stream state frame)
    (rounds : Nat) (state : State) (frame : Frame) (tidy : state.Tidy setup.stream)
    (honest : state.Honest setup.stream) (sameTrying : state.trying = trying) :
    (repeatWhile (fun state frame => setup.holds state frame look)
      (fun state frame => setup.run call body state frame) rounds state
      frame).Reports setup.stream state frame := by
  induction rounds generalizing state frame with
  | zero => exact fun _ => .ok (.rest rfl)
  | succ rounds ih =>
      intro running
      simp only [repeatWhile] at running ⊢
      by_cases goesOn : setup.holds state frame look = true
      · simp only [goesOn, if_true] at running ⊢
        have once := reports state frame goesOn tidy honest sameTrying
        have moved := setup.follows_run follows body state frame
        obtain ⟨tidyAfter, honestAfter⟩ := keeps state frame tidy honest
        rcases found : setup.run call body state frame with ⟨verdict, middle, between⟩
        rw [found] at once moved tidyAfter honestAfter
        simp only [found] at running ⊢
        cases verdict with
        | ok =>
            have rounds := setup.follows_run follows body
            have stillRunning : middle.fatal = none :=
              (Setup.follows_repeatWhile rounds _ _ _).fatal running
            exact (ih middle between tidyAfter honestAfter (moved.trying_eq.trans sameTrying)
              running).imp fun rest =>
                (once stillRunning).get.trans rest (Setup.follows_repeatWhile rounds _ _ _)
        | failed => exact .failed
        | ended => cases once running
      · simp only [goesOn, Bool.false_eq_true, if_false] at running ⊢
        exact .ok (.rest rfl)

/-- Where a regular look holds, the token at the cursor matches a lexical
rule. -/
theorem Setup.kind_ne_error_of_holds {look : Look} {state : State} {frame : Frame}
    (regular : look.isRegular = true) (holds : setup.holds state frame look = true) :
    setup.stream.kind state.pos ≠ .error := by
  intro isError
  cases look with
  | here accept =>
      simp only [Setup.holds, isError] at holds
      simp [Look.isRegular, holds] at regular
  | operator accept =>
      simp only [Setup.holds, Stream.operator, isError] at holds
      simp [Look.isRegular, holds] at regular
  | _ => simp [Look.isRegular] at regular

theorem Setup.kind_ne_error_of_accept {accept : Token.Kind → Bool} {state : State}
    (refuses : accept .error = false) (accepted : accept (setup.stream.kind state.pos) = true) :
    setup.stream.kind state.pos ≠ .error := by
  intro isError
  rw [isError, refuses] at accepted
  cases accepted

/-- A phrase that passes no lexical error, run by calls that tell what they
build, tells what it builds. -/
theorem Caller.Reporting.run (reporting : call.Reporting setup) (ordered : setup.stream.Ordered)
    (phrase : Phrase) (head known : Bool) (state : State) (frame : Frame)
    (keeps : phrase.keeps head = true) (hasHead : head = true → frame.HasHead)
    (passes : phrase.passes known = true)
    (regular : known = true → setup.stream.kind state.pos ≠ .error)
    (settled : phrase.settled state.trying = true) (tidy : state.Tidy setup.stream)
    (honest : state.Honest setup.stream) :
    (setup.run call phrase state frame).Reports setup.stream state frame := by
  have conserving := reporting.conserving
  have follows := setup.follows_run conserving.follows
  have conserves := conserving.run ordered
  induction phrase generalizing head known state frame with
  | done | rekind => exact fun _ => .ok (.rest rfl)
  | stop | expected => exact fun _ => .failed
  | seq first second firstIh secondIh =>
      obtain ⟨firstSettled, secondSettled⟩ := Bool.and_eq_true_iff.mp settled
      obtain ⟨firstKeeps, secondKeeps⟩ := Bool.and_eq_true_iff.mp keeps
      obtain ⟨firstPasses, secondPasses⟩ := Bool.and_eq_true_iff.mp passes
      have moved := follows first state frame
      have tidyAfter := conserving.tidy_run first frame tidy
      have honestAfter := reporting.honest_run first frame tidy honest
      have kept := conserves first head state frame firstKeeps hasHead firstSettled tidy
      refine Setup.seq_reports conserving.follows
        (firstIh head known state frame firstKeeps hasHead firstPasses regular firstSettled tidy
          honest) ?_
      intro middle between found stillRunning
      rw [found] at moved tidyAfter honestAfter kept
      exact secondIh first.yields false middle between secondKeeps (kept stillRunning).get.head
        secondPasses (by simp) (by rw [moved.trying_eq]; exact secondSettled) tidyAfter honestAfter
  | token kind =>
      have proper : kind ≠ .error := by simpa [Phrase.passes] using passes
      intro running
      simp only [Setup.run]
      split
      · rename_i found
        exact .ok (.pass rfl rfl (.succ (found ▸ proper)))
      · exact .failed
  | leaf part kind =>
      have proper : kind ≠ .error := by simpa [Phrase.passes] using passes
      simp only [Phrase.keeps, Bool.and_eq_true, bne_iff_ne] at keeps
      intro running
      simp only [Setup.run]
      split
      · rename_i found
        exact .ok (.leaf keeps.1 rfl rfl (.succ (found ▸ proper)))
      · exact .failed
  | pick part accept =>
      have refuses : accept .error = false := by simpa [Phrase.passes] using passes
      simp only [Phrase.keeps, Bool.and_eq_true, bne_iff_ne] at keeps
      intro running
      simp only [Setup.run]
      split
      · rename_i accepted
        exact .ok (.leaf keeps.1 rfl rfl
          (.succ (Setup.kind_ne_error_of_accept refuses accepted)))
      · exact .failed
  | mark accept =>
      have refuses : accept .error = false := by simpa [Phrase.passes] using passes
      intro running
      simp only [Setup.run]
      split
      · rename_i accepted
        exact .ok (.pass rfl rfl (.succ (Setup.kind_ne_error_of_accept refuses accepted)))
      · exact .failed
  | operator =>
      exact fun _ => .ok (.leaf (by decide) rfl rfl (.operator (regular passes)))
  | node kind body ih =>
      obtain ⟨proper, bodyKeeps⟩ := Bool.and_eq_true_iff.mp keeps
      rw [Bool.not_eq_true'] at proper
      exact Setup.enclose_reports
        (ih false known state (setup.frame state kind) bodyKeeps (by simp) passes regular settled
          tidy honest)
        (conserves body false state (setup.frame state kind) bodyKeeps (by simp) settled tidy)
        proper (by simp [Frame.Clean, Setup.frame])
  | wrap kind body ih =>
      obtain ⟨proper, bodyKeeps⟩ := Bool.and_eq_true_iff.mp keeps
      rw [Bool.not_eq_true'] at proper
      simp only [Setup.run]
      split
      · exact fun _ => .failed
      · rename_i first others parts
        exact Setup.enclose_reports
          (ih false known state { kind, start := first.span.start, parts := [first] } bodyKeeps
            (by simp) passes regular settled tidy honest)
          (conserves body false state { kind, start := first.span.start, parts := [first] }
            bodyKeeps (by simp) settled tidy)
          proper (by simp [Frame.Clean, parts, and_assoc])
  | reopen kind body ih =>
      simp only [Phrase.keeps, Bool.and_eq_true] at keeps
      obtain ⟨⟨isHead, proper⟩, bodyKeeps⟩ := keeps
      rw [Bool.not_eq_true'] at proper
      obtain ⟨node, others, parts, headKind⟩ := hasHead isHead
      simp only [Setup.run, parts]
      exact Setup.enclose_reports
        (ih false known state
          { kind, start := node.span.start, parts := node.children.reverse } bodyKeeps (by simp)
          passes regular settled tidy honest)
        (conserves body false state
          { kind, start := node.span.start, parts := node.children.reverse } bodyKeeps (by simp)
          settled tidy)
        proper (by simp [Frame.Clean, parts, headKind])
  | cover kind body ih =>
      obtain ⟨proper, bodyKeeps⟩ := Bool.and_eq_true_iff.mp keeps
      rw [Bool.not_eq_true'] at proper
      rw [Setup.run_cover]
      exact Setup.covered_reports proper
        (ih false known state { kind, start := .origin } bodyKeeps (by simp) passes regular settled
          tidy honest)
        (conserves body false state { kind, start := .origin } bodyKeeps (by simp) settled tidy)
  | branch look yes no yesIh noIh =>
      obtain ⟨yesSettled, noSettled⟩ := Bool.and_eq_true_iff.mp settled
      obtain ⟨yesKeeps, noKeeps⟩ := Bool.and_eq_true_iff.mp keeps
      obtain ⟨yesPasses, noPasses⟩ := Bool.and_eq_true_iff.mp passes
      rw [Setup.run_branch]
      split
      · rename_i holds
        refine yesIh head _ state frame yesKeeps hasHead yesPasses ?_ yesSettled tidy honest
        intro either
        rcases Bool.or_eq_true_iff.mp either with before | look
        · exact regular before
        · exact Setup.kind_ne_error_of_holds look holds
      · exact noIh head known state frame noKeeps hasHead noPasses regular noSettled tidy honest
  | trial rule yes no yesIh noIh =>
      simp only [Phrase.settled, Bool.and_eq_true, bne_iff_ne] at settled
      obtain ⟨⟨_, yesSettled⟩, noSettled⟩ := settled
      obtain ⟨yesKeeps, noKeeps⟩ := Bool.and_eq_true_iff.mp keeps
      obtain ⟨yesPasses, noPasses⟩ := Bool.and_eq_true_iff.mp passes
      have moved := Setup.follows_trial (conserving.follows rule) state
      have tidyAfter := conserving.tidy_trial rule tidy
      have honestAfter := reporting.honest_trial rule tidy honest
      have silent := reporting.diagnostics_trial rule honest
      have samePos : (trial (call rule) state).2.pos = state.pos := rfl
      rw [Setup.run_trial]
      generalize trial (call rule) state = attempt at moved tidyAfter honestAfter silent samePos ⊢
      obtain ⟨success, after⟩ := attempt
      dsimp only at moved tidyAfter honestAfter silent samePos ⊢
      have told : ∀ phrase,
          (setup.run call phrase after frame).Reports setup.stream after frame →
          (setup.run call phrase after frame).Reports setup.stream state frame := by
        intro phrase reports
        exact reports.of_same samePos fun running =>
          silent ((follows phrase after frame).fatal running)
      split
      · exact told yes (yesIh head known after frame yesKeeps hasHead yesPasses
          (samePos ▸ regular) (by rw [moved.trying_eq]; exact yesSettled) tidyAfter honestAfter)
      · exact told no (noIh head known after frame noKeeps hasHead noPasses
          (samePos ▸ regular) (by rw [moved.trying_eq]; exact noSettled) tidyAfter honestAfter)
  | call rule =>
      exact reporting.call_reports tidy honest (by simpa [Phrase.settled] using settled)
        (by simpa [Phrase.keeps] using keeps) frame
  | recover rule =>
      exact reporting.recover_reports tidy honest (by simpa [Phrase.settled] using settled)
        (by simpa [Phrase.keeps] using keeps) frame
  | orElse first second firstIh _ =>
      rcases Phrase.settled_orElse settled with
        ⟨rfl, firstSettled⟩ | ⟨rfl, notTrying, rule, rfl, notUnit⟩
      · refine Setup.orElse_reports
          (firstIh head known state frame keeps hasHead passes regular firstSettled tidy honest)
          (follows _) ?_
        intro after inner _ stillRunning
        simp only [Setup.run, Setup.salvage, stillRunning]
      · have notHead : rule ≠ .enhancedForHead := by simpa [Phrase.keeps] using keeps
        obtain ⟨-, succeeds⟩ := conserving.recover_conserves ordered tidy notUnit notHead frame
        apply Setup.orElse_reports
          (reporting.recover_reports tidy honest notUnit notHead frame) (follows _)
        intro after inner found stillRunning
        rw [found] at succeeds
        exact absurd rfl (succeeds notTrying stillRunning)
  | loop look body ih =>
      obtain ⟨_, bodySettled⟩ := Bool.and_eq_true_iff.mp settled
      refine repeatWhile_reports conserving.follows
        (fun state frame tidy honest => ⟨conserving.tidy_run body frame tidy,
          reporting.honest_run body frame tidy honest⟩) ?_ _ state frame tidy honest rfl
      intro other otherFrame holds otherTidy otherHonest sameTrying
      exact ih false look.isRegular other otherFrame keeps (by simp) passes
        (fun look => Setup.kind_ne_error_of_holds look holds)
        (by rw [sameTrying]; exact bodySettled) otherTidy otherHonest
  | documented body ih =>
      rw [Setup.run_documented]
      exact
        (ih head known state frame keeps hasHead passes regular settled tidy honest).documented _
  | closing kind => exact Setup.close_reports honest (by simpa [Phrase.passes] using passes)
  | salvage =>
      intro running
      have stillRunning := (setup.follows_salvage state frame).fatal running
      simp only [Setup.run, Setup.salvage, stillRunning]
      exact .failed

end Phrases

/-! ## Rules -/

/-- A way to run one rule that leaves error nodes exactly where it reports
something. -/
structure Candid (setup : Setup) (rule : Rule) (run : State → Reply) : Prop where
  honest : ∀ state : State, state.Tidy setup.stream → state.Honest setup.stream →
    (run state).state.Honest setup.stream
  reports : ∀ state : State, state.Tidy setup.stream → state.Honest setup.stream →
    (state.trying = true → rule ≠ .compilationUnit) → rule ≠ .enhancedForHead →
    (run state).Reports setup.stream state

section Rules

variable {setup : Setup} {rule : Rule} {run : State → Reply}

theorem Caller.Reporting.runBody {call : Caller} (reporting : call.Reporting setup)
    (ordered : setup.stream.Ordered) (rule : Rule) :
    Candid setup rule (setup.runBody call rule) := by
  constructor
  · intro state tidy honest
    rw [Setup.runBody_state]
    exact reporting.honest_run rule.body _ tidy honest
  · intro state tidy honest notUnit kept
    have inner := reporting.run ordered rule.body false false state (setup.frame state .error)
      (Rule.body_keeps kept) (by simp) rule.body_passes (by simp)
      (rule.body_settled state.trying notUnit) tidy honest
    intro running parts built
    simp only [Setup.runBody] at running built ⊢
    rcases found : setup.run call rule.body state (setup.frame state .error) with
      ⟨verdict, after, filled⟩
    rw [found] at inner
    simp only [found] at running built ⊢
    cases verdict with
    | ok =>
        cases built
        have told := (inner running).get
        have start : (setup.frame state .error).Clean := by simp [Frame.Clean, Setup.frame]
        exact ⟨⟨fun clean => (told.clean clean).2.2, fun dirty => told.dirty dirty start⟩,
          fun clean => (told.clean clean).2.1⟩
    | failed => cases built
    | ended => cases inner running

theorem Setup.guarded_candid (candid : Candid setup rule run) :
    Candid setup rule (setup.guarded run) := by
  constructor
  · intro state tidy honest
    rcases setup.guarded_cases run state with
      ⟨-, same⟩ | ⟨after, same, -, follows, -, sameMemo⟩
    · have inner := candid.honest
        { state with steps := state.steps + 1, depth := state.depth + 1 } ⟨tidy.inside, tidy.memo⟩
        ⟨honest.level, honest.lexical, honest.memo⟩
      rw [same]
      exact ⟨inner.level, inner.lexical, inner.memo⟩
    · rw [same]
      exact honest.follow follows (by rw [sameMemo])
  · intro state tidy honest notUnit kept running parts built
    rcases setup.guarded_cases run state with ⟨-, same⟩ | ⟨after, same, -⟩
    · rw [same] at running built ⊢
      exact candid.reports
        { state with steps := state.steps + 1, depth := state.depth + 1 } ⟨tidy.inside, tidy.memo⟩
        ⟨honest.level, honest.lexical, honest.memo⟩ notUnit kept running parts built
    · rw [same] at built
      cases built

theorem remember_candid {slot : Memo.Slot} (kept : Memo.Slot.of? rule = some slot)
    (candid : Candid setup rule run) (state : State) (tidy : state.Tidy setup.stream)
    (honest : state.Honest setup.stream) :
    (remember ⟨slot, state.pos⟩ run state).state.Honest setup.stream ∧
      (remember ⟨slot, state.pos⟩ run state).Reports setup.stream state := by
  have freshTidy : State.Tidy setup.stream { state with furthest := .none } :=
    ⟨tidy.inside, tidy.memo⟩
  have freshHonest : State.Honest setup.stream { state with furthest := .none } :=
    ⟨honest.level, honest.lexical, honest.memo⟩
  have honestAfter := candid.honest _ freshTidy freshHonest
  have reports := candid.reports _ freshTidy freshHonest (by rintro - rfl; cases kept)
    (by rintro rfl; cases kept)
  simp only [remember]
  rcases found : run { state with furthest := .none } with ⟨parts?, after⟩
  rw [found] at honestAfter reports
  dsimp only
  split
  · rename_i stopped
    refine ⟨⟨honestAfter.level, honestAfter.lexical, honestAfter.memo⟩, fun running => ?_⟩
    have notFatal : after.fatal = none := running
    simp [notFatal] at stopped
  · rename_i running
    have notFatal : after.fatal = none := by simpa using running
    have told := reports notFatal
    refine ⟨⟨honestAfter.level, honestAfter.lexical, Memo.All.put honestAfter.memo ?_⟩,
      fun _ => told⟩
    rintro parts rfl
    exact (told parts rfl).1

theorem memoized_candid {slot : Memo.Slot} (kept : Memo.Slot.of? rule = some slot)
    (candid : Candid setup rule run) : Candid setup rule (memoized slot run) := by
  have both : ∀ state : State, state.Tidy setup.stream → state.Honest setup.stream →
      (memoized slot run state).state.Honest setup.stream ∧
        (memoized slot run state).Reports setup.stream state := by
    intro state tidy honest
    have lookedUp := Memo.All.get honest.memo ⟨slot, state.pos⟩
    have remembered := remember_candid kept candid
      { state with memo := (state.memo.get ⟨slot, state.pos⟩).2 }
      ⟨tidy.inside, Memo.All.get tidy.memo _⟩ ⟨honest.level, honest.lexical, lookedUp⟩
    simp only [memoized]
    split
    · rename_i parts stop furthest found
      refine ⟨⟨honest.level, honest.lexical, lookedUp⟩, fun _ others same => ?_⟩
      cases same
      rw [state.memo.get_fst] at found
      exact ⟨honest.memo _ _ found parts rfl, fun _ => rfl⟩
    · split
      · exact ⟨⟨honest.level, honest.lexical, lookedUp⟩, fun _ _ built => by cases built⟩
      · exact remembered
    · exact remembered
  exact ⟨fun state tidy honest => (both state tidy honest).1,
    fun state tidy honest _ _ => (both state tidy honest).2⟩

end Rules

/-- Every call of a rule leaves error nodes exactly where it reports
something. -/
theorem Setup.callWith_reporting (setup : Setup) (ordered : setup.stream.Ordered) (budget : Nat) :
    Caller.Reporting (setup.callWith budget) setup := by
  induction budget with
  | zero =>
      refine ⟨setup.callWith_conserving ordered 0, setup.hushes_callWith 0,
        fun rule state tidy honest => honest, ?_⟩
      intro rule state tidy honest _ _ running parts built
      cases built
  | succ budget ih =>
      have candid : ∀ rule, Candid setup rule (setup.callWith (budget + 1) rule) := by
        intro rule
        exact setup.runRule_induction (ih.runBody ordered rule) guarded_candid memoized_candid
      exact ⟨setup.callWith_conserving ordered (budget + 1), setup.hushes_callWith (budget + 1),
        fun rule => (candid rule).honest, fun rule => (candid rule).reports⟩

end Parser

end JavaFront
