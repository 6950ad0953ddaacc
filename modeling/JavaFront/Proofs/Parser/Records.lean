import JavaFront.Proofs.Parser.Whole

/-!
# What a run adds to the diagnostics

A run adds to the diagnostics at their end, and once it has been abandoned it
adds nothing any more. While it goes on, every diagnostic it adds is about a
token that matches a lexical rule: what matches none was reported beforehand.
Every diagnostic that is added covers a token.
-/

namespace JavaFront

/-- The diagnostic is about a token that matches a lexical rule. -/
def Stream.Blames (stream : Stream) (diagnostic : Diagnostic) : Prop :=
  ∃ index, stream.kind index ≠ .error ∧
    diagnostic.start = (stream.get index).span.start.toPlace

/-- The diagnostic covers a token. -/
def Stream.Covers (stream : Stream) (diagnostic : Diagnostic) : Prop :=
  ∃ index, diagnostic.start = (stream.get index).span.start.toPlace ∧
    diagnostic.stop = (stream.get index).span.stop.toPlace

namespace Parser

/-- The state `after` has the diagnostics of the state `before` and then some,
or none if the parse had been abandoned. -/
structure State.Records (stream : Stream) (before after : State) : Prop where
  still : before.fatal.isSome = true →
    after.fatal = before.fatal ∧ after.diagnostics = before.diagnostics
  grows : ∃ later, after.diagnostics.toList = before.diagnostics.toList ++ later ∧
    (after.fatal = none → ∀ diagnostic ∈ later, stream.Blames diagnostic)
  covers : ∀ diagnostic ∈ after.diagnostics,
    diagnostic ∈ before.diagnostics ∨ stream.Covers diagnostic

namespace State.Records

variable {stream : Stream} {first second third : State}

theorem of_same (sameFatal : second.fatal = first.fatal)
    (sameDiagnostics : second.diagnostics = first.diagnostics) : first.Records stream second :=
  ⟨fun _ => ⟨sameFatal, sameDiagnostics⟩, ⟨[], by simp [sameDiagnostics], by simp⟩,
    fun _ member => .inl (sameDiagnostics ▸ member)⟩

theorem refl (state : State) : state.Records stream state :=
  of_same rfl rfl

theorem trans (before : first.Records stream second) (behind : second.Records stream third) :
    first.Records stream third := by
  constructor
  · intro stopped
    obtain ⟨sameFatal, sameDiagnostics⟩ := before.still stopped
    obtain ⟨sameAfter, sameLater⟩ := behind.still (by rw [sameFatal]; exact stopped)
    exact ⟨sameAfter.trans sameFatal, sameLater.trans sameDiagnostics⟩
  · obtain ⟨early, sameEarly, earlyBlames⟩ := before.grows
    obtain ⟨late, sameLate, lateBlames⟩ := behind.grows
    refine ⟨early ++ late, by rw [sameLate, sameEarly, List.append_assoc], ?_⟩
    intro running diagnostic member
    rcases List.mem_append.mp member with inEarly | inLate
    · refine earlyBlames ?_ diagnostic inEarly
      -- had it been abandoned in between, it would still be
      cases stopped : second.fatal with
      | none => rfl
      | some reason => rw [(behind.still (by simp [stopped])).1, stopped] at running; cases running
    · exact lateBlames running diagnostic inLate
  · intro diagnostic member
    rcases behind.covers diagnostic member with earlier | covers
    · exact before.covers diagnostic earlier
    · exact .inr covers

/-- The diagnostics of the earlier state are the first of the later one. -/
theorem prefix_toList (records : first.Records stream second) :
    first.diagnostics.toList <+: second.diagnostics.toList := by
  obtain ⟨later, same, -⟩ := records.grows
  exact ⟨later, same.symm⟩

end State.Records

namespace Setup

variable (setup : Setup) {run : State → Reply}

/-- A rule only adds to the diagnostics. -/
def Logs (run : State → Reply) : Prop :=
  ∀ state : State, state.Records setup.stream (run state).state

/-! ## Single steps -/

theorem records_report {state : State} (failure : Failure) (running : state.fatal = none) :
    state.Records setup.stream (setup.report state failure) := by
  simp only [report]
  generalize index_eq : (if failure.pos < 0 then state.pos else failure.pos.toNat) = index
  split
  · exact .refl state
  · rename_i regular
    have place : (setup.diagnose state failure).start =
          (setup.stream.get index).span.start.toPlace ∧
        (setup.diagnose state failure).stop = (setup.stream.get index).span.stop.toPlace := by
      simp only [diagnose, index_eq, and_self]
    refine ⟨by simp [running], ⟨[setup.diagnose state failure], by simp, ?_⟩, ?_⟩
    · intro _ diagnostic member
      obtain rfl := List.mem_singleton.mp member
      exact ⟨index, regular, place.1⟩
    · intro diagnostic member
      rcases Array.mem_push.mp member with earlier | rfl
      · exact .inl earlier
      · exact .inr ⟨index, place⟩

theorem records_abandon (state : State) (reason : Abandonment) :
    state.Records setup.stream (setup.abandon state reason) := by
  simp only [abandon]
  split
  · exact .refl state
  · rename_i running
    refine ⟨fun stopped => absurd stopped running, ⟨_, Array.toList_push, by simp⟩, ?_⟩
    intro diagnostic member
    rcases Array.mem_push.mp member with earlier | rfl
    · exact .inl earlier
    · exact .inr ⟨state.pos, rfl, rfl⟩

theorem records_enter (state : State) : state.Records setup.stream (setup.enter state).2 := by
  simp only [enter]
  split
  · exact .refl state
  · split
    · exact setup.records_abandon state _
    · split
      · have abandoned := setup.records_abandon { state with steps := state.steps + 1 } .canceled
        exact ⟨abandoned.still, abandoned.grows, abandoned.covers⟩
      · exact .of_same rfl rfl

theorem records_close (kind : Token.Kind) (state : State) (frame : Frame) :
    state.Records setup.stream (setup.close kind state frame).state := by
  simp only [close]
  split
  · exact .of_same rfl rfl
  · split
    · exact .of_same rfl rfl
    · rename_i reports
      simp only [Bool.or_eq_true, not_or, Option.not_isSome_iff_eq_none] at reports
      have reported := setup.records_report (state.fail kind.describe).furthest
        (show (state.fail kind.describe).fatal = none from reports.1.2)
      exact ⟨reported.still, reported.grows, reported.covers⟩

theorem records_salvage (state : State) (frame : Frame) :
    state.Records setup.stream (setup.salvage state frame).state := by
  simp only [salvage]
  split
  · exact .refl state
  · split
    · exact .refl state
    · split
      · exact .refl state
      · exact .of_same rfl rfl

/-! ## Rules in their settings -/

theorem logs_guarded (logs : setup.Logs run) : setup.Logs (setup.guarded run) := by
  intro state
  have entered := setup.records_enter state
  simp only [guarded]
  generalize setup.enter state = door at entered ⊢
  obtain ⟨admitted, inside⟩ := door
  cases admitted with
  | false => exact entered
  | true => exact entered.trans ⟨(logs inside).still, (logs inside).grows, (logs inside).covers⟩

theorem logs_memoized (logs : setup.Logs run) (slot : Memo.Slot) :
    setup.Logs (memoized slot run) := by
  intro state
  have remembered : ∀ memo,
      state.Records setup.stream (remember ⟨slot, state.pos⟩ run { state with memo }).state := by
    intro memo
    have inner := logs { state with memo, furthest := .none }
    simp only [remember]
    split <;> exact ⟨inner.still, inner.grows, inner.covers⟩
  simp only [memoized]
  split
  · exact .of_same rfl rfl
  · split
    · exact .of_same rfl rfl
    · exact remembered _
  · exact remembered _

theorem records_trial (logs : setup.Logs run) (state : State) :
    state.Records setup.stream (trial run state).2 := by
  have inner := logs { state with speculating := state.speculating + 1 }
  exact ⟨inner.still, inner.grows, inner.covers⟩

/-- What follows a rule at a point of resynchronisation only adds to the
diagnostics. -/
theorem records_recovered (run : State → Reply) (state : State) :
    (run { state with furthest := .none }).state.Records setup.stream
      (setup.recovered run state).state := by
  rcases setup.recovered_cases run state with
    ⟨parts, after, found, same⟩ | ⟨after, found, ⟨-, same⟩ | ⟨-, running, same⟩⟩
  · rw [found, same]
    exact .of_same rfl rfl
  · rw [found, same]
    exact .of_same rfl rfl
  · have reported := setup.records_report after.furthest running
    rw [found, same]
    exact ⟨reported.still, reported.grows, reported.covers⟩

theorem logs_recovered (logs : setup.Logs run) : setup.Logs (setup.recovered run) := by
  intro state
  have inner := logs { state with furthest := .none }
  have all := inner.trans (setup.records_recovered run state)
  exact ⟨all.still, all.grows, all.covers⟩

/-! ## Phrases and rules -/

/-- A phrase only adds to the diagnostics. -/
theorem records_run {call : Caller} (logs : ∀ rule, setup.Logs (call rule)) (phrase : Phrase)
    (state : State) (frame : Frame) :
    state.Records setup.stream (setup.run call phrase state frame).state := by
  have relates : setup.Relates call (State.Records setup.stream) :=
    { refl := .refl
      trans := .trans
      advance := fun state => .of_same rfl rfl
      operator := fun state => .of_same rfl rfl
      failAll := fun state texts => .of_same rfl rfl
      close := setup.records_close
      salvage := setup.records_salvage
      calls := logs
      trials := fun rule => setup.records_trial (logs rule)
      recovers := fun rule => setup.logs_recovered (logs rule) }
  exact setup.run_relates relates phrase state frame

theorem logs_runBody {call : Caller} (logs : ∀ rule, setup.Logs (call rule)) (rule : Rule) :
    setup.Logs (setup.runBody call rule) := by
  intro state
  rw [runBody_state]
  exact setup.records_run logs _ _ _

/-- A call of a rule only adds to the diagnostics. -/
theorem logs_callWith (budget : Nat) (rule : Rule) : setup.Logs (setup.callWith budget rule) := by
  induction budget generalizing rule with
  | zero => exact fun state => .refl state
  | succ budget ih =>
      exact setup.runRule_induction (setup.logs_runBody ih rule) setup.logs_guarded
        (fun _ logs => setup.logs_memoized logs _)

/-- A whole parse only adds to the diagnostics. -/
theorem records_enterAt (entry : Entry) :
    setup.initial.Records setup.stream (setup.enterAt entry).2 := by
  have whole : ∀ rule, setup.initial.Records setup.stream (setup.whole rule setup.initial).2 := by
    intro rule
    have called := setup.logs_callWith setup.budget rule setup.initial
    change setup.initial.Records setup.stream (setup.call rule setup.initial).state at called
    simp only [Setup.whole]
    split
    · exact called
    · rename_i running
      have stillRunning : (setup.call rule setup.initial).state.fatal = none := by
        simpa using running
      split
      · exact called
      · split
        · have reported := setup.records_report
            ((setup.call rule setup.initial).state.fail (Token.Kind.describe .eof)).furthest
            (show ((setup.call rule setup.initial).state.fail (Token.Kind.describe .eof)).fatal =
              none from stillRunning)
          exact called.trans ⟨reported.still, reported.grows, reported.covers⟩
        · exact called.trans (setup.records_report _ stillRunning)
  cases entry with
  | unit => exact setup.logs_callWith setup.budget .compilationUnit setup.initial
  | expression => exact whole .expression
  | statement => exact whole .blockStatement

end Setup

end Parser

/-- Every diagnostic of a parse covers a token, unless the source is refused: then
there is one, at the start of the text. -/
theorem Source.parse_covers (source : Source) (entry : Entry) (options : Options) :
    ∀ diagnostic ∈ (source.parse entry options).diagnostics,
      (∃ token ∈ source.tokens, diagnostic.start = token.span.start.toPlace ∧
        diagnostic.stop = token.span.stop.toPlace) ∨
      diagnostic.start = Pos.origin.toPlace ∧ diagnostic.stop = Pos.origin.toPlace := by
  intro diagnostic member
  by_cases accepted : source.Accepted options
  · let setup := Parser.Setup.ofSource source options
    rw [(source.parse_of_accepted entry options accepted).2.1, Array.mem_toList_iff] at member
    left
    rcases (setup.records_enterAt entry).covers diagnostic member with first | ⟨index, place⟩
    · simp only [Parser.Setup.initial, List.mem_toArray, List.mem_map] at first
      obtain ⟨token, listed, rfl⟩ := first
      rw [show setup.stream = Stream.ofSource source from rfl,
        Stream.lexicalErrors_ofSource] at listed
      exact ⟨token, (List.mem_filter.mp listed).1, rfl, rfl⟩
    · exact ⟨_, Stream.get_mem_source source index, place⟩
  · have refused : source.parse entry options = source.refuse options.maxSize := by
      simp only [parse, if_pos (not_not.mp accepted)]
    rw [refused] at member
    obtain rfl := List.mem_singleton.mp member
    exact .inr ⟨rfl, rfl⟩

/-- No diagnostic of a parse starts at a negative offset. -/
theorem Source.parse_starts (source : Source) (entry : Entry) (options : Options) :
    ∀ diagnostic ∈ (source.parse entry options).diagnostics, 0 ≤ diagnostic.start.offset := by
  intro diagnostic member
  rcases source.parse_covers entry options diagnostic member with ⟨token, -, start, -⟩ | ⟨start, -⟩
  all_goals
    rw [start]
    exact Int.natCast_nonneg _

end JavaFront
