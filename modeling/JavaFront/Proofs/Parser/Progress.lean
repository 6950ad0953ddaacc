import JavaFront.Proofs.Parser.Determinacy

/-!
# Calls of rules move on

A call of a rule ends, and where anything comes of it the cursor has moved on,
but for the few rules that may have nothing to read. The rule for a whole unit is
one of them. It is where a parse starts and is called at no other place: it stays
where it is if there is nothing left to read, or if the parse is abandoned, and
its loop over the declarations counts on recovery. In a trial, where nothing is
recovered from, it does not end in front of a token that no declaration starts
with.
-/

namespace JavaFront.Parser

/-! ## Units -/

/-- Every success in such a table accounts for the tokens it passes. -/
theorem MemoReached.accounts {stream : Stream} (ordered : stream.Ordered) {memo : Memo}
    (reached : MemoReached stream memo) : MemoAccounts stream memo := by
  induction reached with
  | empty => exact Memo.All.empty
  | @call setup budget rule state same inside _ ih =>
      subst same
      exact ((setup.callWith_conserving ordered budget).tidy rule state ⟨inside, ih⟩).memo

/-- Something always comes of the rule for a unit. -/
theorem Setup.call_unit_isSome (setup : Setup) (state : State) :
    (setup.call .compilationUnit state).parts?.isSome = true := by
  have same : setup.budget = setup.budget - 1 + 1 :=
    (Nat.sub_add_cancel (Nat.mul_pos (by decide) (Nat.succ_pos _))).symm
  have steady := setup.run_steady (setup.callWith (setup.budget - 1)) _
    Rule.compilationUnit_steady state (setup.frame state .error)
  have called : setup.call .compilationUnit state =
      setup.runBody (setup.callWith (setup.budget - 1)) .compilationUnit state := by
    simp only [call]
    rw [same, callWith, runRule_eq]
    rfl
  rw [called, runBody_eq, Outcome.reply]
  split
  · contradiction
  · rfl

/-- Outside of trials, and unless the parse is abandoned, a unit reads all that is
left. -/
theorem Setup.call_unit_pos {setup : Setup} (ordered : setup.stream.Ordered) {state : State}
    (tidy : state.Tidy setup.stream) (outside : state.trying = false)
    (running : (setup.call .compilationUnit state).state.fatal = none) :
    (setup.call .compilationUnit state).state.pos = setup.stream.last := by
  obtain ⟨parts, built⟩ := Option.isSome_iff_exists.mp (setup.call_unit_isSome state)
  have conserves := (setup.callWith_conserving ordered setup.budget).conserves .compilationUnit
    state tidy (fun trying => by simp [outside] at trying) (by decide)
  exact (conserves running parts built).ends rfl

/-- With recovery a unit reads as much. -/
theorem Setup.recovered_unit {setup : Setup} (ordered : setup.stream.Ordered) {state : State}
    (tidy : state.Tidy setup.stream) (outside : state.trying = false)
    (running : (setup.recovered (setup.call .compilationUnit) state).state.fatal = none) :
    (setup.recovered (setup.call .compilationUnit) state).parts?.isSome = true ∧
      (setup.recovered (setup.call .compilationUnit) state).state.pos = setup.stream.last := by
  let fresh : State := { state with furthest := .none }
  obtain ⟨parts, built⟩ := Option.isSome_iff_exists.mp (setup.call_unit_isSome fresh)
  have found : setup.call .compilationUnit fresh =
      ⟨some parts, (setup.call .compilationUnit fresh).state⟩ :=
    congrArg (Reply.mk · _) built
  rw [setup.recovered_of_some found] at running ⊢
  have tidyFresh : fresh.Tidy setup.stream := ⟨tidy.inside, tidy.memo⟩
  exact ⟨rfl, Setup.call_unit_pos ordered tidyFresh outside running⟩

/-! ## Units that are tried -/

/-- A loop never ends whose look holds in every state of a kind that its body keeps to. -/
theorem Setup.Ends.not_loop {setup : Setup} {look : Look} {body : Phrase} {within : State → Prop}
    (holds : ∀ state frame, within state → setup.holds state frame look = true)
    (again : ∀ state frame outcome, within state → setup.Ends body state frame outcome →
      outcome.verdict = .ok ∧ within outcome.state)
    {state : State} {frame : Frame} {outcome : Outcome} (start : within state) :
    ¬ setup.Ends (.loop look body) state frame outcome := by
  intro ends
  refine @Setup.Ends.rec setup
    (fun phrase state _ _ _ => phrase = .loop look body ∨ phrase = .seq body (.loop look body) →
      ¬ within state)
    (fun _ _ _ _ => True)
    ?step ?seq ?seqStops ?node ?wrap ?wrapFails ?reopen ?reopenFails ?cover ?branch ?trial ?call
    ?recover ?orElse ?otherwise ?loop ?loopEnds ?documented ?body ?settled
    _ _ _ _ ends (.inl rfl) start
  case step =>
    rintro phrase state frame plain (rfl | rfl) <;> cases plain
  case seq =>
    rintro first second state frame middle between outcome early late - lateIh (same | same) inside
    · cases same
    · cases same
      exact lateIh (.inl rfl) (again state frame _ inside early).2
  case seqStops =>
    rintro first second state frame outcome early stops - (same | same) inside
    · cases same
    · cases same
      exact stops (again state frame _ inside early).1
  case loop =>
    rintro other inner state frame outcome goesOn - innerIh (same | same) inside
    · cases same
      exact innerIh (.inr rfl) inside
    · cases same
  case loopEnds =>
    rintro other inner state frame ends (same | same) inside
    · cases same
      simp [holds state frame inside] at ends
    · cases same
  all_goals
    intros
    first
      | trivial
      | simp_all only [reduceCtorEq, or_self]

namespace Setup.Ends

variable {setup : Setup} {state : State} {frame : Frame} {outcome : Outcome}

/-- Where its look fails, a branch ends as its second phrase does. -/
theorem of_fails {look : Look} {yes no : Phrase}
    (ends : setup.Ends (.branch look yes no) state frame outcome)
    (fails : setup.holds state frame look = false) : setup.Ends no state frame outcome := by
  cases ends with
  | step plain => cases plain
  | branch ends => rwa [fails] at ends

/-- Behind a phrase that does nothing the next one starts where it did. -/
theorem behind {first second : Phrase}
    (ends : setup.Ends (.seq first second) state frame outcome)
    (idle : ∀ outcome, setup.Ends first state frame outcome → outcome = ⟨.ok, state, frame⟩) :
    setup.Ends second state frame outcome := by
  cases ends with
  | step plain => cases plain
  | seq early late =>
      cases idle _ early
      exact late
  | seqStops early stops =>
      cases idle _ early
      exact absurd rfl stops

end Setup.Ends

/-- A name alone. -/
def lone : Setup := .ofSource (.of [] "x") {}

/-- A state of a trial at the start of that text. -/
structure State.Stuck (state : State) : Prop extends state.Placed lone.stream where
  pos_eq : state.pos = 0
  depth_eq : state.depth = 0
  trying : 0 < state.speculating
  running : state.fatal = none

theorem lone_here : lone.stream.kind 0 = .ident := by decide +kernel

/-- The failures that were met make no difference. -/
theorem State.Stuck.having {state : State} (stuck : state.Stuck) (furthest : Failure) :
    State.Stuck { state with furthest } :=
  ⟨⟨stuck.inside, stuck.memo⟩, stuck.pos_eq, stuck.depth_eq, stuck.trying, stuck.running⟩

/-- A name is no modifier. -/
theorem lone_modifiers (budget : Nat) {state : State} (start : state.pos = 0) :
    ∃ parts, lone.callWith (budget + 1) .modifiers state = ⟨some parts, state⟩ := by
  have size : lone.stream.size - 0 = 1 + 1 := by decide +kernel
  have shut : ∀ frame, lone.holds state frame
      (.or (.here Grammar.isModifier) Grammar.annotationAhead) = false := by
    simp [Setup.holds, Grammar.annotationAhead, Look.is, Grammar.isModifier, start, lone_here]
  rw [Setup.callWith]
  generalize lone.callWith budget = call
  simp [Setup.runRule, Memo.Slot.of?, Rule.isGuarded, Setup.runBody, Rule.body, Grammar.modifiers,
    Grammar.modifiersOf, Setup.run, Setup.enclose, start, size, repeatWhile, shut]

/-- A name starts no declaration of a type. -/
theorem lone_typeDecl {state : State} (stuck : state.Stuck) :
    ∃ after, lone.call .typeDecl state = ⟨none, after⟩ ∧ after.Stuck := by
  obtain ⟨placed, start, shallow, trying, running⟩ := stuck
  let inside : State := { state with steps := state.steps + 1, depth := state.depth + 1 }
  have entered : lone.enter state = (true, inside) := by
    have free : lone.options = {} := rfl
    simp [Setup.enter, Setup.canceledAt, inside, running, shallow, free]
  have here : lone.stream.kind inside.pos = .ident := start.symm ▸ lone_here
  have budget : lone.budget = lone.budget - 2 + 1 + 1 := by decide +kernel
  obtain ⟨parts, modifiers⟩ : ∃ parts, lone.callWith (lone.budget - 2 + 1) .modifiers inside =
      ⟨some parts, inside⟩ := lone_modifiers _ start
  rw [Setup.call, budget, Setup.callWith]
  generalize lone.callWith (lone.budget - 2 + 1) = call at modifiers ⊢
  simp only [Setup.runRule, Memo.Slot.of?, Rule.isGuarded, if_true, Setup.guarded, entered]
  simp [Setup.runBody, Rule.body, Grammar.typeDecl, Grammar.typeDeclRest, Phrase.steps,
    Phrase.select, Setup.run, modifiers, Grammar.annotationDeclAhead, Setup.holds, Look.is, here]
  exact ⟨⟨placed.inside, placed.memo⟩, start,
    by simp [inside, shallow, State.leave, State.failAll], trying, running⟩

/-- A round of the declarations of a unit that is tried in front of a name leads back
to where it started. -/
theorem lone_round {state : State} {frame : Frame} {outcome : Outcome} (stuck : state.Stuck)
    (ends : lone.Ends (.branch (.is .semicolon) (.token .semicolon) (Grammar.attempt .typeDecl))
      state frame outcome) : outcome.verdict = .ok ∧ outcome.state.Stuck := by
  have ordered : lone.stream.Ordered := Stream.ofSource_ordered _
  have notSemicolon : lone.holds state frame (.is .semicolon) = false := by
    simp [Setup.holds, Look.is, stuck.pos_eq, lone_here]
  obtain ⟨after, called, stuckAfter⟩ := lone_typeDecl (stuck.having .none)
  have replied : lone.Replies .typeDecl { state with furthest := .none } ⟨none, after⟩ :=
    called ▸ (lone.callWith_ends ordered lone.budget).replies .typeDecl _
      (stuck.having .none).toPlaced (lone.need_le_budget _ _) (by simp)
  have given : lone.recovered (fun _ => ⟨none, after⟩) state =
      ⟨none, { after with furthest := state.furthest.merge after.furthest }⟩ :=
    lone.recovered_of_given rfl (.inl stuckAfter.trying)
  have attempted : ∀ {outcome}, lone.Ends (.recover .typeDecl) state frame outcome →
      outcome = ⟨.failed, { after with furthest := state.furthest.merge after.furthest },
        frame⟩ := by
    intro outcome ends
    cases ends with
    | step plain => cases plain
    | recover replies =>
        rw [replies.unique replied, given]
        rfl
  cases ends.of_fails notSemicolon with
  | step plain => cases plain
  | orElse ends succeeds =>
      rw [attempted ends] at succeeds
      exact absurd rfl succeeds
  | otherwise ends rest =>
      cases attempted ends
      cases rest
      exact ⟨rfl, stuckAfter.having _⟩

/-- In front of a name the trial of a unit has no reply: the declaration that is not
there is looked for again and again. -/
theorem Setup.not_replies_unit :
    ¬ ∃ reply, lone.Replies .compilationUnit { lone.initial with speculating := 1 } reply := by
  rintro ⟨reply, replies⟩
  have stuck : State.Stuck { lone.initial with speculating := 1 } :=
    ⟨⟨Nat.zero_le _, Memo.All.empty⟩, rfl, rfl, by decide, rfl⟩
  generalize { lone.initial with speculating := 1 } = state at replies stuck
  have shut : ∀ kind, kind ≠ .ident → ∀ frame, lone.holds state frame (.is kind) = false := by
    intro kind other frame
    simp [Setup.holds, Look.is, stuck.pos_eq, lone_here, other.symm]
  cases replies with
  | settled settled =>
      have nothing := settled fun state => ⟨none, state⟩
      have something := settled fun state => ⟨some [], state⟩
      cases nothing.trans something.symm
  | body asked ends =>
      cases congrArg Reply.state (asked fun state => ⟨none, state⟩)
      cases ends with
      | step plain => cases plain
      | cover ends =>
        have rounds := ends.behind fun outcome package => by
          have idle := (package.of_fails (shut _ (by decide) _)).of_fails (shut _ (by decide) _)
          cases idle
          rfl
        have types := rounds.behind fun outcome imports => by
          cases imports with
          | step plain => cases plain
          | loop goesOn => simp [Setup.holds, shut] at goesOn
          | loopEnds => rfl
        have goesOn : ∀ (state : State) (frame : Frame), state.Stuck →
            lone.holds state frame (.and (.not (.is .eof)) (.not .abandoned)) = true := by
          intro state frame stuck
          simp [Setup.holds, Look.is, stuck.pos_eq, stuck.running, lone_here]
        exact types.not_loop goesOn (fun _ _ _ => lone_round) stuck

end JavaFront.Parser

namespace JavaFront.Source

open JavaFront.Parser

/-- A call of any rule, at any place of a text and with whatever was found out
before, ends and moves the cursor forward. Lists of modifiers may be empty, and so
may the heads that are looked for behind them; any other rule moves on if anything
comes of it, and with recovery something always does in front of the end. A unit
moves on in front of the end, outside of trials and unless the parse is abandoned,
and only a trial of it need not end. No budget is used up, be it for the nesting of
calls, for the rounds of loops or for the two searches through the tokens. -/
theorem call_advances (source : Source) (options : Options) (rule : Rule) (state : State)
    (inside : state.pos ≤ (Stream.ofSource source).last)
    (reached : MemoReached (Stream.ofSource source) state.memo) :
    let setup := Setup.ofSource source options
    let reply := setup.call rule state
    let recovered := setup.recovered (setup.call rule) state
    (state.pos ≤ reply.state.pos ∧ reply.state.pos ≤ setup.stream.last) ∧
      (rule ∉ [.modifiers, .variableModifiers, .wildcardHead, .localClassHead, .packageHead] →
        (reply.parts?.isSome = true →
          (rule = .compilationUnit → setup.stream.kind state.pos ≠ .eof ∧
            ¬ 0 < state.speculating ∧ reply.state.fatal = none) →
          state.pos < reply.state.pos) ∧
        (¬ 0 < state.speculating → setup.stream.kind state.pos ≠ .eof →
          recovered.state.fatal = none →
          recovered.parts?.isSome = true ∧ state.pos < recovered.state.pos)) ∧
      ((0 < state.speculating → rule ≠ .compilationUnit) → setup.Replies rule state reply) ∧
      (∀ more, setup.resume state.pos (setup.stream.size - state.pos + more) 0 state.pos =
        setup.resume state.pos (setup.stream.size - state.pos) 0 state.pos) ∧
      ∀ more, setup.genericNameAt (setup.stream.size - state.pos + more) state.pos =
        setup.genericNameAt (setup.stream.size - state.pos) state.pos := by
  intro setup reply recovered
  have ordered : setup.stream.Ordered := Stream.ofSource_ordered source
  have placed : state.Placed setup.stream := ⟨inside, reached.ahead ordered⟩
  have tidy : state.Tidy setup.stream := ⟨inside, reached.accounts ordered⟩
  have advances := setup.callWith_advances ordered setup.budget rule
  have forward := advances.reaches state placed
  refine ⟨⟨forward.le, forward.placed.inside⟩, ?_, ?_, ?_, ?_⟩
  · intro proper
    by_cases isUnit : rule = .compilationUnit
    · subst isUnit
      constructor
      · intro _ only
        obtain ⟨notEnd, notTrying, running⟩ := only rfl
        have read : reply.state.pos = setup.stream.last :=
          Setup.call_unit_pos ordered tidy (by simpa [State.trying] using notTrying) running
        exact read ▸ ordered.lt_last notEnd
      · intro notTrying notEnd running
        obtain ⟨success, read⟩ :=
          Setup.recovered_unit ordered tidy (by simpa [State.trying] using notTrying) running
        exact ⟨success, read ▸ ordered.lt_last notEnd⟩
    · have consumes : rule.consumes = true := by
        cases rule <;> first | rfl | exact absurd rfl isUnit | simp at proper
      refine ⟨fun success _ => advances.lt state placed success consumes, ?_⟩
      intro notTrying notEnd running
      have success : recovered.parts?.isSome = true := by
        by_contra failed
        have trying : state.trying = true :=
          trying_of_recovered (setup.keeps_callWith setup.budget rule)
            (Option.not_isSome_iff_eq_none.mp failed) running
        exact notTrying (by simpa [State.trying] using trying)
      exact ⟨success,
        advances.lt_recovered ordered placed (ordered.lt_last notEnd) consumes success⟩
  · intro notUnit
    exact (setup.callWith_ends ordered setup.budget).replies rule state placed
      (setup.need_le_budget rule state.pos) fun trying =>
        notUnit (by simpa [State.trying] using trying)
  · exact fun more =>
      setup.resume_enough ordered _ _ _ _ inside (Nat.le_add_right _ _) (Nat.le_refl _)
  · exact fun more => setup.genericNameAt_enough ordered _ _ (Nat.le_add_right _ _) (Nat.le_refl _)

/-- A statement that lacks its semicolon. -/
def unfinished : Setup :=
  .ofSource (of [] "(a<b>)c<d x; y();") {}

/-- The state behind a trial that fills the memo table. -/
def unfinishedTried : State :=
  (trial (unfinished.callWith unfinished.budget .castHead) unfinished.initial).2

/-- The statement fails where the table leads it, and with recovery it is
skipped. -/
theorem call_advances_unfinished :
    unfinishedTried.memo.size = 4 ∧ unfinishedTried.pos ≤ unfinished.stream.last ∧
      MemoReached unfinished.stream unfinishedTried.memo ∧
      (unfinished.call .blockStatement unfinishedTried).parts? = none ∧
      unfinished.Replies .blockStatement unfinishedTried
        (unfinished.call .blockStatement unfinishedTried) ∧
      (unfinished.recovered (unfinished.call .blockStatement) unfinishedTried).parts?.isSome =
        true ∧
      unfinishedTried.pos <
        (unfinished.recovered (unfinished.call .blockStatement) unfinishedTried).state.pos := by
  have inside : unfinishedTried.pos ≤ unfinished.stream.last := Nat.zero_le _
  have reached : MemoReached unfinished.stream unfinishedTried.memo :=
    .trial (Nat.zero_le _) .empty
  have outside : ¬ 0 < unfinishedTried.speculating := by decide +kernel
  have notEnd : unfinished.stream.kind unfinishedTried.pos ≠ .eof := by decide +kernel
  have running : (unfinished.recovered (unfinished.call .blockStatement)
      unfinishedTried).state.fatal = none := by
    decide +kernel
  have all := call_advances (of [] "(a<b>)c<d x; y();") {} .blockStatement unfinishedTried inside
    reached
  have moved := (all.2.1 (by decide)).2 outside notEnd running
  exact ⟨by decide +kernel, inside, reached, by decide +kernel,
    all.2.2.1 fun trying => absurd trying outside, moved.1, moved.2⟩

/-- Not every rule moves on, and not every call ends. Nothing is left to read in the
empty text, and a unit comes of it; the heads of wildcards, local classes and packages
are found in front of the word that they are looked for in front of; and a unit that is
tried in front of a name has no reply. -/
theorem call_stands :
    (∀ place ∈ [("", Rule.compilationUnit), ("?", .wildcardHead), ("class", .localClassHead),
        ("package", .packageHead)],
      let setup := Setup.ofSource (of [] (Bytes.ofString place.1)) {}
      let reply := setup.call place.2 setup.initial
      reply.parts?.isSome = true ∧ reply.state.pos = setup.initial.pos) ∧
    ¬ ∃ reply, (Setup.ofSource (of [] "x") {}).Replies .compilationUnit
      { (Setup.ofSource (of [] "x") {}).initial with speculating := 1 } reply := by
  exact ⟨by decide +kernel, Setup.not_replies_unit⟩

end JavaFront.Source
