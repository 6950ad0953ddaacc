import JavaFront.Proofs.Parser.Furthest
import JavaFront.Proofs.Parser.Pairing

/-!
# Trials do not look back

Outside of trials the furthest failure decides what is reported. A trial reports
nothing, so it never looks at the failures that were met in front of it: it runs
as if there were none and only merges what it meets into them.
-/

namespace JavaFront.Parser

/-- The state with a failure that was met in front of all others. -/
def State.behind (state : State) (failure : Failure) : State :=
  { state with furthest := failure.merge state.furthest }

@[simp]
theorem State.behind_pos (state : State) (failure : Failure) :
    (state.behind failure).pos = state.pos := rfl

@[simp]
theorem State.behind_memo (state : State) (failure : Failure) :
    (state.behind failure).memo = state.memo := rfl

/-- The reply with a failure that was met in front of all others. -/
def Reply.behind (reply : Reply) (failure : Failure) : Reply :=
  ⟨reply.parts?, reply.state.behind failure⟩

/-- A way to run a rule in trials that does not look at the failures in front of
it. -/
def Isolated (run : State → Reply) : Prop :=
  ∀ (failure : Failure) (state : State), state.trying = true →
    run (state.behind failure) = (run state).behind failure

section Rules

variable {setup : Setup} {run : State → Reply} {failure : Failure} {state : State}

theorem Setup.holds_behind (setup : Setup) (state : State) (failure : Failure) (frame : Frame)
    (look : Look) :
    setup.holds (state.behind failure) frame look = setup.holds state frame look := by
  induction look with
  | not look ih => simp only [holds, ih]
  | and first second firstIh secondIh | or first second firstIh secondIh =>
      simp only [holds, firstIh, secondIh]
  | _ => rfl

theorem State.failAll_behind (state : State) (failure : Failure) (texts : List String) :
    (state.behind failure).failAll texts = (state.failAll texts).behind failure := by
  simp only [failAll, behind, Failure.merge_recordAll]

/-- The outcome with a failure that was met in front of all others. -/
def Outcome.behind (outcome : Outcome) (failure : Failure) : Outcome :=
  { outcome with state := outcome.state.behind failure }

theorem Setup.close_behind (setup : Setup) (kind : Token.Kind) (frame : Frame)
    (trying : state.trying = true) :
    setup.close kind (state.behind failure) frame =
      (setup.close kind state frame).behind failure := by
  have positive : 0 < state.speculating := by simpa [State.trying] using trying
  by_cases found : setup.stream.kind state.pos = kind
  · have twinFound : setup.stream.kind (state.behind failure).pos = kind := found
    rw [close, if_pos twinFound, close, if_pos found]
    rfl
  · have twinMissing : setup.stream.kind (state.behind failure).pos ≠ kind := found
    rw [setup.close_of_open frame found (.inl positive),
      setup.close_of_open frame twinMissing (.inl positive)]
    exact congrArg (Outcome.mk .failed · frame) (state.failAll_behind failure [kind.describe])

theorem Setup.salvage_behind (setup : Setup) (frame : Frame) (trying : state.trying = true) :
    setup.salvage (state.behind failure) frame = (setup.salvage state frame).behind failure := by
  have positive : 0 < state.speculating := by simpa [State.trying] using trying
  have twinPositive : 0 < (state.behind failure).speculating := positive
  simp only [salvage, positive, twinPositive, if_true]
  cases fatal : state.fatal with
  | none => simp only [show (state.behind failure).fatal = none from fatal]; rfl
  | some reason => simp only [show (state.behind failure).fatal = some reason from fatal]; rfl

theorem Isolated.trial (isolated : Isolated run) (trying : state.trying = true) :
    trial run (state.behind failure) =
      ((trial run state).1, (trial run state).2.behind failure) := by
  have deeper : State.trying { state with speculating := state.speculating + 1 } = true := by
    simp only [State.trying, decide_eq_true_eq] at trying ⊢
    omega
  have same := isolated failure { state with speculating := state.speculating + 1 } deeper
  simp only [Parser.trial]
  rw [show { state.behind failure with speculating := (state.behind failure).speculating + 1 } =
    State.behind { state with speculating := state.speculating + 1 } failure from rfl, same]
  rfl

theorem Setup.abandon_behind (setup : Setup) (state : State) (failure : Failure)
    (reason : Abandonment) :
    setup.abandon (state.behind failure) reason =
      (setup.abandon state reason).behind failure := by
  by_cases stopped : state.fatal.isSome = true
  · simp only [abandon, if_pos stopped]
    exact if_pos stopped
  · simp only [abandon, if_neg stopped]
    exact if_neg stopped

/-- A guard does not look at the failures in front of it. -/
theorem Setup.enter_behind (setup : Setup) (state : State) (failure : Failure) :
    setup.enter (state.behind failure) =
      ((setup.enter state).1, (setup.enter state).2.behind failure) := by
  by_cases stopped : state.fatal.isSome = true
  · simp only [enter, if_pos stopped]
    exact if_pos stopped
  · by_cases deep : setup.options.maxDepth ≤ state.depth
    · simp only [enter, if_neg stopped, if_pos deep, ← abandon_behind]
      exact (if_neg stopped).trans (if_pos deep)
    · by_cases canceled : setup.canceledAt (state.steps + 1) = true
      · simp only [enter, if_neg stopped, if_neg deep, if_pos canceled, ← abandon_behind]
        exact (if_neg stopped).trans ((if_neg deep).trans (if_pos canceled))
      · simp only [enter, if_neg stopped, if_neg deep, if_neg canceled]
        exact (if_neg stopped).trans ((if_neg deep).trans (if_neg canceled))

theorem Setup.enter_speculating (setup : Setup) (state : State) :
    (setup.enter state).2.speculating = state.speculating := by
  simp only [enter]
  split
  · rfl
  · split
    · exact (setup.follows_abandon state _).speculating_eq
    · split
      · exact (setup.follows_abandon { state with steps := state.steps + 1 } _).speculating_eq
      · rfl

theorem Isolated.guarded (isolated : Isolated run) : Isolated (setup.guarded run) := by
  intro failure state trying
  have same := setup.enter_speculating state
  simp only [Setup.guarded, setup.enter_behind]
  generalize setup.enter state = entered at same ⊢
  obtain ⟨- | -, next⟩ := entered
  · rfl
  · have nextTrying : next.trying = true := by
      rwa [State.trying, show next.speculating = state.speculating from same]
    simp only [isolated failure next nextTrying]
    rfl

theorem Isolated.recovered (keeps : Keeps run) : Isolated (setup.recovered run) := by
  intro failure state trying
  have follows := keeps { state with furthest := .none }
  rcases found : run { state with furthest := .none } with ⟨- | parts, after⟩
  · rw [found] at follows
    have positive : 0 < after.speculating :=
      lt_of_lt_of_eq (by simpa [State.trying] using trying) follows.speculating_eq.symm
    have twinFound : run { state.behind failure with furthest := .none } = ⟨none, after⟩ := found
    rw [Setup.recovered_of_given found (.inl positive),
      Setup.recovered_of_given twinFound (.inl positive)]
    simp only [Reply.behind, State.behind, Failure.merge_assoc]
  · have twinFound : run { state.behind failure with furthest := .none } = ⟨some parts, after⟩ :=
      found
    rw [Setup.recovered_of_some found, Setup.recovered_of_some twinFound]
    rfl

theorem remember_behind (key : Memo.Key) (run : State → Reply) (state : State)
    (failure : Failure) :
    remember key run (state.behind failure) = (remember key run state).behind failure := by
  have same : run { state.behind failure with furthest := .none } =
      run { state with furthest := .none } := rfl
  simp only [remember, same]
  split <;> simp [Reply.behind, State.behind, Failure.merge_assoc]

theorem isolated_memoized (slot : Memo.Slot) (run : State → Reply) :
    Isolated (memoized slot run) := by
  intro failure state trying
  have positive : 0 < state.speculating := by simpa [State.trying] using trying
  have remembered := fun memo =>
    remember_behind ⟨slot, state.pos⟩ run { state with memo } failure
  simp only [memoized, State.behind_pos, State.behind_memo]
  generalize state.memo.get ⟨slot, state.pos⟩ = looked
  obtain ⟨- | ⟨- | parts, stop, furthest⟩, memo⟩ := looked
  · exact remembered memo
  · simp only [positive, if_true, Reply.behind, State.behind, Failure.merge_assoc]
  · simp only [Reply.behind, State.behind, Failure.merge_assoc]

end Rules

/-! ## Calls -/

/-- Two runs of one trial, the second one with a failure in front of all
others. -/
def behindLikeness (failure : Failure) : Likeness where
  states state twin := twin = state.behind failure ∧ state.trying = true
  frames := Eq
  parts := Eq
  parted _ _ := False

section Calls

variable {setup : Setup} {failure : Failure} {call : Caller}

theorem behindLikeness_steps (setup : Setup) (failure : Failure) :
    (behindLikeness failure).Steps setup setup := by
  refine .ofSame rfl ?_ ?_ ?_ ?_ ?_ ?_
  · rintro state _ ⟨rfl, -⟩
    rfl
  · rintro look state _ frame ⟨rfl, -⟩
    exact (setup.holds_behind state failure frame look).symm
  · rintro state _ ⟨rfl, trying⟩ pos
    exact ⟨rfl, trying⟩
  · rintro texts state _ ⟨rfl, trying⟩
    exact ⟨state.failAll_behind failure texts, trying⟩
  · rintro kind state _ frame ⟨rfl, trying⟩
    rw [setup.close_behind kind frame trying]
    exact .inl ⟨rfl, ⟨rfl, ((setup.follows_close kind state frame).trying_eq).trans trying⟩, rfl⟩
  · rintro state _ frame ⟨rfl, trying⟩
    rw [setup.salvage_behind frame trying]
    exact .inl ⟨rfl, ⟨rfl, ((setup.follows_salvage state frame).trying_eq).trans trying⟩, rfl⟩

/-- Rules that keep together leave the same behind, but for the failure in
front. -/
theorem behindLikeness_replies {reply twinReply : Reply} :
    (behindLikeness failure).Replies reply twinReply ↔
      twinReply = reply.behind failure ∧ reply.state.trying = true := by
  obtain ⟨parts?, after⟩ := reply
  obtain ⟨twinParts?, twinAfter⟩ := twinReply
  constructor
  · rintro (⟨alike, same, trying⟩ | parted)
    · cases same
      cases alike with
      | none => exact ⟨rfl, trying⟩
      | some sameParts =>
          cases sameParts
          exact ⟨rfl, trying⟩
    · exact parted.elim
  · rintro ⟨same, trying⟩
    cases same
    refine .inl ⟨?_, rfl, trying⟩
    cases parts? with
    | none => exact .none
    | some parts => exact .some rfl

/-- Calls that are isolated keep together. -/
theorem behindLikeness_calls (keeps : ∀ rule, Keeps (call rule))
    (isolated : ∀ rule, Isolated (call rule)) :
    (behindLikeness failure).Calls setup setup call call where
  calls := by
    rintro rule state _ ⟨rfl, trying⟩
    exact behindLikeness_replies.mpr ⟨isolated rule failure state trying,
      (keeps rule state).trying_eq.trans trying⟩
  trials := by
    rintro rule state _ ⟨rfl, trying⟩
    have same : trial (call rule) (state.behind failure) = _ := (isolated rule).trial trying
    exact .inl ⟨by rw [same], by rw [same],
      (Setup.follows_trial (keeps rule) state).trying_eq.trans trying⟩
  recovers := by
    rintro rule state _ ⟨rfl, trying⟩
    exact behindLikeness_replies.mpr ⟨Isolated.recovered (keeps rule) failure state trying,
      (setup.keeps_recovered (keeps rule) state).trying_eq.trans trying⟩
  leftStays := fun _ {_ _} _ => id
  rightStays := fun _ {_ _} _ => id

/-- No call inside of a trial looks at the failures in front of it. -/
theorem Setup.isolated_callWith (setup : Setup) (budget : Nat) (rule : Rule) :
    Isolated (setup.callWith budget rule) := by
  induction budget generalizing rule with
  | zero => exact fun failure state trying => rfl
  | succ budget ih =>
      have body : Isolated (setup.runBody (setup.callWith budget) rule) := by
        intro failure state trying
        have calls : (behindLikeness failure).Calls setup setup _ _ :=
          behindLikeness_calls (setup.keeps_callWith budget) ih
        exact (behindLikeness_replies.mp
          (calls.runBody (behindLikeness_steps setup failure) rule ⟨rfl, trying⟩)).1
      exact setup.runRule_induction body Isolated.guarded fun {slot run} _ _ =>
        isolated_memoized slot run

end Calls

end JavaFront.Parser
