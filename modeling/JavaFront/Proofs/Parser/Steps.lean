import JavaFront.Parser.Machine

/-!
# Phrases and the outcomes of their parts

One equation for each phrase that has parts: what it makes of their outcomes.
The state behind a phrase that only finishes what another one filled is the
state behind that one.
-/

namespace JavaFront.Parser

/-- The parts that a rule leaves go into the frame of its caller. -/
def Reply.into (reply : Reply) (frame : Frame) : Outcome :=
  match reply.parts? with
  | some parts => ⟨.ok, reply.state, frame.pushAll parts⟩
  | none => ⟨.failed, reply.state, frame⟩

theorem Reply.into_state (reply : Reply) (frame : Frame) :
    (reply.into frame).state = reply.state := by
  simp only [into]
  split <;> rfl

theorem Reply.failed_of_into {reply : Reply} {frame : Frame}
    (failed : (reply.into frame).verdict = .failed) : reply.parts? = none := by
  simp only [into] at failed
  split at failed
  · cases failed
  · assumption

/-- What a rule leaves whose body has ended like that. -/
def Outcome.reply (outcome : Outcome) : Reply :=
  match outcome.verdict with
  | .failed => ⟨none, outcome.state⟩
  | _ => ⟨some outcome.frame.parts, outcome.state⟩

theorem Outcome.reply_state (outcome : Outcome) : outcome.reply.state = outcome.state := by
  simp only [reply]
  split <;> rfl

/-- Adds the node of a text as a whole to the caller's frame, unless the phrase
that filled it gave up. -/
def Setup.covered (setup : Setup) (outcome : Outcome) (frame : Frame) : Outcome :=
  match outcome.verdict with
  | .failed => ⟨.failed, outcome.state, frame⟩
  | _ => ⟨.ok, outcome.state,
      frame.push (outcome.frame.toNode (setup.stream.get setup.stream.last).span.stop)⟩

/-- Attaches a documentation comment to what a phrase that succeeded read
last. -/
def Outcome.documented (outcome : Outcome) (doc : Option Token) : Outcome :=
  match outcome with
  | ⟨.ok, state, frame⟩ => ⟨.ok, state, frame.document doc⟩
  | outcome => outcome

theorem Outcome.documented_state (outcome : Outcome) (doc : Option Token) :
    (outcome.documented doc).state = outcome.state := by
  rcases outcome with ⟨_ | _ | _, state, frame⟩ <;> rfl

theorem Outcome.documented_verdict (outcome : Outcome) (doc : Option Token) :
    (outcome.documented doc).verdict = outcome.verdict := by
  rcases outcome with ⟨_ | _ | _, state, frame⟩ <;> rfl

namespace Setup

variable (setup : Setup)

theorem enclose_state (outer : Frame) (outcome : Outcome) (kept : Frame) :
    (setup.enclose outer outcome kept).state = outcome.state := by
  simp only [enclose]
  split <;> rfl

theorem covered_state (outcome : Outcome) (frame : Frame) :
    (setup.covered outcome frame).state = outcome.state := by
  simp only [covered]
  split <;> rfl

variable (call : Caller)

theorem run_cover (kind : Node.Kind) (body : Phrase) (state : State) (frame : Frame) :
    setup.run call (.cover kind body) state frame =
      setup.covered (setup.run call body state { kind, start := .origin }) frame :=
  rfl

theorem run_documented (body : Phrase) (state : State) (frame : Frame) :
    setup.run call (.documented body) state frame =
      (setup.run call body state frame).documented (setup.stream.docBefore? state.pos) :=
  rfl

theorem run_call (rule : Rule) (state : State) (frame : Frame) :
    setup.run call (.call rule) state frame = (call rule state).into frame := by
  simp only [run]
  rcases call rule state with ⟨parts?, after⟩
  cases parts? <;> rfl

theorem run_recover (rule : Rule) (state : State) (frame : Frame) :
    setup.run call (.recover rule) state frame =
      (setup.recovered (call rule) state).into frame := by
  simp only [run]
  rcases setup.recovered (call rule) state with ⟨parts?, after⟩
  cases parts? <;> rfl

/-- The second of two phrases runs where the first has succeeded. -/
theorem run_seq (first second : Phrase) (state : State) (frame : Frame) :
    setup.run call (.seq first second) state frame =
      if (setup.run call first state frame).verdict = .ok then
        setup.run call second (setup.run call first state frame).state
          (setup.run call first state frame).frame
      else setup.run call first state frame := by
  simp only [run]
  rcases setup.run call first state frame with ⟨verdict, after, filled⟩
  cases verdict <;> rfl

/-- The second of two alternatives runs where the first has given up. -/
theorem run_orElse (first second : Phrase) (state : State) (frame : Frame) :
    setup.run call (.orElse first second) state frame =
      if (setup.run call first state frame).verdict = .failed then
        setup.run call second (setup.run call first state frame).state
          (setup.run call first state frame).frame
      else setup.run call first state frame := by
  simp only [run]
  rcases setup.run call first state frame with ⟨verdict, after, filled⟩
  cases verdict <;> rfl

/-- A parse that goes on has nothing to salvage. -/
theorem run_orElse_salvage {first : Phrase} {state : State} {frame : Frame}
    (running : (setup.run call first state frame).state.fatal = none) :
    setup.run call (.orElse first .salvage) state frame = setup.run call first state frame := by
  rw [run_orElse]
  generalize setup.run call first state frame = outcome at running ⊢
  obtain ⟨verdict, after, filled⟩ := outcome
  cases verdict with
  | failed =>
      have before : after.fatal = none := running
      simp only [run, salvage, before, if_true]
  | ok | ended => rfl

/-- A branch runs what its look chooses. -/
theorem run_branch (look : Look) (yes no : Phrase) (state : State) (frame : Frame) :
    setup.run call (.branch look yes no) state frame =
      setup.run call (if setup.holds state frame look then yes else no) state frame := by
  simp only [run]
  split <;> rfl

/-- A trial runs what its rule chooses, back where it started. -/
theorem run_trial (rule : Rule) (yes no : Phrase) (state : State) (frame : Frame) :
    setup.run call (.trial rule yes no) state frame =
      setup.run call (if (trial (call rule) state).1 then yes else no) (trial (call rule) state).2
        frame := by
  simp only [run]
  rcases trial (call rule) state with ⟨success, after⟩
  cases success <;> rfl

/-- Reads a phrase on a frame of its own, as the body of a rule is read. -/
def reads (phrase : Phrase) (state : State) : Reply :=
  (setup.run call phrase state (setup.frame state .error)).reply

theorem reads_state (phrase : Phrase) (state : State) :
    (setup.reads call phrase state).state =
      (setup.run call phrase state (setup.frame state .error)).state :=
  Outcome.reply_state _

/-- A rule is read by the phrase that does nothing but call it. -/
theorem reads_call (rule : Rule) : setup.reads call (.call rule) = call rule := by
  funext state
  rw [reads, run_call]
  rcases call rule state with ⟨- | parts, after⟩
  · rfl
  · exact congrArg (fun parts => Reply.mk (some parts) after) (List.append_nil parts)

theorem runBody_eq (rule : Rule) (state : State) :
    setup.runBody call rule state =
      (setup.run call rule.body state (setup.frame state .error)).reply :=
  rfl

theorem runBody_state (rule : Rule) (state : State) :
    (setup.runBody call rule state).state =
      (setup.run call rule.body state (setup.frame state .error)).state :=
  Outcome.reply_state _

/-- The parts of a rule are those that its body has left. -/
theorem runBody_of_some {rule : Rule} {state : State} {parts : List Node}
    (built : (setup.runBody call rule state).parts? = some parts) :
    (setup.run call rule.body state (setup.frame state .error)).verdict ≠ .failed ∧
      (setup.run call rule.body state (setup.frame state .error)).frame.parts = parts := by
  rw [runBody_eq] at built
  generalize setup.run call rule.body state (setup.frame state .error) = outcome at built ⊢
  obtain ⟨verdict, after, filled⟩ := outcome
  cases verdict with
  | failed => cases built
  | ok | ended =>
      cases built
      exact ⟨by simp, rfl⟩

end Setup

end JavaFront.Parser
