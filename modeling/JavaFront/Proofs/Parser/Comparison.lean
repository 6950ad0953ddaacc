import JavaFront.Proofs.Parser.Persistence

/-!
# Two runs side by side

Two parses run the same phrases, each in a setting of its own. As long as they
keep together, their states and their frames are alike; once they have parted,
only what is left of that is followed. What alike means is open: it is enough
that every single step of the two runs keeps to it.
-/

namespace JavaFront.Parser

/-- What it means for two runs to keep together, and what remains of it once
they have parted. -/
structure Likeness where
  states : State → State → Prop
  frames : Frame → Frame → Prop
  parts : List Node → List Node → Prop
  parted : State → State → Prop

namespace Likeness

/-- Two phrases have kept together or they have parted. -/
def Outcomes (like : Likeness) (first second : Outcome) : Prop :=
  (first.verdict = second.verdict ∧ like.states first.state second.state ∧
    like.frames first.frame second.frame) ∨
  like.parted first.state second.state

/-- Two trials have kept together or they have parted. -/
def Trials (like : Likeness) (first second : Bool × State) : Prop :=
  (first.1 = second.1 ∧ like.states first.2 second.2) ∨ like.parted first.2 second.2

/-- Two optional lists of parts are alike. -/
inductive Options (like : Likeness) : Option (List Node) → Option (List Node) → Prop
  | none : Options like none none
  | some {parts others} : like.parts parts others → Options like (some parts) (some others)

/-- Two rules have kept together or they have parted. -/
def Replies (like : Likeness) (first second : Reply) : Prop :=
  (like.Options first.parts? second.parts? ∧ like.states first.state second.state) ∨
  like.parted first.state second.state

/-- Two frames have parts that are alike: both none, or a latest part each that
may be taken into another frame. -/
inductive Latest (like : Likeness) (frame other : Frame) : Prop
  | none : frame.parts = [] → other.parts = [] → Latest like frame other
  | some (latest others twin twins) : frame.parts = latest :: others → other.parts = twin :: twins →
      like.frames { frame with parts := others } { other with parts := twins } →
      (∀ kind, like.frames { kind, start := latest.span.start, parts := [latest] }
        { kind, start := twin.span.start, parts := [twin] }) →
      (∀ kind, like.frames { kind, start := latest.span.start, parts := latest.children.reverse }
        { kind, start := twin.span.start, parts := twin.children.reverse }) →
      Latest like frame other

/-- The single steps of two runs keep together. -/
structure Steps (like : Likeness) (left right : Setup) : Prop where
  rounds : ∀ {state twin}, like.states state twin →
    left.stream.size - state.pos = right.stream.size - twin.pos
  kind : ∀ {state twin}, like.states state twin →
    left.stream.kind state.pos = right.stream.kind twin.pos
  holds : ∀ look {state twin frame other}, like.states state twin → like.frames frame other →
    left.holds state frame look = right.holds twin other look
  advance : ∀ {state twin}, like.states state twin →
    like.states (left.advance state) (right.advance twin)
  operator : ∀ {state twin}, like.states state twin →
    like.states { state with pos := left.stream.afterOperator state.pos }
      { twin with pos := right.stream.afterOperator twin.pos }
  failAll : ∀ texts {state twin}, like.states state twin →
    like.states (state.failAll texts) (twin.failAll texts)
  close : ∀ kind {state twin frame other}, like.states state twin → like.frames frame other →
    like.Outcomes (left.close kind state frame) (right.close kind twin other)
  salvage : ∀ {state twin frame other}, like.states state twin → like.frames frame other →
    like.Outcomes (left.salvage state frame) (right.salvage twin other)
  opened : ∀ kind {state twin}, like.states state twin →
    like.frames (left.frame state kind) (right.frame twin kind)
  origin : ∀ kind, like.frames { kind, start := .origin } { kind, start := .origin }
  leaf : ∀ kind {state twin frame other}, like.states state twin → like.frames frame other →
    like.frames (frame.push (.leaf kind (left.current state)))
      (other.push (.leaf kind (right.current twin)))
  operatorLeaf : ∀ {state twin frame other}, like.states state twin → like.frames frame other →
    like.frames (frame.push (.leaf .operator (left.stream.operatorToken state.pos)))
      (other.push (.leaf .operator (right.stream.operatorToken twin.pos)))
  mark : ∀ {state twin frame other}, like.states state twin → like.frames frame other →
    like.frames { frame with token := some (left.current state) }
      { other with token := some (right.current twin) }
  rekind : ∀ (kind : Node.Kind) {frame other}, like.frames frame other →
    like.frames { frame with kind } { other with kind }
  finish : ∀ {state twin frame other inner filled}, like.states state twin →
    like.frames frame other → like.frames inner filled →
    like.frames (frame.push (left.finish state inner)) (other.push (right.finish twin filled))
  cover : ∀ {frame other inner filled}, like.frames frame other → like.frames inner filled →
    like.frames (frame.push (inner.toNode (left.stream.get left.stream.last).span.stop))
      (other.push (filled.toNode (right.stream.get right.stream.last).span.stop))
  latest : ∀ {frame other}, like.frames frame other → like.Latest frame other
  parts : ∀ {frame other}, like.frames frame other → like.parts frame.parts other.parts
  pushAll : ∀ {frame other parts others}, like.frames frame other → like.parts parts others →
    like.frames (frame.pushAll parts) (other.pushAll others)
  document : ∀ {state twin frame other}, like.states state twin → like.frames frame other →
    like.frames (frame.document (left.stream.docBefore? state.pos))
      (other.document (right.stream.docBefore? twin.pos))

/-- Runs at the same index of the same stream that look the same build the same
frames. -/
theorem Steps.ofSame {left right : Setup} {states parted : State → State → Prop}
    (sameStream : left.stream = right.stream)
    (samePos : ∀ {state twin}, states state twin → state.pos = twin.pos)
    (holds : ∀ look {state twin} frame, states state twin →
      left.holds state frame look = right.holds twin frame look)
    (moves : ∀ {state twin}, states state twin → ∀ pos,
      states { state with pos } { twin with pos })
    (failAll : ∀ texts {state twin}, states state twin →
      states (state.failAll texts) (twin.failAll texts))
    (close : ∀ kind {state twin} frame, states state twin →
      (⟨states, Eq, Eq, parted⟩ : Likeness).Outcomes (left.close kind state frame)
        (right.close kind twin frame))
    (salvage : ∀ {state twin} frame, states state twin →
      (⟨states, Eq, Eq, parted⟩ : Likeness).Outcomes (left.salvage state frame)
        (right.salvage twin frame)) :
    (⟨states, Eq, Eq, parted⟩ : Likeness).Steps left right where
  rounds := fun {_ _} alike => by rw [sameStream, samePos alike]
  kind := fun {_ _} alike => by rw [sameStream, samePos alike]
  holds := by rintro look _ _ frame _ alike rfl; exact holds look frame alike
  advance := fun {_ _} alike => by
    simp only [Setup.advance, sameStream, samePos alike]
    exact moves alike _
  operator := fun {_ _} alike => by
    simp only [sameStream, samePos alike]
    exact moves alike _
  failAll := failAll
  close := by rintro kind _ _ frame _ alike rfl; exact close kind frame alike
  salvage := by rintro _ _ frame _ alike rfl; exact salvage frame alike
  opened := fun _ {_ _} alike => by simp only [Setup.frame, sameStream, samePos alike]
  origin _ := rfl
  leaf := by rintro kind _ _ frame _ alike rfl; rw [Setup.current, sameStream, samePos alike]; rfl
  operatorLeaf := by rintro _ _ frame _ alike rfl; simp only [sameStream, samePos alike]
  mark := by rintro _ _ frame _ alike rfl; rw [Setup.current, sameStream, samePos alike]; rfl
  rekind := by rintro kind frame _ rfl; rfl
  finish := by
    rintro _ _ frame _ inner _ alike rfl rfl
    simp only [Setup.finish, Setup.stopFrom, sameStream, samePos alike]
  cover := by rintro frame _ inner _ rfl rfl; rw [sameStream]
  latest := by
    rintro frame _ rfl
    cases parts : frame.parts with
    | nil => exact .none parts parts
    | cons latest others =>
        exact .some latest others latest others parts parts rfl (fun _ => rfl) (fun _ => rfl)
  parts := by rintro frame _ rfl; rfl
  pushAll := by rintro frame _ parts _ rfl rfl; rfl
  document := by rintro _ _ frame _ alike rfl; rw [sameStream, samePos alike]

/-- The calls of two runs keep together. Runs that have parted stay apart,
however either of them goes on. -/
structure Calls (like : Likeness) (left right : Setup) (call twinCall : Caller) : Prop where
  calls : ∀ rule {state twin}, like.states state twin →
    like.Replies (call rule state) (twinCall rule twin)
  trials : ∀ rule {state twin}, like.states state twin →
    like.Trials (trial (call rule) state) (trial (twinCall rule) twin)
  recovers : ∀ rule {state twin}, like.states state twin →
    like.Replies (left.recovered (call rule) state) (right.recovered (twinCall rule) twin)
  leftStays : ∀ phrase {state twin} frame, like.parted state twin →
    like.parted (left.run call phrase state frame).state twin
  rightStays : ∀ phrase {state twin} frame, like.parted state twin →
    like.parted state (right.run twinCall phrase twin frame).state

section Phrases

variable {like : Likeness} {left right : Setup} {call twinCall : Caller} {state twin : State}
  {frame other : Frame}

theorem Outcomes.alike {verdict : Verdict} (states : like.states state twin)
    (frames : like.frames frame other) :
    like.Outcomes ⟨verdict, state, frame⟩ ⟨verdict, twin, other⟩ :=
  .inl ⟨rfl, states, frames⟩

/-- What encloses two phrases keeps together as they do. -/
theorem Outcomes.enclose (steps : like.Steps left right) {outcome twinOutcome : Outcome}
    {outer twinOuter : Frame} (outcomes : like.Outcomes outcome twinOutcome)
    (outers : like.frames outer twinOuter) (frames : like.frames frame other) :
    like.Outcomes (left.enclose outer outcome frame)
      (right.enclose twinOuter twinOutcome other) := by
  rcases outcomes with ⟨same, states, inner⟩ | parted
  · obtain ⟨verdict, after, filled⟩ := outcome
    obtain ⟨_, twinAfter, twinFilled⟩ := twinOutcome
    cases same
    cases verdict with
    | failed => exact .alike states frames
    | ok | ended => exact .alike states (steps.finish states outers inner)
  · right
    rwa [Setup.enclose_state, Setup.enclose_state]

theorem Outcomes.covered (steps : like.Steps left right) {outcome twinOutcome : Outcome}
    (outcomes : like.Outcomes outcome twinOutcome) (frames : like.frames frame other) :
    like.Outcomes (left.covered outcome frame) (right.covered twinOutcome other) := by
  rcases outcomes with ⟨same, states, inner⟩ | parted
  · obtain ⟨verdict, after, filled⟩ := outcome
    obtain ⟨_, twinAfter, twinFilled⟩ := twinOutcome
    cases same
    cases verdict with
    | failed => exact .alike states frames
    | ok | ended => exact .alike states (steps.cover frames inner)
  · right
    rwa [Setup.covered_state, Setup.covered_state]

theorem Outcomes.documented (steps : like.Steps left right) {outcome twinOutcome : Outcome}
    (outcomes : like.Outcomes outcome twinOutcome) (states : like.states state twin) :
    like.Outcomes (outcome.documented (left.stream.docBefore? state.pos))
      (twinOutcome.documented (right.stream.docBefore? twin.pos)) := by
  rcases outcomes with ⟨same, later, inner⟩ | parted
  · obtain ⟨verdict, after, filled⟩ := outcome
    obtain ⟨_, twinAfter, twinFilled⟩ := twinOutcome
    cases same
    cases verdict with
    | ok => exact .alike later (steps.document states inner)
    | failed | ended => exact .alike later inner
  · right
    rwa [Outcome.documented_state, Outcome.documented_state]

/-- Runs that have parted stay apart if either of them goes on with a phrase. -/
theorem Calls.stays (calls : like.Calls left right call twinCall) (phrase : Phrase)
    (goesOn : Verdict) {outcome twinOutcome : Outcome}
    (parted : like.parted outcome.state twinOutcome.state) :
    like.parted
      (if outcome.verdict = goesOn then left.run call phrase outcome.state outcome.frame
        else outcome).state
      (if twinOutcome.verdict = goesOn then
          right.run twinCall phrase twinOutcome.state twinOutcome.frame
        else twinOutcome).state := by
  have leftParted : like.parted (if outcome.verdict = goesOn then
      left.run call phrase outcome.state outcome.frame else outcome).state twinOutcome.state := by
    split
    · exact calls.leftStays phrase _ parted
    · exact parted
  generalize (if outcome.verdict = goesOn then _ else _) = ahead at leftParted ⊢
  split
  · exact calls.rightStays phrase _ leftParted
  · exact leftParted

/-- Behind two phrases that kept together others do, if they run on the same
verdict. -/
theorem Calls.next (calls : like.Calls left right call twinCall) (phrase : Phrase)
    (goesOn : Verdict) {outcome twinOutcome : Outcome}
    (outcomes : like.Outcomes outcome twinOutcome)
    (next : like.states outcome.state twinOutcome.state →
      like.frames outcome.frame twinOutcome.frame →
      like.Outcomes (left.run call phrase outcome.state outcome.frame)
        (right.run twinCall phrase twinOutcome.state twinOutcome.frame)) :
    like.Outcomes
      (if outcome.verdict = goesOn then left.run call phrase outcome.state outcome.frame
        else outcome)
      (if twinOutcome.verdict = goesOn then
          right.run twinCall phrase twinOutcome.state twinOutcome.frame
        else twinOutcome) := by
  rcases outcomes with ⟨same, states, frames⟩ | parted
  · rw [← same]
    split
    · exact next states frames
    · exact .inl ⟨same, states, frames⟩
  · exact .inr (calls.stays phrase goesOn parted)

theorem Replies.into (steps : like.Steps left right) {reply twinReply : Reply}
    (replies : like.Replies reply twinReply) (frames : like.frames frame other) :
    like.Outcomes (reply.into frame) (twinReply.into other) := by
  obtain ⟨parts?, after⟩ := reply
  obtain ⟨twins?, twinAfter⟩ := twinReply
  rcases replies with ⟨alike, states⟩ | parted
  · cases alike with
    | none => exact .alike states frames
    | some parts => exact .alike states (steps.pushAll frames parts)
  · right
    cases parts? <;> cases twins? <;> exact parted

theorem Calls.leftLoop (calls : like.Calls left right call twinCall) (look : Look) (body : Phrase)
    (budget : Nat) (frame : Frame) (parted : like.parted state twin) :
    like.parted (repeatWhile (fun state frame => left.holds state frame look)
      (fun state frame => left.run call body state frame) budget state frame).state twin := by
  let relation (before after : State) : Prop := like.parted before twin → like.parted after twin
  exact @Setup.repeatWhile_relates relation (fun _ => id) (fun before behind => behind ∘ before)
    _ _ (fun _ frame => calls.leftStays body frame) budget state frame parted

theorem Calls.rightLoop (calls : like.Calls left right call twinCall) (look : Look) (body : Phrase)
    (budget : Nat) (frame : Frame) (parted : like.parted state twin) :
    like.parted state (repeatWhile (fun state frame => right.holds state frame look)
      (fun state frame => right.run twinCall body state frame) budget twin frame).state := by
  let relation (before after : State) : Prop := like.parted state before → like.parted state after
  exact @Setup.repeatWhile_relates relation (fun _ => id) (fun before behind => behind ∘ before)
    _ _ (fun _ frame => calls.rightStays body frame) budget twin frame parted

/-- Loops keep together as their rounds do. -/
theorem Calls.repeatWhile (steps : like.Steps left right)
    (calls : like.Calls left right call twinCall) {look : Look} {body : Phrase}
    (round : ∀ {state twin frame other}, like.states state twin → like.frames frame other →
      like.Outcomes (left.run call body state frame) (right.run twinCall body twin other))
    (budget : Nat) {state twin : State} {frame other : Frame} (states : like.states state twin)
    (frames : like.frames frame other) :
    like.Outcomes
      (repeatWhile (fun state frame => left.holds state frame look)
        (fun state frame => left.run call body state frame) budget state frame)
      (repeatWhile (fun state frame => right.holds state frame look)
        (fun state frame => right.run twinCall body state frame) budget twin other) := by
  induction budget generalizing state twin frame other with
  | zero => exact .alike states frames
  | succ budget ih =>
      simp only [Parser.repeatWhile, steps.holds look states frames]
      split
      · have once := round states frames
        generalize left.run call body state frame = outcome at once ⊢
        generalize right.run twinCall body twin other = twinOutcome at once ⊢
        obtain ⟨verdict, after, filled⟩ := outcome
        obtain ⟨twinVerdict, twinAfter, twinFilled⟩ := twinOutcome
        rcases once with ⟨same, states, frames⟩ | parted
        · cases same
          cases verdict with
          | ok => exact ih states frames
          | failed | ended => exact .alike states frames
        · right
          have leftParted := calls.leftLoop look body budget filled parted
          cases verdict <;> cases twinVerdict
          all_goals first
            | exact parted
            | exact leftParted
            | exact calls.rightLoop look body budget twinFilled parted
            | exact calls.rightLoop look body budget twinFilled leftParted
      · exact .alike states frames

/-- Two runs of a phrase keep together or part. -/
theorem Calls.run (steps : like.Steps left right) (calls : like.Calls left right call twinCall)
    (phrase : Phrase) {state twin : State} {frame other : Frame} (states : like.states state twin)
    (frames : like.frames frame other) :
    like.Outcomes (left.run call phrase state frame) (right.run twinCall phrase twin other) := by
  induction phrase generalizing state twin frame other with
  | done | stop => exact .alike states frames
  | expected texts => exact .alike (steps.failAll texts states) frames
  | rekind kind => exact .alike states (steps.rekind kind frames)
  | seq first second firstIh secondIh =>
      rw [Setup.run_seq, Setup.run_seq]
      exact calls.next second .ok (firstIh states frames) secondIh
  | token kind =>
      simp only [Setup.run, steps.kind states]
      split
      · exact .alike (steps.advance states) frames
      · exact .alike (steps.failAll [kind.describe] states) frames
  | leaf node kind =>
      simp only [Setup.run, steps.kind states]
      split
      · exact .alike (steps.advance states) (steps.leaf node states frames)
      · exact .alike (steps.failAll [kind.describe] states) frames
  | pick node accept =>
      simp only [Setup.run, steps.kind states]
      split
      · exact .alike (steps.advance states) (steps.leaf node states frames)
      · exact .alike states frames
  | mark accept =>
      simp only [Setup.run, steps.kind states]
      split
      · exact .alike (steps.advance states) (steps.mark states frames)
      · exact .alike states frames
  | operator => exact .alike (steps.operator states) (steps.operatorLeaf states frames)
  | node kind body ih => exact (ih states (steps.opened kind states)).enclose steps frames frames
  | wrap kind body ih =>
      simp only [Setup.run]
      cases steps.latest frames with
      | none empty twinEmpty =>
          rw [empty, twinEmpty]
          exact .alike states frames
      | some latest others twinLatest twins parts twinParts rest wrapped reopened =>
          rw [parts, twinParts]
          exact (ih states (wrapped kind)).enclose steps rest frames
  | reopen kind body ih =>
      simp only [Setup.run]
      cases steps.latest frames with
      | none empty twinEmpty =>
          rw [empty, twinEmpty]
          exact .alike states frames
      | some latest others twinLatest twins parts twinParts rest wrapped reopened =>
          rw [parts, twinParts]
          exact (ih states (reopened kind)).enclose steps rest frames
  | cover kind body ih =>
      rw [Setup.run_cover, Setup.run_cover]
      exact (ih states (steps.origin kind)).covered steps frames
  | branch look yes no yesIh noIh =>
      rw [Setup.run_branch, Setup.run_branch, steps.holds look states frames]
      split
      · exact yesIh states frames
      · exact noIh states frames
  | trial rule yes no yesIh noIh =>
      have tried := calls.trials rule states
      rw [Setup.run_trial, Setup.run_trial]
      generalize trial (call rule) state = attempt at tried ⊢
      generalize trial (twinCall rule) twin = twinAttempt at tried ⊢
      rcases tried with ⟨same, states⟩ | parted
      · rw [same]
        split
        · exact yesIh states frames
        · exact noIh states frames
      · exact .inr (calls.rightStays _ _ (calls.leftStays _ _ parted))
  | call rule =>
      rw [Setup.run_call, Setup.run_call]
      exact (calls.calls rule states).into steps frames
  | recover rule =>
      rw [Setup.run_recover, Setup.run_recover]
      exact (calls.recovers rule states).into steps frames
  | orElse first second firstIh secondIh =>
      rw [Setup.run_orElse, Setup.run_orElse]
      exact calls.next second .failed (firstIh states frames) secondIh
  | loop look body ih =>
      simp only [Setup.run, steps.rounds states]
      exact calls.repeatWhile steps ih _ states frames
  | documented body ih =>
      rw [Setup.run_documented, Setup.run_documented]
      exact (ih states frames).documented steps states
  | closing kind => exact steps.close kind states frames
  | salvage => exact steps.salvage states frames

/-- Two runs of the body of a rule keep together or part. -/
theorem Calls.runBody (steps : like.Steps left right) (calls : like.Calls left right call twinCall)
    (rule : Rule) {state twin : State} (states : like.states state twin) :
    like.Replies (left.runBody call rule state) (right.runBody twinCall rule twin) := by
  have inner := calls.run steps rule.body states (steps.opened .error states)
  simp only [Setup.runBody]
  generalize left.run call rule.body state _ = outcome at inner ⊢
  generalize right.run twinCall rule.body twin _ = twinOutcome at inner ⊢
  obtain ⟨verdict, after, filled⟩ := outcome
  obtain ⟨twinVerdict, twinAfter, twinFilled⟩ := twinOutcome
  rcases inner with ⟨same, later, inner⟩ | parted
  · cases same
    cases verdict with
    | failed => exact .inl ⟨.none, later⟩
    | ok | ended => exact .inl ⟨.some (steps.parts inner), later⟩
  · right
    cases verdict <;> cases twinVerdict <;> exact parted

end Phrases

end Likeness

end JavaFront.Parser
