import JavaFront.Proofs.Grammar.Recovery
import JavaFront.Proofs.Parser.Comparison
import JavaFront.Proofs.Parser.Conservation

/-!
# What runs build

`Builds` tells what a phrase may make of a stream whatever happens to the parse:
parts are read, skipped, marked as missing or cut short, and a trial may go
either way. It says more than a run does about nothing, and less about which way
a parse goes once it has been abandoned. Every run does what `Builds` says, so
what holds of everything that may be built holds of the trees of all parses.
-/

namespace JavaFront.Parser

/-- What is known about a run. Unless `cut` is set, the parse is not abandoned
in it. `room` is the number of guards that may still be entered, one inside of
the other, if that is known. -/
structure Way where
  cut : Bool
  room : Option Nat

/-- What is known inside of the guard of a rule. -/
def Way.inside (way : Way) (rule : Rule) : Way :=
  if rule.isGuarded then { way with room := way.room.map (· - 1) } else way

/-- There is room for a rule. -/
def Way.Admits (way : Way) (rule : Rule) : Prop :=
  rule.isGuarded = true → way.room ≠ some 0

/-- An empty error node in front of the token at an index. -/
structure Marks (stream : Stream) (pos : Nat) (node : Node) : Prop where
  kind : node.kind = .error
  children : node.children = []
  token : node.token = none
  doc : node.doc = none
  span : node.span = .empty (stream.get pos).span.start

/-- An error node for what is skipped from one index up to another. -/
structure Skips (stream : Stream) (pos after : Nat) (node : Node) : Prop where
  kind : node.kind = .error
  children : node.children = []
  token : node.token = none
  doc : node.doc = none
  span : node.span = stream.stretch pos after
  le : pos ≤ after
  inside : after ≤ stream.last
  lt : pos < stream.last → pos < after

/-- What a phrase may build from an index on into a frame: the index behind it,
the frame with what it built, and whether the node under construction ends with
that. -/
inductive Builds (stream : Stream) :
    Way → Phrase → Nat → Frame → (ended : Bool) → Nat → Frame → Prop
  | done {way pos frame} : Builds stream way .done pos frame false pos frame
  | seq {way first second pos frame middle between ended after inner} :
      Builds stream way first pos frame false middle between →
      Builds stream way second middle between ended after inner →
      Builds stream way (.seq first second) pos frame ended after inner
  | seqEnded {way first second pos frame after inner} :
      Builds stream way first pos frame true after inner →
      Builds stream way (.seq first second) pos frame true after inner
  | token {way kind pos frame} :
      stream.kind pos = kind →
      Builds stream way (.token kind) pos frame false (stream.succ pos) frame
  | leaf {way node kind pos frame} :
      stream.kind pos = kind →
      Builds stream way (.leaf node kind) pos frame false (stream.succ pos)
        (frame.push (.leaf node (stream.get pos)))
  | pick {way node accept pos frame} :
      accept (stream.kind pos) = true →
      Builds stream way (.pick node accept) pos frame false (stream.succ pos)
        (frame.push (.leaf node (stream.get pos)))
  | mark {way accept pos frame} :
      accept (stream.kind pos) = true →
      Builds stream way (.mark accept) pos frame false (stream.succ pos)
        { frame with token := some (stream.get pos) }
  | operator {way pos frame} :
      Builds stream way .operator pos frame false (stream.afterOperator pos)
        (frame.push (.leaf .operator (stream.operatorToken pos)))
  | node {way kind body pos frame ended after inner} :
      Builds stream way body pos ((Setup.plain stream).frame { pos } kind) ended after inner →
      Builds stream way (.node kind body) pos frame false after
        (frame.push ((Setup.plain stream).finish { pos := after } inner))
  | wrap {way kind body pos frame first others ended after inner} :
      frame.parts = first :: others →
      Builds stream way body pos { kind, start := first.span.start, parts := [first] } ended after
        inner →
      Builds stream way (.wrap kind body) pos frame false after
        ({ frame with parts := others }.push ((Setup.plain stream).finish { pos := after } inner))
  | reopen {way kind body pos frame head others ended after inner} :
      frame.parts = head :: others →
      Builds stream way body pos
        { kind, start := head.span.start, parts := head.children.reverse } ended after inner →
      Builds stream way (.reopen kind body) pos frame false after
        ({ frame with parts := others }.push ((Setup.plain stream).finish { pos := after } inner))
  | cover {way kind body pos frame ended after inner} :
      Builds stream way body pos { kind, start := .origin } ended after inner →
      Builds stream way (.cover kind body) pos frame false after
        (frame.push (inner.toNode (stream.get stream.last).span.stop))
  | rekind {way kind pos frame} :
      Builds stream way (.rekind kind) pos frame false pos { frame with kind }
  | branch {way look yes no pos frame ended after inner} {chosen : Bool} :
      (way.cut = false → (Setup.plain stream).holds { pos } frame look = chosen) →
      Builds stream way (if chosen then yes else no) pos frame ended after inner →
      Builds stream way (.branch look yes no) pos frame ended after inner
  | trial {way rule yes no pos frame ended after inner} {chosen : Bool} :
      Builds stream way (if chosen then yes else no) pos frame ended after inner →
      Builds stream way (.trial rule yes no) pos frame ended after inner
  | call {way rule pos frame ended after inner} :
      way.Admits rule →
      Builds stream (way.inside rule) rule.body pos ((Setup.plain stream).frame { pos } .error)
        ended after inner →
      Builds stream way (.call rule) pos frame false after (frame.pushAll inner.parts)
  | recover {way rule pos frame after inner} :
      Builds stream way (.call rule) pos frame false after inner →
      Builds stream way (.recover rule) pos frame false after inner
  | skip {way rule pos frame after node} :
      Skips stream pos after node →
      Builds stream way (.recover rule) pos frame false after (frame.push node)
  | orElse {way first second pos frame ended after inner} :
      Builds stream way first pos frame ended after inner →
      Builds stream way (.orElse first second) pos frame ended after inner
  | otherwise {way first second pos frame middle ended after inner} :
      way.cut = true → Builds stream way second middle frame ended after inner →
      Builds stream way (.orElse first second) pos frame ended after inner
  | loopEnds {way look body pos frame} :
      Builds stream way (.loop look body) pos frame false pos frame
  | loop {way look body pos frame ended after inner} :
      (way.cut = false → (Setup.plain stream).holds { pos } frame look = true) →
      Builds stream way (.seq body (.loop look body)) pos frame ended after inner →
      Builds stream way (.loop look body) pos frame ended after inner
  | documented {way body pos frame after inner} :
      Builds stream way body pos frame false after inner →
      Builds stream way (.documented body) pos frame false after
        (inner.document (stream.docBefore? pos))
  | documentedEnded {way body pos frame after inner} :
      Builds stream way body pos frame true after inner →
      Builds stream way (.documented body) pos frame true after inner
  | closing {way kind pos frame after inner} :
      Builds stream way (.token kind) pos frame false after inner →
      Builds stream way (.closing kind) pos frame false after inner
  | missing {way kind pos frame node} :
      stream.kind pos = .eof → Marks stream pos node →
      Builds stream way (.closing kind) pos frame false pos (frame.push node)
  | salvage {way pos frame} : way.cut = true → Builds stream way .salvage pos frame true pos frame
  | salvageMarked {way pos frame node} :
      way.cut = true → Marks stream pos node →
      Builds stream way .salvage pos frame true pos (frame.push node)

/-- A node keeps its kind, unless a phrase changes it. -/
theorem Builds.kind {stream : Stream} {way : Way} {phrase : Phrase} {pos after : Nat}
    {frame inner : Frame} {ended : Bool}
    (builds : Builds stream way phrase pos frame ended after inner) :
    inner.kind = frame.kind ∨ inner.kind ∈ phrase.rekinds := by
  induction builds with
  | seq _ _ firstIh secondIh =>
      rcases secondIh with same | late
      · exact (same ▸ firstIh).imp_right (List.mem_append_left _)
      · exact .inr (List.mem_append_right _ late)
  | seqEnded _ ih | orElse _ ih => exact ih.imp_right (List.mem_append_left _)
  | otherwise _ _ ih => exact ih.imp_right (List.mem_append_right _)
  | rekind => exact .inr List.mem_cons_self
  | @branch _ _ _ _ _ _ _ _ _ chosen _ _ ih | @trial _ _ _ _ _ _ _ _ _ chosen _ ih =>
      cases chosen with
      | true => exact ih.imp_right (List.mem_append_left _)
      | false => exact ih.imp_right (List.mem_append_right _)
  | loop _ _ ih =>
      exact ih.imp_right fun changed => (List.mem_append.mp changed).elim id id
  | @documented _ _ _ _ _ inner _ ih =>
      simp only [Frame.document]
      split <;> exact ih
  | documentedEnded _ ih => exact ih
  | recover _ ih | closing _ ih => exact .inl (ih.resolve_right List.not_mem_nil)
  | _ => exact .inl rfl

namespace Frame

/-- All parts of the frame satisfy a predicate. -/
def All (holds : Node → Prop) (frame : Frame) : Prop :=
  ∀ part ∈ frame.parts, holds part

namespace All

variable {holds : Node → Prop} {frame : Frame}

theorem nil {kind : Node.Kind} {start : Pos} {token : Option Token} :
    Frame.All holds { kind, start, token } :=
  fun _ member => absurd member List.not_mem_nil

theorem push (all : frame.All holds) {part : Node} (new : holds part) :
    (frame.push part).All holds :=
  List.forall_mem_cons.mpr ⟨new, all⟩

theorem pushAll (all : frame.All holds) {parts : List Node} (new : ∀ part ∈ parts, holds part) :
    (frame.pushAll parts).All holds :=
  List.forall_mem_append.mpr ⟨new, all⟩

theorem take (all : frame.All holds) {latest : Node} {others : List Node}
    (parts : frame.parts = latest :: others) :
    holds latest ∧ Frame.All holds { frame with parts := others } := by
  rw [Frame.All, parts] at all
  exact List.forall_mem_cons.mp all

theorem document (all : frame.All holds) {doc : Option Token}
    (dull : ∀ node doc, holds node → holds { node with doc }) : (frame.document doc).All holds := by
  rcases frame with ⟨kind, start, token, _ | ⟨latest, others⟩⟩
  · exact all
  · obtain ⟨first, behind⟩ := List.forall_mem_cons.mp all
    exact List.forall_mem_cons.mpr ⟨dull latest doc first, behind⟩

end All

end Frame

/-- What the body of a rule may build from an index up to another. -/
def BodyBuilds (stream : Stream) (rule : Rule) (way : Way) (pos : Nat) (parts : List Node)
    (after : Nat) : Prop :=
  ∃ ended inner, inner.parts = parts ∧
    Builds stream way rule.body pos ((Setup.plain stream).frame { pos } .error) ended after inner

/-- What a rule may build from an index up to another. -/
def RuleBuilds (stream : Stream) (rule : Rule) (way : Way) (pos : Nat) (parts : List Node)
    (after : Nat) : Prop :=
  way.Admits rule ∧ BodyBuilds stream rule (way.inside rule) pos parts after

/-- Every success in the memo table is one that its rule may build. -/
def MemoBuilds (stream : Stream) (memo : Memo) : Prop :=
  memo.All fun key outcome => ∀ parts, outcome.parts? = some parts → outcome.stop ≤ stream.last ∧
    ∀ cut, RuleBuilds stream key.slot.rule ⟨cut, none⟩ key.pos parts outcome.stop

/-- The cursor stands inside the stream and the memo table can be relied on. -/
structure State.Sound (stream : Stream) (state : State) : Prop where
  inside : state.pos ≤ stream.last
  memo : MemoBuilds stream state.memo

/-- What is known about a run from a state. -/
def Setup.way (setup : Setup) (cut : Bool) (state : State) : Way :=
  ⟨cut, if setup.options.memo then none else some (setup.options.maxDepth.toNat - state.depth)⟩

/-! ## Single steps -/

theorem Setup.errorMark_marks (setup : Setup) (state : State) (message : Bytes)
    (expected : List String) :
    Marks setup.stream state.pos (setup.errorMark state message expected) :=
  ⟨rfl, rfl, rfl, rfl, rfl⟩

theorem Setup.skip_skips {setup : Setup} (ordered : setup.stream.Ordered) {state : State}
    (inside : state.pos ≤ setup.stream.last) (message : Bytes) (expected : List String) :
    Skips setup.stream state.pos (setup.skip state message expected).2.pos
      (setup.skip state message expected).1 := by
  obtain ⟨forward, within⟩ :=
    setup.resume_bounds state.pos (setup.stream.size - state.pos) 0 state.pos inside
  have stops : setup.stopFrom (setup.skip state message expected).2
      (setup.stream.get state.pos).span.start =
        (setup.stream.stretch state.pos (setup.skip state message expected).2.pos).stop :=
    stopFrom_eq ordered forward within
  exact ⟨rfl, rfl, rfl, rfl, congrArg (Span.mk _) stops, forward, within, lt_resume ordered⟩

namespace State.Sound

variable {stream : Stream} {state : State}

theorem sameMemo {after : State} (sound : state.Sound stream) (inside : after.pos ≤ stream.last)
    (same : after.memo = state.memo) : after.Sound stream :=
  ⟨inside, same ▸ sound.memo⟩

end State.Sound

/-- A way to run a rule that builds what may be made of a stream. -/
structure Constructs (setup : Setup) (rule : Rule)
    (makes : Way → Nat → List Node → Nat → Prop) (run : State → Reply) : Prop where
  sound : ∀ state : State, state.Sound setup.stream → (run state).state.Sound setup.stream
  builds : ∀ (cut : Bool) (state : State), state.Sound setup.stream →
    (state.trying = true → rule ≠ .compilationUnit) →
    ((run state).state.fatal.isSome = true → cut = true) →
    ∀ parts, (run state).parts? = some parts →
      makes (setup.way cut state) state.pos parts (run state).state.pos

/-- A way to call rules that builds what rules may build. -/
structure Caller.Building (call : Caller) (setup : Setup) : Prop where
  follows : ∀ rule, Keeps (call rule)
  constructs : ∀ rule, Constructs setup rule (RuleBuilds setup.stream rule) (call rule)

section Phrases

variable {setup : Setup} {call : Caller}

theorem Setup.sound_close {kind : Token.Kind} {state : State} {frame : Frame}
    (sound : state.Sound setup.stream) :
    (setup.close kind state frame).state.Sound setup.stream := by
  simp only [close]
  split
  · exact ⟨Stream.succ_le_last sound.inside, sound.memo⟩
  · split
    · exact ⟨sound.inside, sound.memo⟩
    · exact ⟨(setup.report_pos _ _).symm ▸ sound.inside, (setup.report_memo _ _).symm ▸ sound.memo⟩

theorem Setup.sound_salvage {state : State} {frame : Frame} (sound : state.Sound setup.stream) :
    (setup.salvage state frame).state.Sound setup.stream := by
  simp only [salvage]
  split
  · exact sound
  · split
    · exact sound
    · split
      · exact sound
      · exact ⟨sound.inside, sound.memo⟩

theorem Caller.Building.sound_trial (building : call.Building setup) (rule : Rule)
    {state : State} (sound : state.Sound setup.stream) :
    (trial (call rule) state).2.Sound setup.stream :=
  ⟨sound.inside, ((building.constructs rule).sound
    { state with speculating := state.speculating + 1 } ⟨sound.inside, sound.memo⟩).memo⟩

theorem Caller.Building.sound_recovered (building : call.Building setup) {rule : Rule}
    {state : State} (sound : state.Sound setup.stream) :
    (setup.recovered (call rule) state).state.Sound setup.stream := by
  have inner := (building.constructs rule).sound { state with furthest := .none }
    ⟨sound.inside, sound.memo⟩
  rcases setup.recovered_cases (call rule) state with ⟨parts, after, found, same⟩ |
    ⟨after, found, ⟨-, same⟩ | ⟨-, -, same⟩⟩
  all_goals
    rw [found] at inner
    rw [same]
  · exact ⟨inner.inside, inner.memo⟩
  · exact ⟨inner.inside, inner.memo⟩
  · exact ⟨(setup.resume_bounds _ _ _ _ sound.inside).2,
      (setup.report_memo after after.furthest).symm ▸ inner.memo⟩

/-- No phrase leaves the stream or spoils the memo table. -/
theorem Caller.Building.sound_run (building : call.Building setup) (phrase : Phrase)
    {state : State} (frame : Frame) (sound : state.Sound setup.stream) :
    (setup.run call phrase state frame).state.Sound setup.stream := by
  let relation (before after : State) : Prop :=
    before.Sound setup.stream → after.Sound setup.stream
  have relates : setup.Relates call relation := by
    refine ⟨?_, ?_, ?_, ?_, ?_, ?_, ?_, ?_, ?_, ?_⟩
    · exact fun state => id
    · exact fun before behind => behind ∘ before
    · exact fun state sound => ⟨Stream.succ_le_last sound.inside, sound.memo⟩
    · exact fun state sound => ⟨Stream.advance_le_last _ sound.inside, sound.memo⟩
    · exact fun state texts sound => ⟨sound.inside, sound.memo⟩
    · exact fun kind state frame => Setup.sound_close
    · exact fun state frame => Setup.sound_salvage
    · exact fun rule => (building.constructs rule).sound
    · exact fun rule state => building.sound_trial rule
    · exact fun rule state => building.sound_recovered
  exact setup.run_relates relates phrase state frame sound

/-- A run that does not give up has built what the phrase may build. -/
def Outcome.Made (outcome : Outcome) (stream : Stream) (way : Way) (phrase : Phrase) (pos : Nat)
    (frame : Frame) : Prop :=
  outcome.verdict ≠ .failed →
    Builds stream way phrase pos frame (outcome.verdict = .ended) outcome.state.pos outcome.frame

variable {cut : Bool}

theorem Setup.way_eq_of_depth {state other : State} (same : other.depth = state.depth) :
    setup.way cut other = setup.way cut state := by
  simp only [way, same]

theorem State.Follows.cuts {before after : State} (follows : before.Follows after)
    (known : after.fatal.isSome = true → cut = true) : before.fatal.isSome = true → cut = true := by
  intro stopped
  apply known
  by_contra running
  have before := follows.fatal (Option.not_isSome_iff_eq_none.mp running)
  simp [before] at stopped

/-- As long as the parse goes on, a look says what it says about the stream. -/
theorem Setup.holds_known (setup : Setup) {state : State} (frame : Frame) (look : Look)
    (known : state.fatal.isSome = true → cut = true) (wanted : cut = false) :
    (Setup.plain setup.stream).holds { pos := state.pos } frame look =
      setup.holds state frame look := by
  have running : state.fatal = none := by
    by_contra stopped
    have := known (Option.isSome_iff_ne_none.mpr stopped)
    simp [wanted] at this
  exact (setup.holds_eq_plain frame look running).symm

/-- A finished node is made of what its body has built. -/
theorem Setup.enclose_made {whole body : Phrase} {way : Way} {pos : Nat}
    {frame outer inner : Frame} {outcome : Outcome}
    (made : outcome.Made setup.stream way body pos inner)
    (encloses : ∀ {ended after filled}, Builds setup.stream way body pos inner ended after filled →
      Builds setup.stream way whole pos frame false after
        (outer.push ((Setup.plain setup.stream).finish { pos := after } filled))) :
    (setup.enclose outer outcome frame).Made setup.stream way whole pos frame := by
  obtain ⟨verdict, state, filled⟩ := outcome
  intro succeeds
  cases verdict with
  | ok => exact encloses (made (by simp))
  | failed => exact absurd rfl succeeds
  | ended => exact encloses (made (by simp))

theorem Setup.covered_made {kind : Node.Kind} {body : Phrase} {way : Way} {pos : Nat}
    {frame : Frame} {outcome : Outcome}
    (made : outcome.Made setup.stream way body pos { kind, start := .origin }) :
    (setup.covered outcome frame).Made setup.stream way (.cover kind body) pos frame := by
  obtain ⟨verdict, state, filled⟩ := outcome
  intro succeeds
  cases verdict with
  | ok | ended => exact .cover (made (by simp))
  | failed => exact absurd rfl succeeds

theorem Outcome.Made.documented {stream : Stream} {body : Phrase} {way : Way} {pos : Nat}
    {frame : Frame} {outcome : Outcome} (made : outcome.Made stream way body pos frame) :
    (outcome.documented (stream.docBefore? pos)).Made stream way (.documented body) pos frame := by
  obtain ⟨verdict, state, filled⟩ := outcome
  intro succeeds
  cases verdict with
  | ok => exact .documented (made (by simp))
  | failed => exact absurd rfl succeeds
  | ended => exact .documentedEnded (made (by simp))

theorem Setup.close_made {kind : Token.Kind} {state : State} {frame : Frame} {way : Way} :
    (setup.close kind state frame).Made setup.stream way (.closing kind) state.pos frame := by
  intro succeeds
  simp only [close] at succeeds ⊢
  by_cases found : setup.stream.kind state.pos = kind
  · rw [if_pos found]
    exact .closing (.token found)
  · rw [if_neg found] at succeeds ⊢
    split at succeeds
    · exact absurd rfl succeeds
    · rename_i reports
      rw [if_neg reports]
      simp only [Bool.or_eq_true, bne_iff_ne, not_or, not_not] at reports
      have samePos := setup.report_pos (state.fail kind.describe)
        (state.fail kind.describe).furthest
      have marked := setup.errorMark_marks
        { setup.report (state.fail kind.describe) (state.fail kind.describe).furthest with
          furthest := .none }
        (setup.diagnose (state.fail kind.describe) (state.fail kind.describe).furthest).message
        (setup.diagnose (state.fail kind.describe) (state.fail kind.describe).furthest).expected
      dsimp only at marked ⊢
      rw [samePos] at marked ⊢
      exact .missing reports.2 marked

theorem Setup.salvage_made {state : State} {frame : Frame} {way : Way}
    (known : state.fatal.isSome = true → way.cut = true) :
    (setup.salvage state frame).Made setup.stream way .salvage state.pos frame := by
  intro succeeds
  rcases fatal : state.fatal with - | reason
  · simp only [salvage, fatal] at succeeds
    exact absurd rfl succeeds
  · have isCut := known (by simp [fatal])
    by_cases trying : 0 < state.speculating
    · simp only [salvage, fatal, if_pos trying] at succeeds
      exact absurd rfl succeeds
    · by_cases marked : state.cut = true
      · simp only [salvage, fatal, if_neg trying, if_pos marked]
        exact .salvage isCut
      · simp only [salvage, fatal, if_neg trying, if_neg marked]
        exact .salvageMarked isCut (setup.errorMark_marks state _ _)

/-- A loop builds what its rounds build. -/
theorem repeatWhile_made {look : Look} {body : Phrase} {way : Way}
    (follows : ∀ rule, Keeps (call rule)) {trying : Bool} {depth : Nat}
    (sounds : ∀ {state : State} frame, state.Sound setup.stream →
      (setup.run call body state frame).state.Sound setup.stream)
    (made : ∀ (state : State) (frame : Frame), state.Sound setup.stream →
      state.trying = trying → state.depth = depth →
      ((setup.run call body state frame).state.fatal.isSome = true → way.cut = true) →
      (setup.run call body state frame).Made setup.stream way body state.pos frame)
    (rounds : Nat) (state : State) (frame : Frame) (sound : state.Sound setup.stream)
    (sameTrying : state.trying = trying) (sameDepth : state.depth = depth)
    (known : (repeatWhile (fun state frame => setup.holds state frame look)
      (fun state frame => setup.run call body state frame) rounds state
      frame).state.fatal.isSome = true → way.cut = true) :
    (repeatWhile (fun state frame => setup.holds state frame look)
      (fun state frame => setup.run call body state frame) rounds state
      frame).Made setup.stream way (.loop look body) state.pos frame := by
  induction rounds generalizing state frame with
  | zero => exact fun _ => .loopEnds
  | succ rounds ih =>
      have stays : ∀ rounds (state : State) frame, state.Follows
          (repeatWhile (fun state frame => setup.holds state frame look)
            (fun state frame => setup.run call body state frame) rounds state frame).state :=
        Setup.follows_repeatWhile fun state frame => setup.follows_run follows body state frame
      have told : way.cut = false → _ :=
        setup.holds_known frame look ((stays (rounds + 1) state frame).cuts known)
      simp only [repeatWhile] at known ⊢
      by_cases goesOn : setup.holds state frame look = true
      · rw [if_pos goesOn] at known ⊢
        have once := made state frame sound sameTrying sameDepth
        have moved := setup.follows_run follows body state frame
        have soundAfter := sounds frame sound
        rcases found : setup.run call body state frame with ⟨verdict, middle, between⟩
        rw [found] at once moved soundAfter
        simp only [found] at known ⊢
        have goes : way.cut = false → (Setup.plain setup.stream).holds { pos := state.pos } frame
          look = true := fun running => (told running).trans goesOn
        cases verdict with
        | ok =>
            have later := stays rounds middle between
            have rest := ih middle between soundAfter (moved.trying_eq.trans sameTrying)
              (moved.depth_eq.trans sameDepth) known
            exact fun succeeds =>
              .loop goes (.seq (once (later.cuts known) (by simp)) (rest succeeds))
        | failed => exact fun succeeds => absurd rfl succeeds
        | ended => exact fun _ => .loop goes (.seqEnded (once known (by simp)))
      · rw [if_neg goesOn]
        exact fun _ => .loopEnds

/-- What the replies of a rule are, taken into a frame, a call builds. -/
theorem Caller.Building.call_made (building : call.Building setup) {rule : Rule} {state : State}
    {frame : Frame} (notUnit : rule ≠ .compilationUnit) (sound : state.Sound setup.stream)
    (known : ((call rule state).into frame).state.fatal.isSome = true → cut = true) :
    ((call rule state).into frame).Made setup.stream (setup.way cut state) (.call rule) state.pos
      frame := by
  have builds := (building.constructs rule).builds cut state sound fun _ => notUnit
  rw [Reply.into_state] at known
  rcases found : call rule state with ⟨- | parts, after⟩
  · exact fun succeeds => absurd rfl succeeds
  · rw [found] at builds known
    obtain ⟨admits, ended, inner, rfl, made⟩ := builds known parts rfl
    exact fun _ => .call admits made

/-- Outside of trials, a rule with recovery builds what it reads or what it
skips, unless the parse has been abandoned. -/
theorem Caller.Building.recover_made (building : call.Building setup)
    (ordered : setup.stream.Ordered) {rule : Rule} {state : State} {frame : Frame}
    (notUnit : rule ≠ .compilationUnit) (sound : state.Sound setup.stream)
    (known : ((setup.recovered (call rule) state).into frame).state.fatal.isSome = true →
      cut = true) :
    ((setup.recovered (call rule) state).into frame).Made setup.stream (setup.way cut state)
        (.recover rule) state.pos frame := by
  have builds := (building.constructs rule).builds cut { state with furthest := .none }
    ⟨sound.inside, sound.memo⟩ fun _ => notUnit
  rw [Reply.into_state] at known
  rcases setup.recovered_cases (call rule) state with ⟨parts, after, found, same⟩ |
    ⟨after, found, ⟨-, same⟩ | ⟨-, -, same⟩⟩
  all_goals
    rw [found] at builds
    rw [same] at known ⊢
  · obtain ⟨admits, ended, inner, rfl, made⟩ := builds known parts rfl
    exact fun _ => .recover (.call admits made)
  · exact fun succeeds => absurd rfl succeeds
  · exact fun _ => .skip (Setup.skip_skips ordered sound.inside _ _)

/-- Where a phrase goes on after another gave up, the parse has been
abandoned. -/
theorem Caller.Building.orElse_cut (building : call.Building setup) {first second : Phrase}
    {state after : State} {frame inner : Frame}
    (settled : (Phrase.orElse first second).settled state.trying = true)
    (gaveUp : setup.run call first state frame = ⟨.failed, after, inner⟩)
    (succeeds : (setup.run call second after inner).verdict ≠ .failed) :
    (setup.run call second after inner).state.fatal.isSome = true := by
  by_contra running
  have running := Option.not_isSome_iff_eq_none.mp running
  have stillRunning := (setup.follows_run building.follows second after inner).fatal running
  rcases Phrase.settled_orElse settled with ⟨rfl, -⟩ | ⟨rfl, notTrying, rule, rfl, -⟩
  · simp only [Setup.run, Setup.salvage, stillRunning] at succeeds
    exact succeeds rfl
  · have follows := building.follows rule { state with furthest := .none }
    rw [Setup.run_recover] at gaveUp
    rcases setup.recovered_cases (call rule) state with ⟨parts, other, found, same⟩ |
      ⟨other, found, ⟨given, same⟩ | ⟨-, -, same⟩⟩
    all_goals rw [same] at gaveUp
    · cases gaveUp
    · cases gaveUp
      rw [found] at follows
      have notGiven : ¬ 0 < other.speculating := by
        rw [follows.speculating_eq]
        simpa [State.trying] using notTrying
      rcases given with trying | stopped
      · exact notGiven trying
      · simp only [show other.fatal = none from stillRunning] at stopped
        cases stopped
    · cases gaveUp

/-- A call that gives up leaves the frame as it was. -/
theorem Setup.frame_of_failed {first : Phrase}
    (calls : ∃ rule, first = .call rule ∨ first = .recover rule) {state after : State}
    {frame inner : Frame} (gaveUp : setup.run call first state frame = ⟨.failed, after, inner⟩) :
    inner = frame := by
  have kept : ∀ reply : Reply, reply.into frame = ⟨.failed, after, inner⟩ → inner = frame := by
    rintro ⟨- | parts, other⟩ same
    · cases same
      rfl
    · cases same
  obtain ⟨rule, rfl | rfl⟩ := calls
  · rw [run_call] at gaveUp
    exact kept _ gaveUp
  · rw [run_recover] at gaveUp
    exact kept _ gaveUp

/-- A phrase that is run by calls that build what rules may build, builds what
it may build. -/
theorem Caller.Building.run_made (building : call.Building setup) (cut : Bool)
    (ordered : setup.stream.Ordered) (phrase : Phrase) (state : State) (frame : Frame)
    (settled : phrase.settled state.trying = true) (restores : phrase.restores = true)
    (sound : state.Sound setup.stream)
    (known : (setup.run call phrase state frame).state.fatal.isSome = true → cut = true) :
    (setup.run call phrase state frame).Made setup.stream (setup.way cut state) phrase state.pos
      frame := by
  have follows := setup.follows_run building.follows
  induction phrase generalizing state frame with
  | done => exact fun _ => .done
  | stop | expected => exact fun succeeds => absurd rfl succeeds
  | rekind kind => exact fun _ => .rekind
  | operator => exact fun _ => .operator
  | seq first second firstIh secondIh =>
      obtain ⟨firstSettled, secondSettled⟩ := Bool.and_eq_true_iff.mp settled
      obtain ⟨firstRestores, secondRestores⟩ := Bool.and_eq_true_iff.mp restores
      have moved := follows first state frame
      have soundAfter := building.sound_run first frame sound
      have early := firstIh state frame firstSettled firstRestores sound
      simp only [Setup.run] at known ⊢
      rcases found : setup.run call first state frame with ⟨verdict, middle, between⟩
      rw [found] at moved soundAfter early
      simp only [found] at known ⊢
      cases verdict with
      | ok =>
          have late := secondIh middle between (by rw [moved.trying_eq]; exact secondSettled)
            secondRestores soundAfter known
          rw [setup.way_eq_of_depth moved.depth_eq] at late
          have before := early ((follows second middle between).cuts known) (by simp)
          exact fun succeeds => .seq before (late succeeds)
      | failed => exact fun succeeds => absurd rfl succeeds
      | ended => exact fun _ => .seqEnded (early known (by simp))
  | token kind =>
      simp only [Setup.run]
      split
      · exact fun _ => .token (by assumption)
      · exact fun succeeds => absurd rfl succeeds
  | leaf part kind =>
      simp only [Setup.run]
      split
      · exact fun _ => .leaf (by assumption)
      · exact fun succeeds => absurd rfl succeeds
  | pick part accept =>
      simp only [Setup.run]
      split
      · exact fun _ => .pick (by assumption)
      · exact fun succeeds => absurd rfl succeeds
  | mark accept =>
      simp only [Setup.run]
      split
      · exact fun _ => .mark (by assumption)
      · exact fun succeeds => absurd rfl succeeds
  | node kind body ih =>
      simp only [Setup.run, Setup.enclose_state] at known ⊢
      exact Setup.enclose_made (ih state _ settled restores sound known) .node
  | wrap kind body ih =>
      simp only [Setup.run] at known ⊢
      cases parts : frame.parts with
      | nil => exact fun succeeds => absurd rfl succeeds
      | cons latest others =>
          simp only [parts, Setup.enclose_state] at known ⊢
          exact Setup.enclose_made (ih state _ settled restores sound known) (.wrap parts)
  | reopen kind body ih =>
      simp only [Setup.run] at known ⊢
      cases parts : frame.parts with
      | nil => exact fun succeeds => absurd rfl succeeds
      | cons latest others =>
          simp only [parts, Setup.enclose_state] at known ⊢
          exact Setup.enclose_made (ih state _ settled restores sound known) (.reopen parts)
  | cover kind body ih =>
      rw [Setup.run_cover] at known ⊢
      rw [Setup.covered_state] at known
      exact Setup.covered_made (ih state { kind, start := .origin } settled restores sound known)
  | branch look yes no yesIh noIh =>
      obtain ⟨yesSettled, noSettled⟩ := Bool.and_eq_true_iff.mp settled
      obtain ⟨yesRestores, noRestores⟩ := Bool.and_eq_true_iff.mp restores
      have told := setup.holds_known frame look
        ((follows (.branch look yes no) state frame).cuts known)
      rw [Setup.run_branch] at known ⊢
      refine fun succeeds => .branch told ?_
      revert succeeds known
      cases setup.holds state frame look with
      | true => exact fun known => yesIh state frame yesSettled yesRestores sound known
      | false => exact fun known => noIh state frame noSettled noRestores sound known
  | trial rule yes no yesIh noIh =>
      simp only [Phrase.settled, Bool.and_eq_true] at settled
      obtain ⟨⟨-, yesSettled⟩, noSettled⟩ := settled
      obtain ⟨yesRestores, noRestores⟩ := Bool.and_eq_true_iff.mp restores
      have moved := Setup.follows_trial (building.follows rule) state
      have soundAfter := building.sound_trial rule sound
      rw [Setup.run_trial] at known ⊢
      rw [← setup.way_eq_of_depth moved.depth_eq]
      refine fun succeeds => .trial (?_ : Builds _ _
        (if (trial (call rule) state).1 then yes else no) _ _ _ _ _)
      revert succeeds known
      cases (trial (call rule) state).1 with
      | true =>
          exact fun known => yesIh _ frame (by rw [moved.trying_eq]; exact yesSettled) yesRestores
            soundAfter known
      | false =>
          exact fun known => noIh _ frame (by rw [moved.trying_eq]; exact noSettled) noRestores
            soundAfter known
  | call rule =>
      rw [Setup.run_call] at known ⊢
      exact building.call_made (by simpa [Phrase.settled] using settled) sound known
  | recover rule =>
      rw [Setup.run_recover] at known ⊢
      exact building.recover_made ordered (by simpa [Phrase.settled] using settled) sound known
  | orElse first second firstIh secondIh =>
      obtain ⟨calls, secondRestores⟩ := Phrase.restores_orElse restores
      have secondSettled : ∀ trying, second.settled trying = true := by
        rcases Phrase.settled_orElse settled with ⟨rfl, -⟩ | ⟨rfl, -⟩ <;> exact fun _ => rfl
      have firstSettled : first.settled state.trying = true := by
        rcases Phrase.settled_orElse settled with ⟨-, inner⟩ | ⟨-, -, rule, rfl, notUnit⟩
        · exact inner
        · simpa [Phrase.settled] using notUnit
      have firstRestores : first.restores = true := by
        obtain ⟨rule, rfl | rfl⟩ := calls <;> rfl
      have moved := follows first state frame
      have soundAfter := building.sound_run first frame sound
      have early := firstIh state frame firstSettled firstRestores sound
      simp only [Setup.run] at known ⊢
      rcases found : setup.run call first state frame with ⟨verdict, after, inner⟩
      rw [found] at moved soundAfter early
      simp only [found] at known ⊢
      cases verdict with
      | ok => exact fun succeeds => .orElse (early known succeeds)
      | failed =>
          have late := secondIh after inner (secondSettled _) secondRestores soundAfter known
          rw [setup.way_eq_of_depth moved.depth_eq, Setup.frame_of_failed calls found] at late
          intro succeeds
          have isCut := known (building.orElse_cut settled found succeeds)
          rw [Setup.frame_of_failed calls found] at succeeds ⊢
          exact .otherwise isCut (late succeeds)
      | ended => exact fun succeeds => .orElse (early known succeeds)
  | loop look body ih =>
      obtain ⟨_, bodySettled⟩ := Bool.and_eq_true_iff.mp settled
      refine repeatWhile_made building.follows (building.sound_run body) ?_ _ state frame sound rfl
        rfl known
      intro other otherFrame otherSound sameTrying sameDepth otherKnown
      rw [← setup.way_eq_of_depth sameDepth]
      exact ih other otherFrame (by rw [sameTrying]; exact bodySettled) restores otherSound
        otherKnown
  | documented body ih =>
      rw [Setup.run_documented] at known ⊢
      rw [Outcome.documented_state] at known
      exact (ih state frame settled restores sound known).documented
  | closing kind => exact Setup.close_made
  | salvage => exact Setup.salvage_made ((follows .salvage state frame).cuts known)

end Phrases

/-! ## Rules -/

section Rules

variable {setup : Setup} {rule : Rule} {run : State → Reply}

theorem Caller.Building.runBody {call : Caller} (building : call.Building setup)
    (ordered : setup.stream.Ordered) (rule : Rule) :
    Constructs setup rule (BodyBuilds setup.stream rule) (setup.runBody call rule) := by
  constructor
  · intro state sound
    rw [Setup.runBody_state]
    exact building.sound_run rule.body _ sound
  · intro cut state sound notUnit known parts built
    have made := building.run_made cut ordered rule.body state (setup.frame state .error)
      (rule.body_settled state.trying notUnit) rule.body_restores sound
    obtain ⟨succeeds, same⟩ := setup.runBody_of_some call built
    rw [Setup.runBody_state] at known ⊢
    exact ⟨_, _, same, made known succeeds⟩

/-- Inside of a guard there is room for one guard less. -/
theorem Setup.entered_constructs {call : Caller}
    (constructs : Constructs setup rule (BodyBuilds setup.stream rule) (setup.runBody call rule)) :
    Constructs setup rule (RuleBuilds setup.stream rule) (setup.entered call rule) := by
  by_cases guarded : rule.isGuarded = true
  · constructor
    · intro state sound
      rw [entered, if_pos guarded]
      rcases setup.guarded_cases (setup.runBody call rule) state with
        ⟨-, same⟩ | ⟨after, same, -, -, samePos, sameMemo⟩
      · have inner := constructs.sound
          { state with steps := state.steps + 1, depth := state.depth + 1 }
          ⟨sound.inside, sound.memo⟩
        rw [same]
        exact ⟨inner.inside, inner.memo⟩
      · rw [same]
        exact sound.sameMemo (samePos ▸ sound.inside) sameMemo
    · intro cut state sound notUnit known parts built
      rw [entered, if_pos guarded] at known built ⊢
      rcases setup.guarded_cases (setup.runBody call rule) state with
        ⟨shallow, same⟩ | ⟨after, same, -⟩
      · rw [same] at known built ⊢
        have inner := constructs.builds cut
          { state with steps := state.steps + 1, depth := state.depth + 1 }
          ⟨sound.inside, sound.memo⟩ notUnit known parts built
        refine ⟨?_, ?_⟩
        · intro _
          simp only [way]
          split
          · simp
          · simp only [ne_eq, Option.some.injEq]
            omega
        · have deeper : (setup.way cut state).inside rule = setup.way cut
              { state with steps := state.steps + 1, depth := state.depth + 1 } := by
            simp only [Way.inside, guarded, if_true, way]
            split
            · rfl
            · simp only [Option.map_some, Way.mk.injEq, Option.some.injEq, true_and]
              omega
          rw [deeper]
          exact inner
      · rw [same] at built
        cases built
  · have same : setup.entered call rule = setup.runBody call rule := by
      rw [entered, if_neg guarded]
    rw [same]
    refine ⟨constructs.sound, fun cut state sound notUnit known parts built => ?_⟩
    refine ⟨fun isGuarded => absurd isGuarded guarded, ?_⟩
    rw [Way.inside, if_neg guarded]
    exact constructs.builds cut state sound notUnit known parts built

theorem remember_constructs {slot : Memo.Slot} (kept : Memo.Slot.of? rule = some slot)
    (inUse : setup.options.memo = true)
    (constructs : Constructs setup rule (RuleBuilds setup.stream rule) run) (state : State)
    (sound : state.Sound setup.stream) :
    (remember ⟨slot, state.pos⟩ run state).state.Sound setup.stream ∧
      ∀ cut : Bool,
        ((remember ⟨slot, state.pos⟩ run state).state.fatal.isSome = true → cut = true) →
        ∀ parts, (remember ⟨slot, state.pos⟩ run state).parts? = some parts →
          RuleBuilds setup.stream rule (setup.way cut state) state.pos parts
            (remember ⟨slot, state.pos⟩ run state).state.pos := by
  have innerSound := constructs.sound { state with furthest := .none } ⟨sound.inside, sound.memo⟩
  have builds := fun cut => constructs.builds cut { state with furthest := .none }
    ⟨sound.inside, sound.memo⟩ (by rintro - rfl; cases kept)
  simp only [remember]
  rcases found : run { state with furthest := .none } with ⟨parts?, after⟩
  rw [found] at innerSound builds
  dsimp only at builds ⊢
  split
  · exact ⟨⟨innerSound.inside, innerSound.memo⟩, builds⟩
  · rename_i running
    refine ⟨⟨innerSound.inside, Memo.All.put innerSound.memo ?_⟩, builds⟩
    rintro parts rfl
    refine ⟨innerSound.inside, fun cut => ?_⟩
    have told := builds cut (fun stopped => absurd stopped running) parts rfl
    rw [Memo.Slot.rule_of? kept]
    simpa only [Setup.way, inUse, if_true, Option.isSome_some] using told

theorem memoized_constructs {slot : Memo.Slot} (kept : Memo.Slot.of? rule = some slot)
    (inUse : setup.options.memo = true)
    (constructs : Constructs setup rule (RuleBuilds setup.stream rule) run) :
    Constructs setup rule (RuleBuilds setup.stream rule) (memoized slot run) := by
  have both : ∀ state : State, state.Sound setup.stream →
      (memoized slot run state).state.Sound setup.stream ∧
        ∀ cut : Bool, ((memoized slot run state).state.fatal.isSome = true → cut = true) →
          ∀ parts, (memoized slot run state).parts? = some parts →
            RuleBuilds setup.stream rule (setup.way cut state) state.pos parts
              (memoized slot run state).state.pos := by
    intro state sound
    have lookedUp := Memo.All.get sound.memo ⟨slot, state.pos⟩
    have remembered := remember_constructs kept inUse constructs
      { state with memo := (state.memo.get ⟨slot, state.pos⟩).2 } ⟨sound.inside, lookedUp⟩
    simp only [memoized]
    split
    · rename_i parts stop furthest found
      rw [state.memo.get_fst] at found
      obtain ⟨inside, told⟩ := sound.memo _ _ found parts rfl
      refine ⟨⟨inside, lookedUp⟩, fun cut _ others same => ?_⟩
      cases same
      have built := told cut
      rw [Memo.Slot.rule_of? kept] at built
      simpa only [Setup.way, inUse, if_true] using built
    · split
      · exact ⟨⟨sound.inside, lookedUp⟩, fun _ _ _ built => by cases built⟩
      · exact remembered
    · exact remembered
  exact ⟨fun state sound => (both state sound).1, fun cut state sound _ => (both state sound).2 cut⟩

end Rules

/-- No call of a rule builds anything but what the rule may build. -/
theorem Setup.callWith_building (setup : Setup) (ordered : setup.stream.Ordered) (budget : Nat) :
    Caller.Building (setup.callWith budget) setup := by
  induction budget with
  | zero =>
      refine ⟨setup.keeps_callWith 0, fun rule => ⟨fun state sound => sound, ?_⟩⟩
      intro cut state sound _ _ parts built
      cases built
  | succ budget ih =>
      refine ⟨setup.keeps_callWith (budget + 1), fun rule => ?_⟩
      have entered := Setup.entered_constructs (ih.runBody ordered rule)
      simp only [callWith, runRule_eq]
      cases kept : Memo.Slot.of? rule with
      | none => exact entered
      | some slot =>
          dsimp only
          split
          · exact memoized_constructs kept (by assumption) entered
          · exact entered

/-! ## Whole parses -/

/-- The tree of a parse is the one that its first call has built. -/
theorem Setup.node?_of_built {setup : Setup} {entry : Entry} {tree : Node}
    (built : (setup.enterAt entry).1 = some tree) : setup.node? entry = some tree := by
  have whole : ∀ rule : Rule, (setup.whole rule setup.initial).1 = some tree →
      (setup.call rule setup.initial).parts?.bind List.head? = some tree := by
    intro rule same
    simp only [Setup.whole] at same
    split at same
    · exact same
    · split at same
      · exact same
      · cases same
  cases entry with
  | unit => exact built
  | expression => exact whole .expression built
  | statement => exact whole .blockStatement built

/-- The first call of a parse builds what its rule may build. -/
theorem Setup.reply_builds {setup : Setup} {entry : Entry} (ordered : setup.stream.Ordered)
    {cut : Bool} (known : (setup.reply entry).state.fatal.isSome = true → cut = true)
    {parts : List Node} (built : (setup.reply entry).parts? = some parts) :
    RuleBuilds setup.stream entry.rule (setup.way cut setup.initial) 0 parts
      (setup.reply entry).state.pos := by
  have building := setup.callWith_building ordered setup.budget
  have start : setup.initial.Sound setup.stream := ⟨Nat.zero_le _, Memo.All.empty⟩
  exact (building.constructs entry.rule).builds cut setup.initial start
    (by simp [initial, State.trying]) known parts built

end JavaFront.Parser

namespace JavaFront.Source

open JavaFront.Parser

/-- The tree of a parse, abandoned or not, is one that the rule for the whole
text may build. -/
theorem parse_builds (source : Source) (entry : Entry) (options : Options) {tree : Node}
    (cut : Bool) (built : (source.parse entry options).tree = some tree)
    (known : (source.parse entry options).abandoned.isSome = true → cut = true) :
    ∃ others after, RuleBuilds (Stream.ofSource source) entry.rule
      ((Setup.ofSource source options).way cut (Setup.ofSource source options).initial) 0
      (tree :: others) after := by
  have accepted : source.Accepted options := by
    intro refused
    simp [parse, refused, refuse] at built
  obtain ⟨sameTree, -, sameFatal⟩ := source.parse_of_accepted entry options accepted
  rw [sameTree] at built
  rw [sameFatal] at known
  obtain ⟨parts, found, latest⟩ := Option.bind_eq_some_iff.mp (Setup.node?_of_built built)
  obtain ⟨others, rfl⟩ := List.head?_eq_some_iff.mp latest
  have follows := (Setup.ofSource source options).enterAt_follows entry
  exact ⟨others, _,
    Setup.reply_builds (Stream.ofSource_ordered source) (follows.cuts known) found⟩

end JavaFront.Source
