import JavaFront.Proofs.Parser.Cursor
import JavaFront.Proofs.Parser.Pairing

/-!
# Every run ends

A call of a rule is given a budget for the nesting of calls, and a loop a number
of rounds. `Ends` and `Replies` say how phrases and rules run without either of
them: whatever they relate has come about in finitely many steps. Every call of
a rule is related to its reply, so budgets and rounds are never used up. That
does not depend on the limits of the parse: the cursor moves on in every round
of a loop, and without that only rules of a lower rank are called.
-/

namespace JavaFront.Parser

/-! ## Runs without a budget -/

/-- Phrases that hold no phrases and call no rules. -/
def isStep : Phrase → Bool
  | .done | .stop | .expected _ | .token _ | .leaf _ _ | .pick _ _ | .mark _ | .operator
  | .rekind _ | .closing _ | .salvage => true
  | _ => false

/-- A way to call rules that lets none succeed. -/
def refuse : Caller :=
  fun _ state => ⟨none, state⟩

/-- A rule in its settings, the memo table and the guard, around a way to run
its body. -/
def Setup.within (setup : Setup) (rule : Rule) (run : State → Reply) : State → Reply :=
  let inside := if rule.isGuarded then setup.guarded run else run
  match Memo.Slot.of? rule with
  | some slot => if setup.options.memo then memoized slot inside else inside
  | none => inside

mutual

/-- A run of a phrase ends with this outcome. -/
inductive Setup.Ends (setup : Setup) : Phrase → State → Frame → Outcome → Prop
  | step {phrase state frame} :
      isStep phrase = true →
      setup.Ends phrase state frame (setup.run refuse phrase state frame)
  | seq {first second state frame middle between outcome} :
      setup.Ends first state frame ⟨.ok, middle, between⟩ →
      setup.Ends second middle between outcome →
      setup.Ends (.seq first second) state frame outcome
  | seqStops {first second state frame outcome} :
      setup.Ends first state frame outcome → outcome.verdict ≠ .ok →
      setup.Ends (.seq first second) state frame outcome
  | node {kind body state frame outcome} :
      setup.Ends body state (setup.frame state kind) outcome →
      setup.Ends (.node kind body) state frame (setup.enclose frame outcome frame)
  | wrap {kind body state} {frame : Frame} {first others outcome} :
      frame.parts = first :: others →
      setup.Ends body state { kind, start := first.span.start, parts := [first] } outcome →
      setup.Ends (.wrap kind body) state frame
        (setup.enclose { frame with parts := others } outcome frame)
  | wrapFails {kind body state} {frame : Frame} :
      frame.parts = [] → setup.Ends (.wrap kind body) state frame ⟨.failed, state, frame⟩
  | reopen {kind body state} {frame : Frame} {head others outcome} :
      frame.parts = head :: others →
      setup.Ends body state
        { kind, start := head.span.start, parts := head.children.reverse } outcome →
      setup.Ends (.reopen kind body) state frame
        (setup.enclose { frame with parts := others } outcome frame)
  | reopenFails {kind body state} {frame : Frame} :
      frame.parts = [] → setup.Ends (.reopen kind body) state frame ⟨.failed, state, frame⟩
  | cover {kind body state frame outcome} :
      setup.Ends body state { kind, start := .origin } outcome →
      setup.Ends (.cover kind body) state frame (setup.covered outcome frame)
  | branch {look yes no state frame outcome} :
      setup.Ends (if setup.holds state frame look then yes else no) state frame outcome →
      setup.Ends (.branch look yes no) state frame outcome
  | trial {rule yes no} {state : State} {frame reply outcome} :
      setup.Replies rule { state with speculating := state.speculating + 1 } reply →
      setup.Ends (if reply.parts?.isSome then yes else no) (trial (fun _ => reply) state).2 frame
        outcome →
      setup.Ends (.trial rule yes no) state frame outcome
  | call {rule state frame reply} :
      setup.Replies rule state reply → setup.Ends (.call rule) state frame (reply.into frame)
  | recover {rule} {state : State} {frame reply} :
      setup.Replies rule { state with furthest := .none } reply →
      setup.Ends (.recover rule) state frame
        ((setup.recovered (fun _ => reply) state).into frame)
  | orElse {first second state frame outcome} :
      setup.Ends first state frame outcome → outcome.verdict ≠ .failed →
      setup.Ends (.orElse first second) state frame outcome
  | otherwise {first second state frame middle between outcome} :
      setup.Ends first state frame ⟨.failed, middle, between⟩ →
      setup.Ends second middle between outcome →
      setup.Ends (.orElse first second) state frame outcome
  | loop {look body state frame outcome} :
      setup.holds state frame look = true →
      setup.Ends (.seq body (.loop look body)) state frame outcome →
      setup.Ends (.loop look body) state frame outcome
  | loopEnds {look body state frame} :
      setup.holds state frame look = false →
      setup.Ends (.loop look body) state frame ⟨.ok, state, frame⟩
  | documented {body} {state : State} {frame outcome} :
      setup.Ends body state frame outcome →
      setup.Ends (.documented body) state frame
        (outcome.documented (setup.stream.docBefore? state.pos))

/-- A call of a rule ends with this reply. The settings of the rule run its body
in one state, or they have an answer without it. -/
inductive Setup.Replies (setup : Setup) : Rule → State → Reply → Prop
  | body {rule state inside outcome} :
      (∀ run, setup.within rule run state = setup.within rule (fun _ => run inside) state) →
      setup.Ends rule.body inside (setup.frame inside .error) outcome →
      setup.Replies rule state (setup.within rule (fun _ => outcome.reply) state)
  | settled {rule state reply} :
      (∀ run, setup.within rule run state = reply) → setup.Replies rule state reply

end

/-! ## Room for further calls -/

/-- The budget is enough for the calls that a phrase makes from an index on,
even where errors are recovered from. -/
def Room (stream : Stream) (budget : Nat) (phrase : Phrase) (pos : Nat) : Prop :=
  ∃ limit, phrase.descends limit ∧ Rule.ranks * (stream.last - pos) + limit ≤ budget

/-- The rank of any rule is below the number of ranks. -/
theorem descends_ranks (phrase : Phrase) : phrase.descends Rule.ranks := by
  induction phrase with
  | call rule | recover rule => simp [Phrase.descends, rule.rank_lt_ranks]
  | trial rule yes no yesIh noIh => simp [Phrase.descends, rule.rank_lt_ranks, yesIh, noIh]
  | _ => simp [Phrase.descends, *]

namespace Room

variable {stream : Stream} {budget : Nat} {phrase : Phrase} {pos : Nat}

theorem of_body {rule : Rule} (enough : need stream rule pos ≤ budget + 1) :
    Room stream budget rule.body pos :=
  ⟨rule.rank, rule.body_descends, Nat.le_of_succ_le_succ enough⟩

/-- Behind a token there is room for any phrase. -/
theorem of_lt {after : Nat} (other : Phrase) (room : Room stream budget phrase pos)
    (moved : pos < after) (inside : after ≤ stream.last) : Room stream budget other after := by
  obtain ⟨limit, -, enough⟩ := room
  refine ⟨Rule.ranks, descends_ranks other, ?_⟩
  have fewer : stream.last - after + 1 ≤ stream.last - pos := by omega
  calc Rule.ranks * (stream.last - after) + Rule.ranks
      = Rule.ranks * (stream.last - after + 1) := (Nat.mul_succ _ _).symm
    _ ≤ Rule.ranks * (stream.last - pos) := Nat.mul_le_mul_left _ fewer
    _ ≤ budget := by omega

theorem mono {inner : Phrase} (room : Room stream budget phrase pos)
    (descends : ∀ limit, phrase.descends limit → inner.descends limit) :
    Room stream budget inner pos := by
  obtain ⟨limit, whole, enough⟩ := room
  exact ⟨limit, descends limit whole, enough⟩

theorem need_le {rule : Rule} (room : Room stream budget (.call rule) pos) :
    need stream rule pos ≤ budget := by
  obtain ⟨limit, descends, enough⟩ := room
  have below : rule.rank < limit := by simpa [Phrase.descends] using descends
  simp only [need]
  omega

/-- There is room for the second of two phrases where the first one stands
still, and behind a token anyway. -/
theorem second {first second : Phrase} {middle : Nat}
    (room : Room stream budget (.seq first second) pos) (le : pos ≤ middle)
    (inside : middle ≤ stream.last)
    (moved : first.forward false false = true → pos < middle) :
    Room stream budget second middle := by
  rcases Nat.lt_or_eq_of_le le with forward | rfl
  · exact room.of_lt second forward inside
  · refine room.mono fun limit descends => ?_
    simp only [Phrase.descends, Bool.and_eq_true, Bool.or_eq_true] at descends
    exact descends.2.resolve_left fun promised => Nat.lt_irrefl pos (moved promised)

end Room

/-! ## Settings of rules -/

/-- A setting asks what it is put around for the reply in at most one state, at
the same place, and answers otherwise by itself. -/
def Asks (setting : (State → Reply) → State → Reply) : Prop :=
  ∀ state : State, (∃ reply, ∀ run, setting run state = reply) ∨
    ∃ inside : State, (∀ run, setting run state = setting (fun _ => run inside) state) ∧
      inside.pos = state.pos ∧ inside.memo.table = state.memo.table ∧
      inside.speculating = state.speculating

theorem Asks.around {outer inner : (State → Reply) → State → Reply} (outerAsks : Asks outer)
    (innerAsks : Asks inner) : Asks fun run => outer (inner run) := by
  intro state
  rcases outerAsks state with ⟨reply, settled⟩ | ⟨middle, asked, samePos, sameTable, sameLevel⟩
  · exact .inl ⟨reply, fun run => settled (inner run)⟩
  · rcases innerAsks middle with ⟨reply, settled⟩ |
      ⟨inside, innerAsked, innerPos, innerTable, innerLevel⟩
    · refine .inl ⟨outer (fun _ => reply) state, fun run => ?_⟩
      exact (asked (inner run)).trans (by rw [settled run])
    · refine .inr ⟨inside, fun run => ?_, innerPos.trans samePos, innerTable.trans sameTable,
        innerLevel.trans sameLevel⟩
      calc outer (inner run) state
          = outer (fun _ => inner run middle) state := asked _
        _ = outer (fun _ => inner (fun _ => run inside) middle) state := by rw [innerAsked run]
        _ = outer (inner fun _ => run inside) state := (asked _).symm

theorem Setup.guarded_asks (setup : Setup) : Asks setup.guarded := by
  intro state
  simp only [guarded, enter]
  split
  · rename_i after refused
    exact .inl ⟨⟨none, after⟩, fun run => rfl⟩
  · rename_i inside entered
    refine .inr ⟨inside, fun run => rfl, ?_⟩
    split at entered
    · cases entered
    · split at entered
      · cases entered
      · split at entered
        · cases entered
        · cases entered
          exact ⟨rfl, rfl, rfl⟩

theorem memoized_asks (slot : Memo.Slot) : Asks (memoized slot) := by
  intro state
  have remembered : ∃ inside : State,
      (∀ run, remember ⟨slot, state.pos⟩ run
          { state with memo := (state.memo.get ⟨slot, state.pos⟩).2 } =
        remember ⟨slot, state.pos⟩ (fun _ => run inside)
          { state with memo := (state.memo.get ⟨slot, state.pos⟩).2 }) ∧
      inside.pos = state.pos ∧ inside.memo.table = state.memo.table ∧
      inside.speculating = state.speculating :=
    ⟨{ state with memo := (state.memo.get ⟨slot, state.pos⟩).2, furthest := .none },
      fun run => rfl, rfl, state.memo.get_table _, rfl⟩
  simp only [memoized]
  split
  · exact .inl ⟨_, fun run => rfl⟩
  · split
    · exact .inl ⟨_, fun run => rfl⟩
    · exact .inr remembered
  · exact .inr remembered

theorem Setup.within_asks (setup : Setup) (rule : Rule) : Asks (setup.within rule) := by
  have plain : Asks fun run => run :=
    fun state => .inr ⟨state, fun run => rfl, rfl, rfl, rfl⟩
  have inside : Asks fun run => if rule.isGuarded then setup.guarded run else run := by
    by_cases guarded : rule.isGuarded
    · simpa only [guarded, if_true] using setup.guarded_asks
    · simpa only [guarded, Bool.false_eq_true, if_false] using plain
  have unfolded : setup.within rule = fun run =>
      match Memo.Slot.of? rule with
      | some slot => if setup.options.memo then
          memoized slot (if rule.isGuarded then setup.guarded run else run)
        else if rule.isGuarded then setup.guarded run else run
      | none => if rule.isGuarded then setup.guarded run else run := rfl
  rw [unfolded]
  cases Memo.Slot.of? rule with
  | none => exact inside
  | some slot =>
      by_cases inUse : setup.options.memo
      · simpa only [inUse, if_true] using (memoized_asks slot).around inside
      · simpa only [inUse, Bool.false_eq_true, if_false] using inside

theorem Setup.runRule_eq_within (setup : Setup) (call : Caller) (rule : Rule) :
    setup.runRule call rule = setup.within rule (setup.runBody call rule) := by
  rw [runRule_eq]
  rfl

/-! ## Phrases -/

section Phrases

variable {setup : Setup} {budget : Nat} {call : Caller}

/-- A way to call rules, with a budget for further calls, whose calls end. -/
structure Caller.Ending (call : Caller) (setup : Setup) (budget : Nat) : Prop where
  keeps : ∀ rule, Keeps (call rule)
  advances : ∀ rule, Advances setup.stream rule (call rule)
  replies : ∀ (rule : Rule) (state : State), state.Placed setup.stream →
    need setup.stream rule state.pos ≤ budget →
    (state.trying = true → rule ≠ .compilationUnit) →
    setup.Replies rule state (call rule state)

/-- Outside of trials, behind an attempt the cursor has moved on, or the parse
has been abandoned. -/
theorem Setup.run_attempts (advances : ∀ rule, Advances setup.stream rule (call rule))
    (keeps : ∀ rule, Keeps (call rule)) (ordered : setup.stream.Ordered) (phrase : Phrase)
    (state : State) (frame : Frame) {ahead : Bool} (placed : state.Placed setup.stream)
    (known : ahead = true → state.pos < setup.stream.last) (notTrying : state.trying = false)
    (attempts : phrase.attempts ahead = true)
    (success : (setup.run call phrase state frame).verdict = .ok) :
    state.pos < (setup.run call phrase state frame).state.pos ∨
      (setup.run call phrase state frame).state.fatal.isSome = true := by
  induction phrase generalizing state frame ahead with
  | branch look yes no yesIh noIh =>
      obtain ⟨yesAttempts, noAttempts⟩ := Bool.and_eq_true_iff.mp attempts
      rw [run_branch] at success ⊢
      split at success
      · rename_i holds
        rw [if_pos holds]
        exact yesIh state frame placed (lt_last_of_shows ordered known holds) notTrying yesAttempts
          success
      · rename_i fails
        rw [if_neg fails]
        exact noIh state frame placed
          (lt_last_of_shows ordered known (Bool.not_eq_true _ ▸ fails)) notTrying noAttempts success
  | orElse first second _ _ =>
      have passes := setup.run_passes advances ordered (.orElse first second) state frame ahead
        placed known
      unfold Phrase.attempts at attempts
      split at attempts
      · rename_i rule same
        cases same
        obtain ⟨isAhead, consumes⟩ := Bool.and_eq_true_iff.mp attempts
        have moved := (advances rule).lt_recovered ordered placed (known isAhead) consumes
        have given : (setup.recovered (call rule) state).parts? = none →
            (setup.recovered (call rule) state).state.fatal = none → state.trying = true :=
          trying_of_recovered (keeps rule)
        rw [run_orElse, run_recover] at success ⊢
        rcases found : setup.recovered (call rule) state with ⟨- | parts, after⟩
        · rw [found] at given
          right
          cases stopped : after.fatal with
          | none => exact absurd (given rfl stopped) (by simp [notTrying])
          | some reason => simp [Reply.into, run, stopped]
        · rw [found] at moved
          exact .inl (moved rfl)
      · rename_i same
        cases same
      · exact .inl (passes false success attempts)
  | _ =>
      exact .inl (setup.run_passes advances ordered _ state frame ahead placed known false success
        attempts)

/-- A look that minds fails once the parse has been abandoned. -/
theorem Setup.holds_of_minds (setup : Setup) {state : State} {look : Look} (frame : Frame)
    (minds : look.minds = true) (stopped : state.fatal.isSome = true) :
    setup.holds state frame look = false := by
  induction look with
  | not look _ =>
      cases look with
      | abandoned => simp [holds, stopped]
      | _ => cases minds
  | and first second firstIh secondIh =>
      rcases Bool.or_eq_true_iff.mp minds with early | late
      · simp [holds, firstIh early]
      · simp [holds, secondIh late]
  | _ => cases minds

/-- Where its look fails, a loop has ended. -/
theorem Setup.ends_of_fails {look : Look} {body : Phrase} {state : State} {frame : Frame}
    (fails : setup.holds state frame look = false) (rounds : Nat) :
    setup.Ends (.loop look body) state frame
      (repeatWhile (fun state frame => setup.holds state frame look)
        (fun state frame => setup.run call body state frame) rounds state frame) := by
  cases rounds with
  | zero => exact .loopEnds fails
  | succ rounds =>
      simp only [repeatWhile, fails, Bool.false_eq_true, if_false]
      exact .loopEnds fails

/-- A loop with a round for every token that is left ends before it runs out of
rounds. -/
theorem Caller.Ending.loop_ends (ending : call.Ending setup budget)
    (ordered : setup.stream.Ordered) {look : Look} {body : Phrase} {trying : Bool}
    (turns : (Phrase.loop look body).turns trying = true)
    (ends : ∀ (state : State) (frame : Frame), state.Placed setup.stream →
      Room setup.stream budget body state.pos → state.trying = trying →
      setup.Ends body state frame (setup.run call body state frame))
    (rounds : Nat) (state : State) (frame : Frame) (placed : state.Placed setup.stream)
    (room : Room setup.stream budget (.loop look body) state.pos)
    (level : state.trying = trying) (enough : setup.stream.size - state.pos ≤ rounds) :
    setup.Ends (.loop look body) state frame
      (repeatWhile (fun state frame => setup.holds state frame look)
        (fun state frame => setup.run call body state frame) rounds state frame) := by
  induction rounds generalizing state frame with
  | zero =>
      have inside := placed.inside
      simp only [Stream.size] at enough
      omega
  | succ rounds ih =>
      cases goesOn : setup.holds state frame look with
      | false => exact setup.ends_of_fails goesOn _
      | true =>
          have inner : Room setup.stream budget body state.pos := room.mono fun _ => id
          have once := ends state frame placed inner level
          have reached := setup.run_reaches ending.advances body state frame placed
          have follows := setup.follows_run ending.keeps body state frame
          have ahead : look.shows true = true → state.pos < setup.stream.last := fun shows =>
            ordered.lt_last (setup.notEnd_of_shows shows goesOn)
          have passes := setup.run_passes ending.advances ordered body state frame _ placed ahead
          have attempted := setup.run_attempts ending.advances ending.keeps ordered body state frame
            placed ahead
          simp only [repeatWhile, goesOn, if_true]
          rcases found : setup.run call body state frame with ⟨verdict, middle, between⟩
          rw [found] at once reached follows passes attempted
          have again : state.pos < middle.pos → setup.Ends (.loop look body) middle between
              (repeatWhile (fun state frame => setup.holds state frame look)
                (fun state frame => setup.run call body state frame) rounds middle between) := by
            intro moved
            exact ih middle between reached.placed (inner.of_lt _ moved reached.placed.inside)
              (follows.trying_eq.trans level) (by omega)
          cases verdict with
          | ok =>
              refine .loop goesOn (.seq once ?_)
              simp only [Phrase.turns, Bool.and_eq_true, Bool.or_eq_true] at turns
              rcases turns.2 with forward | ⟨⟨notTrying, minds⟩, attempts⟩
              · exact again (passes false rfl forward)
              · have outside : state.trying = false := by simpa [level] using notTrying
                rcases attempted outside attempts rfl with moved | stopped
                · exact again moved
                · exact setup.ends_of_fails (setup.holds_of_minds between minds stopped) rounds
          | failed => exact .loop goesOn (.seqStops once (by simp))
          | ended => exact .loop goesOn (.seqStops once (by simp))

/-- A phrase ends if the calls it makes do and there is room for them. -/
theorem Caller.Ending.run_ends (ending : call.Ending setup budget)
    (ordered : setup.stream.Ordered) (phrase : Phrase) (state : State) (frame : Frame)
    (placed : state.Placed setup.stream) (room : Room setup.stream budget phrase state.pos)
    (turns : phrase.turns state.trying = true) :
    setup.Ends phrase state frame (setup.run call phrase state frame) := by
  have reaches := setup.run_reaches ending.advances
  have follows := setup.follows_run ending.keeps
  induction phrase generalizing state frame with
  | done | stop | expected | token | leaf | pick | mark | operator | rekind | closing | salvage =>
      exact .step rfl
  | seq first second firstIh secondIh =>
      obtain ⟨firstTurns, secondTurns⟩ := Bool.and_eq_true_iff.mp turns
      have before : Room setup.stream budget first state.pos :=
        room.mono fun _ descends => (Bool.and_eq_true_iff.mp descends).1
      have early := firstIh state frame placed before firstTurns
      have reached := reaches first state frame placed
      have moved := follows first state frame
      have passes := setup.run_passes ending.advances ordered first state frame false placed
        (by simp)
      rw [Setup.run_seq]
      rcases found : setup.run call first state frame with ⟨verdict, middle, between⟩
      rw [found] at early reached moved passes
      cases verdict with
      | ok =>
          have behind := room.second reached.le reached.placed.inside (passes false rfl)
          exact .seq early (secondIh middle between reached.placed behind
            (by rw [moved.trying_eq]; exact secondTurns))
      | failed => exact .seqStops early (by simp)
      | ended => exact .seqStops early (by simp)
  | node kind body ih =>
      exact .node (ih state _ placed (room.mono fun _ => id) turns)
  | wrap kind body ih =>
      simp only [Setup.run]
      cases parts : frame.parts with
      | nil => exact .wrapFails parts
      | cons first others => exact .wrap parts (ih state _ placed (room.mono fun _ => id) turns)
  | reopen kind body ih =>
      simp only [Setup.run]
      cases parts : frame.parts with
      | nil => exact .reopenFails parts
      | cons head others => exact .reopen parts (ih state _ placed (room.mono fun _ => id) turns)
  | cover kind body ih =>
      exact .cover (ih state { kind, start := .origin } placed (room.mono fun _ => id) turns)
  | branch look yes no yesIh noIh =>
      obtain ⟨yesTurns, noTurns⟩ := Bool.and_eq_true_iff.mp turns
      have yesRoom : Room setup.stream budget yes state.pos :=
        room.mono fun _ descends => (Bool.and_eq_true_iff.mp descends).1
      have noRoom : Room setup.stream budget no state.pos :=
        room.mono fun _ descends => (Bool.and_eq_true_iff.mp descends).2
      rw [Setup.run_branch]
      refine .branch ?_
      split
      · exact yesIh state frame placed yesRoom yesTurns
      · exact noIh state frame placed noRoom noTurns
  | trial rule yes no yesIh noIh =>
      simp only [Phrase.turns, Bool.and_eq_true] at turns
      obtain ⟨⟨notUnit, yesTurns⟩, noTurns⟩ := turns
      have parts : ∀ limit, (Phrase.trial rule yes no).descends limit →
          (Phrase.call rule).descends limit ∧ yes.descends limit ∧ no.descends limit := by
        intro limit descends
        simp only [Phrase.descends, Bool.and_eq_true] at descends ⊢
        exact ⟨descends.1.1, descends.1.2, descends.2⟩
      have enough := (room.mono fun limit descends => (parts limit descends).1).need_le
      have yesRoom := room.mono fun limit descends => (parts limit descends).2.1
      have noRoom := room.mono fun limit descends => (parts limit descends).2.2
      have back := ((ending.advances rule).reaches_trial placed).placed
      have level := (Setup.follows_trial (ending.keeps rule) state).trying_eq
      have replies := ending.replies rule { state with speculating := state.speculating + 1 }
        ⟨placed.inside, placed.memo⟩ enough fun _ => by simpa using notUnit
      rw [Setup.run_trial]
      refine .trial replies ?_
      change setup.Ends (if (trial (call rule) state).1 then yes else no) (trial (call rule) state).2
        frame _
      split
      · exact yesIh (trial (call rule) state).2 frame back yesRoom (by rw [level]; exact yesTurns)
      · exact noIh (trial (call rule) state).2 frame back noRoom (by rw [level]; exact noTurns)
  | call rule =>
      rw [Setup.run_call]
      exact .call (ending.replies rule state placed room.need_le
        fun _ => by simpa [Phrase.turns] using turns)
  | recover rule =>
      rw [Setup.run_recover]
      have called : Room setup.stream budget (.call rule) state.pos := room.mono fun _ => id
      have enough := called.need_le
      exact .recover (ending.replies rule { state with furthest := .none }
        ⟨placed.inside, placed.memo⟩ enough fun _ => by simpa [Phrase.turns] using turns)
  | orElse first second firstIh secondIh =>
      obtain ⟨firstTurns, secondTurns⟩ := Bool.and_eq_true_iff.mp turns
      have before : Room setup.stream budget first state.pos :=
        room.mono fun _ descends => (Bool.and_eq_true_iff.mp descends).1
      have early := firstIh state frame placed before firstTurns
      have reached := reaches first state frame placed
      have moved := follows first state frame
      rw [Setup.run_orElse]
      rcases found : setup.run call first state frame with ⟨verdict, middle, between⟩
      rw [found] at early reached moved
      cases verdict with
      | failed =>
          have behind : Room setup.stream budget second middle.pos := by
            rcases Nat.lt_or_eq_of_le reached.le with forward | same
            · exact room.of_lt second forward reached.placed.inside
            · exact same ▸ room.mono fun _ descends => (Bool.and_eq_true_iff.mp descends).2
          exact .otherwise early (secondIh middle between reached.placed behind
            (by rw [moved.trying_eq]; exact secondTurns))
      | ok => exact .orElse early (by simp)
      | ended => exact .orElse early (by simp)
  | loop look body ih =>
      have bodyTurns := (Bool.and_eq_true_iff.mp turns).1
      exact ending.loop_ends ordered turns
        (fun other frame placed room level => ih other frame placed room (level ▸ bodyTurns))
        _ state frame placed room rfl (Nat.le_refl _)
  | documented body ih =>
      exact .documented (ih state frame placed (room.mono fun _ => id) turns)

end Phrases

/-! ## Rules -/

/-- Every call of a rule ends within a budget of one round of ranks for every
token ahead. -/
theorem Setup.callWith_ends (setup : Setup) (ordered : setup.stream.Ordered) (budget : Nat) :
    Caller.Ending (setup.callWith budget) setup budget := by
  induction budget with
  | zero =>
      refine ⟨setup.keeps_callWith 0, fun rule => setup.callWith_advances ordered 0 rule, ?_⟩
      intro rule state _ enough
      simp [need] at enough
  | succ budget ih =>
      refine ⟨setup.keeps_callWith _, fun rule => setup.callWith_advances ordered _ rule, ?_⟩
      intro rule state placed enough notUnit
      simp only [callWith, runRule_eq_within]
      rcases setup.within_asks rule state with ⟨reply, settled⟩ |
        ⟨inside, asked, samePos, sameTable, sameLevel⟩
      · exact .settled fun run => (settled run).trans (settled _).symm
      · have placedInside : inside.Placed setup.stream := by
          refine ⟨samePos ▸ placed.inside, fun key outcome found => ?_⟩
          exact placed.memo key outcome (sameTable ▸ found)
        have level : inside.trying = state.trying := by simp only [State.trying, sameLevel]
        have ends := ih.run_ends ordered rule.body inside (setup.frame inside .error) placedInside
          (.of_body (samePos ▸ enough)) (rule.body_turns _ (level ▸ notUnit))
        rw [asked]
        exact .body asked ends

/-! ## Searches -/

/-- The search for a place to go on passes a token in every step, so it finds
one with a step for every token that is left. -/
theorem Setup.resume_enough {setup : Setup} (ordered : setup.stream.Ordered)
    (start first second depth : Nat) {pos : Nat} (inside : pos ≤ setup.stream.last)
    (enough : setup.stream.size - pos ≤ first) (other : setup.stream.size - pos ≤ second) :
    setup.resume start first depth pos = setup.resume start second depth pos := by
  have size : setup.stream.size = setup.stream.last + 1 := rfl
  induction first generalizing second depth pos with
  | zero => omega
  | succ first ih =>
      obtain _ | second := second
      · omega
      have next : setup.stream.kind pos ≠ .eof → ∀ depth,
          setup.resume start first depth (setup.stream.succ pos) =
            setup.resume start second depth (setup.stream.succ pos) := by
        intro notEnd depth
        have before := ordered.lt_last notEnd
        rw [Stream.succ_of_lt before]
        exact ih second depth (by omega) (by omega) (by omega)
      simp only [resume]
      split
      · rfl
      · exact next (by simp [*]) _
      · rw [next (by simp [*])]
      · rw [next (by simp [*])]
      · exact next (by assumption) _

/-- The search for the end of a dotted name passes two tokens in every step. -/
theorem Setup.genericNameAt_enough {setup : Setup} (ordered : setup.stream.Ordered)
    (first second : Nat) {index : Nat} (enough : setup.stream.size - index ≤ first)
    (other : setup.stream.size - index ≤ second) :
    setup.genericNameAt first index = setup.genericNameAt second index := by
  have size : setup.stream.size = setup.stream.last + 1 := rfl
  have beyond : ∀ {index : Nat} budget, setup.stream.last < index →
      setup.genericNameAt budget index = false := by
    intro index budget behind
    have atEnd : setup.stream.kind index = .eof := by
      by_contra notEnd
      exact Nat.lt_asymm behind (ordered.lt_last notEnd)
    cases budget <;> simp [genericNameAt, atEnd]
  induction first generalizing second index with
  | zero => rw [beyond 0 (by omega), beyond second (by omega)]
  | succ first ih =>
      obtain _ | second := second
      · rw [beyond _ (by omega), beyond _ (by omega)]
      simp only [genericNameAt]
      split
      · split
        · rfl
        · exact ih second (by omega) (by omega)
        · rfl
      · rfl

/-! ## Memo tables -/

/-- The memo tables that runs over a stream lead to, whatever their limits and
wherever they start. -/
inductive MemoReached (stream : Stream) : Memo → Prop
  | empty : MemoReached stream {}
  | call {setup : Setup} {budget : Nat} {rule : Rule} {state : State} :
      setup.stream = stream → state.pos ≤ stream.last → MemoReached stream state.memo →
      MemoReached stream (setup.callWith budget rule state).state.memo

theorem MemoReached.trial {setup : Setup} {budget : Nat} {rule : Rule} {state : State}
    (inside : state.pos ≤ setup.stream.last) (reached : MemoReached setup.stream state.memo) :
    MemoReached setup.stream (trial (setup.callWith budget rule) state).2.memo := by
  let inner : State := { state with speculating := state.speculating + 1 }
  have called : MemoReached setup.stream (setup.callWith budget rule inner).state.memo :=
    .call rfl inside reached
  exact called

theorem MemoReached.ahead {stream : Stream} (ordered : stream.Ordered) {memo : Memo}
    (reached : MemoReached stream memo) : MemoAhead stream memo := by
  induction reached with
  | empty => exact Memo.All.empty
  | @call setup budget rule state same inside _ ih =>
      subst same
      exact ((setup.callWith_advances ordered budget rule).reaches state ⟨inside, ih⟩).placed.memo

end JavaFront.Parser
