import JavaFront.Proofs.Parser.Isolation
import JavaFront.Proofs.Parser.Progress
import JavaFront.Proofs.Parser.Replay

/-!
# Trials can be repeated

Inside of a trial a rule makes of the tokens from an index on always the same,
whatever was tried in front of it and wherever, with the memo table or without
it. What has been met of failures by then is the same as well.
-/

namespace JavaFront

namespace Failure

variable {failure other : Failure}

theorem Proper.merge_none (proper : failure.Proper) : failure.merge .none = failure := by
  rcases proper with rfl | met
  · rfl
  · exact merge_of_gt (Int.lt_of_lt_of_le (by decide) met)

theorem Proper.merge (proper : failure.Proper) (properOther : other.Proper) :
    (failure.merge other).Proper := by
  rcases properOther with rfl | met
  · rw [proper.merge_none]
    exact proper
  · exact .inr (Int.le_trans met (le_pos_merge failure other))

end Failure

namespace Parser

/-- A rule that is to be tried at an index. -/
structure Probe (stream : Stream) where
  pos : Nat
  rule : Rule
  inside : pos ≤ stream.last

/-- What a rule makes of the tokens: unless it failed, its parts and the index
behind them. -/
def Reply.outcome (reply : Reply) : Option (List Node × Nat) :=
  reply.parts?.map fun parts => (parts, reply.state.pos)

/-- Moves the cursor and runs a rule there. -/
def Setup.probe (setup : Setup) (state : State) (probe : Probe setup.stream) : Reply :=
  setup.call probe.rule { state with pos := probe.pos }

/-- The replies of rules that are run one after another. -/
def Setup.probeAll (setup : Setup) : State → List (Probe setup.stream) → List Reply
  | _, [] => []
  | state, probe :: probes =>
    let reply := setup.probe state probe
    reply :: setup.probeAll reply.state probes

theorem Pairing.Agree.outcome_eq {pairing : Pairing} {consumes : Bool} {pos : Nat}
    {reply twinReply : Reply} (agree : pairing.Agree consumes pos reply twinReply) :
    twinReply.outcome = reply.outcome := by
  have samePos := agree.pos_eq
  simp only [Reply.outcome, agree.parts_eq]
  cases found : reply.parts? with
  | none => rfl
  | some parts => rw [Option.map_some, Option.map_some, samePos (by rw [found]; rfl)]

section Probes

variable {setup : Setup} {guess : Int} {state twin : State}

/-! ## One probe -/

/-- The state in front of a probe as if no failure had been met. -/
def Probe.start {stream : Stream} (probe : Probe stream) (state : State) : State :=
  { state with pos := probe.pos, furthest := .none }

/-- A probe only adds to the failures that were met. -/
theorem Setup.probe_eq (setup : Setup) (next : Probe setup.stream) (proper : state.furthest.Proper)
    (trying : state.trying = true) :
    setup.probe state next = (setup.call next.rule (next.start state)).behind state.furthest := by
  have same : State.behind (next.start state) state.furthest = { state with pos := next.pos } := by
    simp only [State.behind, Probe.start, proper.merge_none]
  simp only [Setup.probe, ← same]
  exact setup.isolated_callWith setup.budget next.rule _ _ trying

/-- An outcome that the rule of a probe has in some trial. -/
def Setup.Gives (setup : Setup) (probe : Probe setup.stream)
    (outcome : Option (List Node × Nat)) : Prop :=
  ∃ state, setup.Open 1 probe.pos state ∧
    ((setup.withMemo false).call probe.rule state).state.fatal = none ∧
    ((setup.withMemo false).call probe.rule state).outcome = outcome

/-- All trials at one place have the same outcome. -/
theorem Setup.Gives.unique (ordered : setup.stream.Ordered) {probe : Probe setup.stream}
    (part : probe.rule ≠ .compilationUnit) {first second : Option (List Node × Nat)}
    (one : setup.Gives probe first) (other : setup.Gives probe second) : first = second := by
  obtain ⟨state, here, running, rfl⟩ := one
  obtain ⟨twin, twinHere, twinRunning, rfl⟩ := other
  obtain ⟨-, pairing, -, agree⟩ := setup.readsAlike_trying ordered part probe.inside here
    twinHere (setup.need_le_budget _ _) (setup.need_le_budget _ _) running twinRunning
  exact agree.outcome_eq.symm

/-- Two parses between trials, the first one with the memo table, the second one
without it. -/
structure Together (setup : Setup) (guess : Int) (state twin : State) : Prop where
  running : state.fatal = none
  twinRunning : twin.fatal = none
  furthest_eq : twin.furthest = state.furthest
  proper : state.furthest.Proper
  depth_eq : state.depth = 0
  twinDepth_eq : twin.depth = 0
  speculating_eq : state.speculating = guess
  twinSpeculating_eq : twin.speculating = guess
  diagnostics_eq : twin.diagnostics = state.diagnostics
  replayable : state.memo.All (Replayable setup 1)

theorem Together.probe (ordered : setup.stream.Ordered) (guessing : 1 ≤ guess)
    (together : Together setup guess state twin) (probe : Probe setup.stream)
    (part : probe.rule ≠ .compilationUnit)
    (running : ((setup.withMemo true).probe state probe).state.fatal = none)
    (twinRunning : ((setup.withMemo false).probe twin probe).state.fatal = none) :
    setup.Gives probe ((setup.withMemo false).probe twin probe).outcome ∧
      ((setup.withMemo true).probe state probe).outcome =
        ((setup.withMemo false).probe twin probe).outcome ∧
      Together setup guess ((setup.withMemo true).probe state probe).state
        ((setup.withMemo false).probe twin probe).state := by
  have trying : state.trying = true := by
    rw [State.trying, together.speculating_eq]
    exact decide_eq_true guessing
  have twinTrying : twin.trying = true := by
    rw [State.trying, together.twinSpeculating_eq]
    exact decide_eq_true guessing
  have twinProper : twin.furthest.Proper := together.furthest_eq ▸ together.proper
  rw [(setup.withMemo true).probe_eq probe together.proper trying] at running ⊢
  rw [(setup.withMemo false).probe_eq probe twinProper twinTrying] at twinRunning ⊢
  have level : (memoPairing setup 1).Level (probe.start state) (probe.start twin) :=
    ⟨rfl, probe.inside, together.running, together.twinRunning, rfl, rfl,
      le_of_le_of_eq guessing together.speculating_eq.symm,
      together.twinSpeculating_eq.trans together.speculating_eq.symm, together.diagnostics_eq,
      together.replayable⟩
  have alike := setup.memo_alike ordered
    (fun slot : Memo.Slot => setup.readsAlike_trying ordered slot.rule_ne_unit) setup.budget
  have agree := (alike probe.rule level (setup.need_le_budget _ _) (setup.need_le_budget _ _)
    fun _ => part).agree rfl running twinRunning
  have follows := (setup.withMemo true).keeps_callWith setup.budget probe.rule (probe.start state)
  have twinFollows :=
    (setup.withMemo false).keeps_callWith setup.budget probe.rule (probe.start twin)
  obtain ⟨-, -, told, replayable⟩ := agree.grounds
  refine ⟨⟨probe.start twin, ⟨rfl, together.twinRunning, rfl, ?_⟩, twinRunning, rfl⟩,
    agree.outcome_eq.symm, ?_⟩
  · exact le_of_le_of_eq guessing together.twinSpeculating_eq.symm
  · refine ⟨running, twinRunning, ?_, together.proper.merge agree.proper,
      follows.depth_eq.trans together.depth_eq, twinFollows.depth_eq.trans together.twinDepth_eq,
      follows.speculating_eq.trans together.speculating_eq,
      twinFollows.speculating_eq.trans together.twinSpeculating_eq, told, replayable⟩
    exact congrArg₂ Failure.merge together.furthest_eq agree.furthest_eq

/-! ## Any number of probes -/

/-- What is to be seen of a reply: what the rule has made of the tokens, and the
failures that were met by then. -/
def Reply.seen (reply : Reply) : Option (List Node × Nat) × Failure :=
  (reply.outcome, reply.state.furthest)

theorem Together.probeAll (ordered : setup.stream.Ordered) (guessing : 1 ≤ guess)
    (together : Together setup guess state twin) (probes : List (Probe setup.stream))
    (parts : ∀ probe ∈ probes, probe.rule ≠ .compilationUnit)
    (running : ∀ reply ∈ (setup.withMemo true).probeAll state probes, reply.state.fatal = none)
    (twinRunning : ∀ reply ∈ (setup.withMemo false).probeAll twin probes,
      reply.state.fatal = none) :
    ((setup.withMemo true).probeAll state probes).map Reply.seen =
        ((setup.withMemo false).probeAll twin probes).map Reply.seen ∧
      (∀ reply ∈ (setup.withMemo true).probeAll state probes ++
          (setup.withMemo false).probeAll twin probes,
        reply.state.depth = 0 ∧ reply.state.speculating = guess) ∧
      ∀ entry ∈ probes.zip ((setup.withMemo true).probeAll state probes),
        setup.Gives entry.1 entry.2.outcome := by
  induction probes generalizing state twin with
  | nil => simp [Setup.probeAll]
  | cons probe probes ih =>
      simp only [Setup.probeAll, List.forall_mem_cons] at parts running twinRunning ⊢
      obtain ⟨gives, sameOutcome, after⟩ :=
        together.probe ordered guessing probe parts.1 running.1 twinRunning.1
      obtain ⟨sameRest, restBalanced, restGives⟩ := ih after parts.2 running.2 twinRunning.2
      refine ⟨?_, ?_, ?_⟩
      · rw [List.map_cons, List.map_cons, sameRest, Reply.seen, Reply.seen, sameOutcome,
          after.furthest_eq]
      · simp only [List.cons_append, List.forall_mem_cons, List.forall_mem_append] at restBalanced ⊢
        exact ⟨⟨after.depth_eq, after.speculating_eq⟩, restBalanced.1,
          ⟨after.twinDepth_eq, after.twinSpeculating_eq⟩, restBalanced.2⟩
      · simp only [List.zip_cons_cons, List.forall_mem_cons]
        exact ⟨sameOutcome ▸ gives, restGives⟩

end Probes

end Parser

namespace Source

open JavaFront.Parser

/-- The replies of rules that are run one after another in a fresh parse of a
source, inside of so many trials. -/
def probeAll (source : Source) (options : Options) (guess : Int)
    (probes : List (Probe (Stream.ofSource source))) : List Reply :=
  (Setup.ofSource source options).probeAll
    { (Setup.ofSource source options).initial with speculating := guess } probes

/-- Rules that are run inside of a trial, one after another and wherever the
cursor is moved in between, make the same of the tokens and meet the same failures
with the memo table and without it. They leave the nesting and the number of
trials as they were, and a rule that is run twice at the same place has the same
outcome. The rule for a unit is none of them: it is where a parse starts and is part
of no other rule, and its loops count on recovery, which trials do without. -/
theorem probeAll_memo (source : Source) (options : Options) (guess : Int) (guessing : 1 ≤ guess)
    (probes : List (Probe (Stream.ofSource source)))
    (parts : ∀ probe ∈ probes, probe.rule ≠ .compilationUnit)
    (running : ∀ reply ∈ source.probeAll { options with memo := true } guess probes,
      reply.state.fatal = none)
    (bareRunning : ∀ reply ∈ source.probeAll { options with memo := false } guess probes,
      reply.state.fatal = none) :
    (source.probeAll { options with memo := true } guess probes).map Reply.seen =
        (source.probeAll { options with memo := false } guess probes).map Reply.seen ∧
      (∀ reply ∈ source.probeAll { options with memo := true } guess probes ++
          source.probeAll { options with memo := false } guess probes,
        reply.state.depth = 0 ∧ reply.state.speculating = guess) ∧
      ∀ first ∈ probes.zip (source.probeAll { options with memo := true } guess probes),
        ∀ second ∈ probes.zip (source.probeAll { options with memo := true } guess probes),
          first.1.pos = second.1.pos → first.1.rule = second.1.rule →
            first.2.outcome = second.2.outcome := by
  let setup := Setup.ofSource source options
  have ordered : setup.stream.Ordered := Stream.ofSource_ordered source
  have together : Together setup guess { (setup.withMemo true).initial with speculating := guess }
      { (setup.withMemo false).initial with speculating := guess } :=
    ⟨rfl, rfl, rfl, .inl rfl, rfl, rfl, rfl, rfl, rfl, Memo.All.empty⟩
  obtain ⟨same, balanced, gives⟩ := together.probeAll ordered guessing probes parts running
    bareRunning
  refine ⟨same, balanced, fun first inFirst second inSecond samePos sameRule => ?_⟩
  have part : first.1.rule ≠ .compilationUnit := parts _ (List.of_mem_zip inFirst).1
  obtain ⟨⟨pos, rule, inside⟩, reply⟩ := first
  obtain ⟨⟨_, _, _⟩, twinReply⟩ := second
  cases samePos
  cases sameRule
  exact (gives _ inFirst).unique ordered part (gives _ inSecond)

/-- A cast and a comparison that starts like a declaration. -/
def castText : Source := of [] "(a<b>)c<d x"

/-- The type of the cast is in the table when it is tried on its own, and what is
no declaration is tried twice. -/
def castProbes : List (Probe (Stream.ofSource castText)) :=
  [⟨0, .castHead, by decide +kernel⟩, ⟨1, .type, by decide +kernel⟩,
    ⟨6, .localVarHead, by decide +kernel⟩, ⟨6, .expression, by decide +kernel⟩,
    ⟨6, .localVarHead, by decide +kernel⟩]

theorem probeAll_memo_cast :
    (castText.probeAll { memo := true } 1 castProbes).map (·.outcome.isSome) =
        [true, true, false, true, false] ∧
      (castText.probeAll { memo := true } 1 castProbes).map (·.state.memo.hits) =
        [0, 1, 1, 2, 3] ∧
      (castText.probeAll { memo := true } 1 castProbes).map Reply.seen =
        (castText.probeAll { memo := false } 1 castProbes).map Reply.seen := by
  have running : ∀ reply ∈ castText.probeAll { memo := true } 1 castProbes,
      reply.state.fatal = none := by decide +kernel
  have bareRunning : ∀ reply ∈ castText.probeAll { memo := false } 1 castProbes,
      reply.state.fatal = none := by decide +kernel
  exact ⟨by decide +kernel, by decide +kernel,
    (probeAll_memo castText {} 1 (Int.le_refl 1) castProbes (by decide) running bareRunning).1⟩

/-- A reference to a method of a generic type in parentheses. -/
def nestedText : Source := of [] "(A<B>::m)"

/-- The expression as a whole. -/
def nestedProbes : List (Probe (Stream.ofSource nestedText)) :=
  [⟨0, .expression, by decide +kernel⟩]

/-- A class whose superclass lacks its type, with another class behind it. -/
def annotatedText : Source := of [] "class A extends @X class C {}"

/-- The missing type is tried, and then the unit from the start on. -/
def unitProbes : List (Probe (Stream.ofSource annotatedText)) :=
  [⟨3, .type, by decide +kernel⟩, ⟨0, .compilationUnit, by decide +kernel⟩]

/-- The memo table saves levels of nesting, so a parse may be abandoned without it
that goes on with it. A unit that is tried need not have an outcome: in front of a
name its loops go round for ever. And what is tried beforehand may change what comes
of a unit: a failure from the table leaves the cursor in front of the annotation, a
fresh one behind it, and the next declaration is read from where the cursor is. -/
theorem probeAll_depends :
    ((nestedText.probeAll { maxDepth := 5, memo := true } 1 nestedProbes).map
          (fun reply => (reply.parts?.isSome, reply.state.fatal)) = [(true, none)] ∧
      (nestedText.probeAll { maxDepth := 5, memo := false } 1 nestedProbes).map
          (fun reply => (reply.parts?.isSome, reply.state.fatal)) =
        [(false, some (.tooDeep 5))]) ∧
    (¬ ∃ reply, (Setup.ofSource (of [] "x") {}).Replies .compilationUnit
      { (Setup.ofSource (of [] "x") {}).initial with speculating := 1 } reply) ∧
    (∀ memo, ∀ reply ∈ annotatedText.probeAll { memo } 1 unitProbes, reply.state.fatal = none) ∧
    (annotatedText.probeAll { memo := true } 1 unitProbes).map Reply.outcome ≠
      (annotatedText.probeAll { memo := false } 1 unitProbes).map Reply.outcome := by
  refine ⟨⟨by decide +kernel, by decide +kernel⟩, Setup.not_replies_unit, by decide +kernel,
    fun same => ?_⟩
  -- where the declarations of the units start
  let starts (outcome : Option (List Node × Nat)) : List Nat :=
    outcome.toList.flatMap fun found =>
      found.1.flatMap fun unit => unit.children.map (·.span.start.offset)
  have sameStarts := congrArg (List.map starts) same
  revert sameStarts
  decide +kernel

end Source

end JavaFront
