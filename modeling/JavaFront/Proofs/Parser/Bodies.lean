import JavaFront.Proofs.Parser.Determinacy

/-!
# Bodies keep what fills them

Members and statements are read one after another with recovery, up to the brace
that closes their body. A body comes of that whatever the text: a part that is
broken is skipped, the end of the text closes the body, and where the parse is
abandoned the body ends with what it has. `Fills` follows the parts of a body
from its opening brace on, and the body has them as children, in their order.

The constants of an enum are read with recovery as well, but what stands behind
the last of them is not. Unless it closes the body or opens its members, the
body is lost with all its constants.
-/

namespace JavaFront.Parser

/-! ## What fills a body -/

/-- Tokens in front of which members and statements end. -/
def endsBody : Token.Kind → Bool :=
  [Token.Kind.rbrace, .eof].contains

/-- Tokens in front of which the constants of an enum end. -/
def endsList : Token.Kind → Bool :=
  [Token.Kind.semicolon, .rbrace, .eof].contains

/-- Reading a body from the first state on leaves these parts and stops in the
second. Its parts are read by one rule, with recovery. Semicolons between them
are skipped where the body allows for `strays`. -/
inductive Setup.Fills (setup : Setup) (element : Rule) (strays : Bool) :
    State → List Node → State → Prop
  | ends {state} :
      endsBody (setup.stream.kind state.pos) = true → setup.Fills element strays state [] state
  | fails {state after} :
      endsBody (setup.stream.kind state.pos) = false →
      ¬ (strays = true ∧ setup.stream.kind state.pos = .semicolon) →
      setup.recovered (setup.call element) state = ⟨none, after⟩ →
      setup.Fills element strays state [] after
  | stray {state nodes after} :
      strays = true → setup.stream.kind state.pos = .semicolon →
      setup.Fills element strays (setup.advance state) nodes after →
      setup.Fills element strays state nodes after
  | part {state parts middle nodes after} :
      endsBody (setup.stream.kind state.pos) = false →
      ¬ (strays = true ∧ setup.stream.kind state.pos = .semicolon) →
      setup.recovered (setup.call element) state = ⟨some parts, middle⟩ →
      setup.Fills element strays middle nodes after →
      setup.Fills element strays state (parts.reverse ++ nodes) after

/-- Reading the constants of an enum from the first state on leaves these parts
and stops in the second. Behind a constant without a comma there are no more,
whatever follows. -/
inductive Setup.Lists (setup : Setup) : State → List Node → State → Prop
  | ends {state} : endsList (setup.stream.kind state.pos) = true → setup.Lists state [] state
  | fails {state after} :
      endsList (setup.stream.kind state.pos) = false →
      setup.recovered (setup.call .enumConstant) state = ⟨none, after⟩ →
      setup.Lists state [] after
  | last {state parts after} :
      endsList (setup.stream.kind state.pos) = false →
      setup.recovered (setup.call .enumConstant) state = ⟨some parts, after⟩ →
      setup.stream.kind after.pos ≠ .comma → setup.Lists state parts.reverse after
  | more {state parts middle nodes after} :
      endsList (setup.stream.kind state.pos) = false →
      setup.recovered (setup.call .enumConstant) state = ⟨some parts, middle⟩ →
      setup.stream.kind middle.pos = .comma → setup.Lists (setup.advance middle) nodes after →
      setup.Lists state (parts.reverse ++ nodes) after

/-- What a body may end with besides its parts: an empty error node where the
text ends or the parse was abandoned. -/
structure Traces (nodes : List Node) : Prop where
  few : nodes.length ≤ 1
  empty : ∀ mark ∈ nodes, mark.kind = .error ∧ mark.span = .empty mark.span.start

/-- The bodies in braces: their rule and their kind, the rule of their parts, and
whether stray semicolons are skipped between them. -/
inductive Braced : Rule → Node.Kind → (element : Rule) → (strays : Bool) → Prop
  | block : Braced .block .block .blockStatement false
  | classBody : Braced .classBody .classBody .member true

/-! ## The ends of a body -/

/-- The phrase has not given up. It has added these parts to the frame, and a
mark at most. -/
structure Outcome.Adding (frame : Frame) (nodes : List Node) (outcome : Outcome) : Prop where
  goesOn : outcome.verdict ≠ .failed
  added : ∃ marks, Traces marks ∧ outcome.frame = frame.pushAll (marks ++ nodes.reverse)

theorem Traces.nil : Traces [] :=
  ⟨Nat.zero_le 1, fun _ mem => absurd mem List.not_mem_nil⟩

theorem Setup.marks_errorMark (setup : Setup) (state : State) (message : Bytes)
    (expected : List String) : Traces [setup.errorMark state message expected] := by
  refine ⟨Nat.le_refl 1, fun mark mem => ?_⟩
  cases List.mem_singleton.mp mem
  exact ⟨rfl, rfl⟩

namespace Outcome.Adding

variable {frame : Frame} {nodes others : List Node} {outcome : Outcome}

theorem ok (state : State) (frame : Frame) : Adding frame [] ⟨.ok, state, frame⟩ :=
  ⟨by simp, [], .nil, rfl⟩

theorem mark {verdict : Verdict} {node : Node} {state : State} (goesOn : verdict ≠ .failed)
    (marks : Traces [node]) : Adding frame [] ⟨verdict, state, frame.push node⟩ :=
  ⟨goesOn, [node], marks, rfl⟩

/-- What is added behind some parts comes after them. -/
theorem behind (adding : outcome.Adding (frame.pushAll nodes.reverse) others) :
    outcome.Adding frame (nodes ++ others) := by
  obtain ⟨goesOn, marks, few, same⟩ := adding
  refine ⟨goesOn, marks, few, ?_⟩
  rw [same]
  simp [Frame.pushAll, List.append_assoc]

/-- A node whose frame was opened by its rule has what was added as children. -/
theorem enclosed {setup : Setup} {kind : Node.Kind} {state : State} (outer kept : Frame)
    (adding : outcome.Adding (setup.frame state kind) nodes) :
    ∃ node marks, setup.enclose outer outcome kept = ⟨.ok, outcome.state, outer.push node⟩ ∧
      node.kind = kind ∧ Traces marks ∧ node.children = nodes ++ marks := by
  obtain ⟨goesOn, marks, few, same⟩ := adding
  refine ⟨setup.finish outcome.state outcome.frame, marks.reverse, ?_, ?_, ?_, ?_⟩
  · simp only [Setup.enclose]
  · rw [same]
    rfl
  · exact ⟨by simpa using few.few, fun mark mem => few.empty mark (List.mem_reverse.mp mem)⟩
  · rw [same]
    simp [Setup.finish, Frame.toNode, Frame.pushAll, Setup.frame]

end Outcome.Adding

section Ends

variable {setup : Setup} {call : Caller} {state : State}

theorem Setup.salvage_adding (frame : Frame) (notTrying : state.trying = false)
    (stopped : state.fatal.isSome = true) :
    (setup.salvage state frame).verdict = .ended ∧
      (setup.salvage state frame).Adding frame [] := by
  obtain ⟨reason, fatal⟩ := Option.isSome_iff_exists.mp stopped
  have outside : ¬ 0 < state.speculating := by simpa [State.trying] using notTrying
  simp only [salvage, fatal, if_neg outside]
  split
  · exact ⟨rfl, by simp, [], .nil, rfl⟩
  · exact ⟨rfl, .mark (by simp) (setup.marks_errorMark _ _ _)⟩

/-- The closing brace is read where it stands, and it is not missed where the
text ends. -/
theorem Setup.close_adding (frame : Frame) (notTrying : state.trying = false)
    (running : state.fatal = none) (ends : endsBody (setup.stream.kind state.pos) = true) :
    (setup.close .rbrace state frame).Adding frame [] := by
  by_cases brace : setup.stream.kind state.pos = .rbrace
  · rw [close, if_pos brace]
    exact .ok _ _
  · have atEnd : setup.stream.kind state.pos = .eof := by
      simpa [endsBody, brace] using ends
    have outside : ¬ 0 < state.speculating := by simpa [State.trying] using notTrying
    rw [setup.close_of_cut frame brace outside atEnd running rfl]
    exact .mark (by simp) (setup.marks_errorMark _ _ _)

/-- The end of a body: what the abandonment leaves, or the closing brace. -/
def ending : Phrase :=
  .seq (.when .abandoned .salvage) (.closing .rbrace)

theorem Setup.run_when_abandoned (frame : Frame) :
    setup.run call (.when .abandoned .salvage) state frame =
      if state.fatal.isSome then setup.salvage state frame else ⟨.ok, state, frame⟩ := by
  rw [Phrase.when, run_branch]
  split
  · rename_i stopped
    exact (if_pos stopped).symm
  · rename_i notStopped
    exact (if_neg notStopped).symm

theorem Setup.run_ending (frame : Frame) (notTrying : state.trying = false) :
    setup.run call ending state frame =
      if state.fatal.isSome then setup.salvage state frame
      else setup.close .rbrace state frame := by
  rw [ending, run_seq, run_when_abandoned]
  by_cases stopped : state.fatal.isSome = true
  · have ended := (setup.salvage_adding frame notTrying stopped).1
    simp only [if_pos stopped, ended]
    rfl
  · simp only [if_neg stopped]
    rfl

theorem Setup.ending_adding (call : Caller) (frame : Frame) (notTrying : state.trying = false)
    (ends : state.fatal = none → endsBody (setup.stream.kind state.pos) = true) :
    (setup.run call ending state frame).Adding frame [] := by
  rw [run_ending frame notTrying]
  split
  · rename_i stopped
    exact (setup.salvage_adding frame notTrying stopped).2
  · rename_i notStopped
    have running : state.fatal = none := Option.not_isSome_iff_eq_none.mp notStopped
    exact setup.close_adding frame notTrying running (ends running)

end Ends

/-! ## Reading parts -/

/-- A part of a body, read with recovery. -/
def recoveredPart (element : Rule) : Phrase :=
  .orElse (.recover element) .salvage

/-- One round of a body: a part, or a semicolon that is skipped. -/
def round (element : Rule) : (strays : Bool) → Phrase
  | true => .branch (.is .semicolon) (.token .semicolon) (recoveredPart element)
  | false => recoveredPart element

/-- All rounds of a body. -/
def rounds (element : Rule) (strays : Bool) : Phrase :=
  .loop (.not (.oneOf [.rbrace, .eof])) (round element strays)

theorem body_block : Rule.block.body =
    .node .block (.seq (.token .lbrace) (.seq (rounds .blockStatement false) ending)) :=
  rfl

theorem body_classBody : Rule.classBody.body =
    .node .classBody (.seq (.token .lbrace)
      (.seq (.seq (rounds .member true) (.when .abandoned .salvage)) (.closing .rbrace))) :=
  rfl

/-- Parts have been read from a frame on: all of them, and the first token that
belongs to none is ahead, or up to where the parse has been abandoned. In that
case the node under construction ends. -/
inductive Outcome.Takes (frame : Frame) (nodes : List Node) (stop : State) (outcome : Outcome) :
    Prop
  | through : outcome = ⟨.ok, stop, frame.pushAll nodes.reverse⟩ → stop.trying = false →
      outcome.Takes frame nodes stop
  | cut : outcome.verdict = .ended → stop.fatal.isSome = true → outcome.Adding frame nodes →
      outcome.Takes frame nodes stop

theorem Outcome.Takes.behind {frame : Frame} {parts nodes : List Node} {stop : State}
    {outcome : Outcome} (takes : outcome.Takes (frame.pushAll parts) nodes stop) :
    outcome.Takes frame (parts.reverse ++ nodes) stop := by
  cases takes with
  | through same outside => exact .through (by simp [same, Frame.pushAll]) outside
  | cut ended stopped adding =>
      refine .cut ended stopped (Outcome.Adding.behind ?_)
      rwa [List.reverse_reverse]

/-- The calls inside of a body have a budget that is enough, wherever they
are. -/
theorem Setup.need_le_inner (setup : Setup) (rule : Rule) (pos : Nat) :
    need setup.stream rule pos ≤ setup.budget - 1 := by
  have below := rule.rank_lt_ranks
  have rules : Rule.all.length = 82 := by decide
  simp only [need, budget, rules, Stream.size, Rule.ranks] at *
  omega

theorem Setup.placed_advance (setup : Setup) {state : State} (placed : state.Placed setup.stream) :
    (setup.advance state).Placed setup.stream :=
  ⟨Stream.succ_le_last placed.inside, placed.memo⟩

section Parts

variable {setup : Setup} {element : Rule} {strays : Bool} {state : State}

/-- Outside of trials the parts of a body are read as if by themselves. -/
theorem Setup.recovered_inner (ordered : setup.stream.Ordered) (placed : state.Placed setup.stream)
    (notTrying : state.trying = false) :
    setup.recovered (setup.callWith (setup.budget - 1) element) state =
      setup.recovered (setup.call element) state := by
  have same : setup.callWith (setup.budget - 1) element { state with furthest := .none } =
      setup.call element { state with furthest := .none } :=
    callWith_eq_call ordered ⟨placed.inside, placed.memo⟩ (setup.need_le_inner _ _)
      fun trying => absurd (notTrying.symm.trans trying) (by simp)
  simp only [recovered, same]

/-- A part is read, or the parse has been abandoned and the body ends. -/
theorem Setup.run_recoveredPart (ordered : setup.stream.Ordered)
    (placed : state.Placed setup.stream) (notTrying : state.trying = false) {frame : Frame}
    {outcome : Outcome}
    (same : setup.run (setup.callWith (setup.budget - 1)) (recoveredPart element) state frame =
      outcome) :
    (∃ parts middle, setup.recovered (setup.call element) state = ⟨some parts, middle⟩ ∧
        outcome = ⟨.ok, middle, frame.pushAll parts⟩) ∨
      ∃ after, setup.recovered (setup.call element) state = ⟨none, after⟩ ∧
        after.fatal.isSome = true ∧ outcome.verdict = .ended ∧ outcome.Adding frame [] := by
  subst same
  have keeps := setup.keeps_callWith setup.budget element
  have follows : state.Follows (setup.recovered (setup.call element) state).state :=
    setup.keeps_recovered keeps state
  have stops : (setup.recovered (setup.call element) state).parts? = none →
      (setup.recovered (setup.call element) state).state.fatal.isSome = true := by
    intro failed
    by_contra running
    have trying := trying_of_recovered keeps failed (Option.not_isSome_iff_eq_none.mp running)
    exact absurd (notTrying.symm.trans trying) (by simp)
  rw [recoveredPart, run_orElse, run_recover, recovered_inner ordered placed notTrying]
  generalize setup.recovered (setup.call element) state = reply at follows stops ⊢
  obtain ⟨- | parts, after⟩ := reply
  · have outside : after.trying = false := follows.trying_eq.trans notTrying
    exact .inr ⟨after, rfl, stops rfl, setup.salvage_adding frame outside (stops rfl)⟩
  · exact .inl ⟨parts, after, rfl, rfl⟩

theorem Setup.run_round_stray {call : Caller} (allowed : strays = true)
    (semicolon : setup.stream.kind state.pos = .semicolon) (frame : Frame) :
    setup.run call (round element strays) state frame = ⟨.ok, setup.advance state, frame⟩ := by
  subst allowed
  simp [round, run, holds, Look.is, semicolon]

theorem Setup.run_round_part {call : Caller}
    (part : ¬ (strays = true ∧ setup.stream.kind state.pos = .semicolon)) (frame : Frame) :
    setup.run call (round element strays) state frame =
      setup.run call (recoveredPart element) state frame := by
  cases strays with
  | false => rfl
  | true =>
      have noSemicolon : setup.stream.kind state.pos ≠ .semicolon := fun same => part ⟨rfl, same⟩
      rw [round, run_branch, if_neg (by simpa [Look.is, holds] using noSemicolon)]

/-- Behind a part reading goes on outside of trials and further ahead. -/
theorem Setup.behind_part (ordered : setup.stream.Ordered) (consumes : element.consumes = true)
    (placed : state.Placed setup.stream) (notTrying : state.trying = false)
    (ahead : state.pos < setup.stream.last) {parts : List Node} {middle : State}
    (read : setup.recovered (setup.call element) state = ⟨some parts, middle⟩) :
    middle.Placed setup.stream ∧ middle.trying = false ∧ state.pos < middle.pos := by
  have advances : Advances setup.stream element (setup.call element) :=
    setup.callWith_advances ordered setup.budget element
  have reached := advances.reaches_recovered placed
  have passed := advances.lt_recovered ordered placed ahead consumes
  have follows := setup.keeps_recovered (setup.keeps_callWith setup.budget element) state
  change state.Follows (setup.recovered (setup.call element) state).state at follows
  rw [read] at reached passed follows
  exact ⟨reached.placed, follows.trying_eq.trans notTrying, passed rfl⟩

/-- The rounds of a body read what fills it. In the end the closing brace or the
end of the text is ahead, or the parse has been abandoned and the body ends. -/
theorem Setup.repeatWhile_fills (ordered : setup.stream.Ordered)
    (consumes : element.consumes = true) {budget : Nat} (placed : state.Placed setup.stream)
    (notTrying : state.trying = false) (enough : setup.stream.size - state.pos ≤ budget) {frame : Frame} {outcome : Outcome}
    (same : repeatWhile
      (fun state frame => setup.holds state frame (.not (.oneOf [.rbrace, .eof])))
      (fun state frame =>
        setup.run (setup.callWith (setup.budget - 1)) (round element strays) state frame)
      budget state frame = outcome) :
    ∃ nodes stop, setup.Fills element strays state nodes stop ∧ outcome.Takes frame nodes stop ∧
      (outcome.verdict = .ok → endsBody (setup.stream.kind stop.pos) = true) := by
  induction budget generalizing state frame with
  | zero =>
      have inside := placed.inside
      simp only [Stream.size] at enough
      omega
  | succ budget ih =>
      have test : setup.holds state frame (.not (.oneOf [.rbrace, .eof])) =
          !endsBody (setup.stream.kind state.pos) := rfl
      simp only [repeatWhile, test] at same
      cases goesOn : endsBody (setup.stream.kind state.pos) with
      | true =>
          simp only [goesOn, Bool.not_true, Bool.false_eq_true, if_false] at same
          subst same
          exact ⟨[], state, .ends goesOn, .through rfl notTrying, fun _ => goesOn⟩
      | false =>
          simp only [goesOn, Bool.not_false, if_true] at same
          have ahead : state.pos < setup.stream.last :=
            ordered.lt_last fun atEnd => by simp [atEnd, endsBody] at goesOn
          by_cases stray : strays = true ∧ setup.stream.kind state.pos = .semicolon
          · rw [run_round_stray stray.1 stray.2] at same
            dsimp only at same
            have forward : (setup.advance state).pos = state.pos + 1 := Stream.succ_of_lt ahead
            have outside : (setup.advance state).trying = false := notTrying
            have later := setup.placed_advance placed
            obtain ⟨nodes, stop, fills, takes⟩ := ih later outside (by omega) same
            exact ⟨nodes, stop, .stray stray.1 stray.2 fills, takes⟩
          · rw [run_round_part stray] at same
            generalize found : setup.run _ (recoveredPart element) state frame = once at same
            rcases setup.run_recoveredPart ordered placed notTrying found with
              ⟨parts, middle, read, rfl⟩ | ⟨after, read, stopped, ended, adding⟩
            · obtain ⟨later, outside, forward⟩ :=
                behind_part ordered consumes placed notTrying ahead read
              obtain ⟨nodes, stop, fills, takes, ends⟩ := ih later outside (by omega) same
              exact ⟨_, stop, .part goesOn stray read fills, takes.behind, ends⟩
            · obtain ⟨verdict, final, filled⟩ := once
              cases ended
              subst same
              exact ⟨[], after, .fails goesOn stray read, .cut rfl stopped adding, by simp⟩

variable (element strays) in
/-- The rounds of a body and its end leave what fills it. -/
theorem Setup.run_filled (ordered : setup.stream.Ordered) (consumes : element.consumes = true)
    (placed : state.Placed setup.stream) (notTrying : state.trying = false) (frame : Frame) :
    ∃ nodes stop, setup.Fills element strays state nodes stop ∧
      (setup.run (setup.callWith (setup.budget - 1)) (.seq (rounds element strays) ending) state
        frame).Adding frame nodes := by
  rw [run_seq]
  generalize same : setup.run (setup.callWith (setup.budget - 1)) (rounds element strays) state
    frame = outcome
  obtain ⟨nodes, stop, fills, takes, ends⟩ :=
    setup.repeatWhile_fills ordered consumes placed notTrying (Nat.le_refl _) same
  refine ⟨nodes, stop, fills, ?_⟩
  cases takes with
  | through read outside =>
      subst read
      rw [if_pos rfl]
      have finished := setup.ending_adding (setup.callWith (setup.budget - 1))
        (frame.pushAll nodes.reverse) outside fun _ => ends rfl
      simpa using finished.behind
  | cut ended stopped adding =>
      rw [if_neg (by simp [ended])]
      exact adding

end Parts

/-! ## Blocks and class bodies -/

section Bodies

variable {setup : Setup} {rule element : Rule} {kind : Node.Kind} {strays : Bool} {state : State}

theorem Setup.run_assoc {call : Caller} (first second third : Phrase) (state : State)
    (frame : Frame) :
    setup.run call (.seq (.seq first second) third) state frame =
      setup.run call (.seq first (.seq second third)) state frame := by
  simp only [run]
  rcases setup.run call first state frame with ⟨verdict, middle, between⟩
  cases verdict <;> rfl

/-- The body of a rule that builds a node behind an opening brace. -/
theorem Setup.runBody_braced {call : Caller} {inner : Phrase}
    (body : rule.body = .node kind (.seq (.token .lbrace) inner))
    (brace : setup.stream.kind state.pos = .lbrace) :
    setup.runBody call rule state =
      (setup.enclose (setup.frame state .error)
        (setup.run call inner (setup.advance state) (setup.frame state kind))
        (setup.frame state .error)).reply := by
  rw [runBody, body]
  simp only [run, brace, if_true]
  rfl

/-- A rule that is not kept in the memo table runs inside its guard. -/
theorem Setup.call_guarded (fresh : Memo.Slot.of? rule = none)
    (isGuarded : rule.isGuarded = true) :
    setup.call rule = setup.guarded (setup.runBody (setup.callWith (setup.budget - 1)) rule) := by
  have positive : setup.budget = setup.budget - 1 + 1 := by
    have enough := setup.need_le_budget rule 0
    simp only [need] at enough
    omega
  funext state
  rw [call, positive, callWith, runRule_eq_within, Nat.add_sub_cancel]
  simp only [within, fresh, isGuarded, if_true]

theorem Setup.guarded_parts {run : State → Reply} (entered : (setup.enter state).1 = true) :
    (setup.guarded run state).parts? = (run (setup.enter state).2).parts? := by
  rw [guarded]
  generalize setup.enter state = inside at entered
  obtain ⟨_, inside⟩ := inside
  cases entered
  rfl

/-- What a guard lets in is one level deeper. -/
theorem Setup.enter_entered (entered : (setup.enter state).1 = true) :
    (setup.enter state).2 = { state with steps := state.steps + 1, depth := state.depth + 1 } := by
  have running : state.fatal = none := by
    by_contra stopped
    simp [enter, Option.isSome_iff_ne_none.mpr stopped] at entered
  rcases setup.enter_cases running with ⟨steps, reason, stops⟩ | enters
  · rw [stops] at entered
    cases entered
  · rw [enters]

/-- A guard lets a body in where it stands, and behind the opening brace reading
goes on outside of trials. -/
theorem Setup.enter_opened (placed : state.Placed setup.stream) (notTrying : state.trying = false)
    (entered : (setup.enter state).1 = true) :
    (setup.enter state).2.pos = state.pos ∧
      (setup.advance (setup.enter state).2).Placed setup.stream ∧
      (setup.advance (setup.enter state).2).trying = false := by
  rw [setup.enter_entered entered]
  exact ⟨rfl, setup.placed_advance ⟨placed.inside, placed.memo⟩, notTrying⟩

variable (setup) in
/-- A block or a class body that its guard lets in has what fills it as
children, and a mark at most behind it. -/
theorem Braced.call_filled (ordered : setup.stream.Ordered)
    (braced : Braced rule kind element strays) (placed : state.Placed setup.stream)
    (brace : setup.stream.kind state.pos = .lbrace)
    (notTrying : state.trying = false) (entered : (setup.enter state).1 = true) :
    ∃ node nodes marks stop, (setup.call rule state).parts? = some [node] ∧ node.kind = kind ∧
      setup.Fills element strays (setup.advance (setup.enter state).2) nodes stop ∧
      Traces marks ∧ node.children = nodes ++ marks := by
  obtain ⟨samePos, opened, outside⟩ := setup.enter_opened placed notTrying entered
  generalize inside : (setup.enter state).2 = inner at samePos opened outside ⊢
  have innerBrace : setup.stream.kind inner.pos = .lbrace := samePos ▸ brace
  have consumes : element.consumes = true := by cases braced <;> rfl
  obtain ⟨nodes, stop, fills, adding⟩ := setup.run_filled element strays ordered consumes opened
    outside (setup.frame inner kind)
  obtain ⟨node, marks, enclosed, isKind, few, children⟩ :=
    adding.enclosed (setup.frame inner .error) (setup.frame inner .error)
  refine ⟨node, nodes, marks, stop, ?_, isKind, fills, few, children⟩
  cases braced with
  | block =>
      rw [Setup.call_guarded rfl rfl, Setup.guarded_parts entered, inside,
        Setup.runBody_braced body_block innerBrace, enclosed]
      rfl
  | classBody =>
      rw [Setup.call_guarded rfl rfl, Setup.guarded_parts entered, inside,
        Setup.runBody_braced body_classBody innerBrace, Setup.run_assoc, ← ending, enclosed]
      rfl

end Bodies

/-! ## Enum bodies -/

section Enums

variable {setup : Setup} {state : State}

/-- Another constant, unless the constants end here. -/
def nextConstant : Phrase :=
  .omitIf Grammar.endsConstants Grammar.recoveredConstant

/-- Constants for as long as commas separate them. -/
def furtherConstants : Phrase :=
  .loop (.is .comma) (.seq (.token .comma) nextConstant)

theorem body_enumBody : Rule.enumBody.body =
    .node .classBody (.seq (.token .lbrace)
      (.seq (.omitIf Grammar.endsConstants (.seq Grammar.recoveredConstant furtherConstants))
        (.seq (.when (.is .semicolon) (.seq (.token .semicolon) Grammar.members)) ending))) :=
  rfl

/-- Behind a constant, further ones are listed if there is a comma. -/
def Setup.ListsOn (setup : Setup) (state : State) (nodes : List Node) (stop : State) : Prop :=
  if setup.stream.kind state.pos = .comma then setup.Lists (setup.advance state) nodes stop
  else nodes = [] ∧ stop = state

theorem Setup.Lists.part {parts nodes : List Node} {middle stop : State}
    (goesOn : endsList (setup.stream.kind state.pos) = false)
    (read : setup.recovered (setup.call .enumConstant) state = ⟨some parts, middle⟩)
    (on : setup.ListsOn middle nodes stop) : setup.Lists state (parts.reverse ++ nodes) stop := by
  by_cases comma : setup.stream.kind middle.pos = .comma
  · rw [ListsOn, if_pos comma] at on
    exact .more goesOn read comma on
  · rw [ListsOn, if_neg comma] at on
    obtain ⟨rfl, rfl⟩ := on
    rw [List.append_nil]
    exact .last goesOn read comma

theorem Setup.run_omitIf_ends {call : Caller} (phrase : Phrase) (frame : Frame) :
    setup.run call (.omitIf Grammar.endsConstants phrase) state frame =
      if endsList (setup.stream.kind state.pos) = true then ⟨.ok, state, frame⟩
      else setup.run call phrase state frame := by
  rw [Phrase.omitIf, run_branch]
  split
  · rename_i ends
    exact (if_pos ends).symm
  · rename_i goesOn
    exact (if_neg goesOn).symm

/-- The commas behind a constant lead to further ones. -/
theorem Setup.repeatWhile_lists (ordered : setup.stream.Ordered) {budget : Nat}
    (placed : state.Placed setup.stream) (notTrying : state.trying = false)
    (enough : setup.stream.size - state.pos ≤ budget) {frame : Frame} {outcome : Outcome}
    (same : repeatWhile (fun state frame => setup.holds state frame (.is .comma))
      (fun state frame => setup.run (setup.callWith (setup.budget - 1))
        (.seq (.token .comma) nextConstant) state frame)
      budget state frame = outcome) :
    ∃ nodes stop, setup.ListsOn state nodes stop ∧ outcome.Takes frame nodes stop := by
  induction budget generalizing state frame with
  | zero =>
      have inside := placed.inside
      simp only [Stream.size] at enough
      omega
  | succ budget ih =>
      have test : setup.holds state frame (.is .comma) =
          decide (setup.stream.kind state.pos = .comma) := rfl
      simp only [repeatWhile, test, decide_eq_true_eq] at same
      by_cases comma : setup.stream.kind state.pos = .comma
      · rw [if_pos comma, run_seq] at same
        have ahead : state.pos < setup.stream.last :=
          ordered.lt_last fun atEnd => by simp [atEnd] at comma
        have forward : (setup.advance state).pos = state.pos + 1 := Stream.succ_of_lt ahead
        have outside : (setup.advance state).trying = false := notTrying
        have later := setup.placed_advance placed
        simp only [ListsOn, if_pos comma]
        simp only [run, if_pos comma, if_true, nextConstant, run_omitIf_ends] at same
        cases goesOn : endsList (setup.stream.kind (setup.advance state).pos) with
        | true =>
            simp only [goesOn, if_true] at same
            have noComma : setup.stream.kind (setup.advance state).pos ≠ .comma :=
              fun found => by simp [found, endsList] at goesOn
            obtain ⟨nodes, stop, on, takes⟩ := ih later outside (by omega) same
            rw [ListsOn, if_neg noComma] at on
            obtain ⟨rfl, rfl⟩ := on
            exact ⟨[], _, .ends goesOn, takes⟩
        | false =>
            simp only [goesOn, Bool.false_eq_true, if_false] at same
            generalize found : setup.run _ Grammar.recoveredConstant _ frame = once at same
            rcases setup.run_recoveredPart ordered later outside found with
              ⟨parts, middle, read, rfl⟩ | ⟨after, read, stopped, ended, adding⟩
            · obtain ⟨laterStill, outsideStill, further⟩ := behind_part ordered rfl later outside
                (ordered.lt_last fun atEnd => by simp [atEnd, endsList] at goesOn) read
              obtain ⟨nodes, stop, on, takes⟩ :=
                ih laterStill outsideStill (by omega) same
              exact ⟨_, stop, .part goesOn read on, takes.behind⟩
            · obtain ⟨verdict, final, filled⟩ := once
              cases ended
              subst same
              exact ⟨[], after, .fails goesOn read, .cut rfl stopped adding⟩
      · rw [if_neg comma] at same
        subst same
        exact ⟨[], state, by simp [ListsOn, comma], .through rfl notTrying⟩

/-- The constants of an enum are listed from its opening brace on. -/
theorem Setup.run_lists (ordered : setup.stream.Ordered) (placed : state.Placed setup.stream)
    (notTrying : state.trying = false) {frame : Frame} {outcome : Outcome}
    (same : setup.run (setup.callWith (setup.budget - 1))
      (.omitIf Grammar.endsConstants (.seq Grammar.recoveredConstant furtherConstants)) state
      frame = outcome) :
    ∃ nodes stop, setup.Lists state nodes stop ∧ outcome.Takes frame nodes stop := by
  rw [run_omitIf_ends] at same
  cases goesOn : endsList (setup.stream.kind state.pos) with
  | true =>
      rw [if_pos goesOn] at same
      subst same
      exact ⟨[], state, .ends goesOn, .through rfl notTrying⟩
  | false =>
      rw [if_neg (by simp [goesOn]), run_seq] at same
      generalize found : setup.run _ Grammar.recoveredConstant _ frame = once at same
      rcases setup.run_recoveredPart ordered placed notTrying found with
        ⟨parts, middle, read, rfl⟩ | ⟨after, read, stopped, ended, adding⟩
      · obtain ⟨later, outside, -⟩ := behind_part ordered rfl placed notTrying
          (ordered.lt_last fun atEnd => by simp [atEnd, endsList] at goesOn) read
        obtain ⟨nodes, stop, on, takes⟩ :=
          setup.repeatWhile_lists ordered later outside (Nat.le_refl _) same
        exact ⟨_, stop, .part goesOn read on, takes.behind⟩
      · rw [if_neg (by simp [ended])] at same
        subst same
        exact ⟨[], after, .fails goesOn read, .cut ended stopped adding⟩

/-- Once the parse has been abandoned, a body is not filled any further. -/
theorem Setup.Fills.eq_nil {element : Rule} {strays : Bool} {nodes : List Node} {stop : State}
    (fills : setup.Fills element strays state nodes stop) (fresh : Memo.Slot.of? element = none)
    (isGuarded : element.isGuarded = true) (stopped : state.fatal.isSome = true) : nodes = [] := by
  induction fills with
  | ends | fails => rfl
  | stray _ _ _ ih => exact ih stopped
  | @part state _ _ _ _ _ _ read _ _ =>
      have refused : setup.call element { state with furthest := .none } =
          ⟨none, { state with furthest := .none }⟩ := by
        rw [call_guarded fresh isGuarded]
        simp [guarded, enter, stopped]
      rw [recovered_of_given refused (.inr stopped)] at read
      cases read

/-- The members of an enum end like those of a class. -/
theorem Setup.run_members (notTrying : state.trying = false) (frame : Frame) :
    setup.run (setup.callWith (setup.budget - 1)) (.seq Grammar.members ending) state frame =
      setup.run (setup.callWith (setup.budget - 1)) (.seq (rounds .member true) ending) state
        frame := by
  change setup.run _ (.seq (.seq (rounds .member true) (.when .abandoned .salvage)) ending) state
    frame = _
  have follows := setup.follows_run (setup.keeps_callWith (setup.budget - 1)) (rounds .member true)
    state frame
  rw [run_assoc, setup.run_seq _ (rounds .member true) (.seq (.when .abandoned .salvage) ending),
    setup.run_seq _ (rounds .member true) ending]
  generalize setup.run _ (rounds .member true) state frame = outcome at follows ⊢
  have outside : outcome.state.trying = false := follows.trying_eq.trans notTrying
  split
  · rw [run_seq, run_when_abandoned, run_ending _ outside]
    by_cases stopped : outcome.state.fatal.isSome = true
    · simp [stopped, (setup.salvage_adding outcome.frame outside stopped).1]
    · simp only [if_neg stopped, if_true, run_ending _ outside]
  · rfl

/-- Behind its constants an enum has members, if there is a semicolon, and it is
given up if something else follows that does not close it. -/
theorem Setup.run_behindConstants (ordered : setup.stream.Ordered)
    (placed : state.Placed setup.stream) (notTrying : state.trying = false) {frame : Frame}
    {outcome : Outcome}
    (same : setup.run (setup.callWith (setup.budget - 1))
      (.seq (.when (.is .semicolon) (.seq (.token .semicolon) Grammar.members)) ending) state
      frame = outcome) :
    if state.fatal = none ∧ endsList (setup.stream.kind state.pos) = false then
      outcome.verdict = .failed
    else ∃ members, outcome.Adding frame members ∧
      if state.fatal = none ∧ setup.stream.kind state.pos = .semicolon then
        ∃ last, setup.Fills .member true (setup.advance state) members last
      else members = [] := by
  by_cases semicolon : setup.stream.kind state.pos = .semicolon
  · have outside : (setup.advance state).trying = false := notTrying
    have later := setup.placed_advance placed
    have reads : setup.run (setup.callWith (setup.budget - 1))
        (.seq (rounds .member true) ending) (setup.advance state) frame = outcome := by
      rw [← run_members outside, ← same]
      simp only [Phrase.when, run, holds, Look.is, semicolon, decide_true, if_true]
    obtain ⟨members, last, fills, adding⟩ :=
      setup.run_filled .member true ordered rfl later outside frame
    rw [reads] at adding
    rw [if_neg (by simp [semicolon, endsList])]
    refine ⟨members, adding, ?_⟩
    cases running : state.fatal with
    | none =>
        rw [if_pos ⟨rfl, semicolon⟩]
        exact ⟨last, fills⟩
    | some reason =>
        rw [if_neg (by simp)]
        exact fills.eq_nil rfl rfl (by simp [advance, running])
  · simp only [semicolon, and_false, if_false]
    have reads : setup.run (setup.callWith (setup.budget - 1)) ending state frame = outcome := by
      rw [← same]
      simp only [Phrase.when, run, holds, Look.is, semicolon, decide_false, Bool.false_eq_true,
        if_false]
    rw [run_ending frame notTrying] at reads
    split
    · rename_i lost
      obtain ⟨running, goesOn⟩ := lost
      have noBrace : setup.stream.kind state.pos ≠ .rbrace :=
        fun found => by simp [found, endsList] at goesOn
      have notEnd : setup.stream.kind state.pos ≠ .eof :=
        fun found => by simp [found, endsList] at goesOn
      rw [if_neg (by simp [running]), setup.close_of_open frame noBrace (.inr notEnd)] at reads
      rw [← reads]
    · rename_i kept
      refine ⟨[], ?_, rfl⟩
      split at reads
      · rename_i stopped
        rw [← reads]
        exact (setup.salvage_adding frame notTrying stopped).2
      · rename_i notStopped
        have running : state.fatal = none := Option.not_isSome_iff_eq_none.mp notStopped
        rw [← reads]
        refine setup.close_adding frame notTrying running ?_
        simpa [endsList, endsBody, semicolon, running, or_iff_not_imp_left] using kept

variable (setup) in
/-- The body of an enum that its guard lets in has its constants as children,
and members behind them, unless what follows the constants neither closes the
body nor opens its members. -/
theorem Setup.call_enumBody (ordered : setup.stream.Ordered) (placed : state.Placed setup.stream)
    (brace : setup.stream.kind state.pos = .lbrace) (notTrying : state.trying = false)
    (entered : (setup.enter state).1 = true) :
    ∃ constants stop, setup.Lists (setup.advance (setup.enter state).2) constants stop ∧
      if stop.fatal = none ∧ endsList (setup.stream.kind stop.pos) = false then
        (setup.call .enumBody state).parts? = none
      else ∃ node members marks, (setup.call .enumBody state).parts? = some [node] ∧
        node.kind = .classBody ∧ node.children = constants ++ members ++ marks ∧ Traces marks ∧
        if stop.fatal = none ∧ setup.stream.kind stop.pos = .semicolon then
          ∃ last, setup.Fills .member true (setup.advance stop) members last
        else members = [] := by
  obtain ⟨samePos, opened, outside⟩ := setup.enter_opened placed notTrying entered
  generalize inside : (setup.enter state).2 = inner at samePos opened outside ⊢
  have innerBrace : setup.stream.kind inner.pos = .lbrace := samePos ▸ brace
  rw [call_guarded rfl rfl, guarded_parts entered, inside, runBody_braced body_enumBody innerBrace,
    run_seq]
  generalize listed : setup.run (setup.callWith (setup.budget - 1))
    (.omitIf Grammar.endsConstants (.seq Grammar.recoveredConstant furtherConstants))
    (setup.advance inner) (setup.frame inner .classBody) = outcome
  obtain ⟨constants, stop, lists, takes⟩ := setup.run_lists ordered opened outside listed
  refine ⟨constants, stop, lists, ?_⟩
  cases takes with
  | through read outsideStill =>
      have reached := setup.run_reaches (setup.callWith_advances ordered (setup.budget - 1))
        (.omitIf Grammar.endsConstants (.seq Grammar.recoveredConstant furtherConstants))
        (setup.advance inner) (setup.frame inner .classBody) opened
      rw [listed, read] at reached
      subst read
      rw [if_pos rfl]
      generalize behind : setup.run _ _ stop _ = rest
      have follows := setup.run_behindConstants ordered reached.placed outsideStill behind
      split at follows
      · rename_i lost
        rw [if_pos lost]
        simp only [Setup.enclose, follows, Outcome.reply]
      · rename_i kept
        obtain ⟨members, adding, filled⟩ := follows
        obtain ⟨node, marks, enclosed, isKind, few, children⟩ :=
          adding.behind.enclosed (setup.frame inner .error) (setup.frame inner .error)
        rw [if_neg kept, enclosed]
        exact ⟨node, members, marks, rfl, isKind, children, few, filled⟩
  | cut ended stopped adding =>
      have notRunning : ¬ stop.fatal = none := Option.isSome_iff_ne_none.mp stopped
      obtain ⟨node, marks, enclosed, isKind, few, children⟩ :=
        adding.enclosed (setup.frame inner .error) (setup.frame inner .error)
      have notOk : outcome.verdict ≠ .ok := by simp [ended]
      simp only [notRunning, false_and, if_false, if_neg notOk]
      rw [enclosed]
      exact ⟨node, [], marks, rfl, isKind, by simpa using children, few, rfl⟩

end Enums

end JavaFront.Parser

namespace JavaFront.Source

open JavaFront.Parser

section Bodies

variable (source : Source) (options : Options) (state : State)

/-- A body in braces never gets lost. Outside of trials, and if the guard lets it
in, a block and a class body come of whatever follows an opening brace: parts
that are broken, the end of the text, or a parse that is abandoned anywhere
inside. All that was read behind the brace are children, in the order in which
it was read. Only one empty error node may stand behind it. -/
theorem body_kept {rule element : Rule} {kind : Node.Kind} {strays : Bool}
    (braced : Braced rule kind element strays)
    (inside : state.pos ≤ (Stream.ofSource source).last)
    (reached : MemoReached (Stream.ofSource source) state.memo)
    (brace : (Stream.ofSource source).kind state.pos = .lbrace)
    (outside : ¬ 0 < state.speculating)
    (entered : ((Setup.ofSource source options).enter state).1 = true) :
    let setup := Setup.ofSource source options
    ∃ node parts marks stop, (setup.call rule state).parts? = some [node] ∧ node.kind = kind ∧
      setup.Fills element strays (setup.advance (setup.enter state).2) parts stop ∧
      Traces marks ∧ node.children = parts ++ marks := by
  have ordered := Stream.ofSource_ordered source
  exact braced.call_filled (Setup.ofSource source options) ordered
    ⟨inside, reached.ahead ordered⟩ brace (by simpa [State.trying] using outside) entered

/-- A block in which the parse is abandoned: the limit is reached inside of its
third statement. -/
def nested : Setup :=
  .ofSource (of [] "\x7b a(); ) b(); \x7b c((1)); \x7d d(); \x7d") { maxDepth := 6 }

/-- The call, the error and the block in which reading stopped are kept. -/
theorem body_kept_nested :
    (nested.call .block nested.initial).state.fatal = some (.tooDeep 6) ∧
      ∃ node parts marks stop, (nested.call .block nested.initial).parts? = some [node] ∧
        node.kind = .block ∧ node.children.map Node.kind = [.exprStmt, .error, .block] ∧
        nested.Fills .blockStatement false (nested.advance (nested.enter nested.initial).2) parts
          stop ∧
        Traces marks ∧ node.children = parts ++ marks := by
  obtain ⟨node, parts, marks, stop, built, isKind, fills, few, children⟩ :=
    body_kept (of [] "\x7b a(); ) b(); \x7b c((1)); \x7d d(); \x7d") { maxDepth := 6 }
      nested.initial .block
      (Nat.zero_le _) .empty (by decide +kernel) (by decide) (by decide +kernel)
  have kinds : (nested.call .block nested.initial).parts?.map
      (·.map fun node => node.children.map Node.kind) = some [[.exprStmt, .error, .block]] := by
    decide +kernel
  have whole : (nested.call .block nested.initial).parts? = some [node] := built
  rw [whole] at kinds
  exact ⟨by decide +kernel, node, parts, marks, stop, built, isKind, by simpa using kinds, fills,
    few, children⟩

/-- A body of an enum whose second constant is broken. Skipping it takes the
semicolon along, so a member follows the constants. -/
def misnumbered : Setup :=
  .ofSource (of [] "enum E \x7b A, 1; int x; \x7d") {}

/-- The body is lost, and the constant in front of the broken one with it. -/
theorem enumBody_lost :
    misnumbered.stream.kind 2 = .lbrace ∧
      (misnumbered.enter { misnumbered.initial with pos := 2 }).1 = true ∧
      ¬ 0 < misnumbered.initial.speculating ∧
      (misnumbered.call .enumConstant { misnumbered.initial with pos := 3 }).parts?.isSome = true ∧
      (misnumbered.call .enumBody { misnumbered.initial with pos := 2 }).parts? = none := by
  decide +kernel

/-- Outside of trials, and if the guard lets it in, the body of an enum has all
of its constants as children, in the order in which they were read, and its
members behind them. It is lost where another token than a semicolon, a closing
brace or the end of the text follows the constants, unless the parse was
abandoned there. -/
theorem enumBody_kept (inside : state.pos ≤ (Stream.ofSource source).last)
    (reached : MemoReached (Stream.ofSource source) state.memo)
    (brace : (Stream.ofSource source).kind state.pos = .lbrace)
    (outside : ¬ 0 < state.speculating)
    (entered : ((Setup.ofSource source options).enter state).1 = true) :
    let setup := Setup.ofSource source options
    ∃ constants stop, setup.Lists (setup.advance (setup.enter state).2) constants stop ∧
      if stop.fatal = none ∧ endsList (setup.stream.kind stop.pos) = false then
        (setup.call .enumBody state).parts? = none
      else ∃ node members marks, (setup.call .enumBody state).parts? = some [node] ∧
        node.kind = .classBody ∧ node.children = constants ++ members ++ marks ∧ Traces marks ∧
        if stop.fatal = none ∧ setup.stream.kind stop.pos = .semicolon then
          ∃ last, setup.Fills .member true (setup.advance stop) members last
        else members = [] := by
  have ordered := Stream.ofSource_ordered source
  exact (Setup.ofSource source options).call_enumBody ordered
    ⟨inside, reached.ahead ordered⟩ brace (by simpa [State.trying] using outside) entered

/-- The body of an enum that the end of the text cuts off. -/
def unclosed : Setup :=
  .ofSource (of [] "\x7b A, B(1) \x7b int x; \x7d; int y; ) z") {}

/-- The constants, the field and the broken member are kept. -/
theorem enumBody_kept_unclosed :
    ∃ constants stop node members marks,
      unclosed.Lists (unclosed.advance (unclosed.enter unclosed.initial).2) constants stop ∧
      (unclosed.call .enumBody unclosed.initial).parts? = some [node] ∧
      node.children.map Node.kind = [.enumConstant, .enumConstant, .fieldDecl, .error, .error] ∧
      node.children = constants ++ members ++ marks ∧ Traces marks := by
  obtain ⟨constants, stop, lists, follows⟩ :=
    enumBody_kept (of [] "\x7b A, B(1) \x7b int x; \x7d; int y; ) z") {} unclosed.initial
      (Nat.zero_le _) .empty (by decide +kernel) (by decide) (by decide +kernel)
  have kinds : (unclosed.call .enumBody unclosed.initial).parts?.map
      (·.map fun node => node.children.map Node.kind) =
        some [[.enumConstant, .enumConstant, .fieldDecl, .error, .error]] := by
    decide +kernel
  split at follows
  · have lost : (unclosed.call .enumBody unclosed.initial).parts? = none := follows
    rw [lost] at kinds
    cases kinds
  · obtain ⟨node, members, marks, built, -, children, few, -⟩ := follows
    have whole : (unclosed.call .enumBody unclosed.initial).parts? = some [node] := built
    rw [whole] at kinds
    exact ⟨constants, stop, node, members, marks, lists, built, by simpa using kinds, children, few⟩

end Bodies

end JavaFront.Source
