import JavaFront.Proofs.Parser.Comparison
import JavaFront.Proofs.Parser.MemoTable
import JavaFront.Proofs.Parser.Whole
import JavaFront.Proofs.Tree.Bare

/-!
# Layout makes no difference

Two texts with the same tokens are parsed in the same way, whatever stands
between the tokens and wherever they stand. The two parses go side by side: all
that a step looks at is the same for both, and what it leaves differs in places
and comments only.
-/

namespace JavaFront

namespace Memo

/-- An outcome without the places of its parts. -/
def Outcome.bare (outcome : Outcome) : Outcome :=
  { outcome with parts? := outcome.parts?.map (·.map Node.bare) }

/-- The tables keep outcomes under the same keys that differ in places only. -/
structure Alike (first second : Memo) : Prop where
  entries : ∀ key : Key,
    first.table[key]?.map Outcome.bare = second.table[key]?.map Outcome.bare
  size : first.size = second.size
  hits : first.hits = second.hits
  misses : first.misses = second.misses

namespace Alike

variable {first second : Memo}

theorem contains_eq (alike : first.Alike second) (key : Key) :
    first.table.contains key = second.table.contains key := by
  have found := congrArg Option.isSome (alike.entries key)
  rwa [Option.isSome_map, Option.isSome_map, ← Std.TreeMap.contains_eq_isSome_getElem?,
    ← Std.TreeMap.contains_eq_isSome_getElem?] at found

theorem put (alike : first.Alike second) (key : Key) {outcome other : Outcome}
    (same : outcome.bare = other.bare) : (first.put key outcome).Alike (second.put key other) := by
  refine ⟨fun searched => ?_, ?_, alike.hits, alike.misses⟩
  · simp only [Memo.put, Std.TreeMap.getElem?_insert]
    split
    · exact congrArg some same
    · exact alike.entries searched
  · have sizes := alike.size
    simp only [Memo.size] at sizes
    simp only [Memo.put, Memo.size, Std.TreeMap.size_insert, alike.contains_eq, sizes]

/-- A look-up finds alike outcomes or nothing, and counts the same. -/
theorem get (alike : first.Alike second) (key : Key) :
    (first.get key).1.map Outcome.bare = (second.get key).1.map Outcome.bare ∧
      (first.get key).2.Alike (second.get key).2 := by
  refine ⟨by rw [get_fst, get_fst, alike.entries], ?_⟩
  have found := alike.contains_eq key
  rw [Std.TreeMap.contains_eq_isSome_getElem?, Std.TreeMap.contains_eq_isSome_getElem?] at found
  simp only [Memo.get]
  split
  · split
    · exact ⟨alike.entries, alike.size, congrArg (· + 1) alike.hits, alike.misses⟩
    · simp_all
  · split
    · simp_all
    · exact ⟨alike.entries, alike.size, alike.hits, congrArg (· + 1) alike.misses⟩

end Alike

end Memo

namespace Parser

/-! ## Alike states and frames -/

/-- The states differ in the places of their diagnostics and of the parts in
their memo tables only. -/
structure State.Alike (first second : State) : Prop where
  pos : first.pos = second.pos
  furthest : first.furthest = second.furthest
  speculating : first.speculating = second.speculating
  depth : first.depth = second.depth
  steps : first.steps = second.steps
  fatal : first.fatal = second.fatal
  cut : first.cut = second.cut
  speculations : first.speculations = second.speculations
  diagnostics : first.diagnostics.toList.map Diagnostic.bare =
    second.diagnostics.toList.map Diagnostic.bare
  memo : first.memo.Alike second.memo

/-- A frame without places. -/
def Frame.bare (frame : Frame) : Frame :=
  { kind := frame.kind, start := .origin, token := frame.token.map Token.bare,
    parts := frame.parts.map Node.bare }

/-- Two runs keep together if they differ in places only. They never part. -/
def layoutLikeness : Likeness where
  states := State.Alike
  frames frame other := frame.bare = other.bare
  parts parts others := parts.map Node.bare = others.map Node.bare
  parted _ _ := False

/-- The setups have alike streams and the same options. -/
structure Setup.Alike (first second : Setup) : Prop where
  stream : first.stream.Alike second.stream
  options : first.options = second.options

section Frames

variable {frame other : Frame}

theorem Frame.bare_eq (kind : frame.kind = other.kind)
    (token : frame.token.map Token.bare = other.token.map Token.bare)
    (parts : frame.parts.map Node.bare = other.parts.map Node.bare) : frame.bare = other.bare := by
  simp only [bare, kind, token, parts]

theorem Frame.fields_of_bare (same : frame.bare = other.bare) :
    frame.kind = other.kind ∧ frame.token.map Token.bare = other.token.map Token.bare ∧
      frame.parts.map Node.bare = other.parts.map Node.bare := by
  simp only [bare, Frame.mk.injEq] at same
  exact ⟨same.1, same.2.2.1, same.2.2.2⟩

theorem Frame.pushAll_bare {parts others : List Node} (same : frame.bare = other.bare)
    (sameParts : parts.map Node.bare = others.map Node.bare) :
    (frame.pushAll parts).bare = (other.pushAll others).bare := by
  obtain ⟨kind, token, rest⟩ := fields_of_bare same
  refine bare_eq kind token ?_
  simp only [pushAll, List.map_append, sameParts, rest]

theorem Frame.push_bare {part twin : Node} (same : frame.bare = other.bare)
    (samePart : part.bare = twin.bare) : (frame.push part).bare = (other.push twin).bare :=
  @pushAll_bare frame other [part] [twin] same (congrArg (fun node => [node]) samePart)

theorem Frame.toNode_bare (same : frame.bare = other.bare) (stop twinStop : Pos) :
    (frame.toNode stop).bare = (other.toNode twinStop).bare := by
  obtain ⟨kind, token, parts⟩ := fields_of_bare same
  simp only [Node.bare_eq, toNode, List.map_reverse, kind, token, parts]

theorem Frame.document_bare (same : frame.bare = other.bare) (doc twinDoc : Option Token) :
    (frame.document doc).bare = (other.document twinDoc).bare := by
  have undocumented : ∀ (frame : Frame) doc, (frame.document doc).bare = frame.bare := by
    intro frame doc
    simp only [document]
    split
    · rfl
    · rename_i latest others parts
      exact bare_eq rfl rfl (by simp [parts, Node.bare_doc])
  rw [undocumented, undocumented, same]

theorem Frame.latest_of_bare (same : frame.bare = other.bare) :
    layoutLikeness.Latest frame other := by
  obtain ⟨kind, token, parts⟩ := fields_of_bare same
  cases found : frame.parts with
  | nil =>
      rw [found, List.map_nil, eq_comm, List.map_eq_nil_iff] at parts
      exact .none found parts
  | cons latest others =>
      cases twinFound : other.parts with
      | nil => simp [found, twinFound] at parts
      | cons twin twins =>
          rw [found, twinFound, List.map_cons, List.map_cons, List.cons.injEq] at parts
          refine .some latest others twin twins found twinFound (bare_eq kind token parts.2)
            (fun _ => bare_eq rfl rfl (by simp [parts.1])) (fun _ => bare_eq rfl rfl ?_)
          simp only [List.map_reverse, Node.children_of_bare parts.1]

end Frames

/-! ## Steps -/

section Steps

variable {left right : Setup} {state twin : State} {frame other : Frame}

theorem Setup.Alike.holds_eq (setups : left.Alike right) (states : state.Alike twin)
    (frames : frame.bare = other.bare) (look : Look) :
    left.holds state frame look = right.holds twin other look := by
  have sameNames : ∀ budget index,
      left.genericNameAt budget index = right.genericNameAt budget index := by
    intro budget
    induction budget with
    | zero => exact fun index => rfl
    | succ budget ih =>
        intro index
        simp only [genericNameAt, setups.stream.kind_eq, ih]
  have onLatest : ∀ test : Node → Bool,
      (∀ {part twin : Node}, part.bare = twin.bare → test part = test twin) →
      frame.parts.head?.any test = other.parts.head?.any test := by
    intro test sameTest
    have heads := congrArg List.head? (Frame.fields_of_bare frames).2.2
    rw [List.head?_map, List.head?_map] at heads
    cases found : frame.parts.head? <;> cases twinFound : other.parts.head? <;>
      simp only [found, twinFound, Option.map_some, Option.map_none, reduceCtorEq,
        Option.some.injEq] at heads
    · rfl
    · exact sameTest heads
  induction look with
  | here accept | next accept => simp only [holds, setups.stream.kind_eq, states.pos]
  | operator accept => simp only [holds, setups.stream.operator_eq, states.pos]
  | genericName => simp only [holds, setups.stream.size_eq, states.pos, sameNames]
  | latest kind => exact onLatest _ fun same => by rw [Node.kind_of_bare same]
  | latestVariadic => exact onLatest _ isVariadic_of_bare
  | abandoned => simp only [holds, states.fatal]
  | not look ih => simp only [holds, ih]
  | and first second firstIh secondIh => simp only [holds, firstIh, secondIh]
  | or first second firstIh secondIh => simp only [holds, firstIh, secondIh]

/-- What is found and expected at a place reads the same in both texts. -/
theorem Setup.Alike.diagnose_bare (setups : left.Alike right) (states : state.Alike twin)
    (failure : Failure) :
    (left.diagnose state failure).bare = (right.diagnose twin failure).bare := by
  have sameFound := fun index => Token.describe_of_bare (setups.stream.bare_eq index)
  have sameMessage : ∀ index, Diagnostic.unexpected failure.expected (left.stream.get index) =
      Diagnostic.unexpected failure.expected (right.stream.get index) := by
    intro index
    simp only [Diagnostic.unexpected, sameFound]
  simp only [diagnose, Diagnostic.bare, states.pos, sameMessage, sameFound]

theorem Setup.Alike.report (setups : left.Alike right) (states : state.Alike twin)
    (failure : Failure) : (left.report state failure).Alike (right.report twin failure) := by
  have sameDiagnostic := setups.diagnose_bare states failure
  have sameIndex : (if failure.pos < 0 then state.pos else failure.pos.toNat) =
      if failure.pos < 0 then twin.pos else failure.pos.toNat := by
    rw [states.pos]
  simp only [Setup.report]
  rw [sameIndex, setups.stream.kind_eq]
  generalize (if failure.pos < 0 then twin.pos else failure.pos.toNat) = index
  split
  · exact states
  · refine { states with diagnostics := ?_ }
    simp [states.diagnostics, sameDiagnostic]

theorem Setup.Alike.abandon (setups : left.Alike right) (states : state.Alike twin)
    (reason : Abandonment) : (left.abandon state reason).Alike (right.abandon twin reason) := by
  have sameFound := Token.describe_of_bare (setups.stream.bare_eq twin.pos)
  simp only [Setup.abandon, states.fatal]
  split
  · exact states
  · refine { states with fatal := rfl, diagnostics := ?_ }
    simp [states.diagnostics, Diagnostic.bare, current, states.pos, sameFound]

theorem Setup.Alike.advance (setups : left.Alike right) (states : state.Alike twin) :
    (left.advance state).Alike (right.advance twin) :=
  { states with pos := by simp only [Setup.advance, setups.stream.succ_eq, states.pos] }

theorem Setup.Alike.errorMark_bare (setups : left.Alike right) (states : state.Alike twin)
    (message : Bytes) (expected : List String) :
    (left.errorMark state message expected).bare =
      (right.errorMark twin message expected).bare := by
  simp only [Node.bare_eq, errorMark, Option.map_some, Node.Fault.bare, current, states.pos,
    setups.stream.bare_eq]

theorem Setup.Alike.close (setups : left.Alike right) (kind : Token.Kind)
    (states : state.Alike twin) (frames : frame.bare = other.bare) :
    layoutLikeness.Outcomes (left.close kind state frame) (right.close kind twin other) := by
  have failed : (state.fail kind.describe).Alike (twin.fail kind.describe) :=
    { states with furthest := by simp only [State.fail, states.furthest, states.pos] }
  simp only [Setup.close]
  rw [setups.stream.kind_eq, states.pos]
  split
  · exact .alike (setups.advance states) frames
  · generalize state.fail kind.describe = state at failed ⊢
    generalize twin.fail kind.describe = twin at failed ⊢
    rw [failed.speculating, failed.fatal, failed.pos, setups.stream.kind_eq, failed.furthest]
    split
    · exact .alike failed frames
    · have sameDiagnostic := setups.diagnose_bare failed twin.furthest
      simp only [Diagnostic.bare, Diagnostic.mk.injEq] at sameDiagnostic
      obtain ⟨-, -, -, sameMessage, -, sameExpected⟩ := sameDiagnostic
      have reported : State.Alike
          { left.report state twin.furthest with furthest := .none }
          { right.report twin twin.furthest with furthest := .none } :=
        { setups.report failed twin.furthest with furthest := rfl }
      rw [sameMessage, sameExpected]
      exact .alike reported (Frame.push_bare frames (setups.errorMark_bare reported _ _))

theorem Setup.Alike.salvage (setups : left.Alike right) (states : state.Alike twin)
    (frames : frame.bare = other.bare) :
    layoutLikeness.Outcomes (left.salvage state frame) (right.salvage twin other) := by
  simp only [Setup.salvage]
  rw [states.fatal]
  split
  · exact .alike states frames
  · rw [states.speculating, states.cut]
    split
    · exact .alike states frames
    · split
      · exact .alike states frames
      · exact .alike { states with speculating := rfl, fatal := rfl, cut := rfl }
          (Frame.push_bare frames (setups.errorMark_bare states _ _))

theorem Setup.Alike.steps (setups : left.Alike right) : layoutLikeness.Steps left right where
  rounds := by
    intro state twin states
    rw [setups.stream.size_eq, states.pos]
  kind := by
    intro state twin states
    rw [setups.stream.kind_eq, states.pos]
  holds := by
    intro look state twin frame other states frames
    exact setups.holds_eq states frames look
  advance := setups.advance
  operator := by
    intro state twin states
    exact { states with pos := by rw [setups.stream.afterOperator_eq, states.pos] }
  failAll := by
    intro texts state twin states
    exact { states with
      furthest := by simp only [State.failAll, states.furthest, states.pos] }
  close := by
    intro kind state twin frame other states frames
    exact setups.close kind states frames
  salvage := by
    intro state twin frame other states frames
    exact setups.salvage states frames
  opened := fun kind {state twin} _ => Frame.bare_eq rfl rfl rfl
  origin := fun kind => rfl
  leaf := by
    intro kind state twin frame other states frames
    refine Frame.push_bare frames (Node.bare_leaf kind ?_)
    rw [Setup.current, Setup.current, states.pos, setups.stream.bare_eq]
  operatorLeaf := by
    intro state twin frame other states frames
    refine Frame.push_bare frames (Node.bare_leaf .operator ?_)
    rw [states.pos, setups.stream.operatorToken_bare]
  mark := by
    intro state twin frame other states frames
    obtain ⟨kind, -, parts⟩ := Frame.fields_of_bare frames
    refine Frame.bare_eq kind ?_ parts
    simp only [Setup.current, Option.map_some, states.pos, setups.stream.bare_eq]
  rekind := by
    intro kind frame other frames
    obtain ⟨-, token, parts⟩ := Frame.fields_of_bare frames
    exact Frame.bare_eq rfl token parts
  finish := by
    intro state twin frame other inner filled states frames inners
    exact Frame.push_bare frames (Frame.toNode_bare inners _ _)
  cover := by
    intro frame other inner filled frames inners
    exact Frame.push_bare frames (Frame.toNode_bare inners _ _)
  latest := Frame.latest_of_bare
  parts := fun frames => (Frame.fields_of_bare frames).2.2
  pushAll := Frame.pushAll_bare
  document := by
    intro state twin frame other states frames
    exact Frame.document_bare frames _ _

end Steps

/-! ## Rules -/

/-- Two rules leave parts and states that differ in places only. -/
def Reply.Alike (reply twinReply : Reply) : Prop :=
  layoutLikeness.Options reply.parts? twinReply.parts? ∧ reply.state.Alike twinReply.state

/-- Two ways to run a rule lead from alike states to alike replies. -/
def KeepsAlike (run twinRun : State → Reply) : Prop :=
  ∀ ⦃state twin : State⦄, state.Alike twin → (run state).Alike (twinRun twin)

section Rules

variable {left right : Setup} {run twinRun : State → Reply} {state twin : State}

theorem layoutLikeness_options {parts? twins? : Option (List Node)} :
    layoutLikeness.Options parts? twins? ↔
      parts?.map (·.map Node.bare) = twins?.map (·.map Node.bare) := by
  constructor
  · intro alike
    cases alike with
    | none => rfl
    | some same => exact congrArg some same
  · intro same
    cases parts? <;> cases twins? <;>
      simp only [Option.map_some, Option.map_none, reduceCtorEq, Option.some.injEq] at same
    · exact .none
    · exact .some same

theorem Setup.Alike.enter (setups : left.Alike right) (states : state.Alike twin) :
    (left.enter state).1 = (right.enter twin).1 ∧
      (left.enter state).2.Alike (right.enter twin).2 := by
  have stepped : State.Alike { state with steps := state.steps + 1 }
      { twin with steps := twin.steps + 1 } :=
    { states with steps := congrArg (· + 1) states.steps }
  have sameCancel : left.canceledAt (state.steps + 1) = right.canceledAt (twin.steps + 1) := by
    simp only [canceledAt, setups.options, states.steps]
  have sameStopped : state.fatal.isSome = twin.fatal.isSome := by rw [states.fatal]
  have sameDeep : (right.options.maxDepth ≤ state.depth) =
      (right.options.maxDepth ≤ twin.depth) := by
    rw [states.depth]
  simp only [Setup.enter, sameStopped, setups.options, sameDeep, sameCancel]
  split
  · exact ⟨rfl, states⟩
  · split
    · exact ⟨rfl, setups.abandon states _⟩
    · split
      · exact ⟨rfl, setups.abandon stepped .canceled⟩
      · exact ⟨rfl, { stepped with depth := congrArg (· + 1) states.depth }⟩

theorem KeepsAlike.guarded (setups : left.Alike right) (keeps : KeepsAlike run twinRun) :
    KeepsAlike (left.guarded run) (right.guarded twinRun) := by
  intro state twin states
  have entered := setups.enter states
  simp only [Setup.guarded]
  generalize left.enter state = door at entered ⊢
  generalize right.enter twin = twinDoor at entered ⊢
  obtain ⟨admitted, inside⟩ := door
  obtain ⟨_, twinInside⟩ := twinDoor
  obtain ⟨rfl, entered⟩ := entered
  cases admitted with
  | false => exact ⟨.none, entered⟩
  | true =>
      obtain ⟨parts, after⟩ := keeps entered
      exact ⟨parts, { after with depth := congrArg (· - 1) after.depth }⟩

theorem KeepsAlike.remember (keeps : KeepsAlike run twinRun) (key : Memo.Key) :
    KeepsAlike (remember key run) (remember key twinRun) := by
  intro state twin states
  have fresh : State.Alike { state with furthest := .none } { twin with furthest := .none } :=
    { states with furthest := rfl }
  have inner := keeps fresh
  simp only [Parser.remember]
  generalize run { state with furthest := .none } = reply at inner ⊢
  generalize twinRun { twin with furthest := .none } = twinReply at inner ⊢
  obtain ⟨parts?, after⟩ := reply
  obtain ⟨twins?, twinAfter⟩ := twinReply
  obtain ⟨parts, later⟩ := inner
  have merged : State.Alike { after with furthest := state.furthest.merge after.furthest }
      { twinAfter with furthest := twin.furthest.merge twinAfter.furthest } :=
    { later with furthest := congrArg₂ Failure.merge states.furthest later.furthest }
  have sameStopped : after.fatal.isSome = twinAfter.fatal.isSome := by rw [later.fatal]
  have samePos : after.pos = twinAfter.pos := later.pos
  have sameFurthest : after.furthest = twinAfter.furthest := later.furthest
  have sameParts := layoutLikeness_options.mp parts
  have sameSuccess := congrArg Option.isSome sameParts
  rw [Option.isSome_map, Option.isSome_map] at sameSuccess
  dsimp only at sameSuccess sameParts ⊢
  rw [sameStopped]
  split
  · exact ⟨parts, merged⟩
  · refine ⟨parts, { merged with memo := later.memo.put key ?_ }⟩
    simp only [Memo.Outcome.bare, sameParts, sameSuccess, samePos, sameFurthest]

theorem KeepsAlike.memoized (keeps : KeepsAlike run twinRun) (slot : Memo.Slot) :
    KeepsAlike (memoized slot run) (memoized slot twinRun) := by
  intro state twin states
  obtain ⟨sameFound, lookedUp⟩ := states.memo.get ⟨slot, twin.pos⟩
  have counted : State.Alike { state with memo := (state.memo.get ⟨slot, twin.pos⟩).2 }
      { twin with memo := (twin.memo.get ⟨slot, twin.pos⟩).2 } :=
    { states with memo := lookedUp }
  have sameKey : (⟨slot, state.pos⟩ : Memo.Key) = ⟨slot, twin.pos⟩ := by rw [states.pos]
  simp only [Parser.memoized]
  rw [sameKey]
  generalize state.memo.get ⟨slot, twin.pos⟩ = found at sameFound counted ⊢
  generalize twin.memo.get ⟨slot, twin.pos⟩ = twinFound at sameFound counted ⊢
  obtain ⟨outcome?, memo⟩ := found
  obtain ⟨twinOutcome?, twinMemo⟩ := twinFound
  have remembered := keeps.remember ⟨slot, twin.pos⟩ counted
  dsimp only at sameFound counted remembered ⊢
  cases outcome? with
  | none =>
      cases twinOutcome? with
      | none => exact remembered
      | some twinOutcome => cases sameFound
  | some outcome =>
      cases twinOutcome? with
      | none => cases sameFound
      | some twinOutcome =>
          obtain ⟨parts?, stop, furthest⟩ := outcome
          obtain ⟨twins?, _, _⟩ := twinOutcome
          simp only [Memo.Outcome.bare, Option.map_some, Option.some.injEq,
            Memo.Outcome.mk.injEq] at sameFound
          obtain ⟨sameParts, rfl, rfl⟩ := sameFound
          have merged : State.Alike
              { state with memo := memo, furthest := state.furthest.merge furthest }
              { twin with memo := twinMemo, furthest := twin.furthest.merge furthest } :=
            { counted with furthest := by rw [states.furthest] }
          cases layoutLikeness_options.mpr sameParts with
          | some same => exact ⟨.some same, { merged with pos := rfl }⟩
          | none =>
              dsimp only
              by_cases guessing : 0 < twin.speculating
              · rw [if_pos guessing, if_pos (states.speculating ▸ guessing)]
                exact ⟨.none, merged⟩
              · rw [if_neg guessing, if_neg (states.speculating ▸ guessing)]
                exact remembered

theorem KeepsAlike.trial (keeps : KeepsAlike run twinRun) (states : state.Alike twin) :
    layoutLikeness.Trials (trial run state) (trial twinRun twin) := by
  have tried : State.Alike { state with speculating := state.speculating + 1 }
      { twin with speculating := twin.speculating + 1 } :=
    { states with speculating := congrArg (· + 1) states.speculating }
  obtain ⟨parts, after⟩ := keeps tried
  have sameSuccess := congrArg Option.isSome (layoutLikeness_options.mp parts)
  rw [Option.isSome_map, Option.isSome_map] at sameSuccess
  exact .inl ⟨sameSuccess, { after with
    pos := states.pos
    furthest := states.furthest
    speculating := congrArg (· - 1) after.speculating
    speculations := congrArg (· + 1) after.speculations }⟩

theorem Setup.Alike.skip (setups : left.Alike right) (states : state.Alike twin) (message : Bytes)
    (expected : List String) :
    (left.skip state message expected).1.bare = (right.skip twin message expected).1.bare ∧
      (left.skip state message expected).2.Alike (right.skip twin message expected).2 := by
  have sameResume : ∀ start budget depth pos,
      left.resume start budget depth pos = right.resume start budget depth pos := by
    intro start budget
    induction budget with
    | zero => exact fun depth pos => rfl
    | succ budget ih =>
        intro depth pos
        simp only [resume, ih, setups.stream.kind_eq, setups.stream.succ_eq]
  constructor
  · simp only [Setup.skip, Node.bare_eq, Option.map_some, Node.Fault.bare, current, states.pos,
      setups.stream.bare_eq]
  · exact { states with
      pos := by simp only [Setup.skip, sameResume, setups.stream.size_eq, states.pos] }

theorem KeepsAlike.recovered (setups : left.Alike right) (keeps : KeepsAlike run twinRun) :
    KeepsAlike (left.recovered run) (right.recovered twinRun) := by
  intro state twin states
  have fresh : State.Alike { state with furthest := .none } { twin with furthest := .none } :=
    { states with furthest := rfl }
  have inner := keeps fresh
  simp only [Setup.recovered]
  generalize run { state with furthest := .none } = reply at inner ⊢
  generalize twinRun { twin with furthest := .none } = twinReply at inner ⊢
  obtain ⟨parts?, after⟩ := reply
  obtain ⟨twins?, twinAfter⟩ := twinReply
  obtain ⟨parts, later⟩ := inner
  cases parts with
  | some same => exact ⟨.some same, { later with furthest := states.furthest }⟩
  | none =>
      dsimp only at later ⊢
      have sameGiven : (decide (0 < after.speculating) || after.fatal.isSome) =
          (decide (0 < twinAfter.speculating) || twinAfter.fatal.isSome) := by
        rw [later.speculating, later.fatal]
      rw [sameGiven]
      split
      · exact ⟨.none, { later with
          furthest := congrArg₂ Failure.merge states.furthest later.furthest }⟩
      · have sameDiagnostic := setups.diagnose_bare later twinAfter.furthest
        simp only [Diagnostic.bare, Diagnostic.mk.injEq] at sameDiagnostic
        obtain ⟨-, -, -, sameMessage, -, sameExpected⟩ := sameDiagnostic
        rw [later.furthest, sameMessage, sameExpected]
        have reported : State.Alike
            { left.report after twinAfter.furthest with
              furthest := state.furthest, pos := state.pos }
            { right.report twinAfter twinAfter.furthest with
              furthest := twin.furthest, pos := twin.pos } :=
          { setups.report later twinAfter.furthest with
            furthest := states.furthest, pos := states.pos }
        obtain ⟨sameNode, resumed⟩ := setups.skip reported
          (right.diagnose twinAfter twinAfter.furthest).message
          (right.diagnose twinAfter twinAfter.furthest).expected
        exact ⟨.some (congrArg (fun node => [node]) sameNode), resumed⟩

/-- Calls that keep to the layout-free view never part. -/
theorem KeepsAlike.calls (setups : left.Alike right) {call twinCall : Caller}
    (keeps : ∀ rule, KeepsAlike (call rule) (twinCall rule)) :
    layoutLikeness.Calls left right call twinCall where
  calls := fun rule {_ _} states => .inl (keeps rule states)
  trials := fun rule {_ _} states => (keeps rule).trial states
  recovers := fun rule {_ _} states => .inl ((keeps rule).recovered setups states)
  leftStays := fun _ {_ _} _ => id
  rightStays := fun _ {_ _} _ => id

theorem Setup.Alike.callWith (setups : left.Alike right) (budget : Nat) (rule : Rule) :
    KeepsAlike (left.callWith budget rule) (right.callWith budget rule) := by
  induction budget generalizing rule with
  | zero => exact fun state twin states => ⟨.none, states⟩
  | succ budget ih =>
      have body : KeepsAlike (left.runBody (left.callWith budget) rule)
          (right.runBody (right.callWith budget) rule) := by
        intro state twin states
        exact ((KeepsAlike.calls setups ih).runBody setups.steps rule states).resolve_right id
      have entered : KeepsAlike (left.entered (left.callWith budget) rule)
          (right.entered (right.callWith budget) rule) := by
        simp only [Setup.entered]
        split
        · exact body.guarded setups
        · exact body
      simp only [Setup.callWith, Setup.runRule_eq, setups.options]
      cases Memo.Slot.of? rule with
      | none => exact entered
      | some slot =>
          dsimp only
          split
          · exact entered.memoized slot
          · exact entered

theorem Setup.Alike.call (setups : left.Alike right) (rule : Rule) :
    KeepsAlike (left.call rule) (right.call rule) := by
  have sameBudget : left.budget = right.budget := by
    simp only [Setup.budget, setups.stream.size_eq]
  intro state twin states
  simp only [Setup.call, sameBudget]
  exact setups.callWith right.budget rule states

end Rules

/-! ## Whole parses -/

section Parses

variable {left right : Setup}

theorem Setup.Alike.initial (setups : left.Alike right) : left.initial.Alike right.initial := by
  have sameReport : ∀ (setup : Setup) (token : Token), (setup.lexicalError token).bare =
      (right.lexicalError token.bare).bare := fun setup token => rfl
  refine ⟨rfl, rfl, rfl, rfl, rfl, rfl, rfl, rfl, ?_, fun _ => rfl, rfl, rfl, rfl⟩
  have sameErrors := congrArg (List.map fun token => (right.lexicalError token).bare)
    setups.stream.lexicalErrors_bare
  rw [List.map_map, List.map_map] at sameErrors
  simp only [Setup.initial, List.map_map]
  exact sameErrors

/-- The tree of a reply in places only. -/
theorem Reply.Alike.node {reply twinReply : Reply} (replies : reply.Alike twinReply) :
    (reply.parts?.bind List.head?).map Node.bare =
      (twinReply.parts?.bind List.head?).map Node.bare := by
  have sameParts := layoutLikeness_options.mp replies.1
  have heads := congrArg (Option.bind · List.head?) sameParts
  simpa only [Option.bind_map, Function.comp_def, List.head?_map, Option.map_bind] using heads

theorem Setup.Alike.whole (setups : left.Alike right) (rule : Rule) {state twin : State}
    (states : state.Alike twin) :
    (left.whole rule state).1.map Node.bare = (right.whole rule twin).1.map Node.bare ∧
      (left.whole rule state).2.Alike (right.whole rule twin).2 := by
  have replies := setups.call rule states
  simp only [Setup.whole]
  generalize left.call rule state = reply at replies ⊢
  generalize right.call rule twin = twinReply at replies ⊢
  have sameNode := replies.node
  have after := replies.2
  have sameBuilt := congrArg Option.isSome sameNode
  rw [Option.isSome_map, Option.isSome_map] at sameBuilt
  rw [after.fatal, sameBuilt, after.pos, setups.stream.kind_eq]
  have failed : (reply.state.fail (Token.Kind.describe .eof)).Alike
      (twinReply.state.fail (Token.Kind.describe .eof)) :=
    { after with furthest := by simp only [State.fail, after.furthest, after.pos] }
  split
  · exact ⟨sameNode, after⟩
  · split
    · exact ⟨sameNode, after⟩
    · refine ⟨rfl, ?_⟩
      split
      · rw [failed.furthest]
        exact setups.report failed _
      · rw [after.furthest]
        exact setups.report after _

theorem Setup.Alike.enterAt (setups : left.Alike right) (entry : Entry) :
    (left.enterAt entry).1.map Node.bare = (right.enterAt entry).1.map Node.bare ∧
      (left.enterAt entry).2.Alike (right.enterAt entry).2 := by
  cases entry with
  | unit =>
      have replies := setups.call .compilationUnit setups.initial
      exact ⟨replies.node, replies.2⟩
  | expression => exact setups.whole .expression setups.initial
  | statement => exact setups.whole .blockStatement setups.initial

theorem Setup.Alike.stats (setups : left.Alike right) {state twin : State}
    (states : state.Alike twin) : left.stats state = right.stats twin := by
  simp only [Setup.stats, setups.stream.size_eq, states.steps, states.speculations,
    states.memo.size, states.memo.hits, states.memo.misses]

end Parses

end Parser

namespace Source

open JavaFront.Parser

/-- Layout makes no difference. Two texts whose significant tokens have the same
kinds and texts, with the same `<` and `>` touching the token behind them, are
parsed to the same tree and the same diagnostics but for places and comments,
with the same work and to the same end. -/
theorem parse_layout (first second : Source) (entry : Entry) (options : Options)
    (unlimited : options.maxSize ≤ 0)
    (sameTokens : (Stream.ofSource first).tokens.map (fun token => (token.kind, token.text)) =
      (Stream.ofSource second).tokens.map fun token => (token.kind, token.text))
    (touch : ∀ index, (Stream.ofSource first).kind index = .less ∨
      (Stream.ofSource first).kind index = .greater →
      (Stream.ofSource first).adjacent index = (Stream.ofSource second).adjacent index) :
    (first.parse entry options).tree.map Node.bare =
        (second.parse entry options).tree.map Node.bare ∧
      (first.parse entry options).diagnostics.map Diagnostic.bare =
        (second.parse entry options).diagnostics.map Diagnostic.bare ∧
      (first.parse entry options).stats = (second.parse entry options).stats ∧
      (first.parse entry options).abandoned = (second.parse entry options).abandoned := by
  have setups : (Setup.ofSource first options).Alike (Setup.ofSource second options) :=
    ⟨Stream.alike_ofSource sameTokens touch, rfl⟩
  have accepted : ∀ source : Source, source.Accepted options := by
    intro source
    simp only [Accepted, Bool.and_eq_true, decide_eq_true_eq]
    omega
  obtain ⟨tree, diagnostics, abandoned⟩ := first.parse_of_accepted entry options (accepted first)
  obtain ⟨twinTree, twinDiagnostics, twinAbandoned⟩ :=
    second.parse_of_accepted entry options (accepted second)
  obtain ⟨sameTree, states⟩ := setups.enterAt entry
  rw [tree, twinTree, diagnostics, twinDiagnostics, abandoned, twinAbandoned,
    first.stats_of_accepted entry options (accepted first),
    second.stats_of_accepted entry options (accepted second)]
  exact ⟨sameTree, states.diagnostics, setups.stats states, states.fatal⟩

/-- Blanks and a comment between the tokens change nothing about
the local variable and the report that a value is missing. -/
theorem parse_layout_commented :
    (of [] "{A<B> c=a>>2;d=;}").text ≠ (of [] "{ A<B> c = a  >>2; d = /* no value */ ; }").text ∧
      ((of [] "{A<B> c=a>>2;d=;}").parse .statement { maxSize := 0 }).diagnostics.length = 1 ∧
      ((of [] "{A<B> c=a>>2;d=;}").parse .statement { maxSize := 0 }).tree.map Node.bare =
        ((of [] "{ A<B> c = a  >>2; d = /* no value */ ; }").parse .statement
          { maxSize := 0 }).tree.map Node.bare ∧
      ((of [] "{A<B> c=a>>2;d=;}").parse .statement
          { maxSize := 0 }).diagnostics.map Diagnostic.bare =
        ((of [] "{ A<B> c = a  >>2; d = /* no value */ ; }").parse .statement
          { maxSize := 0 }).diagnostics.map Diagnostic.bare ∧
      ((of [] "{A<B> c=a>>2;d=;}").parse .statement { maxSize := 0 }).stats =
        ((of [] "{ A<B> c = a  >>2; d = /* no value */ ; }").parse .statement
          { maxSize := 0 }).stats ∧
      ((of [] "{A<B> c=a>>2;d=;}").parse .statement { maxSize := 0 }).abandoned =
        ((of [] "{ A<B> c = a  >>2; d = /* no value */ ; }").parse .statement
          { maxSize := 0 }).abandoned := by
  refine ⟨by decide, by decide +kernel, parse_layout _ _ .statement { maxSize := 0 } (by decide)
    (by decide +kernel) fun index bracket => ?_⟩
  have inside : index < (Stream.ofSource (of [] "{A<B> c=a>>2;d=;}")).last := by
    refine (Stream.ofSource_ordered _).lt_last fun atEnd => ?_
    rw [atEnd] at bracket
    exact bracket.elim (by decide) (by decide)
  exact (by decide +kernel : ∀ index < (Stream.ofSource (of [] "{A<B> c=a>>2;d=;}")).last,
    (Stream.ofSource (of [] "{A<B> c=a>>2;d=;}")).kind index = .less ∨
      (Stream.ofSource (of [] "{A<B> c=a>>2;d=;}")).kind index = .greater →
    (Stream.ofSource (of [] "{A<B> c=a>>2;d=;}")).adjacent index =
      (Stream.ofSource (of [] "{ A<B> c = a  >>2; d = /* no value */ ; }")).adjacent index)
    index inside bracket

end Source

end JavaFront
