import JavaFront.Proofs.Parser.MemoTable
import JavaFront.Proofs.Parser.Persistence
import JavaFront.Proofs.Parser.Whole
import JavaFront.Proofs.Tree.Account

/-!
# Names and literals are conserved

Whatever goes wrong in a parse that is not abandoned, every name and literal of
the text ends up in the tree once and in order, unless an error node stands for
it. The frame under construction accounts for the tokens between its start and
the cursor, the outcomes in the memo table account for what they passed, and
resynchronisation puts all it skips into an error node.
-/

namespace JavaFront.Parser

/-! ## What is kept -/

/-- The part read last is the head of a local variable. -/
def Frame.HasHead (frame : Frame) : Prop :=
  ∃ node others, frame.parts = node :: others ∧ node.kind = .localVarDecl

/-- The node under construction has no name and no literal of its own. -/
def Frame.Unnamed (frame : Frame) : Prop :=
  ∀ token, frame.token = some token → token.kind.isNamed = false

/-- What a phrase that succeeded has made of the tokens it passed. -/
structure Kept (stream : Stream) (phrase : Phrase) (pos after : Nat) (frame inner : Frame) :
    Prop where
  le : pos ≤ after
  lt : phrase.consumes = true → pos < stream.last → pos < after
  accounts : ∀ first, Accounts stream frame.parts.reverse first pos →
    Accounts stream inner.parts.reverse first after
  count : ∀ parts, phrase.adds parts = true → inner.parts.length = frame.parts.length + parts
  ends : phrase.ends = true → after = stream.last
  head : phrase.yields = true → inner.HasHead
  unnamed : frame.Unnamed → inner.Unnamed
  kind : inner.kind = frame.kind ∨ inner.kind ∈ phrase.rekinds

/-- What a rule that succeeded has made of the tokens it passed. -/
structure Yielded (stream : Stream) (rule : Rule) (pos : Nat) (parts : List Node) (stop : Nat) :
    Prop where
  accounts : Accounts stream parts.reverse pos stop
  lt : rule.consumes = true → pos < stream.last → pos < stop
  single : rule.isSingle = true → parts.length = 1
  ends : rule = .compilationUnit → stop = stream.last
  head : rule = .localVarHead → ∃ node others, parts = node :: others ∧ node.kind = .localVarDecl

/-- Every success in the memo table accounts for the tokens it passes. -/
def MemoAccounts (stream : Stream) (memo : Memo) : Prop :=
  memo.All fun key outcome => ∀ parts, outcome.parts? = some parts →
    Yielded stream key.slot.rule key.pos parts outcome.stop

/-- The cursor stands inside the stream and the memo table can be relied on. -/
structure State.Tidy (stream : Stream) (state : State) : Prop where
  inside : state.pos ≤ stream.last
  memo : MemoAccounts stream state.memo

/-- Success grants what it promises, failure promises nothing, and no phrase
ends the parse. -/
inductive Verdict.Grants (promise : Prop) : Verdict → Prop
  | ok : promise → Grants promise .ok
  | failed : Grants promise .failed

theorem Verdict.Grants.get {promise : Prop} (grants : Verdict.ok.Grants promise) : promise := by
  cases grants with
  | ok kept => exact kept

theorem Verdict.Grants.imp {promise other : Prop} {verdict : Verdict}
    (grants : verdict.Grants promise) (weaker : promise → other) : verdict.Grants other := by
  cases grants with
  | ok kept => exact .ok (weaker kept)
  | failed => exact .failed

/-- What a phrase leaves behind, unless the parse has been abandoned. -/
def Outcome.Conserves (stream : Stream) (phrase : Phrase) (pos : Nat) (frame : Frame)
    (outcome : Outcome) : Prop :=
  outcome.state.fatal = none →
    outcome.verdict.Grants (Kept stream phrase pos outcome.state.pos frame outcome.frame)

/-- What a rule leaves behind, unless the parse has been abandoned. -/
def Reply.Conserves (stream : Stream) (rule : Rule) (pos : Nat) (reply : Reply) : Prop :=
  reply.state.fatal = none → ∀ parts, reply.parts? = some parts →
    Yielded stream rule pos parts reply.state.pos

/-! ## Resynchronisation -/

/-- Skipping goes forward and stops inside the stream. -/
theorem Setup.resume_bounds (setup : Setup) (start budget depth pos : Nat)
    (inside : pos ≤ setup.stream.last) :
    pos ≤ setup.resume start budget depth pos ∧
      setup.resume start budget depth pos ≤ setup.stream.last := by
  induction budget generalizing depth pos with
  | zero => exact ⟨Nat.le_refl _, inside⟩
  | succ budget ih =>
      have forward := setup.stream.le_succ pos
      have within := Stream.succ_le_last inside
      have later : ∀ depth, pos ≤ setup.resume start budget depth (setup.stream.succ pos) ∧
          setup.resume start budget depth (setup.stream.succ pos) ≤ setup.stream.last := by
        intro depth
        obtain ⟨low, high⟩ := ih depth (setup.stream.succ pos) within
        exact ⟨by omega, high⟩
      simp only [resume]
      split
      · exact ⟨Nat.le_refl _, inside⟩
      · exact later _
      · split
        · split
          · exact ⟨forward, within⟩
          · exact ⟨Nat.le_refl _, inside⟩
        · split
          · exact ⟨forward, within⟩
          · exact later _
      · split
        · exact ⟨forward, within⟩
        · exact later _
      · exact later _

/-- In front of the end, skipping passes at least one token. -/
theorem Setup.lt_resume {setup : Setup} (ordered : setup.stream.Ordered) {pos : Nat}
    (before : pos < setup.stream.last) :
    pos < setup.resume pos (setup.stream.size - pos) 0 pos := by
  have rounds : setup.stream.size - pos = setup.stream.last - pos + 1 := by
    simp only [Stream.size]
    omega
  have next := Stream.succ_of_lt before
  have later : ∀ depth, pos < setup.resume pos (setup.stream.last - pos) depth (pos + 1) := by
    intro depth
    exact (setup.resume_bounds pos (setup.stream.last - pos) depth (pos + 1) before).1
  rw [rounds]
  simp only [resume, next, if_true]
  split
  · rename_i atEnd
    exact absurd atEnd (ordered.kind_ne_eof pos before)
  · exact later _
  · exact Nat.lt_succ_self pos
  · exact Nat.lt_succ_self pos
  · exact later _

theorem Setup.report_pos (setup : Setup) (state : State) (failure : Failure) :
    (setup.report state failure).pos = state.pos := by
  simp only [report]
  generalize (if failure.pos < 0 then state.pos else failure.pos.toNat) = index
  split <;> rfl

theorem Setup.report_memo (setup : Setup) (state : State) (failure : Failure) :
    (setup.report state failure).memo = state.memo := by
  simp only [report]
  generalize (if failure.pos < 0 then state.pos else failure.pos.toNat) = index
  split <;> rfl

theorem Setup.close_memo (setup : Setup) (kind : Token.Kind) (state : State) (frame : Frame) :
    (setup.close kind state frame).state.memo = state.memo := by
  simp only [close]
  split
  · rfl
  · split
    · rfl
    · exact setup.report_memo _ _

theorem Setup.salvage_memo (setup : Setup) (state : State) (frame : Frame) :
    (setup.salvage state frame).state.memo = state.memo := by
  simp only [salvage]
  split
  · rfl
  · split
    · rfl
    · split <;> rfl

/-- Recovery leaves the memo table as the rule has left it. -/
theorem Setup.recovered_memo (setup : Setup) (run : State → Reply) (state : State) :
    (setup.recovered run state).state.memo =
      (run { state with furthest := .none }).state.memo := by
  rcases setup.recovered_cases run state with
    ⟨parts, after, found, same⟩ | ⟨after, found, ⟨-, same⟩ | ⟨-, -, same⟩⟩
  · rw [found, same]
  · rw [found, same]
  · rw [found, same]
    exact setup.report_memo after after.furthest

/-- The error node for what is skipped accounts for it. -/
theorem Setup.skip_accounts {setup : Setup} (ordered : setup.stream.Ordered) {state : State}
    (inside : state.pos ≤ setup.stream.last) (message : Bytes) (expected : List String) :
    Accounts setup.stream [(setup.skip state message expected).1] state.pos
      (setup.skip state message expected).2.pos := by
  obtain ⟨forward, within⟩ :=
    setup.resume_bounds state.pos (setup.stream.size - state.pos) 0 state.pos inside
  have stops : setup.stopFrom (setup.skip state message expected).2
      (setup.stream.get state.pos).span.start =
        (setup.stream.stretch state.pos (setup.skip state message expected).2.pos).stop :=
    stopFrom_eq ordered forward within
  exact .error rfl rfl rfl (congrArg (Span.mk _) stops) forward (.nil within)

/-- An empty error node accounts for nothing. -/
theorem Setup.errorMark_accounts {setup : Setup} {state : State}
    (inside : state.pos ≤ setup.stream.last) (message : Bytes) (expected : List String) :
    Accounts setup.stream [setup.errorMark state message expected] state.pos state.pos :=
  .error rfl rfl rfl (setup.stream.stretch_self state.pos).symm (Nat.le_refl _) (.nil inside)

/-! ## Steps of a phrase -/

namespace Kept

variable {stream : Stream} {phrase : Phrase} {pos after : Nat} {frame inner : Frame}

/-- Nothing is passed and nothing is built. -/
theorem rest (consumes : phrase.consumes = false)
    (adds : ∀ count, phrase.adds count = true → count = 0)
    (ends : phrase.ends = true → pos = stream.last) (yields : phrase.yields = false) :
    Kept stream phrase pos pos frame frame := by
  refine ⟨Nat.le_refl pos, by simp [consumes], fun _ => id, ?_, ends, by simp [yields], id,
    .inl rfl⟩
  intro count added
  rw [adds count added, Nat.add_zero]

/-- What is passed is accounted for by new parts, given the latest first. -/
theorem pushAll {parts : List Node} (accounts : Accounts stream parts.reverse pos after)
    (lt : phrase.consumes = true → pos < stream.last → pos < after)
    (adds : ∀ count, phrase.adds count = true → count = parts.length)
    (ends : phrase.ends = true → after = stream.last)
    (head : phrase.yields = true → (frame.pushAll parts).HasHead) :
    Kept stream phrase pos after frame (frame.pushAll parts) := by
  refine ⟨accounts.bounds.1, lt, ?_, ?_, ends, head, id, .inl rfl⟩
  · intro first before
    rw [Frame.pushAll, List.reverse_append]
    exact before.append accounts
  · intro count added
    rw [Frame.pushAll, List.length_append, adds count added, Nat.add_comm]

theorem push {part : Node} (accounts : Accounts stream [part] pos after)
    (lt : phrase.consumes = true → pos < stream.last → pos < after)
    (adds : ∀ count, phrase.adds count = true → count = 1)
    (ends : phrase.ends = true → after = stream.last)
    (head : phrase.yields = true → part.kind = .localVarDecl) :
    Kept stream phrase pos after frame (frame.push part) := by
  have single : Accounts stream [part].reverse pos after := accounts
  exact pushAll single lt adds ends fun yields => ⟨part, frame.parts, rfl, head yields⟩

theorem seq {first second : Phrase} {middle : Nat} {between : Frame}
    (before : Kept stream first pos middle frame between)
    (behind : Kept stream second middle after between inner) :
    Kept stream (.seq first second) pos after frame inner where
  le := Nat.le_trans before.le behind.le
  lt := by
    intro consumes inside
    have := before.le
    have := behind.le
    rcases Bool.or_eq_true_iff.mp consumes with early | late
    · have := before.lt early inside
      omega
    · by_cases moved : pos < middle
      · omega
      · have := behind.lt late (by omega)
        omega
  accounts := fun start accounts => behind.accounts start (before.accounts start accounts)
  count := by
    intro parts added
    simp only [Phrase.adds, List.any_eq_true, List.mem_range, Bool.and_eq_true] at added
    obtain ⟨early, bound, first, second⟩ := added
    have := before.count early first
    have := behind.count (parts - early) second
    omega
  ends := behind.ends
  head := by simp [Phrase.yields]
  unnamed := behind.unnamed ∘ before.unnamed
  kind := by
    rcases behind.kind with same | renamed
    · rcases before.kind with also | earlier
      · exact .inl (same.trans also)
      · exact .inr (List.mem_append_left _ (same ▸ earlier))
    · exact .inr (List.mem_append_right _ renamed)

/-- What one phrase has kept, another one has that promises less. -/
theorem mono {other : Phrase} (kept : Kept stream phrase pos after frame inner)
    (consumes : other.consumes = true → phrase.consumes = true)
    (adds : ∀ count, other.adds count = true → phrase.adds count = true)
    (ends : other.ends = true → phrase.ends = true)
    (yields : other.yields = true → phrase.yields = true)
    (rekinds : phrase.rekinds ⊆ other.rekinds) : Kept stream other pos after frame inner :=
  ⟨kept.le, fun consumed => kept.lt (consumes consumed), kept.accounts,
    fun count added => kept.count count (adds count added), fun ended => kept.ends (ends ended),
    fun yielded => kept.head (yields yielded), kept.unnamed,
    kept.kind.imp_right fun renamed => rekinds renamed⟩

/-- Most phrases promise neither to reach the end nor to read a head. -/
theorem weaken {other : Phrase} (kept : Kept stream phrase pos after frame inner)
    (consumes : other.consumes = true → phrase.consumes = true)
    (adds : ∀ count, other.adds count = true → phrase.adds count = true)
    (ends : other.ends = false) (yields : other.yields = false)
    (rekinds : phrase.rekinds ⊆ other.rekinds) : Kept stream other pos after frame inner :=
  kept.mono consumes adds (by simp [ends]) (by simp [yields]) rekinds

/-- The node of a frame accounts for what its parts account for. -/
theorem toNode (kept : Kept stream phrase pos after frame inner)
    (proper : (frame.kind :: phrase.rekinds).contains .error = false) (bare : frame.token = none)
    {first : Nat} (accounts : Accounts stream frame.parts.reverse first pos) (stop : Pos) :
    Accounts stream [inner.toNode stop] first after := by
  refine .node ?_ (kept.unnamed (by simp [Frame.Unnamed, bare])) (kept.accounts first accounts)
  intro isError
  have member : inner.kind ∈ frame.kind :: phrase.rekinds := by
    rcases kept.kind with same | renamed
    · exact same ▸ List.mem_cons_self
    · exact List.mem_cons_of_mem _ renamed
  have found : inner.kind = .error := isError
  rw [found] at member
  rw [List.contains_iff_mem.mpr member] at proper
  cases proper

/-- A new part stands for what the latest part stood for and what is passed. -/
theorem replace {latest part : Node} {others : List Node} (parts : frame.parts = latest :: others)
    (le : pos ≤ after) (lt : phrase.consumes = true → pos < stream.last → pos < after)
    (adds : ∀ count, phrase.adds count = true → count = 0) (ends : phrase.ends = false)
    (yields : phrase.yields = false)
    (stands : ∀ first, Accounts stream [latest] first pos → Accounts stream [part] first after) :
    Kept stream phrase pos after frame (Frame.push { frame with parts := others } part) := by
  refine ⟨le, lt, ?_, ?_, by simp [ends], by simp [yields], id, .inl rfl⟩
  · intro first accounts
    rw [parts, List.reverse_cons] at accounts
    obtain ⟨middle, before, last⟩ := accounts.split
    rw [Frame.push, List.reverse_cons]
    exact before.append (stands middle last)
  · intro count added
    rw [adds count added, parts]
    rfl

end Kept

/-- A token that is neither name nor literal may be passed without a leaf. -/
theorem Kept.pass {stream : Stream} {phrase : Phrase} {pos : Nat} {frame : Frame}
    (inside : pos ≤ stream.last) (unnamed : (stream.kind pos).isNamed = false)
    (adds : ∀ count, phrase.adds count = true → count = 0) (ends : phrase.ends = false)
    (yields : phrase.yields = false) : Kept stream phrase pos (stream.succ pos) frame frame := by
  have passed : Accounts stream ([] : List Node).reverse pos (stream.succ pos) := by
    rcases Nat.lt_or_eq_of_le inside with before | rfl
    · rw [Stream.succ_of_lt before]
      exact .skip before unnamed (.nil before)
    · have stays : stream.succ stream.last = stream.last := by simp [Stream.succ]
      rw [stays]
      exact .nil (Nat.le_refl _)
  refine .pushAll passed ?_ adds (by simp [ends]) (by simp [yields])
  intro _ before
  rw [Stream.succ_of_lt before]
  exact Nat.lt_succ_self pos

theorem Kept.leaf {stream : Stream} (ordered : stream.Ordered) {phrase : Phrase} {pos : Nat}
    {frame : Frame} {kind : Node.Kind} (inside : pos ≤ stream.last) (proper : kind ≠ .error)
    (notHead : kind ≠ .localVarDecl) (adds : ∀ count, phrase.adds count = true → count = 1)
    (ends : phrase.ends = false) (yields : phrase.yields = false) :
    Kept stream phrase pos (stream.succ pos) frame (frame.push (.leaf kind (stream.get pos))) := by
  refine .push (.leafAt ordered inside proper notHead) ?_ adds (by simp [ends]) (by simp [yields])
  intro _ before
  rw [Stream.succ_of_lt before]
  exact Nat.lt_succ_self pos

/-- A documentation comment changes nothing about what is kept. -/
theorem Kept.document {stream : Stream} {body : Phrase} {pos after : Nat} {frame inner : Frame}
    (kept : Kept stream body pos after frame inner) (doc : Option Token) :
    Kept stream (.documented body) pos after frame (inner.document doc) := by
  cases parts : inner.parts with
  | nil =>
      have same : inner.document doc = inner := by simp [Frame.document, parts]
      rw [same]
      exact kept.weaken id (fun _ => id) rfl rfl (List.Subset.refl _)
  | cons latest others =>
      have same : inner.document doc =
          { inner with parts := { latest with doc } :: others } := by
        simp [Frame.document, parts]
      rw [same]
      refine ⟨kept.le, kept.lt, ?_, ?_, by simp [Phrase.ends], by simp [Phrase.yields],
        kept.unnamed, kept.kind⟩
      · intro first accounts
        have before := kept.accounts first accounts
        rw [parts, List.reverse_cons] at before
        obtain ⟨middle, front, back⟩ := before.split
        rw [List.reverse_cons]
        exact front.append (back.document doc)
      · intro count added
        have counted := kept.count count added
        rwa [parts] at counted

/-! ## Tidy states -/

/-- A way to call rules that loses no name and no literal. -/
structure Caller.Conserving (call : Caller) (setup : Setup) : Prop where
  follows : ∀ rule, Keeps (call rule)
  tidy : ∀ (rule : Rule) (state : State), state.Tidy setup.stream →
    (call rule state).state.Tidy setup.stream
  conserves : ∀ (rule : Rule) (state : State), state.Tidy setup.stream →
    (state.trying = true → rule ≠ .compilationUnit) → rule ≠ .enhancedForHead →
    (call rule state).Conserves setup.stream rule state.pos

section Phrases

variable {setup : Setup} {call : Caller}

theorem Setup.tidy_close {kind : Token.Kind} {state : State} {frame : Frame}
    (tidy : state.Tidy setup.stream) :
    (setup.close kind state frame).state.Tidy setup.stream := by
  simp only [close]
  split
  · exact ⟨Stream.succ_le_last tidy.inside, tidy.memo⟩
  · split
    · exact ⟨tidy.inside, tidy.memo⟩
    · constructor
      · rw [report_pos]
        exact tidy.inside
      · rw [report_memo]
        exact tidy.memo

theorem Setup.tidy_salvage {state : State} {frame : Frame} (tidy : state.Tidy setup.stream) :
    (setup.salvage state frame).state.Tidy setup.stream := by
  simp only [salvage]
  split
  · exact tidy
  · split
    · exact tidy
    · split
      · exact tidy
      · exact ⟨tidy.inside, tidy.memo⟩

theorem Caller.Conserving.tidy_trial (conserving : call.Conserving setup) (rule : Rule)
    {state : State} (tidy : state.Tidy setup.stream) :
    (trial (call rule) state).2.Tidy setup.stream :=
  ⟨tidy.inside, (conserving.tidy rule { state with speculating := state.speculating + 1 }
    ⟨tidy.inside, tidy.memo⟩).memo⟩

theorem Caller.Conserving.tidy_recovered (conserving : call.Conserving setup) {rule : Rule}
    {state : State} (tidy : state.Tidy setup.stream) :
    (setup.recovered (call rule) state).state.Tidy setup.stream := by
  have inner := conserving.tidy rule { state with furthest := .none } ⟨tidy.inside, tidy.memo⟩
  simp only [Setup.recovered]
  split
  · exact ⟨inner.inside, inner.memo⟩
  · split
    · exact ⟨inner.inside, inner.memo⟩
    · constructor
      · exact (setup.resume_bounds _ _ _ _ tidy.inside).2
      · have sameMemo := setup.report_memo (call rule { state with furthest := .none }).state
          (call rule { state with furthest := .none }).state.furthest
        simp only [Setup.skip, sameMemo]
        exact inner.memo

/-- No phrase leaves the stream or spoils the memo table. -/
theorem Caller.Conserving.tidy_run (conserving : call.Conserving setup) (phrase : Phrase)
    {state : State} (frame : Frame) (tidy : state.Tidy setup.stream) :
    (setup.run call phrase state frame).state.Tidy setup.stream := by
  let relation (before after : State) : Prop :=
    before.Tidy setup.stream → after.Tidy setup.stream
  have relates : setup.Relates call relation := by
    refine ⟨?_, ?_, ?_, ?_, ?_, ?_, ?_, ?_, ?_, ?_⟩
    · exact fun state => id
    · exact fun before behind => behind ∘ before
    · exact fun state tidy => ⟨Stream.succ_le_last tidy.inside, tidy.memo⟩
    · exact fun state tidy => ⟨Stream.advance_le_last _ tidy.inside, tidy.memo⟩
    · exact fun state texts tidy => ⟨tidy.inside, tidy.memo⟩
    · exact fun kind state frame => Setup.tidy_close
    · exact fun state frame => Setup.tidy_salvage
    · exact conserving.tidy
    · exact fun rule state => conserving.tidy_trial rule
    · exact fun rule state => conserving.tidy_recovered
  exact setup.run_relates relates phrase state frame tidy

/-- Outside of trials a rule with recovery fails only if the parse has been
abandoned; what it leaves accounts for what it passed, skipped or not. -/
theorem Caller.Conserving.recovered (conserving : call.Conserving setup)
    (ordered : setup.stream.Ordered) {rule : Rule} {state : State}
    (tidy : state.Tidy setup.stream) (notUnit : rule ≠ .compilationUnit)
    (kept : rule ≠ .enhancedForHead)
    (running : (setup.recovered (call rule) state).state.fatal = none) :
    ((setup.recovered (call rule) state).parts? = none → state.trying = true) ∧
      ∀ parts, (setup.recovered (call rule) state).parts? = some parts →
        Accounts setup.stream parts.reverse state.pos
          (setup.recovered (call rule) state).state.pos ∧
        (rule.consumes = true → state.pos < setup.stream.last →
          state.pos < (setup.recovered (call rule) state).state.pos) ∧
        (rule.isSingle = true → parts.length = 1) := by
  have conserves := conserving.conserves rule { state with furthest := .none }
    ⟨tidy.inside, tidy.memo⟩ (fun _ => notUnit) kept
  have follows := conserving.follows rule { state with furthest := .none }
  simp only [Setup.recovered] at running ⊢
  rcases found : call rule { state with furthest := .none } with ⟨parts?, after⟩
  rw [found] at conserves follows
  simp only [found] at running ⊢
  cases parts? with
  | some parts =>
      refine ⟨by simp, ?_⟩
      rintro others same
      cases same
      have yielded := conserves running parts rfl
      exact ⟨yielded.accounts, yielded.lt, yielded.single⟩
  | none =>
      dsimp only at running ⊢
      split at running
      · rename_i given
        rw [if_pos given]
        have notFatal : after.fatal = none := running
        have trying : 0 < after.speculating := by simpa [notFatal] using given
        rw [follows.speculating_eq] at trying
        exact ⟨fun _ => by simpa [State.trying] using trying, by simp⟩
      · rename_i reports
        rw [if_neg reports]
        refine ⟨by simp, ?_⟩
        rintro parts same
        cases same
        exact ⟨Setup.skip_accounts ordered tidy.inside _ _,
          fun _ before => Setup.lt_resume ordered before, fun _ => rfl⟩

theorem Setup.close_conserves (ordered : setup.stream.Ordered) {kind : Token.Kind} {state : State}
    {frame : Frame} (tidy : state.Tidy setup.stream) (unnamed : kind.isNamed = false) :
    (setup.close kind state frame).Conserves setup.stream (.closing kind) state.pos frame := by
  intro running
  simp only [close] at running ⊢
  by_cases found : setup.stream.kind state.pos = kind
  · rw [if_pos found]
    exact .ok (.pass tidy.inside (found ▸ unnamed) (by simp [Phrase.adds]) rfl rfl)
  · rw [if_neg found]
    split
    · exact .failed
    · rename_i reports
      simp only [Bool.or_eq_true, bne_iff_ne, not_or, not_not] at reports
      have atEnd : state.pos = setup.stream.last := ordered.eq_last tidy.inside reports.2
      have marks : ∀ (reported : State) message expected, reported.pos = state.pos →
          Accounts setup.stream [setup.errorMark reported message expected] state.pos
            reported.pos := by
        intro reported message expected samePos
        rw [← samePos]
        exact errorMark_accounts (samePos ▸ tidy.inside) message expected
      exact .ok (.push (marks _ _ _ (setup.report_pos _ _)) (by omega) (by simp [Phrase.adds])
        (by simp [Phrase.ends]) (by simp [Phrase.yields]))

/-- While the parse goes on, a look that fails at the end alone tells the end. -/
theorem Setup.holds_untilEnd {look : Look} {state : State} {frame : Frame}
    (untilEnd : look.untilEnd = true) (running : state.fatal = none) :
    setup.holds state frame look = !(setup.stream.kind state.pos == .eof) := by
  unfold Look.untilEnd at untilEnd
  split at untilEnd
  · rename_i accept
    have listed := (setup.stream.kind state.pos).mem_all
    have same := beq_iff_eq.mp (List.all_eq_true.mp untilEnd _ listed)
    simp [holds, same, running]
  · cases untilEnd

/-- A loop keeps what its rounds keep. One that goes on to the end of the text
has rounds enough to get there. -/
theorem repeatWhile_conserves {look : Look} {body : Phrase} (ordered : setup.stream.Ordered)
    (follows : ∀ rule, Keeps (call rule)) {trying : Bool}
    (tidies : ∀ (state : State) frame, state.Tidy setup.stream →
      (setup.run call body state frame).state.Tidy setup.stream)
    (conserves : ∀ (state : State) (frame : Frame), state.Tidy setup.stream →
      state.trying = trying →
      (setup.run call body state frame).Conserves setup.stream body state.pos frame)
    (rounds : Nat) (state : State) (frame : Frame) (tidy : state.Tidy setup.stream)
    (sameTrying : state.trying = trying)
    (enough : (Phrase.loop look body).ends = true → setup.stream.last - state.pos < rounds) :
    (repeatWhile (fun state frame => setup.holds state frame look)
      (fun state frame => setup.run call body state frame) rounds state
      frame).Conserves setup.stream (.loop look body) state.pos frame := by
  have silent : ∀ count, (Phrase.loop look body).adds count = true →
      count = 0 ∧ body.adds 0 = true := by
    intro count added
    simpa [Phrase.adds] using added
  induction rounds generalizing state frame with
  | zero =>
      refine fun _ => .ok (.rest rfl (fun count added => (silent count added).1) ?_ rfl)
      exact fun ends => absurd (enough ends) (Nat.not_lt_zero _)
  | succ rounds ih =>
      intro running
      simp only [repeatWhile] at running ⊢
      by_cases goesOn : setup.holds state frame look = true
      · simp only [goesOn, if_true] at running ⊢
        have once := conserves state frame tidy sameTrying
        have moved := setup.follows_run follows body state frame
        have tidyAfter := tidies state frame tidy
        rcases found : setup.run call body state frame with ⟨verdict, middle, between⟩
        rw [found] at once moved tidyAfter
        simp only [found] at running ⊢
        cases verdict with
        | ok =>
            have stillRunning : middle.fatal = none := (Setup.follows_repeatWhile
              (fun state frame => setup.follows_run follows body state frame) _ _ _).fatal running
            have kept := (once stillRunning).get
            have stillEnough : (Phrase.loop look body).ends = true →
                setup.stream.last - middle.pos < rounds := by
              intro ends
              obtain ⟨untilEnd, consumes⟩ := Bool.and_eq_true_iff.mp ends
              have before : state.pos < setup.stream.last := by
                rw [Setup.holds_untilEnd untilEnd (moved.fatal stillRunning)] at goesOn
                apply Nat.lt_of_le_of_ne tidy.inside
                intro atEnd
                rw [atEnd, ordered.kind_last] at goesOn
                cases goesOn
              have further : state.pos < middle.pos := kept.lt consumes before
              have := enough ends
              omega
            refine (ih middle between tidyAfter (moved.trying_eq.trans sameTrying) stillEnough
              running).imp ?_
            intro rest
            refine (kept.seq rest).mono (by simp [Phrase.consumes]) ?_ id
              (by simp [Phrase.yields]) ?_
            · intro count added
              obtain ⟨rfl, bodyAdds⟩ := silent count added
              simp [Phrase.adds, bodyAdds]
            · simp [Phrase.rekinds]
        | failed => exact .failed
        | ended => cases once running
      · simp only [goesOn, Bool.false_eq_true, if_false] at running ⊢
        refine .ok (.rest rfl (fun count added => (silent count added).1) ?_ rfl)
        intro ends
        rw [Setup.holds_untilEnd (Bool.and_eq_true_iff.mp ends).1 running] at goesOn
        exact ordered.eq_last tidy.inside (by simpa using goesOn)

theorem Setup.enclose_conserves {whole body : Phrase} {pos : Nat} {frame outer inner : Frame}
    {outcome : Outcome} (conserves : outcome.Conserves setup.stream body pos inner)
    (encloses : ∀ after filled stop, Kept setup.stream body pos after inner filled →
      Kept setup.stream whole pos after frame (outer.push (filled.toNode stop))) :
    (setup.enclose outer outcome frame).Conserves setup.stream whole pos frame := by
  obtain ⟨verdict, state, filled⟩ := outcome
  intro running
  rw [enclose_state] at running
  cases conserves running with
  | ok kept => exact .ok (encloses _ _ _ kept)
  | failed => exact .failed

/-- Behind one phrase another one keeps what both keep. -/
theorem Setup.seq_conserves (follows : ∀ rule, Keeps (call rule)) {first second : Phrase}
    {state : State} {frame : Frame}
    (before : (setup.run call first state frame).Conserves setup.stream first state.pos frame)
    (behind : ∀ {middle between}, setup.run call first state frame = ⟨.ok, middle, between⟩ →
      (first.yields = true → between.HasHead) →
      (setup.run call second middle between).Conserves setup.stream second middle.pos between) :
    (setup.run call (.seq first second) state frame).Conserves setup.stream (.seq first second)
      state.pos frame := by
  intro running
  simp only [run] at running ⊢
  rcases found : setup.run call first state frame with ⟨verdict, middle, between⟩
  rw [found] at before
  simp only [found] at running ⊢
  cases verdict with
  | ok =>
      have stillRunning : middle.fatal = none :=
        (setup.follows_run follows second middle between).fatal running
      have kept := (before stillRunning).get
      exact (behind found kept.head running).imp kept.seq
  | failed => exact .failed
  | ended => cases before running

/-- What either of two phrases keeps, the choice between them keeps. -/
theorem Outcome.Conserves.either {stream : Stream} {outcome : Outcome} {pos : Nat} {frame : Frame}
    {yes no whole : Phrase} (chosen : Bool)
    (conserves : outcome.Conserves stream (if chosen then yes else no) pos frame)
    (consumes : whole.consumes = (yes.consumes && no.consumes))
    (adds : ∀ count, whole.adds count = (yes.adds count && no.adds count))
    (ends : whole.ends = false) (yields : whole.yields = false)
    (rekinds : whole.rekinds = yes.rekinds ++ no.rekinds) :
    outcome.Conserves stream whole pos frame := by
  intro running
  refine (conserves running).imp fun kept => ?_
  refine kept.weaken ?_ ?_ ends yields ?_
  · intro both
    rw [consumes, Bool.and_eq_true] at both
    cases chosen with
    | true => exact both.1
    | false => exact both.2
  · intro count both
    rw [adds, Bool.and_eq_true] at both
    cases chosen with
    | true => exact both.1
    | false => exact both.2
  · rw [rekinds]
    cases chosen with
    | true => exact List.subset_append_left _ _
    | false => exact List.subset_append_right _ _

/-- A node accounts for what its body has read. -/
theorem Setup.node_conserves {kind : Node.Kind} {body : Phrase} {state : State} {frame : Frame}
    (proper : (kind :: body.rekinds).contains .error = false) (tidy : state.Tidy setup.stream)
    (inner : (setup.run call body state (setup.frame state kind)).Conserves setup.stream body
      state.pos (setup.frame state kind)) :
    (setup.run call (.node kind body) state frame).Conserves setup.stream (.node kind body)
      state.pos frame := by
  refine Setup.enclose_conserves inner fun after filled stop kept => ?_
  refine .push (kept.toNode proper rfl (.nil tidy.inside) stop) kept.lt
    (fun _ => of_decide_eq_true) (by simp [Phrase.ends]) ?_
  intro yields
  simp only [Phrase.yields, Bool.and_eq_true, decide_eq_true_eq, List.isEmpty_iff] at yields
  rcases kept.kind with same | renamed
  · exact same.trans yields.1
  · simp [yields.2] at renamed

/-- A node around the latest part accounts for that part and for what its body has
read. -/
theorem Setup.wrap_conserves {kind : Node.Kind} {body : Phrase} {state : State} {frame : Frame}
    (proper : (kind :: body.rekinds).contains .error = false)
    (inner : ∀ first : Node,
      (setup.run call body state { kind, start := first.span.start, parts := [first] }).Conserves
        setup.stream body state.pos { kind, start := first.span.start, parts := [first] }) :
    (setup.run call (.wrap kind body) state frame).Conserves setup.stream (.wrap kind body)
      state.pos frame := by
  simp only [Setup.run]
  split
  · exact fun _ => .failed
  · rename_i first others parts
    refine Setup.enclose_conserves (inner first) fun after filled stop kept => ?_
    exact .replace parts kept.le kept.lt (fun _ => of_decide_eq_true) rfl rfl
      fun start latest => kept.toNode proper rfl latest stop

/-- A head that is taken up again accounts for its children and for what its body
has read. -/
theorem Setup.reopen_conserves {kind : Node.Kind} {body : Phrase} {state : State} {frame : Frame}
    (proper : (kind :: body.rekinds).contains .error = false) (hasHead : frame.HasHead)
    (inner : ∀ node : Node,
      (setup.run call body state
        { kind, start := node.span.start, parts := node.children.reverse }).Conserves setup.stream
          body state.pos { kind, start := node.span.start, parts := node.children.reverse }) :
    (setup.run call (.reopen kind body) state frame).Conserves setup.stream (.reopen kind body)
      state.pos frame := by
  obtain ⟨node, others, parts, headKind⟩ := hasHead
  simp only [Setup.run, parts]
  refine Setup.enclose_conserves (inner node) fun after filled stop kept => ?_
  refine .replace parts kept.le kept.lt (fun _ => of_decide_eq_true) rfl rfl ?_
  intro start latest
  have children := latest.children headKind
  rw [← node.children.reverse_reverse] at children
  exact kept.toNode proper rfl children stop

/-- A node from the start of the text covers what its body has read. -/
theorem Setup.covered_conserves {kind : Node.Kind} {body : Phrase} {state : State} {frame : Frame}
    {outcome : Outcome} (proper : (kind :: body.rekinds).contains .error = false)
    (tidy : state.Tidy setup.stream)
    (inner : outcome.Conserves setup.stream body state.pos { kind, start := .origin }) :
    (setup.covered outcome frame).Conserves setup.stream (.cover kind body) state.pos frame := by
  obtain ⟨verdict, after, filled⟩ := outcome
  intro running
  rw [covered_state] at running
  cases inner running with
  | ok kept =>
      exact .ok (.push (kept.toNode proper rfl (.nil tidy.inside) _) kept.lt
        (fun _ => of_decide_eq_true) kept.ends (by simp [Phrase.yields]))
  | failed => exact .failed

theorem Outcome.Conserves.documented {stream : Stream} {body : Phrase} {pos : Nat} {frame : Frame}
    {outcome : Outcome} (inner : outcome.Conserves stream body pos frame) (doc : Option Token) :
    (outcome.documented doc).Conserves stream (.documented body) pos frame := by
  obtain ⟨verdict, after, filled⟩ := outcome
  intro running
  rw [Outcome.documented_state] at running
  cases inner running with
  | ok kept => exact .ok (kept.document _)
  | failed => exact .failed

/-- A call keeps what its rule yields. -/
theorem Caller.Conserving.call_conserves (conserving : call.Conserving setup) {rule : Rule}
    {state : State} (tidy : state.Tidy setup.stream) (notUnit : rule ≠ .compilationUnit)
    (kept : rule ≠ .enhancedForHead) (frame : Frame) :
    (setup.run call (.call rule) state frame).Conserves setup.stream (.call rule) state.pos
      frame := by
  have conserves := conserving.conserves rule state tidy (fun _ => notUnit) kept
  intro running
  simp only [Setup.run] at running ⊢
  rcases found : call rule state with ⟨parts?, after⟩
  rw [found] at conserves
  simp only [found] at running ⊢
  cases parts? with
  | some parts =>
      have yielded := conserves running parts rfl
      refine .ok (.pushAll yielded.accounts yielded.lt (Phrase.eq_length_of_adds yielded.single)
        (by simp [Phrase.ends]) ?_)
      intro yields
      obtain ⟨node, others, same, isHead⟩ := yielded.head (by simpa [Phrase.yields] using yields)
      exact ⟨node, others ++ frame.parts, by rw [Frame.pushAll, same]; rfl, isHead⟩
  | none => exact .failed

/-- A rule with recovery keeps what it yields or what it skips. Outside of
trials it does not fail. -/
theorem Caller.Conserving.recover_conserves (conserving : call.Conserving setup)
    (ordered : setup.stream.Ordered) {rule : Rule} {state : State}
    (tidy : state.Tidy setup.stream) (notUnit : rule ≠ .compilationUnit)
    (kept : rule ≠ .enhancedForHead) (frame : Frame) :
    (setup.run call (.recover rule) state frame).Conserves setup.stream (.recover rule) state.pos
        frame ∧
      (state.trying = false → (setup.run call (.recover rule) state frame).state.fatal = none →
        (setup.run call (.recover rule) state frame).verdict ≠ .failed) := by
  have conserves := conserving.recovered ordered tidy notUnit kept
  simp only [Outcome.Conserves, Setup.run]
  rcases found : setup.recovered (call rule) state with ⟨parts?, after⟩
  rw [found] at conserves
  cases parts? with
  | some parts =>
      refine ⟨fun running => ?_, by simp⟩
      obtain ⟨accounts, lt, single⟩ := (conserves running).2 parts rfl
      exact .ok (.pushAll accounts lt (Phrase.eq_length_of_adds single) (by simp [Phrase.ends])
        (by simp [Phrase.yields]))
  | none =>
      refine ⟨fun _ => .failed, ?_⟩
      intro notTrying running
      have trying := (conserves running).1 rfl
      rw [notTrying] at trying
      cases trying

/-- An alternative keeps what the first phrase keeps, where the first does not
fail or what was skipped cannot be salvaged. -/
theorem Setup.orElse_conserves {first second : Phrase} {state : State} {frame : Frame}
    (before : (setup.run call first state frame).Conserves setup.stream first state.pos frame)
    (follows : ∀ (state : State) (frame : Frame),
      state.Follows (setup.run call second state frame).state)
    (fails : ∀ {after inner}, setup.run call first state frame = ⟨.failed, after, inner⟩ →
      after.fatal = none → (setup.run call second after inner).verdict = .failed) :
    (setup.run call (.orElse first second) state frame).Conserves setup.stream
      (.orElse first second) state.pos frame := by
  intro running
  simp only [run] at running ⊢
  rcases found : setup.run call first state frame with ⟨verdict, after, inner⟩
  rw [found] at before
  simp only [found] at running ⊢
  cases verdict with
  | ok =>
      exact (before running).imp fun kept =>
        kept.weaken id (fun _ => id) rfl rfl (List.subset_append_left _ _)
  | failed =>
      rw [fails found ((follows after inner).fatal running)]
      exact .failed
  | ended => cases before running

/-- A phrase that keeps names and literals, run by calls that do, accounts for
all tokens it passes. -/
theorem Caller.Conserving.run (conserving : call.Conserving setup) (ordered : setup.stream.Ordered)
    (phrase : Phrase) (head : Bool) (state : State) (frame : Frame)
    (keeps : phrase.keeps head = true) (hasHead : head = true → frame.HasHead)
    (settled : phrase.settled state.trying = true) (tidy : state.Tidy setup.stream) :
    (setup.run call phrase state frame).Conserves setup.stream phrase state.pos frame := by
  have follows := setup.follows_run conserving.follows
  induction phrase generalizing head state frame with
  | done => exact fun _ => .ok (.rest rfl (fun _ => of_decide_eq_true) (by simp [Phrase.ends]) rfl)
  | stop | expected => exact fun _ => .failed
  | seq first second firstIh secondIh =>
      obtain ⟨firstSettled, secondSettled⟩ := Bool.and_eq_true_iff.mp settled
      obtain ⟨firstKeeps, secondKeeps⟩ := Bool.and_eq_true_iff.mp keeps
      have moved := follows first state frame
      have tidyAfter := conserving.tidy_run first frame tidy
      refine Setup.seq_conserves conserving.follows
        (firstIh head state frame firstKeeps hasHead firstSettled tidy) ?_
      intro middle between found hasHead
      rw [found] at moved tidyAfter
      exact secondIh first.yields middle between secondKeeps hasHead
        (by rw [moved.trying_eq]; exact secondSettled) tidyAfter
  | token kind =>
      have unnamed : kind.isNamed = false := by simpa [Phrase.keeps] using keeps
      intro running
      simp only [Setup.run]
      split
      · rename_i found
        exact .ok (.pass tidy.inside (found ▸ unnamed) (fun _ => of_decide_eq_true) rfl rfl)
      · exact .failed
  | leaf part _ | pick part _ =>
      simp only [Phrase.keeps, Bool.and_eq_true, bne_iff_ne] at keeps
      intro running
      simp only [Setup.run]
      split
      · exact .ok (.leaf ordered tidy.inside keeps.1 keeps.2 (fun _ => of_decide_eq_true) rfl rfl)
      · exact .failed
  | mark accept =>
      intro running
      simp only [Setup.run]
      split
      · rename_i accepted
        have unnamed := Phrase.unnamed_of_mark keeps accepted
        have kept : Kept setup.stream (.mark accept) state.pos (setup.stream.succ state.pos) frame
            frame := .pass tidy.inside unnamed (fun _ => of_decide_eq_true) rfl rfl
        refine .ok { kept with unnamed := ?_, kind := .inl rfl }
        rintro _ token same
        cases same
        exact unnamed
      · exact .failed
  | operator =>
      exact fun _ => .ok (.push (.operatorAt ordered tidy.inside) (by simp [Phrase.consumes])
        (fun _ => of_decide_eq_true) (by simp [Phrase.ends]) (by simp [Phrase.yields]))
  | node kind body ih =>
      obtain ⟨proper, bodyKeeps⟩ := Bool.and_eq_true_iff.mp keeps
      rw [Bool.not_eq_true'] at proper
      exact Setup.node_conserves proper tidy
        (ih false state (setup.frame state kind) bodyKeeps (by simp) settled tidy)
  | wrap kind body ih =>
      obtain ⟨proper, bodyKeeps⟩ := Bool.and_eq_true_iff.mp keeps
      rw [Bool.not_eq_true'] at proper
      exact Setup.wrap_conserves proper
        fun _ => ih false state _ bodyKeeps (by simp) settled tidy
  | reopen kind body ih =>
      simp only [Phrase.keeps, Bool.and_eq_true, Bool.not_eq_true'] at keeps
      obtain ⟨⟨isHead, proper⟩, bodyKeeps⟩ := keeps
      exact Setup.reopen_conserves proper (hasHead isHead)
        fun _ => ih false state _ bodyKeeps (by simp) settled tidy
  | cover kind body ih =>
      obtain ⟨proper, bodyKeeps⟩ := Bool.and_eq_true_iff.mp keeps
      rw [Bool.not_eq_true'] at proper
      rw [Setup.run_cover]
      exact Setup.covered_conserves proper tidy
        (ih false state { kind, start := .origin } bodyKeeps (by simp) settled tidy)
  | rekind kind =>
      have kept : Kept setup.stream (.rekind kind) state.pos state.pos frame frame :=
        .rest rfl (fun _ => of_decide_eq_true) (by simp [Phrase.ends]) rfl
      exact fun _ => .ok { kept with kind := .inr List.mem_cons_self }
  | branch look yes no yesIh noIh =>
      obtain ⟨yesSettled, noSettled⟩ := Bool.and_eq_true_iff.mp settled
      obtain ⟨yesKeeps, noKeeps⟩ := Bool.and_eq_true_iff.mp keeps
      rw [Setup.run_branch]
      refine .either (setup.holds state frame look) ?_ rfl (fun _ => rfl) rfl rfl rfl
      cases setup.holds state frame look with
      | true => exact yesIh head state frame yesKeeps hasHead yesSettled tidy
      | false => exact noIh head state frame noKeeps hasHead noSettled tidy
  | trial rule yes no yesIh noIh =>
      simp only [Phrase.settled, Bool.and_eq_true, bne_iff_ne] at settled
      obtain ⟨⟨_, yesSettled⟩, noSettled⟩ := settled
      obtain ⟨yesKeeps, noKeeps⟩ := Bool.and_eq_true_iff.mp keeps
      have moved := Setup.follows_trial (conserving.follows rule) state
      have tidyAfter := conserving.tidy_trial rule tidy
      have samePos : (trial (call rule) state).2.pos = state.pos := rfl
      rw [Setup.run_trial]
      generalize trial (call rule) state = attempt at moved tidyAfter samePos ⊢
      obtain ⟨success, after⟩ := attempt
      dsimp only at moved tidyAfter samePos ⊢
      rw [← samePos]
      refine .either success ?_ rfl (fun _ => rfl) rfl rfl rfl
      cases success with
      | true =>
          exact yesIh head after frame yesKeeps hasHead
            (by rw [moved.trying_eq]; exact yesSettled) tidyAfter
      | false =>
          exact noIh head after frame noKeeps hasHead
            (by rw [moved.trying_eq]; exact noSettled) tidyAfter
  | call rule =>
      exact conserving.call_conserves tidy (by simpa [Phrase.settled] using settled)
        (by simpa [Phrase.keeps] using keeps) frame
  | recover rule =>
      exact (conserving.recover_conserves ordered tidy (by simpa [Phrase.settled] using settled)
        (by simpa [Phrase.keeps] using keeps) frame).1
  | orElse first second firstIh _ =>
      rcases Phrase.settled_orElse settled with
        ⟨rfl, firstSettled⟩ | ⟨rfl, notTrying, rule, rfl, notUnit⟩
      · refine Setup.orElse_conserves
          (firstIh head state frame keeps hasHead firstSettled tidy) (follows _) ?_
        intro after inner _ stillRunning
        simp only [Setup.run, Setup.salvage, stillRunning]
      · obtain ⟨conserves, succeeds⟩ := conserving.recover_conserves ordered tidy notUnit
          (by simpa [Phrase.keeps] using keeps) frame
        apply Setup.orElse_conserves conserves (follows _)
        intro after inner found stillRunning
        rw [found] at succeeds
        exact absurd rfl (succeeds notTrying stillRunning)
  | loop look body ih =>
      obtain ⟨_, bodySettled⟩ := Bool.and_eq_true_iff.mp settled
      refine repeatWhile_conserves ordered conserving.follows
        (fun state frame tidy => conserving.tidy_run body frame tidy) ?_ _ state frame tidy rfl ?_
      · intro other otherFrame otherTidy sameTrying
        exact ih false other otherFrame keeps (by simp) (by rw [sameTrying]; exact bodySettled)
          otherTidy
      · intro _
        have := tidy.inside
        simp only [Stream.size]
        omega
  | documented body ih =>
      rw [Setup.run_documented]
      exact (ih head state frame keeps hasHead settled tidy).documented _
  | closing kind =>
      exact Setup.close_conserves ordered tidy (by simpa [Phrase.keeps] using keeps)
  | salvage =>
      intro running
      have stillRunning := (setup.follows_salvage state frame).fatal running
      simp only [Setup.run, Setup.salvage, stillRunning]
      exact .failed

end Phrases

/-! ## Rules -/

/-- A way to run one rule that keeps the state tidy and loses no name and no
literal. -/
structure Conservative (setup : Setup) (rule : Rule) (run : State → Reply) : Prop where
  tidy : ∀ state : State, state.Tidy setup.stream → (run state).state.Tidy setup.stream
  conserves : ∀ state : State, state.Tidy setup.stream →
    (state.trying = true → rule ≠ .compilationUnit) → rule ≠ .enhancedForHead →
    (run state).Conserves setup.stream rule state.pos

section Rules

variable {setup : Setup} {rule : Rule} {run : State → Reply}

theorem Caller.Conserving.runBody {call : Caller} (conserving : call.Conserving setup)
    (ordered : setup.stream.Ordered) (rule : Rule) :
    Conservative setup rule (setup.runBody call rule) := by
  constructor
  · intro state tidy
    rw [Setup.runBody_state]
    exact conserving.tidy_run rule.body _ tidy
  · intro state tidy notUnit kept
    have inner := conserving.run ordered rule.body false state (setup.frame state .error)
      (Rule.body_keeps kept) (by simp) (rule.body_settled state.trying notUnit) tidy
    intro running parts built
    simp only [Setup.runBody] at running built ⊢
    rcases found : setup.run call rule.body state (setup.frame state .error) with
      ⟨verdict, after, filled⟩
    rw [found] at inner
    simp only [found] at running built ⊢
    cases verdict with
    | ok =>
        cases built
        have kept := (inner running).get
        refine ⟨kept.accounts state.pos (.nil tidy.inside),
          fun consumes => kept.lt (Rule.body_consumes consumes), ?_, ?_, ?_⟩
        · exact fun single => kept.count 1 (Rule.body_adds single)
        · rintro rfl
          exact kept.ends Rule.compilationUnit_ends
        · rintro rfl
          exact kept.head Rule.localVarHead_yields
    | failed => cases built
    | ended => cases inner running

theorem Setup.guarded_conservative (conservative : Conservative setup rule run) :
    Conservative setup rule (setup.guarded run) := by
  constructor
  · intro state tidy
    rcases setup.guarded_cases run state with ⟨-, same⟩ | ⟨after, same, -, -, samePos, sameMemo⟩
    · have inner := conservative.tidy
        { state with steps := state.steps + 1, depth := state.depth + 1 } ⟨tidy.inside, tidy.memo⟩
      rw [same]
      exact ⟨inner.inside, inner.memo⟩
    · rw [same]
      exact ⟨samePos ▸ tidy.inside, sameMemo ▸ tidy.memo⟩
  · intro state tidy notUnit kept running parts built
    rcases setup.guarded_cases run state with ⟨-, same⟩ | ⟨after, same, -⟩
    · rw [same] at running built ⊢
      exact conservative.conserves
        { state with steps := state.steps + 1, depth := state.depth + 1 } ⟨tidy.inside, tidy.memo⟩
        notUnit kept running parts built
    · rw [same] at built
      cases built

theorem remember_conservative {slot : Memo.Slot} (kept : Memo.Slot.of? rule = some slot)
    (conservative : Conservative setup rule run) (state : State)
    (tidy : state.Tidy setup.stream) :
    (remember ⟨slot, state.pos⟩ run state).state.Tidy setup.stream ∧
      (remember ⟨slot, state.pos⟩ run state).Conserves setup.stream rule state.pos := by
  have innerTidy := conservative.tidy { state with furthest := .none } ⟨tidy.inside, tidy.memo⟩
  have conserves := conservative.conserves { state with furthest := .none }
    ⟨tidy.inside, tidy.memo⟩ (by rintro - rfl; cases kept) (by rintro rfl; cases kept)
  simp only [remember]
  rcases found : run { state with furthest := .none } with ⟨parts?, after⟩
  rw [found] at innerTidy conserves
  dsimp only
  split
  · rename_i stopped
    refine ⟨⟨innerTidy.inside, innerTidy.memo⟩, fun running => ?_⟩
    have notFatal : after.fatal = none := running
    simp [notFatal] at stopped
  · rename_i running
    have notFatal : after.fatal = none := by simpa using running
    have yielded := conserves notFatal
    refine ⟨⟨innerTidy.inside, Memo.All.put innerTidy.memo ?_⟩, fun _ => yielded⟩
    rw [Memo.Slot.rule_of? kept]
    rintro parts rfl
    exact yielded parts rfl

theorem memoized_conservative {slot : Memo.Slot} (kept : Memo.Slot.of? rule = some slot)
    (conservative : Conservative setup rule run) :
    Conservative setup rule (memoized slot run) := by
  have both : ∀ state : State, state.Tidy setup.stream →
      (memoized slot run state).state.Tidy setup.stream ∧
        (memoized slot run state).Conserves setup.stream rule state.pos := by
    intro state tidy
    have lookedUp := Memo.All.get tidy.memo ⟨slot, state.pos⟩
    have remembered := remember_conservative kept conservative
      { state with memo := (state.memo.get ⟨slot, state.pos⟩).2 } ⟨tidy.inside, lookedUp⟩
    have told : ∀ outcome parts, (state.memo.get ⟨slot, state.pos⟩).1 = some outcome →
        outcome.parts? = some parts → Yielded setup.stream rule state.pos parts outcome.stop := by
      intro outcome parts found built
      rw [state.memo.get_fst] at found
      have yielded : Yielded setup.stream slot.rule state.pos parts outcome.stop :=
        tidy.memo _ _ found parts built
      rwa [Memo.Slot.rule_of? kept] at yielded
    simp only [memoized]
    split
    · rename_i parts stop furthest found
      have yielded := told _ parts found rfl
      refine ⟨⟨yielded.accounts.bounds.2, lookedUp⟩, fun _ others same => ?_⟩
      cases same
      exact yielded
    · split
      · exact ⟨⟨tidy.inside, lookedUp⟩, fun _ _ built => by cases built⟩
      · exact remembered
    · exact remembered
  exact ⟨fun state tidy => (both state tidy).1, fun state tidy _ _ => (both state tidy).2⟩

end Rules

/-- No call of a rule loses a name or a literal. -/
theorem Setup.callWith_conserving (setup : Setup) (ordered : setup.stream.Ordered) (budget : Nat) :
    Caller.Conserving (setup.callWith budget) setup := by
  induction budget with
  | zero =>
      refine ⟨setup.keeps_callWith 0, fun rule state tidy => tidy, ?_⟩
      intro rule state tidy _ _ running parts built
      cases built
  | succ budget ih =>
      have conservative : ∀ rule, Conservative setup rule (setup.callWith (budget + 1) rule) := by
        intro rule
        exact setup.runRule_induction (ih.runBody ordered rule) guarded_conservative
          memoized_conservative
      exact ⟨setup.keeps_callWith (budget + 1), fun rule => (conservative rule).tidy,
        fun rule => (conservative rule).conserves⟩

/-! ## Whole parses -/

/-- The first call of a parse that is not abandoned and gives a tree has built
that tree alone, from all tokens. -/
theorem Setup.reply_yielded {setup : Setup} {entry : Entry} {tree : Node}
    (ordered : setup.stream.Ordered) (running : (setup.reply entry).state.fatal = none)
    (complete : setup.Complete entry) (built : setup.node? entry = some tree) :
    (setup.reply entry).parts? = some [tree] ∧
      (setup.reply entry).state.pos = setup.stream.last ∧
      Yielded setup.stream entry.rule 0 [tree] setup.stream.last := by
  have conserving := setup.callWith_conserving ordered setup.budget
  have start : setup.initial.Tidy setup.stream := ⟨Nat.zero_le _, Memo.All.empty⟩
  have tidy : (setup.reply entry).state.Tidy setup.stream :=
    conserving.tidy entry.rule setup.initial start
  obtain ⟨parts, found, latest⟩ := Option.bind_eq_some_iff.mp built
  have yielded : Yielded setup.stream entry.rule 0 parts (setup.reply entry).state.pos :=
    conserving.conserves entry.rule setup.initial start (by simp [initial, State.trying])
      (by cases entry <;> simp [Entry.rule]) running parts found
  have single : parts = [tree] := by
    have one := yielded.single (by cases entry <;> rfl)
    obtain ⟨only, rfl⟩ := List.length_eq_one_iff.mp one
    simpa using latest
  have atEnd : (setup.reply entry).state.pos = setup.stream.last := by
    rcases complete with rfl | ⟨-, ends⟩
    · exact yielded.ends rfl
    · exact ordered.eq_last tidy.inside ends
  rw [single, atEnd] at yielded
  exact ⟨found.trans (congrArg some single), atEnd, yielded⟩

/-- That tree accounts for all tokens. -/
theorem Setup.node?_accounts {setup : Setup} {entry : Entry} {tree : Node}
    (ordered : setup.stream.Ordered) (running : (setup.reply entry).state.fatal = none)
    (complete : setup.Complete entry) (built : setup.node? entry = some tree) :
    Accounts setup.stream [tree] 0 setup.stream.last :=
  (setup.reply_yielded ordered running complete built).2.2.accounts

end JavaFront.Parser

namespace JavaFront.Source

open JavaFront.Parser

/-- No name and no literal is lost, doubled or moved. In a parse that is not
abandoned and gives a tree, those of the text that lie inside of no error node
are those that a walk over the tree finds, in the same order. -/
theorem parse_conserves (source : Source) (entry : Entry) (options : Options) (tree : Node)
    (running : (source.parse entry options).abandoned = none)
    (built : (source.parse entry options).tree = some tree) :
    source.tokens.filter (fun token =>
        token.kind.isNamed && !tree.errors.any (·.span.contains token.span)) =
      (tree.nodes.filterMap Node.token).filter (·.kind.isNamed) := by
  obtain ⟨sameTree, -, sameFatal⟩ :=
    source.parse_of_accepted entry options (accepted_of_running running)
  let setup := Setup.ofSource source options
  have ordered : setup.stream.Ordered := Stream.ofSource_ordered source
  have entered : setup.Complete entry :=
    Setup.complete_of_built (sameFatal.symm.trans running) (sameTree.symm.trans built)
  have stillRunning : (setup.reply entry).state.fatal = none :=
    (setup.enterAt_follows entry).fatal (sameFatal.symm.trans running)
  have node : setup.node? entry = some tree := by
    rw [built, Setup.enterAt_of_complete stillRunning entered] at sameTree
    exact sameTree.symm
  have accounts := setup.node?_accounts ordered stillRunning entered node
  have conserved := accounts.survivors_eq_named ordered
  have loses : ∀ token, Node.loses [tree] token = tree.errors.any (·.span.contains token.span) := by
    intro token
    simp [Node.loses, Node.errors, Node.forest, List.any_filter]
  have named : Node.named [tree] = (tree.nodes.filterMap Node.token).filter (·.kind.isNamed) := by
    simp [Node.named, Node.forest]
  have significant : setup.stream.tokens = source.tokens.filter Token.isSignificant :=
    (Stream.tokens_ofSource source).1
  rw [Stream.survivors, setup.stream.segment_eq_tokens, significant, List.filter_filter, named]
    at conserved
  rw [← conserved]
  apply List.filter_congr
  intro token _
  rw [loses]
  cases isNamed : token.kind.isNamed with
  | false => rfl
  | true => simp [Token.isSignificant_of_isNamed isNamed]

/-- The first statement of the block is skipped, and its name lies inside of an
error node. -/
theorem parse_conserves_skipped :
    ∃ tree, ((of [] "{a b c; d = 1;}").parse .statement).abandoned = none ∧
      ((of [] "{a b c; d = 1;}").parse .statement).tree = some tree ∧ tree.errors.length = 1 ∧
      (of [] "{a b c; d = 1;}").tokens.filter (fun token =>
          token.kind.isNamed && !tree.errors.any (·.span.contains token.span)) =
        (tree.nodes.filterMap Node.token).filter (·.kind.isNamed) := by
  have running : ((of [] "{a b c; d = 1;}").parse .statement).abandoned = none := by decide +kernel
  have skips :
      ((of [] "{a b c; d = 1;}").parse .statement).tree.map (·.errors.length) = some 1 := by
    decide +kernel
  obtain ⟨tree, built, one⟩ := Option.map_eq_some_iff.mp skips
  exact ⟨tree, running, built, one, parse_conserves _ .statement {} tree running built⟩

end JavaFront.Source
