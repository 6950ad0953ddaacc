import JavaFront.Parser
import JavaFront.Proofs.Parser.Agreement

/-!
# Whole parses

What a parse of a whole source says about the run of its first rule. A parse
without errors had no lexical errors either, its first rule met no trouble, and
it read the text up to the end.
-/

namespace JavaFront

/-- The rule that reads the whole text. -/
def Entry.rule : Entry → Rule
  | .unit => .compilationUnit
  | .expression => .expression
  | .statement => .blockStatement

namespace Parser.Setup

variable {setup : Setup} {entry : Entry}

/-- The first call of a parse. -/
def reply (setup : Setup) (entry : Entry) : Reply :=
  setup.call entry.rule setup.initial

/-- The tree that the first call has built. -/
def node? (setup : Setup) (entry : Entry) : Option Node :=
  (setup.reply entry).parts?.bind List.head?

/-- The first call has read what the entry asks for: for a unit that is any
number of tokens, otherwise a tree up to the end of the text. -/
def Complete (setup : Setup) (entry : Entry) : Prop :=
  entry = .unit ∨
    (setup.node? entry).isSome ∧ setup.stream.kind (setup.reply entry).state.pos = .eof

theorem reply_follows (setup : Setup) (entry : Entry) :
    setup.initial.Follows (setup.reply entry).state :=
  setup.keeps_callWith _ _ _

theorem enterAt_follows (setup : Setup) (entry : Entry) :
    (setup.reply entry).state.Follows (setup.enterAt entry).2 := by
  have whole : ∀ rule : Rule, (setup.call rule setup.initial).state.Follows
      (setup.whole rule setup.initial).2 := by
    intro rule
    simp only [Setup.whole]
    split
    · rfl
    · split
      · rfl
      · split
        · have reported := setup.follows_report
            ((setup.call rule setup.initial).state.fail (Token.Kind.describe .eof))
            ((setup.call rule setup.initial).state.fail (Token.Kind.describe .eof)).furthest
          exact ⟨reported.depth_eq, reported.speculating_eq, reported.fatal, reported.diagnostics⟩
        · exact setup.follows_report _ _
  cases entry with
  | unit => rfl
  | expression => exact whole .expression
  | statement => exact whole .blockStatement

/-- A parse that starts without a report has no lexical errors. -/
theorem regular_of_calm (ordered : setup.stream.Ordered) (calm : setup.initial.Calm) (index : Nat) :
    setup.stream.kind index ≠ .error := by
  have none : setup.stream.lexicalErrors = [] := by
    have diagnostics := congrArg Array.toList calm.diagnostics
    simpa [initial] using diagnostics
  intro isError
  have inside := ordered.lt_last (show setup.stream.kind index ≠ .eof by rw [isError]; decide)
  have member : setup.stream.get index ∈ setup.stream.lexicalErrors := by
    refine List.mem_filter.mpr ⟨Stream.get_mem_tokens inside, ?_⟩
    simpa [Stream.kind] using isError
  simp [none] at member

/-- A first call that is complete and not abandoned is the whole parse. -/
theorem enterAt_of_complete (running : (setup.reply entry).state.fatal = none)
    (complete : setup.Complete entry) :
    setup.enterAt entry = (setup.node? entry, (setup.reply entry).state) := by
  cases entry with
  | unit => rfl
  | expression | statement =>
      rcases complete with isUnit | ⟨built, atEnd⟩
      · cases isUnit
      · simp only [node?, reply, Entry.rule] at running built atEnd
        simp [enterAt, whole, node?, reply, Entry.rule, running, built, atEnd]

/-- A first call that is not complete gives no tree but a report. -/
theorem enterAt_of_incomplete (running : (setup.reply entry).state.fatal = none)
    (incomplete : ¬ setup.Complete entry) :
    (setup.enterAt entry).1 = none ∧
      ∃ state failure, (setup.enterAt entry).2 = setup.report state failure := by
  cases entry with
  | unit => exact absurd (.inl rfl) incomplete
  | expression | statement =>
      have notBoth : ¬ ((setup.node? _).isSome ∧
          setup.stream.kind (setup.reply _).state.pos = .eof) :=
        fun both => incomplete (.inr both)
      simp only [node?, reply, Entry.rule] at running notBoth
      simp only [enterAt, whole, running, Option.isSome_none, Bool.false_eq_true, if_false,
        Bool.and_eq_true, decide_eq_true_eq, notBoth]
      exact ⟨trivial, _, _, rfl⟩

/-- A parse that is not abandoned and gives a tree has a complete first
call. -/
theorem complete_of_built {node : Node} (running : (setup.enterAt entry).2.fatal = none)
    (built : (setup.enterAt entry).1 = some node) : setup.Complete entry := by
  have stillRunning := (setup.enterAt_follows entry).fatal running
  by_contra incomplete
  rw [(enterAt_of_incomplete stillRunning incomplete).1] at built
  cases built

/-- A parse that reports nothing has a complete first call. -/
theorem complete_of_calm (regular : ∀ index, setup.stream.kind index ≠ .error)
    (calm : (setup.enterAt entry).2.Calm) : setup.Complete entry := by
  have stillRunning := (setup.enterAt_follows entry).fatal calm.fatal
  by_contra incomplete
  obtain ⟨-, state, failure, reported⟩ := enterAt_of_incomplete stillRunning incomplete
  rw [reported] at calm
  exact diagnostics_report_ne regular state failure calm.diagnostics

/-- The first call of a parse that reports nothing has read what its rule
reads. -/
theorem reply_faithful (setup : Setup) (ordered : setup.stream.Ordered)
    (calm : (setup.reply entry).state.Calm) :
    (setup.reply entry).Faithful setup.stream entry.rule 0 := by
  have regular := regular_of_calm ordered ((setup.reply_follows entry).calm calm)
  exact (setup.callWith_reliable ordered regular _).faithful entry.rule setup.initial
    (setup.need_le_budget _ _) (by simp [initial, State.trying]) (Nat.zero_le _) Memo.All.empty calm

end Parser.Setup

namespace Source

open JavaFront.Parser

/-- The size limit lets the source through. -/
def Accepted (source : Source) (options : Options) : Prop :=
  ¬ (0 < options.maxSize && options.maxSize < source.size) = true

theorem parse_of_accepted (source : Source) (entry : Entry) (options : Options)
    (accepted : source.Accepted options) :
    (source.parse entry options).tree = ((Setup.ofSource source options).enterAt entry).1 ∧
      (source.parse entry options).diagnostics =
        ((Setup.ofSource source options).enterAt entry).2.diagnostics.toList ∧
      (source.parse entry options).abandoned =
        ((Setup.ofSource source options).enterAt entry).2.fatal := by
  simp only [parse]
  rw [if_neg accepted]
  exact ⟨rfl, rfl, rfl⟩

theorem stats_of_accepted (source : Source) (entry : Entry) (options : Options)
    (accepted : source.Accepted options) :
    (source.parse entry options).stats =
      (Setup.ofSource source options).stats ((Setup.ofSource source options).enterAt entry).2 := by
  simp only [parse]
  rw [if_neg accepted]

/-- A parse that is not abandoned looks at the source. -/
theorem accepted_of_running {source : Source} {entry : Entry} {options : Options}
    (running : (source.parse entry options).abandoned = none) : source.Accepted options := by
  intro refused
  simp [parse, refused, refuse] at running

theorem hasErrors_eq_false_iff {parsed : Parsed} :
    parsed.hasErrors = false ↔ parsed.abandoned = none ∧ parsed.diagnostics = [] := by
  simp [Parsed.hasErrors]

/-- A parse without errors ends in a calm state and gives the tree that its
first call has built. -/
theorem parse_of_clean {source : Source} {entry : Entry} {options : Options}
    (clean : (source.parse entry options).hasErrors = false) :
    source.Accepted options ∧ ((Setup.ofSource source options).reply entry).state.Calm ∧
      (Setup.ofSource source options).Complete entry ∧
      (source.parse entry options).tree = (Setup.ofSource source options).node? entry := by
  obtain ⟨running, silent⟩ := hasErrors_eq_false_iff.mp clean
  have accepted := accepted_of_running running
  obtain ⟨sameTree, sameDiagnostics, sameFatal⟩ := source.parse_of_accepted entry options accepted
  have calm : ((Setup.ofSource source options).enterAt entry).2.Calm := by
    rw [silent] at sameDiagnostics
    rw [running] at sameFatal
    exact ⟨sameFatal.symm, Array.toList_eq_nil_iff.mp sameDiagnostics.symm⟩
  have replyCalm := ((Setup.ofSource source options).enterAt_follows entry).calm calm
  have ordered : (Setup.ofSource source options).stream.Ordered := Stream.ofSource_ordered source
  have regular := Setup.regular_of_calm ordered
    (((Setup.ofSource source options).reply_follows entry).calm replyCalm)
  have complete := Setup.complete_of_calm regular calm
  rw [Setup.enterAt_of_complete replyCalm.fatal complete] at sameTree
  exact ⟨accepted, replyCalm, complete, sameTree⟩

end Source

end JavaFront
