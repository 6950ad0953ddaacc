import JavaFront.Proofs.Grammar.Ending
import JavaFront.Proofs.Parser.Records
import JavaFront.Proofs.Parser.Reports

/-!
# The tree and the diagnostics of a parse

A parse that is not abandoned gives a tree without error nodes exactly if it
reports nothing, and one without a tree has something to report. The
diagnostics start with the lexical errors of the text, in order, and what comes
behind them is about other tokens.
-/

namespace JavaFront

namespace Parser

/-! ## Steady phrases -/

/-- A steady phrase never gives up. -/
theorem Setup.run_steady (setup : Setup) (call : Caller) (phrase : Phrase)
    (steady : phrase.steady = true) (state : State) (frame : Frame) :
    (setup.run call phrase state frame).verdict ≠ .failed := by
  induction phrase generalizing state frame with
  | done | operator | rekind => simp [run]
  | seq first second firstIh secondIh =>
      obtain ⟨firstSteady, secondSteady⟩ := Bool.and_eq_true_iff.mp steady
      rw [run_seq]
      split
      · exact secondIh secondSteady _ _
      · exact firstIh firstSteady state frame
  | node kind body ih =>
      have inner := ih steady state (setup.frame state kind)
      simp [run, enclose]
  | cover kind body ih =>
      have inner := ih steady state { kind, start := .origin }
      simp [run]
  | loop look body ih =>
      have rounds : ∀ (budget : Nat) (state : State) (frame : Frame),
          (repeatWhile (fun state frame => setup.holds state frame look)
            (fun state frame => setup.run call body state frame) budget state
            frame).verdict ≠ .failed := by
        intro budget
        induction budget with
        | zero => simp [repeatWhile]
        | succ budget inner =>
            intro state frame
            have once := ih steady state frame
            simp only [repeatWhile]
            split
            · split
              · exact inner _ _
              · exact once
            · simp
      exact rounds _ state frame
  | documented body ih =>
      rw [run_documented, Outcome.documented_verdict]
      exact ih steady state frame
  | branch look yes no yesIh noIh =>
      obtain ⟨noSteady, yesSteady | ⟨accept, kind, rfl, rfl, only⟩⟩ := Phrase.steady_branch steady
      · rw [run_branch]
        split
        · exact yesIh yesSteady _ _
        · exact noIh noSteady _ _
      · rw [run_branch]
        split
        · rename_i accepted
          simp [run, only _ accepted]
        · exact noIh noSteady _ _
  | trial rule yes no yesIh noIh =>
      obtain ⟨yesSteady, noSteady⟩ := Bool.and_eq_true_iff.mp steady
      rw [run_trial]
      split
      · exact yesIh yesSteady _ _
      · exact noIh noSteady _ _
  | orElse first second firstIh secondIh =>
      rw [run_orElse]
      rcases Bool.or_eq_true_iff.mp steady with firstSteady | secondSteady
      · have once := firstIh firstSteady state frame
        rwa [if_neg once]
      · split
        · exact secondIh secondSteady _ _
        · assumption
  | _ => simp [Phrase.steady] at steady

/-- What the first call of a unit leaves: one node over all that the phrase
inside of its rule has read. -/
theorem Setup.reply_unit (setup : Setup) {kind : Node.Kind} {phrase : Phrase}
    (body : Rule.compilationUnit.body = .cover kind phrase) {outcome : Outcome}
    (found : setup.run (setup.callWith (setup.budget - 1)) phrase setup.initial
      { kind, start := .origin } = outcome) (succeeds : outcome.verdict ≠ .failed) :
    setup.reply .unit =
      ⟨some [outcome.frame.toNode (setup.stream.get setup.stream.last).span.stop],
        outcome.state⟩ := by
  have same : setup.budget = setup.budget - 1 + 1 :=
    (Nat.sub_add_cancel (Nat.mul_pos (by decide) (Nat.succ_pos _))).symm
  have called : setup.reply .unit =
      setup.runBody (setup.callWith (setup.budget - 1)) .compilationUnit setup.initial := by
    simp only [reply, call]
    rw [same, callWith, runRule_eq]
    rfl
  simp [called, runBody, body, run, found, frame, Frame.push]

/-- A unit is always given a tree. -/
theorem Setup.node?_unit (setup : Setup) : (setup.node? .unit).isSome = true := by
  obtain ⟨phrase, body, -⟩ := Rule.body_compilationUnit
  have steady : phrase.steady = true := by
    have whole := Rule.compilationUnit_steady
    rwa [body] at whole
  rw [node?, setup.reply_unit body rfl (setup.run_steady _ phrase steady _ _)]
  rfl

/-! ## Whole parses -/

/-- A text with a lexical error has a report from the start. -/
theorem Setup.initial_honest (setup : Setup) (ordered : setup.stream.Ordered) :
    setup.initial.Honest setup.stream := by
  refine ⟨Int.le_refl 0, ?_, Memo.All.empty⟩
  intro index isError silent
  exact regular_of_calm ordered ⟨rfl, silent⟩ index isError

/-- The tree that the first call of a parse has built has no error nodes exactly
if there are no diagnostics. -/
theorem Setup.node?_clean_iff {setup : Setup} {entry : Entry} {tree : Node}
    (ordered : setup.stream.Ordered) (running : (setup.reply entry).state.fatal = none)
    (complete : setup.Complete entry) (built : setup.node? entry = some tree) :
    Node.Clean [tree] ↔ (setup.reply entry).state.diagnostics = #[] := by
  have reporting := setup.callWith_reporting ordered setup.budget
  have start : setup.initial.Tidy setup.stream := ⟨Nat.zero_le _, Memo.All.empty⟩
  obtain ⟨found, atEnd, -⟩ := setup.reply_yielded ordered running complete built
  obtain ⟨answered, silent⟩ := reporting.reports entry.rule setup.initial start
    (setup.initial_honest ordered) (by simp [initial, State.trying])
    (by cases entry <;> simp [Entry.rule]) running [tree] found
  constructor
  · intro clean
    have none : setup.stream.lexicalErrors = [] := by
      refine List.filter_eq_nil_iff.mpr ?_
      intro token member
      obtain ⟨index, inside, rfl⟩ := Stream.exists_get_of_mem member
      simpa [Stream.kind] using answered.regular clean index (Nat.zero_le _) (atEnd ▸ inside)
    refine (silent clean).trans ?_
    simp [initial, none]
  · intro empty
    by_contra dirty
    exact answered.told dirty empty

end Parser

namespace Source

open JavaFront.Parser

/-- A parse that is not abandoned has error nodes in its tree exactly if it has
diagnostics, and it has some if it has no tree. The diagnostics start with one
for each lexical error of the text, in order, and no other one is about a
lexical error. -/
theorem parse_reports (source : Source) (entry : Entry) (options : Options)
    (running : (source.parse entry options).abandoned = none) :
    ((source.parse entry options).tree = none → (source.parse entry options).diagnostics ≠ []) ∧
      (∀ tree, (source.parse entry options).tree = some tree →
        (tree.errors = [] ↔ (source.parse entry options).diagnostics = [])) ∧
      ∃ later, (source.parse entry options).diagnostics =
          (source.tokens.filter (·.kind = .error)).map
            (Setup.ofSource source options).lexicalError ++ later ∧
        ∀ diagnostic ∈ later, ∀ token ∈ source.tokens, token.kind = .error →
          diagnostic.start.offset ≠ token.span.start.offset := by
  obtain ⟨sameTree, sameDiagnostics, sameFatal⟩ :=
    source.parse_of_accepted entry options (accepted_of_running running)
  let setup := Setup.ofSource source options
  have ordered : setup.stream.Ordered := Stream.ofSource_ordered source
  have stopped : (setup.enterAt entry).2.fatal = none := sameFatal.symm.trans running
  have stillRunning : (setup.reply entry).state.fatal = none :=
    (setup.enterAt_follows entry).fatal stopped
  rw [sameTree, sameDiagnostics]
  refine ⟨?_, ?_, ?_⟩
  · intro noTree silent
    have calm : (setup.enterAt entry).2.Calm := ⟨stopped, Array.toList_eq_nil_iff.mp silent⟩
    have started := (setup.reply_follows entry).calm ((setup.enterAt_follows entry).calm calm)
    have complete := Setup.complete_of_calm (Setup.regular_of_calm ordered started) calm
    have built : (setup.node? entry).isSome = true := by
      rcases complete with rfl | ⟨built, -⟩
      · exact setup.node?_unit
      · exact built
    have missing : setup.node? entry = none := by
      rwa [Setup.enterAt_of_complete stillRunning complete] at noTree
    rw [missing] at built
    cases built
  · intro tree built
    have complete := Setup.complete_of_built stopped built
    have entered := Setup.enterAt_of_complete stillRunning complete
    have node : setup.node? entry = some tree := by rwa [entered] at built
    rw [Node.errors_eq_nil_iff, Setup.node?_clean_iff ordered stillRunning complete node, ←
      Array.toList_eq_nil_iff, entered]
  · obtain ⟨later, same, blames⟩ := (setup.records_enterAt entry).grows
    refine ⟨later, ?_, ?_⟩
    · rw [same]
      simp [setup, Setup.initial, Setup.ofSource, Stream.lexicalErrors_ofSource]
    · intro diagnostic member token inText isError starts
      obtain ⟨index, regular, place⟩ := blames stopped diagnostic member
      have listed : token ∈ setup.stream.tokens := by
        have significant : token.isSignificant = true := by
          simp [Token.isSignificant, Token.Kind.isTrivia, isError]
        exact (Stream.tokens_ofSource source).1 ▸ List.mem_filter.mpr ⟨inText, significant⟩
      obtain ⟨other, inside, rfl⟩ := Stream.exists_get_of_mem listed
      rw [place] at starts
      exact regular ((ordered.kind_eq_of_start inside (Int.ofNat_inj.mp starts)).trans isError)

/-- The stray character at the end is reported first, and the failure that it
causes in the second statement is not reported again. -/
theorem parse_reports_stray :
    ((of [] "{a b c; d = #;}").parse .statement).abandoned = none ∧
      (∃ tree, ((of [] "{a b c; d = #;}").parse .statement).tree = some tree ∧
        tree.errors.length = 2 ∧
        (tree.errors = [] ↔ ((of [] "{a b c; d = #;}").parse .statement).diagnostics = [])) ∧
      ∃ later, ((of [] "{a b c; d = #;}").parse .statement).diagnostics =
          ((of [] "{a b c; d = #;}").tokens.filter (·.kind = .error)).map
            (Setup.ofSource (of [] "{a b c; d = #;}") {}).lexicalError ++ later ∧
        later.length = 1 ∧
        ∀ diagnostic ∈ later, ∀ token ∈ (of [] "{a b c; d = #;}").tokens, token.kind = .error →
          diagnostic.start.offset ≠ token.span.start.offset := by
  have running : ((of [] "{a b c; d = #;}").parse .statement).abandoned = none := by
    decide +kernel
  have skips :
      ((of [] "{a b c; d = #;}").parse .statement).tree.map (·.errors.length) = some 2 := by
    decide +kernel
  have counts : ((of [] "{a b c; d = #;}").parse .statement).diagnostics.length = 2 ∧
      ((of [] "{a b c; d = #;}").tokens.filter (·.kind = .error)).length = 1 := by
    decide +kernel
  obtain ⟨-, errors, later, same, apart⟩ :=
    parse_reports (of [] "{a b c; d = #;}") .statement {} running
  obtain ⟨tree, built, two⟩ := Option.map_eq_some_iff.mp skips
  refine ⟨running, ⟨tree, built, two, errors tree built⟩, later, same, ?_, apart⟩
  rw [same, List.length_append, List.length_map] at counts
  omega

end Source

end JavaFront
