import JavaFront.Proofs.Parser.Limits
import JavaFront.Proofs.Parser.Plain

/-!
# What can be read is read

Every rule reads something or gives up: a trial without limits says which. And
what the rule of an entry reads, every parse reads that is not abandoned, with
the memo table or without it, and reports nothing on the way.
-/

namespace JavaFront.Parser

/-- A trial without limits is not abandoned and leaves what its rule reads. -/
theorem Setup.trial_reads (setup : Setup) (ordered : setup.stream.Ordered)
    (regular : ∀ index, setup.stream.kind index ≠ .error) {rule : Rule}
    (notUnit : rule ≠ .compilationUnit) {pos : Nat} (inside : pos ≤ setup.stream.last) :
    (setup.unlimited.call rule { pos, speculating := 1 }).state.fatal = none ∧
      RuleReads setup.stream rule pos (setup.unlimited.call rule { pos, speculating := 1 }).parts?
        (setup.unlimited.call rule { pos, speculating := 1 }).state.pos := by
  have running := setup.unlimited_running rule
    (show State.fatal { pos, speculating := 1 } = none from rfl) rfl
  have silent := (setup.unlimited.hushes_callWith setup.budget rule
    { pos, speculating := 1 }).silent rfl running
  have reliable := setup.unlimited.callWith_reliable ordered regular setup.budget
  exact ⟨running, (reliable.faithful rule { pos, speculating := 1 } (setup.need_le_budget rule pos)
    (fun _ => notUnit) inside Memo.All.empty ⟨running, silent⟩).reads⟩

/-- Every rule but the one for a whole unit reads something or gives up. -/
theorem RuleReads.exists {stream : Stream} (ordered : stream.Ordered)
    (regular : ∀ index, stream.kind index ≠ .error) {rule : Rule}
    (notUnit : rule ≠ .compilationUnit) {pos : Nat} (inside : pos ≤ stream.last) :
    ∃ parts? stop, RuleReads stream rule pos parts? stop :=
  ⟨_, _, ((Setup.plain stream).trial_reads ordered regular notUnit inside).2⟩

/-- What a rule reads at the start of a text it reads without limits and without
the memo table, and nothing is reported. -/
theorem Setup.calm_of_reads (setup : Setup) (ordered : setup.stream.Ordered)
    (start : setup.initial.Calm) {rule : Rule} (notUnit : rule ≠ .compilationUnit)
    {parts : List Node} {stop : Nat} (reads : RuleReads setup.stream rule 0 (some parts) stop) :
    ((setup.withMemo false).unlimited.call rule setup.initial).state.Calm := by
  obtain ⟨triedRunning, triedReads⟩ := (setup.withMemo false).trial_reads ordered
    (regular_of_calm ordered start) notUnit (Nat.zero_le _)
  have found := (triedReads.unique reads).1
  have running : ((setup.withMemo false).unlimited.call rule setup.initial).state.fatal = none :=
    (setup.withMemo false).unlimited_running rule rfl rfl
  have level : (trialPairing setup.unlimited true #[]).Level setup.initial
      { pos := 0, speculating := 1 } :=
    ⟨rfl, Nat.zero_le _, rfl, rfl, rfl, rfl, Int.le_refl 0, by simp, Int.zero_lt_one,
      start.diagnostics⟩
  have both : (trialPairing setup.unlimited true #[]).Replies rule.consumes 0
      ((setup.withMemo false).unlimited.call rule setup.initial)
      ((setup.withMemo false).unlimited.call rule { pos := 0, speculating := 1 }) :=
    (setup.unlimited.tried_alike ordered true setup.budget setup.budget).1 #[] rule level
      (setup.need_le_budget rule 0) (setup.need_le_budget rule 0) fun _ => notUnit
  generalize (setup.withMemo false).unlimited.call rule setup.initial = reply at both running ⊢
  generalize (setup.withMemo false).unlimited.call rule { pos := 0, speculating := 1 } = tried
    at both triedRunning found
  cases both with
  | some _ next _ => exact ⟨next.running, next.grounds.2.2.2⟩
  | none _ => cases found
  | lost _ _ => cases found
  | stopped fatal => simp [running] at fatal
  | twinStopped fatal => simp [triedRunning] at fatal

/-- What the rule of an entry reads, every parse reads that is not abandoned. -/
theorem Setup.reply_of_reads (setup : Setup) (ordered : setup.stream.Ordered)
    (start : setup.initial.Calm) {entry : Entry} (notUnit : entry.rule ≠ .compilationUnit)
    {parts : List Node} {stop : Nat}
    (reads : RuleReads setup.stream entry.rule 0 (some parts) stop)
    (running : (setup.reply entry).state.fatal = none) :
    (setup.reply entry).state.Calm ∧ (setup.reply entry).parts? = some parts ∧
      (setup.reply entry).state.pos = stop := by
  have bareCalm : ((setup.unlimited.withMemo false).reply entry).state.Calm :=
    setup.calm_of_reads ordered start notUnit reads
  have fullCalm := (Setup.reply_withMemo (show setup.unlimited.stream.Ordered from ordered) rfl
    bareCalm).1
  have same : setup.unlimited.reply entry = setup.reply entry :=
    setup.call_unlimited entry.rule rfl rfl running
  have calm : (setup.reply entry).state.Calm := by
    rw [← same]
    cases inUse : setup.unlimited.options.memo with
    | false =>
        have isBare : setup.unlimited.withMemo false = setup.unlimited := by rw [← inUse]
        rwa [isBare] at bareCalm
    | true =>
        have isFull : setup.unlimited.withMemo true = setup.unlimited := by rw [← inUse]
        rwa [isFull] at fullCalm
  obtain ⟨sameParts, samePos⟩ := (setup.reply_faithful ordered calm).reads.unique reads
  exact ⟨calm, sameParts, samePos (by rw [sameParts]; rfl)⟩

end JavaFront.Parser

namespace JavaFront.Source

open JavaFront.Parser

/-- A text without lexical errors that the rule of an entry reads to its end is
parsed without errors, whatever the options, unless the parse is abandoned. -/
theorem parse_of_reads {source : Source} (entry : Entry) {options : Options}
    (notUnit : entry.rule ≠ .compilationUnit)
    (regular : (Stream.ofSource source).lexicalErrors = []) {node : Node}
    (reads : RuleReads (.ofSource source) entry.rule 0 (some [node]) (Stream.ofSource source).last)
    (running : (source.parse entry options).abandoned = none) :
    (source.parse entry options).diagnostics = [] ∧
      (source.parse entry options).tree = some node := by
  let setup := Setup.ofSource source options
  have ordered := Stream.ofSource_ordered source
  obtain ⟨sameTree, sameDiagnostics, sameFatal⟩ :=
    source.parse_of_accepted entry options (accepted_of_running running)
  have replied : (setup.reply entry).state.fatal = none :=
    (setup.enterAt_follows entry).fatal (sameFatal.symm.trans running)
  have start : setup.initial.Calm := by
    refine ⟨rfl, ?_⟩
    rw [Setup.initial, show setup.stream.lexicalErrors = [] from regular]
    rfl
  obtain ⟨calm, parts, stop⟩ := setup.reply_of_reads ordered start notUnit reads replied
  have built : setup.node? entry = some node := by
    rw [Setup.node?, parts]
    rfl
  have complete : setup.Complete entry := by
    refine .inr ⟨by rw [built]; rfl, ?_⟩
    rw [stop]
    exact ordered.kind_last
  rw [Setup.enterAt_of_complete replied complete] at sameTree sameDiagnostics
  exact ⟨sameDiagnostics.trans (congrArg Array.toList calm.diagnostics), sameTree.trans built⟩

end JavaFront.Source
