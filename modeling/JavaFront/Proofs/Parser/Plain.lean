import JavaFront.Proofs.Parser.Pairing
import JavaFront.Proofs.Parser.Reports

/-!
# Plain rules read alike everywhere

A plain rule does not care whether it is tried or read for good: outside of
annotations nothing in it recovers. An annotation does not care either if it
reads on its own, because whatever a trial reads is read outside of trials in
the same way, without a report.
-/

namespace JavaFront.Parser

/-! ## Inside of a trial and outside of one -/

/-- Two runs without the memo table, the second one inside of a trial. Where it
goes on, the first one reports nothing. If the pairing is not lossy, the first one
is inside of a trial as well. -/
def trialPairing (setup : Setup) (lossy : Bool) (reports : Array Diagnostic) : Pairing where
  setup := setup
  memo := false
  grounds ground twin :=
    0 ≤ ground.speculating ∧ (lossy = false → 0 < ground.speculating) ∧ 0 < twin.speculating ∧
      ground.diagnostics = reports
  whole := true
  lossy := lossy

section Trials

variable {setup : Setup} {lossy : Bool} {reports : Array Diagnostic} {budget twinBudget : Nat}
  {state twin : State}

/-- Calls without the memo table, the second one inside of a trial, go on in
step for all reports at hand. -/
def TriedAlike (setup : Setup) (lossy : Bool) (budget twinBudget : Nat) : Prop :=
  ∀ (reports : Array Diagnostic) (rule : Rule),
    (trialPairing setup lossy reports).GoesOn budget twinBudget rule
      ((setup.withMemo false).callWith budget rule)
      ((setup.withMemo false).callWith twinBudget rule)

/-- Two trials have the same answer, because each succeeds where the other
does. -/
theorem TriedAlike.trials (alike : TriedAlike setup lossy budget twinBudget)
    (twinAlike : TriedAlike setup lossy twinBudget budget) (rule : Rule)
    (level : (trialPairing setup lossy reports).Level state twin)
    (enough : need setup.stream rule state.pos ≤ budget)
    (twinEnough : need setup.stream rule state.pos ≤ twinBudget)
    (notUnit : rule ≠ .compilationUnit) :
    (trialPairing setup lossy reports).Trials state
      (trial ((setup.withMemo false).callWith budget rule) state)
      (trial ((setup.withMemo false).callWith twinBudget rule) twin) := by
  obtain ⟨nonneg, strict, positive, told⟩ := level.grounds
  have tried : (trialPairing setup lossy reports).Level
      { state with speculating := state.speculating + 1 }
      { twin with speculating := twin.speculating + 1 } :=
    { level with
      grounds := ⟨Int.add_nonneg nonneg (by decide), fun _ => Int.lt_add_one_of_le nonneg,
        Int.add_pos positive (by decide), told⟩ }
  have twinTried : (trialPairing setup lossy twin.diagnostics).Level
      { twin with speculating := twin.speculating + 1 }
      { state with speculating := state.speculating + 1 } :=
    { pos_eq := level.pos_eq.symm
      inside := by rw [level.pos_eq]; exact level.inside
      running := level.twinRunning
      twinRunning := level.running
      fresh := level.twinFresh
      twinFresh := level.fresh
      grounds := ⟨Int.add_nonneg (Int.le_of_lt positive) (by decide),
        fun _ => Int.add_pos positive (by decide), Int.lt_add_one_of_le nonneg, rfl⟩ }
  have there := alike reports rule tried enough twinEnough fun _ => notUnit
  have back := twinAlike twin.diagnostics rule twinTried (by rw [level.pos_eq]; exact twinEnough)
    (by rw [level.pos_eq]; exact enough) fun _ => notUnit
  have follows := Setup.follows_trial ((setup.withMemo false).keeps_callWith budget rule) state
  have twinFollows :=
    Setup.follows_trial ((setup.withMemo false).keeps_callWith twinBudget rule) twin
  have hushed := (setup.withMemo false).hushes_callWith budget rule
    { state with speculating := state.speculating + 1 }
  refine level.trials fun running twinRunning => ⟨?_, ?_, fun isStrict => ?_, ?_, ?_⟩
  · exact Bool.eq_iff_iff.mpr
      ⟨back.succeeds twinRunning running, there.succeeds running twinRunning⟩
  · exact le_of_le_of_eq nonneg follows.speculating_eq.symm
  · exact lt_of_lt_of_eq (strict isStrict) follows.speculating_eq.symm
  · exact lt_of_lt_of_eq positive twinFollows.speculating_eq.symm
  · refine (hushed.silent ?_ running).trans told
    exact decide_eq_true (Int.lt_add_one_of_le nonneg)

/-- Where a tried rule gives up, recovery outside of trials may go on without
it. -/
theorem TriedAlike.recovers (alike : TriedAlike setup lossy budget twinBudget) (rule : Rule)
    (level : (trialPairing setup lossy reports).Level state twin)
    (enough : need setup.stream rule state.pos ≤ budget)
    (twinEnough : need setup.stream rule state.pos ≤ twinBudget)
    (notUnit : rule ≠ .compilationUnit) :
    (trialPairing setup lossy reports).Replies false state.pos
      ((setup.withMemo false).recovered
        ((setup.withMemo false).callWith budget rule) state)
      ((setup.withMemo false).recovered
        ((setup.withMemo false).callWith twinBudget rule) twin) := by
  have inside : (trialPairing setup lossy reports).Level { state with furthest := .none }
      { twin with furthest := .none } :=
    { level with fresh := rfl, twinFresh := rfl }
  have inner := alike reports rule inside enough twinEnough fun _ => notUnit
  have trying : 0 < ((setup.withMemo false).callWith twinBudget rule
      { twin with furthest := .none }).state.speculating := by
    rw [((setup.withMemo false).keeps_callWith twinBudget rule
      { twin with furthest := .none }).speculating_eq]
    exact level.grounds.2.2.1
  generalize found : (setup.withMemo false).callWith budget rule { state with furthest := .none } =
    reply at inner
  generalize twinFound : (setup.withMemo false).callWith twinBudget rule
    { twin with furthest := .none } = twinReply at inner trying
  cases inner with
  | some parts next moves =>
      rw [Setup.recovered_of_some found, Setup.recovered_of_some twinFound]
      exact .some parts { next with fresh := level.fresh, twinFresh := level.twinFresh }
        (moves.mono (by simp))
  | @none after twinAfter stuck =>
      rw [Setup.recovered_of_given twinFound (.inl trying)]
      by_cases given : 0 < after.speculating
      · rw [Setup.recovered_of_given found (.inl given)]
        refine .none { stuck with furthest_eq := ?_, proper := ?_ }
        · simp only [level.fresh, level.twinFresh, stuck.furthest_eq]
        · simp only [level.fresh, stuck.proper.none_merge]
          exact stuck.proper
      · refine .lost (by_contra fun strict => given ?_) stuck.twinRunning
        exact stuck.grounds.2.1 (Bool.eq_false_iff.mpr strict)
  | lost lossy running =>
      rw [Setup.recovered_of_given twinFound (.inl trying)]
      exact .lost lossy running
  | stopped fatal => exact .stopped (by rw [Setup.recovered_fatal, found]; exact fatal)
  | twinStopped fatal => exact .twinStopped (by rw [Setup.recovered_fatal, twinFound]; exact fatal)

theorem TriedAlike.closes (kind : Token.Kind) (frame : Frame)
    (level : (trialPairing setup lossy reports).Level state twin) :
    (trialPairing setup lossy reports).Outcomes false state.pos
      ((setup.withMemo false).close kind state frame)
      ((setup.withMemo false).close kind twin frame) := by
  obtain ⟨-, strict, trying, -⟩ := level.grounds
  by_cases found : setup.stream.kind state.pos = kind
  · simp only [Setup.close, level.pos_eq, found, if_true]
    exact .ok frame level.advance
      ⟨setup.stream.le_succ _, Stream.succ_le_last level.inside, by simp⟩
  · rw [(setup.withMemo false).close_of_open frame
      (show setup.stream.kind twin.pos ≠ kind by rwa [level.pos_eq]) (.inl trying)]
    by_cases given : 0 < state.speculating
    · rw [(setup.withMemo false).close_of_open frame found (.inl given)]
      exact .failed frame frame (level.failAll [kind.describe])
    · refine .lost frame (by_contra fun isStrict => given ?_) level.twinRunning
      exact strict (Bool.eq_false_iff.mpr isStrict)

theorem TriedAlike.calls (alike : TriedAlike setup lossy budget twinBudget)
    (twinAlike : TriedAlike setup lossy twinBudget budget) :
    (trialPairing setup lossy reports).Calls budget twinBudget
      ((setup.withMemo false).callWith budget) ((setup.withMemo false).callWith twinBudget) where
  keeps := (setup.withMemo false).keeps_callWith budget
  twinKeeps := (setup.withMemo false).keeps_callWith twinBudget
  calls := fun rule _ _ level enough twinEnough notUnit _ =>
    alike reports rule level enough twinEnough notUnit
  trials := fun rule _ _ level enough twinEnough notUnit _ =>
    alike.trials twinAlike rule level enough twinEnough notUnit
  recovers := fun _ rule _ _ level enough twinEnough notUnit =>
    alike.recovers rule level enough twinEnough notUnit
  closes := fun _ kind frame _ _ level => closes kind frame level

end Trials

/-- What a trial reads is read outside of trials in the same way and without a
report, however the budgets differ, and two trials fail alike as well. -/
theorem Setup.tried_alike (setup : Setup) (ordered : setup.stream.Ordered) (lossy : Bool)
    (budget twinBudget : Nat) :
    TriedAlike setup lossy budget twinBudget ∧ TriedAlike setup lossy twinBudget budget := by
  have unready : ∀ budget, TriedAlike setup lossy 0 budget ∧ TriedAlike setup lossy budget 0 := by
    intro budget
    constructor
    · intro reports rule state twin level enough
      simp [need] at enough
    · intro reports rule state twin level enough twinEnough
      simp [need] at twinEnough
  induction budget generalizing twinBudget with
  | zero => exact unready twinBudget
  | succ budget ih =>
      cases twinBudget with
      | zero => exact (unready (budget + 1)).symm
      | succ twinBudget =>
          obtain ⟨alike, twinAlike⟩ := ih twinBudget
          have step : ∀ {budget twinBudget : Nat}, TriedAlike setup lossy budget twinBudget →
              TriedAlike setup lossy twinBudget budget →
              TriedAlike setup lossy (budget + 1) (twinBudget + 1) := by
            intro budget twinBudget alike twinAlike reports rule
            have calls : (trialPairing setup lossy reports).Calls budget twinBudget _ _ :=
              alike.calls twinAlike
            have entered : (trialPairing setup lossy reports).GoesOn _ _ rule _ _ :=
              calls.entered ordered (.inl rfl)
            simp only [Setup.callWith, Setup.runRule_eq]
            cases Memo.Slot.of? rule with
            | none => exact entered
            | some slot => exact entered
          exact ⟨step alike twinAlike, step twinAlike alike⟩

/-! ## Annotations -/

/-- A trial of an annotation at an index succeeds. -/
def Setup.AnnotationReads (setup : Setup) (index : Nat) : Prop :=
  (setup.call .annotationUse { pos := index, speculating := 1 }).parts?.isSome = true ∧
    (setup.call .annotationUse { pos := index, speculating := 1 }).state.fatal = none

instance (setup : Setup) (index : Nat) : Decidable (setup.AnnotationReads index) :=
  inferInstanceAs (Decidable (_ ∧ _))

/-- Every at sign in front of a name starts an annotation that reads on its
own. -/
def Setup.Annotated (setup : Setup) : Prop :=
  ∀ index, setup.stream.kind index = .atSign → setup.stream.kind (index + 1) = .ident →
    setup.AnnotationReads index

/-- Two runs of plain rules without the memo table. Neither of them reports
anything. -/
def plainPairing (setup : Setup) (reports twinReports : Array Diagnostic) : Pairing where
  setup := setup
  memo := false
  grounds ground twin :=
    0 ≤ ground.speculating ∧ 0 ≤ twin.speculating ∧
      ground.diagnostics = reports ∧ twin.diagnostics = twinReports
  whole := false
  lossy := false

section Plain

variable {setup : Setup} {reports twinReports : Array Diagnostic} {budget twinBudget : Nat}
  {state twin : State}

/-- A name does not start with anything but an identifier. -/
theorem Setup.callWith_qualifiedName (setup : Setup) (budget : Nat) {state : State}
    (noName : setup.stream.kind state.pos ≠ .ident) :
    setup.callWith (budget + 1) .qualifiedName state =
      ⟨none, state.fail (Token.Kind.describe .ident)⟩ := by
  simp [callWith, runRule, Memo.Slot.of?, Rule.isGuarded, runBody, Rule.body,
    Grammar.qualifiedName, Phrase.steps, Phrase.ident, run, enclose, noName]

/-- An annotation starts with an at sign. -/
theorem Setup.runBody_annotationUse (setup : Setup) (call : Caller) {state : State}
    (noSign : setup.stream.kind state.pos ≠ .atSign) :
    setup.runBody call .annotationUse state =
      ⟨none, state.fail (Token.Kind.describe .atSign)⟩ := by
  simp [runBody, Rule.body, Grammar.annotationUse, Phrase.steps, run, enclose, noSign]

/-- Behind its at sign an annotation has a name. -/
theorem Setup.runBody_annotationUse_sign (setup : Setup) (budget : Nat) {state : State}
    (sign : setup.stream.kind state.pos = .atSign)
    (noName : setup.stream.kind (setup.stream.succ state.pos) ≠ .ident) :
    setup.runBody (setup.callWith (budget + 1)) .annotationUse state =
      ⟨none, (setup.advance state).fail (Token.Kind.describe .ident)⟩ := by
  have named : setup.callWith (budget + 1) .qualifiedName (setup.advance state) = _ :=
    setup.callWith_qualifiedName budget noName
  simp [runBody, Rule.body, Grammar.annotationUse, Phrase.steps, run, enclose, sign, named]

/-- An annotation that reads on its own reads so in every run that is not
abandoned. -/
theorem TriedAlike.annotationUse (alike : TriedAlike setup true budget setup.budget)
    (reads : (setup.withMemo false).AnnotationReads state.pos)
    (inside : state.pos ≤ setup.stream.last) (running : state.fatal = none)
    (fresh : state.furthest = .none) (nonneg : 0 ≤ state.speculating)
    (enough : need setup.stream .annotationUse state.pos ≤ budget) :
    ((setup.withMemo false).callWith budget .annotationUse state).state.fatal.isSome = true ∨
    ∃ parts after twinAfter,
      (setup.withMemo false).call .annotationUse { pos := state.pos, speculating := 1 } =
        ⟨some parts, twinAfter⟩ ∧
      (setup.withMemo false).callWith budget .annotationUse state = ⟨some parts, after⟩ ∧
      (trialPairing setup true state.diagnostics).Level after twinAfter ∧
      Moves setup.stream Rule.annotationUse.consumes state.pos after.pos := by
  have level : (trialPairing setup true state.diagnostics).Level state
      { pos := state.pos, speculating := 1 } :=
    ⟨rfl, inside, running, rfl, fresh, rfl, nonneg, by simp, Int.zero_lt_one, rfl⟩
  have both := alike state.diagnostics .annotationUse level enough (setup.need_le_budget _ _)
    fun _ => by decide
  obtain ⟨success, notStopped⟩ := reads
  change ((setup.withMemo false).callWith setup.budget .annotationUse
    { pos := state.pos, speculating := 1 }).parts?.isSome = true at success
  change ((setup.withMemo false).callWith setup.budget .annotationUse
    { pos := state.pos, speculating := 1 }).state.fatal = none at notStopped
  change _ ∨ ∃ parts after twinAfter, (setup.withMemo false).callWith setup.budget .annotationUse
    { pos := state.pos, speculating := 1 } = _ ∧ _
  generalize (setup.withMemo false).callWith budget .annotationUse state = reply at both ⊢
  generalize (setup.withMemo false).callWith setup.budget .annotationUse
    { pos := state.pos, speculating := 1 } = twinReply at both success notStopped ⊢
  cases both with
  | @some after twinAfter parts next moves =>
      exact .inr ⟨parts, after, twinAfter, rfl, rfl, next, moves⟩
  | none stuck => cases success
  | lost lossy running => cases success
  | stopped fatal => exact .inl fatal
  | twinStopped fatal => simp [notStopped] at fatal

/-- Calls of plain rules without the memo table go on in step, be it inside of
a trial or outside, if every annotation reads on its own. -/
def PlainAlike (setup : Setup) (budget twinBudget : Nat) : Prop :=
  ∀ (reports twinReports : Array Diagnostic) (rule : Rule), rule.isPlain = true →
    (plainPairing setup reports twinReports).GoesOn budget twinBudget rule
      ((setup.withMemo false).callWith budget rule)
      ((setup.withMemo false).callWith twinBudget rule)

theorem PlainAlike.trials (alike : PlainAlike setup budget twinBudget) {rule : Rule}
    (plain : rule.isPlain = true)
    (level : (plainPairing setup reports twinReports).Level state twin)
    (enough : need setup.stream rule state.pos ≤ budget)
    (twinEnough : need setup.stream rule state.pos ≤ twinBudget)
    (notUnit : rule ≠ .compilationUnit) :
    (plainPairing setup reports twinReports).Trials state
      (trial ((setup.withMemo false).callWith budget rule) state)
      (trial ((setup.withMemo false).callWith twinBudget rule) twin) := by
  obtain ⟨nonneg, twinNonneg, told, twinTold⟩ := level.grounds
  have tried : (plainPairing setup reports twinReports).Level
      { state with speculating := state.speculating + 1 }
      { twin with speculating := twin.speculating + 1 } :=
    { level with
      grounds := ⟨Int.add_nonneg nonneg (by decide), Int.add_nonneg twinNonneg (by decide), told,
        twinTold⟩ }
  have both := alike reports twinReports rule plain tried enough twinEnough fun _ => notUnit
  have follows := Setup.follows_trial ((setup.withMemo false).keeps_callWith budget rule) state
  have twinFollows :=
    Setup.follows_trial ((setup.withMemo false).keeps_callWith twinBudget rule) twin
  refine level.trials_of_replies rfl both fun after => ?_
  obtain ⟨-, -, toldAfter, twinToldAfter⟩ := after
  exact ⟨le_of_le_of_eq nonneg follows.speculating_eq.symm,
    le_of_le_of_eq twinNonneg twinFollows.speculating_eq.symm, toldAfter, twinToldAfter⟩

theorem PlainAlike.calls (alike : PlainAlike setup budget twinBudget) :
    (plainPairing setup reports twinReports).Calls budget twinBudget
      ((setup.withMemo false).callWith budget) ((setup.withMemo false).callWith twinBudget) where
  keeps := (setup.withMemo false).keeps_callWith budget
  twinKeeps := (setup.withMemo false).keeps_callWith twinBudget
  calls := fun rule _ _ level enough twinEnough notUnit plain =>
    alike reports twinReports rule (plain.resolve_left (by simp [plainPairing])) level enough
      twinEnough notUnit
  trials := fun _ _ _ level enough twinEnough notUnit plain =>
    alike.trials (plain.resolve_left (by simp [plainPairing])) level enough twinEnough notUnit
  recovers := by simp [plainPairing]
  closes := by simp [plainPairing]

/-- Annotations go on in step. -/
theorem Setup.annotation_alike (setup : Setup) (ordered : setup.stream.Ordered)
    (annotated : (setup.withMemo false).Annotated) (budget twinBudget : Nat) :
    (plainPairing setup reports twinReports).GoesOn (budget + 1) (twinBudget + 1) .annotationUse
      ((setup.withMemo false).callWith (budget + 1) .annotationUse)
      ((setup.withMemo false).callWith (twinBudget + 1) .annotationUse) := by
  intro state twin level enough twinEnough notUnit
  by_cases starts : setup.stream.kind state.pos = .atSign ∧
    setup.stream.kind (state.pos + 1) = .ident
  · have reads := annotated state.pos starts.1 starts.2
    obtain ⟨nonneg, twinNonneg, told, twinTold⟩ := level.grounds
    have first := (setup.tried_alike ordered true (budget + 1) setup.budget).1.annotationUse reads
      level.inside level.running level.fresh nonneg enough
    have second := (setup.tried_alike ordered true (twinBudget + 1) setup.budget).1.annotationUse
      (level.pos_eq ▸ reads) (level.pos_eq ▸ level.inside) level.twinRunning level.twinFresh
      twinNonneg (level.pos_eq ▸ twinEnough)
    rw [level.pos_eq] at second
    rcases first with fatal | ⟨parts, after, reference, found, same, next, moves⟩
    · exact .stopped fatal
    · rcases second with fatal | ⟨twinParts, twinAfter, again, refound, twinSame, twinNext, -⟩
      · exact .twinStopped fatal
      · cases found.symm.trans refound
        rw [same, twinSame]
        refine .some parts ⟨twinNext.pos_eq.symm.trans next.pos_eq, next.inside, next.running,
          twinNext.running, next.fresh, twinNext.fresh, next.grounds.1, twinNext.grounds.1, ?_, ?_⟩
          moves
        · exact next.grounds.2.2.2.trans told
        · exact twinNext.grounds.2.2.2.trans twinTold
  · change (plainPairing setup reports twinReports).Replies _ _
      ((setup.withMemo false).guarded _ state) ((setup.withMemo false).guarded _ twin)
    refine level.guarded fun {state' twin'} inside samePos _ => ?_
    rw [← samePos] at starts enough twinEnough
    by_cases sign : setup.stream.kind state'.pos = .atSign
    · have before := ordered.lt_last (show setup.stream.kind state'.pos ≠ .eof by rw [sign]; decide)
      have noName : setup.stream.kind (setup.stream.succ state'.pos) ≠ .ident := by
        rw [Stream.succ_of_lt before]
        exact fun named => starts ⟨sign, named⟩
      have someBudget : ∀ {budget : Nat}, need setup.stream .annotationUse state'.pos ≤ budget + 1 →
          ∃ rest, budget = rest + 1 := by
        intro budget enough
        simp only [need, Rule.ranks] at enough
        exact ⟨budget - 1, by omega⟩
      obtain ⟨rest, rfl⟩ := someBudget enough
      obtain ⟨twinRest, rfl⟩ := someBudget twinEnough
      rw [(setup.withMemo false).runBody_annotationUse_sign rest sign noName,
        (setup.withMemo false).runBody_annotationUse_sign twinRest
          (by rw [inside.pos_eq]; exact sign) (by rw [inside.pos_eq]; exact noName)]
      exact .none (inside.advance.failAll [_])
    · rw [(setup.withMemo false).runBody_annotationUse _ sign,
        (setup.withMemo false).runBody_annotationUse _ (by rw [inside.pos_eq]; exact sign)]
      exact .none (inside.failAll [_])

/-- Calls of plain rules go on in step, however their budgets differ and whether
or not they are tried. -/
theorem Setup.plain_alike (setup : Setup) (ordered : setup.stream.Ordered)
    (annotated : (setup.withMemo false).Annotated) (budget twinBudget : Nat) :
    PlainAlike setup budget twinBudget := by
  induction budget generalizing twinBudget with
  | zero =>
      intro reports twinReports rule plain state twin level enough
      simp [need] at enough
  | succ budget ih =>
      cases twinBudget with
      | zero =>
          intro reports twinReports rule plain state twin level enough twinEnough
          simp [need] at twinEnough
      | succ twinBudget =>
          intro reports twinReports rule plain
          by_cases isUse : rule = .annotationUse
          · rw [isUse]
            exact setup.annotation_alike ordered annotated budget twinBudget
          · have calls : (plainPairing setup reports twinReports).Calls budget twinBudget _ _ :=
              (ih twinBudget).calls
            have entered : (plainPairing setup reports twinReports).GoesOn _ _ rule _ _ :=
              calls.entered ordered (.inr (Rule.body_isPlain plain isUse))
            simp only [Setup.callWith, Setup.runRule_eq]
            cases Memo.Slot.of? rule with
            | none => exact entered
            | some slot => exact entered

end Plain

end JavaFront.Parser
