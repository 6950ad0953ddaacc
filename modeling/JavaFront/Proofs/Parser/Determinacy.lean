import JavaFront.Proofs.Parser.Termination

/-!
# Every run ends in one way

A run without a budget has one outcome, so budgets that are enough make no
difference: with any of them a call has the reply of the call with the budget
of a parse.
-/

namespace JavaFront.Parser

variable {setup : Setup}

/-- Where the settings of a rule make the same of all answers given in a first
state, and the same of all answers given in a second one, two answers come to
the same, provided that they do if the two states are one. -/
theorem within_congr {rule : Rule} {state first second : State} {reply other : Reply}
    (asksFirst : ∀ run, setup.within rule run state = setup.within rule (fun _ => run first) state)
    (asksSecond : ∀ run, setup.within rule run state =
      setup.within rule (fun _ => run second) state)
    (same : first = second → reply = other) :
    setup.within rule (fun _ => reply) state = setup.within rule (fun _ => other) state := by
  classical
  by_cases eq : first = second
  · rw [same eq]
  · let run : State → Reply := fun state => if state = first then reply else other
    have left := asksFirst run
    have right := asksSecond run
    simp only [run, if_true, if_neg (Ne.symm eq)] at left right
    exact left.symm.trans right

/-- A call of a rule has one reply. The induction follows the first of two runs;
a phrase has constructors of its own, so the second one took the same. -/
theorem Setup.Replies.unique {rule : Rule} {state : State} {reply other : Reply}
    (first : setup.Replies rule state reply) (second : setup.Replies rule state other) :
    reply = other := by
  refine @Setup.Replies.rec setup
    (fun phrase state frame outcome _ =>
      ∀ other, setup.Ends phrase state frame other → outcome = other)
    (fun rule state reply _ => ∀ other, setup.Replies rule state other → reply = other)
    ?step ?seq ?seqStops ?node ?wrap ?wrapFails ?reopen ?reopenFails ?cover ?branch ?trial ?call
    ?recover ?orElse ?otherwise ?loop ?loopEnds ?documented ?body ?settled
    rule state reply first other second
  case step =>
    intro phrase state frame plain other second
    cases second with
    | step => rfl
    | _ => cases plain
  case seq =>
    intro _ _ _ _ _ _ _ _ _ earlyIh lateIh other second
    cases second with
    | step plain => cases plain
    | seq twin after =>
        cases earlyIh _ twin
        exact lateIh _ after
    | seqStops twin stops =>
        cases earlyIh _ twin
        exact absurd rfl stops
  case seqStops =>
    intro _ _ _ _ _ _ stops earlyIh other second
    cases second with
    | step plain => cases plain
    | seq twin after =>
        cases earlyIh _ twin
        exact absurd rfl stops
    | seqStops twin => exact earlyIh _ twin
  case node =>
    intro _ _ _ _ _ _ innerIh other second
    cases second with
    | step plain => cases plain
    | node twin => rw [innerIh _ twin]
  case wrap =>
    intro _ _ _ _ _ _ _ parts _ innerIh other second
    cases second with
    | step plain => cases plain
    | wrap twinParts twin =>
        cases parts.symm.trans twinParts
        rw [innerIh _ twin]
    | wrapFails empty => cases parts.symm.trans empty
  case wrapFails =>
    intro _ _ _ _ empty other second
    cases second with
    | step plain => cases plain
    | wrap parts => cases parts.symm.trans empty
    | wrapFails => rfl
  case reopen =>
    intro _ _ _ _ _ _ _ parts _ innerIh other second
    cases second with
    | step plain => cases plain
    | reopen twinParts twin =>
        cases parts.symm.trans twinParts
        rw [innerIh _ twin]
    | reopenFails empty => cases parts.symm.trans empty
  case reopenFails =>
    intro _ _ _ _ empty other second
    cases second with
    | step plain => cases plain
    | reopen parts => cases parts.symm.trans empty
    | reopenFails => rfl
  case cover =>
    intro _ _ _ _ _ _ innerIh other second
    cases second with
    | step plain => cases plain
    | cover twin => rw [innerIh _ twin]
  case branch =>
    intro _ _ _ _ _ _ _ innerIh other second
    cases second with
    | step plain => cases plain
    | branch twin => exact innerIh _ twin
  case trial =>
    intro _ _ _ _ _ _ _ _ _ triedIh innerIh other second
    cases second with
    | step plain => cases plain
    | trial twin twinInner =>
        cases triedIh _ twin
        exact innerIh _ twinInner
  case call =>
    intro _ _ _ _ _ calledIh other second
    cases second with
    | step plain => cases plain
    | call twin => rw [calledIh _ twin]
  case recover =>
    intro _ _ _ _ _ calledIh other second
    cases second with
    | step plain => cases plain
    | recover twin => rw [calledIh _ twin]
  case orElse =>
    intro _ _ _ _ _ _ goesOn earlyIh other second
    cases second with
    | step plain => cases plain
    | orElse twin => exact earlyIh _ twin
    | otherwise twin =>
        cases earlyIh _ twin
        exact absurd rfl goesOn
  case otherwise =>
    intro _ _ _ _ _ _ _ _ _ earlyIh lateIh other second
    cases second with
    | step plain => cases plain
    | orElse twin goesOn =>
        cases earlyIh _ twin
        exact absurd rfl goesOn
    | otherwise twin after =>
        cases earlyIh _ twin
        exact lateIh _ after
  case loop =>
    intro _ _ _ _ _ holds _ innerIh other second
    cases second with
    | step plain => cases plain
    | loop _ twin => exact innerIh _ twin
    | loopEnds ends => cases holds.symm.trans ends
  case loopEnds =>
    intro _ _ _ _ ends other second
    cases second with
    | step plain => cases plain
    | loop holds => cases holds.symm.trans ends
    | loopEnds => rfl
  case documented =>
    intro _ _ _ _ _ innerIh other second
    cases second with
    | step plain => cases plain
    | documented twin => rw [innerIh _ twin]
  case body =>
    intro _ _ _ _ asked _ innerIh other second
    cases second with
    | body twinAsked twin =>
        refine within_congr asked twinAsked fun same => ?_
        cases same
        rw [innerIh _ twin]
    | settled settled => exact settled _
  case settled =>
    intro _ state _ settled other second
    cases second with
    | body => exact (settled _).symm
    | settled twin => exact (settled fun _ => ⟨none, state⟩).symm.trans (twin _)

/-- With a budget that is enough, a call is the call with the budget of a
parse. -/
theorem Setup.callWith_eq_call (ordered : setup.stream.Ordered) {budget : Nat} {rule : Rule}
    {state : State} (placed : state.Placed setup.stream)
    (enough : need setup.stream rule state.pos ≤ budget)
    (notUnit : state.trying = true → rule ≠ .compilationUnit) :
    setup.callWith budget rule state = setup.call rule state :=
  ((setup.callWith_ends ordered budget).replies rule state placed enough notUnit).unique
    ((setup.callWith_ends ordered setup.budget).replies rule state placed
      (setup.need_le_budget rule state.pos) notUnit)

end JavaFront.Parser
