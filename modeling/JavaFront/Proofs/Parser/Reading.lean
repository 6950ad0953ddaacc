import JavaFront.Parser.Machine
import JavaFront.Proofs.Grammar.Progress
import JavaFront.Proofs.Token.Significant

/-!
# What phrases read

`Reads` says what a phrase makes of a stream when nothing goes wrong: which
index it gets to and which frame it leaves, or that it gives up. It knows of no
limits, no reports, no memo table and no budget, so there is just one answer
for every phrase, index and frame.
-/

namespace JavaFront.Parser

/-- A setup that has nothing but a stream. -/
def Setup.plain (stream : Stream) : Setup :=
  { file := [], stream, options := {} }

/-- A look that finds no abandoned parse depends on the stream, the cursor and
the frame alone. -/
theorem Setup.holds_eq_plain (setup : Setup) {state : State} (frame : Frame) (look : Look)
    (running : state.fatal = none) :
    setup.holds state frame look =
      (Setup.plain setup.stream).holds { pos := state.pos } frame look := by
  have sameNames : ∀ budget index,
      setup.genericNameAt budget index =
        (Setup.plain setup.stream).genericNameAt budget index := by
    intro budget
    induction budget with
    | zero => intro index; rfl
    | succ budget ih =>
        intro index
        simp only [genericNameAt, ih]
        rfl
  induction look with
  | abandoned => simp [holds, running]
  | genericName => exact sameNames _ _
  | not look ih => simp only [holds, ih]
  | and first second firstIh secondIh => simp only [holds, firstIh, secondIh]
  | or first second firstIh secondIh => simp only [holds, firstIh, secondIh]
  | _ => rfl

/-- A node that starts with a token ends with the last token read. -/
theorem Setup.stopFrom_eq {setup : Setup} (ordered : setup.stream.Ordered) {state : State}
    {first : Nat} (order : first ≤ state.pos) (inside : state.pos ≤ setup.stream.last) :
    setup.stopFrom state (setup.stream.get first).span.start =
      (setup.stream.stretch first state.pos).stop := by
  simp only [stopFrom, Stream.stretch]
  by_cases atStart : state.pos = 0
  · simp [atStart]
  · rw [if_neg atStart]
    by_cases some : first < state.pos
    · have proper := ordered.start_lt_stop (state.pos - 1) (by omega)
      have before : first ≤ state.pos - 1 := by omega
      have later := ordered.start_le_start before (by omega)
      rw [if_pos some, if_pos (by omega)]
    · have before : state.pos - 1 < first := by omega
      have apart := ordered.stop_le_start_of_lt before (by omega)
      rw [if_neg some, if_neg (by omega)]

/-- What a phrase reads from an index on into a frame: the index behind it and
the frame with what it built, or nothing if it gives up. -/
inductive Reads (stream : Stream) : Phrase → Nat → Frame → Option (Nat × Frame) → Prop
  | done {pos frame} : Reads stream .done pos frame (some (pos, frame))
  | stop {pos frame} : Reads stream .stop pos frame none
  | expected {texts pos frame} : Reads stream (.expected texts) pos frame none
  | salvage {pos frame} : Reads stream .salvage pos frame none
  | seqFails {first second pos frame} :
      Reads stream first pos frame none → Reads stream (.seq first second) pos frame none
  | seq {first second pos frame middle inner result} :
      Reads stream first pos frame (some (middle, inner)) →
      Reads stream second middle inner result →
      Reads stream (.seq first second) pos frame result
  | token {kind pos frame} :
      Reads stream (.token kind) pos frame
        (if stream.kind pos = kind then some (stream.succ pos, frame) else none)
  | leaf {node kind pos frame} :
      Reads stream (.leaf node kind) pos frame
        (if stream.kind pos = kind then
          some (stream.succ pos, frame.push (.leaf node (stream.get pos)))
        else none)
  | pick {node accept pos frame} :
      Reads stream (.pick node accept) pos frame
        (if accept (stream.kind pos) then
          some (stream.succ pos, frame.push (.leaf node (stream.get pos)))
        else none)
  | mark {accept pos frame} :
      Reads stream (.mark accept) pos frame
        (if accept (stream.kind pos) then
          some (stream.succ pos, { frame with token := some (stream.get pos) })
        else none)
  | operator {pos frame} :
      Reads stream .operator pos frame
        (some (stream.afterOperator pos,
          frame.push (.leaf .operator (stream.operatorToken pos))))
  | node {kind body pos frame result} :
      Reads stream body pos ((Setup.plain stream).frame { pos } kind) result →
      Reads stream (.node kind body) pos frame
        (result.map fun (after, inner) =>
          (after, frame.push ((Setup.plain stream).finish { pos := after } inner)))
  | wrapFails {kind body pos frame} :
      frame.parts = [] → Reads stream (.wrap kind body) pos frame none
  | wrap {kind body pos frame first others result} :
      frame.parts = first :: others →
      Reads stream body pos { kind, start := first.span.start, parts := [first] } result →
      Reads stream (.wrap kind body) pos frame
        (result.map fun (after, inner) =>
          (after, { frame with parts := others }.push
            ((Setup.plain stream).finish { pos := after } inner)))
  | reopenFails {kind body pos frame} :
      frame.parts = [] → Reads stream (.reopen kind body) pos frame none
  | reopen {kind body pos frame head others result} :
      frame.parts = head :: others →
      Reads stream body pos
        { kind, start := head.span.start, parts := head.children.reverse } result →
      Reads stream (.reopen kind body) pos frame
        (result.map fun (after, inner) =>
          (after, { frame with parts := others }.push
            ((Setup.plain stream).finish { pos := after } inner)))
  | cover {kind body pos frame result} :
      Reads stream body pos { kind, start := .origin } result →
      Reads stream (.cover kind body) pos frame
        (result.map fun (after, inner) =>
          (after, frame.push (inner.toNode (stream.get stream.last).span.stop)))
  | rekind {kind pos frame} :
      Reads stream (.rekind kind) pos frame (some (pos, { frame with kind }))
  | branch {look yes no pos frame result} :
      Reads stream (if (Setup.plain stream).holds { pos } frame look then yes else no)
        pos frame result →
      Reads stream (.branch look yes no) pos frame result
  | trial {rule yes no pos frame tried result} :
      Reads stream rule.body pos ((Setup.plain stream).frame { pos } .error) tried →
      Reads stream (if tried.isSome then yes else no) pos frame result →
      Reads stream (.trial rule yes no) pos frame result
  | call {rule pos frame result} :
      Reads stream rule.body pos ((Setup.plain stream).frame { pos } .error) result →
      Reads stream (.call rule) pos frame
        (result.map fun (after, inner) => (after, frame.pushAll inner.parts))
  | recover {rule pos frame result} :
      Reads stream (.call rule) pos frame result →
      Reads stream (.recover rule) pos frame result
  | orElse {first second pos frame result} :
      Reads stream first pos frame result →
      Reads stream (.orElse first second) pos frame result
  | loopEnds {look body pos frame} :
      (Setup.plain stream).holds { pos } frame look = false →
      Reads stream (.loop look body) pos frame (some (pos, frame))
  | loop {look body pos frame result} :
      (Setup.plain stream).holds { pos } frame look = true →
      Reads stream (.seq body (.loop look body)) pos frame result →
      Reads stream (.loop look body) pos frame result
  | documented {body pos frame result} :
      Reads stream body pos frame result →
      Reads stream (.documented body) pos frame
        (result.map fun (after, inner) => (after, inner.document (stream.docBefore? pos)))
  | closing {kind pos frame result} :
      Reads stream (.token kind) pos frame result →
      Reads stream (.closing kind) pos frame result

namespace Reads

variable {stream : Stream} {phrase : Phrase} {pos : Nat} {frame : Frame}
  {result : Option (Nat × Frame)}

/-- There is one way to read a phrase. -/
theorem unique {other : Option (Nat × Frame)} (first : Reads stream phrase pos frame result)
    (second : Reads stream phrase pos frame other) : result = other := by
  induction first generalizing other with
  | seqFails _ ih =>
      cases second with
      | seqFails => rfl
      | seq reads _ => cases ih reads
  | seq _ _ firstIh secondIh =>
      cases second with
      | seqFails reads => cases firstIh reads
      | seq reads later =>
          cases firstIh reads
          exact secondIh later
  | node _ ih =>
      cases second with
      | node reads => rw [ih reads]
  | wrapFails empty =>
      cases second with
      | wrapFails => rfl
      | wrap filled => simp [empty] at filled
  | wrap filled _ ih =>
      cases second with
      | wrapFails empty => simp [empty] at filled
      | wrap again reads =>
          cases filled.symm.trans again
          rw [ih reads]
  | reopenFails empty =>
      cases second with
      | reopenFails => rfl
      | reopen filled => simp [empty] at filled
  | reopen filled _ ih =>
      cases second with
      | reopenFails empty => simp [empty] at filled
      | reopen again reads =>
          cases filled.symm.trans again
          rw [ih reads]
  | cover _ ih =>
      cases second with
      | cover reads => rw [ih reads]
  | branch _ ih =>
      cases second with
      | branch reads => exact ih reads
  | trial _ _ triedIh ih =>
      cases second with
      | trial tried reads =>
          cases triedIh tried
          exact ih reads
  | call _ ih =>
      cases second with
      | call reads => rw [ih reads]
  | recover _ ih =>
      cases second with
      | recover reads => exact ih reads
  | orElse _ ih =>
      cases second with
      | orElse reads => exact ih reads
  | loopEnds ends =>
      cases second with
      | loopEnds => rfl
      | loop goesOn => simp [ends] at goesOn
  | loop goesOn _ ih =>
      cases second with
      | loopEnds ends => simp [ends] at goesOn
      | loop _ reads => exact ih reads
  | documented _ ih =>
      cases second with
      | documented reads => rw [ih reads]
  | closing _ ih =>
      cases second with
      | closing reads => exact ih reads
  | _ => cases second; rfl

end Reads

/-! ## Progress -/

/-- The cursor does not go back and does not leave the stream, and where a
token is consumed it moves on. -/
structure Moves (stream : Stream) (consumes : Bool) (pos after : Nat) : Prop where
  le : pos ≤ after
  inside : after ≤ stream.last
  lt : consumes = true → pos < after

namespace Moves

variable {stream : Stream} {pos after : Nat}

theorem rest (inside : pos ≤ stream.last) : Moves stream false pos pos :=
  ⟨Nat.le_refl pos, inside, by simp⟩

theorem succ (ordered : stream.Ordered) {consumes : Bool} (inside : pos ≤ stream.last)
    (notEnd : consumes = true → stream.kind pos ≠ .eof) :
    Moves stream consumes pos (stream.succ pos) := by
  refine ⟨stream.le_succ pos, Stream.succ_le_last inside, ?_⟩
  intro consumed
  rw [Stream.succ_of_lt (ordered.lt_last (notEnd consumed))]
  exact Nat.lt_succ_self pos

theorem trans {first second : Bool} {middle : Nat} (before : Moves stream first pos middle)
    (behind : Moves stream second middle after) : Moves stream (first || second) pos after := by
  refine ⟨Nat.le_trans before.le behind.le, behind.inside, ?_⟩
  intro consumed
  rcases Bool.or_eq_true_iff.mp consumed with early | late
  · exact Nat.lt_of_lt_of_le (before.lt early) behind.le
  · exact Nat.lt_of_le_of_lt before.le (behind.lt late)

/-- Where the cursor stays, nothing is consumed. -/
theorem of_not_lt {consumes : Bool} (moves : Moves stream consumes pos after)
    (stays : ¬ pos < after) : after = pos ∧ consumes = false := by
  refine ⟨Nat.le_antisymm (Nat.not_lt.mp stays) moves.le, ?_⟩
  by_contra consumed
  exact stays (moves.lt (Bool.not_eq_false _ ▸ consumed))

theorem mono {first second : Bool} (moves : Moves stream first pos after)
    (implied : second = true → first = true) : Moves stream second pos after :=
  ⟨moves.le, moves.inside, fun consumed => moves.lt (implied consumed)⟩

end Moves

/-- A phrase that succeeds moves the cursor on inside the stream, past at least
one token if it consumes. -/
theorem Reads.moves {stream : Stream} (ordered : stream.Ordered) {phrase : Phrase} {pos : Nat}
    {frame : Frame} {result : Option (Nat × Frame)} (reads : Reads stream phrase pos frame result)
    (inside : pos ≤ stream.last) {after : Nat} {inner : Frame}
    (succeeds : result = some (after, inner)) : Moves stream phrase.consumes pos after := by
  induction reads generalizing after inner with
  | done | rekind =>
      cases succeeds
      exact .rest inside
  | stop | expected | salvage | seqFails | wrapFails | reopenFails => cases succeeds
  | seq _ _ firstIh secondIh =>
      have before := firstIh inside rfl
      exact before.trans (secondIh before.inside succeeds)
  | token | leaf =>
      split at succeeds
      · rename_i found
        cases succeeds
        refine .succ ordered inside ?_
        intro consumes
        simpa [found, Phrase.consumes] using consumes
      · cases succeeds
  | pick | mark =>
      split at succeeds
      · rename_i accepted
        cases succeeds
        refine .succ ordered inside ?_
        intro consumes atEnd
        simp [Phrase.consumes, ← atEnd, accepted] at consumes
      · cases succeeds
  | operator =>
      cases succeeds
      exact ⟨stream.le_advance _ _, Stream.advance_le_last _ inside, by simp [Phrase.consumes]⟩
  | node _ ih | cover _ ih | documented _ ih | wrap _ _ ih | reopen _ _ ih =>
      obtain ⟨⟨middle, between⟩, found, same⟩ := Option.map_eq_some_iff.mp succeeds
      cases same
      exact ih inside found
  | @branch look yes no pos frame result _ ih =>
      apply (ih inside succeeds).mono
      intro consumes
      obtain ⟨yesConsumes, noConsumes⟩ := Bool.and_eq_true_iff.mp consumes
      split <;> assumption
  | trial _ _ _ ih =>
      apply (ih inside succeeds).mono
      intro consumes
      obtain ⟨yesConsumes, noConsumes⟩ := Bool.and_eq_true_iff.mp consumes
      split <;> assumption
  | call _ ih =>
      obtain ⟨⟨middle, between⟩, found, same⟩ := Option.map_eq_some_iff.mp succeeds
      cases same
      exact (ih inside found).mono Rule.body_consumes
  | recover _ ih | orElse _ ih | closing _ ih => exact ih inside succeeds
  | loopEnds =>
      cases succeeds
      exact .rest inside
  | loop _ _ ih => exact (ih inside succeeds).mono (by simp [Phrase.consumes])

end JavaFront.Parser
