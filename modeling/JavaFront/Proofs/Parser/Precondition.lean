import JavaFront.Proofs.Parser.MemoTable

/-!
# Preconditions of phrases

What a phrase leaves behind is told backwards: `Ensures` says what has to hold of
an index and a frame so that everything the phrase may read from there satisfies
a postcondition. For the rules it calls there is a specification, and a loop
needs an invariant. If the body of every rule meets the specification as long as
the rules it calls do, then every rule meets it.
-/

namespace JavaFront.Parser

/-- What is claimed of the parts that a rule reads from an index up to another. -/
abbrev Specification :=
  Rule → Nat → List Node → Nat → Prop

/-- Whatever the phrase reads from an index and a frame satisfies the
postcondition, if the rules it calls meet the specification. -/
def Ensures (stream : Stream) (spec : Specification) :
    Phrase → (Nat → Frame → Prop) → Nat → Frame → Prop
  | .done, post, pos, frame => post pos frame
  | .stop, _, _, _ => True
  | .expected _, _, _, _ => True
  | .salvage, _, _, _ => True
  | .seq first second, post, pos, frame =>
    Ensures stream spec first (Ensures stream spec second post) pos frame
  | .token kind, post, pos, frame =>
    stream.kind pos = kind → post (stream.succ pos) frame
  | .leaf node kind, post, pos, frame =>
    stream.kind pos = kind → post (stream.succ pos) (frame.push (.leaf node (stream.get pos)))
  | .pick node accept, post, pos, frame =>
    accept (stream.kind pos) = true →
      post (stream.succ pos) (frame.push (.leaf node (stream.get pos)))
  | .mark accept, post, pos, frame =>
    accept (stream.kind pos) = true →
      post (stream.succ pos) { frame with token := some (stream.get pos) }
  | .operator, post, pos, frame =>
    post (stream.afterOperator pos) (frame.push (.leaf .operator (stream.operatorToken pos)))
  | .node kind body, post, pos, frame =>
    Ensures stream spec body
      (fun after inner => post after
        (frame.push ((Setup.plain stream).finish { pos := after } inner)))
      pos ((Setup.plain stream).frame { pos } kind)
  | .wrap kind body, post, pos, frame =>
    ∀ first others, frame.parts = first :: others →
      Ensures stream spec body
        (fun after inner => post after ({ frame with parts := others }.push
          ((Setup.plain stream).finish { pos := after } inner)))
        pos { kind, start := first.span.start, parts := [first] }
  | .reopen kind body, post, pos, frame =>
    ∀ head others, frame.parts = head :: others →
      Ensures stream spec body
        (fun after inner => post after ({ frame with parts := others }.push
          ((Setup.plain stream).finish { pos := after } inner)))
        pos { kind, start := head.span.start, parts := head.children.reverse }
  | .cover kind body, post, pos, frame =>
    Ensures stream spec body
      (fun after inner => post after
        (frame.push (inner.toNode (stream.get stream.last).span.stop)))
      pos { kind, start := .origin }
  | .rekind kind, post, pos, frame => post pos { frame with kind }
  | .branch look yes no, post, pos, frame =>
    ((Setup.plain stream).holds { pos } frame look = true → Ensures stream spec yes post pos frame) ∧
      ((Setup.plain stream).holds { pos } frame look = false → Ensures stream spec no post pos frame)
  | .trial _ yes no, post, pos, frame =>
    Ensures stream spec yes post pos frame ∧ Ensures stream spec no post pos frame
  | .call rule, post, pos, frame | .recover rule, post, pos, frame =>
    ∀ parts after, RuleReads stream rule pos (some parts) after → spec rule pos parts after →
      post after (frame.pushAll parts)
  | .orElse first _, post, pos, frame => Ensures stream spec first post pos frame
  | .loop look body, post, pos, frame =>
    ∃ invariant : Nat → Frame → Prop, invariant pos frame ∧ ∀ pos frame, invariant pos frame →
      ((Setup.plain stream).holds { pos } frame look = true →
        Ensures stream spec body invariant pos frame) ∧
      ((Setup.plain stream).holds { pos } frame look = false → post pos frame)
  | .documented body, post, pos, frame =>
    Ensures stream spec body
      (fun after inner => post after (inner.document (stream.docBefore? pos))) pos frame
  | .closing kind, post, pos, frame =>
    stream.kind pos = kind → post (stream.succ pos) frame

namespace Ensures

variable {stream : Stream} {spec : Specification} {phrase : Phrase} {pos : Nat} {frame : Frame}

/-- A weaker postcondition is ensured as well. -/
theorem mono {strong weak : Nat → Frame → Prop}
    (ensures : Ensures stream spec phrase strong pos frame)
    (weaker : ∀ after inner, strong after inner → weak after inner) :
    Ensures stream spec phrase weak pos frame := by
  induction phrase generalizing strong weak pos frame with
  | done | operator | rekind => exact weaker _ _ ensures
  | stop | expected | salvage => trivial
  | seq first second firstIh secondIh =>
      exact firstIh ensures fun after inner behind => secondIh behind weaker
  | token | leaf | pick | mark | closing => exact fun found => weaker _ _ (ensures found)
  | node kind body ih | cover kind body ih | documented body ih =>
      exact ih ensures fun after inner => weaker _ _
  | wrap kind body ih | reopen kind body ih =>
      exact fun first others parts => ih (ensures first others parts) fun after inner => weaker _ _
  | branch look yes no yesIh noIh =>
      exact ⟨fun found => yesIh (ensures.1 found) weaker,
        fun found => noIh (ensures.2 found) weaker⟩
  | trial rule yes no yesIh noIh => exact ⟨yesIh ensures.1 weaker, noIh ensures.2 weaker⟩
  | call | recover =>
      exact fun parts after reads meets => weaker _ _ (ensures parts after reads meets)
  | orElse first second firstIh _ => exact firstIh ensures weaker
  | loop look body _ =>
      obtain ⟨invariant, begun, step⟩ := ensures
      exact ⟨invariant, begun, fun pos frame holds =>
        ⟨(step pos frame holds).1, fun ends => weaker _ _ ((step pos frame holds).2 ends)⟩⟩

end Ensures

/-- The body of every rule meets the specification if the rules it calls do. -/
def Specification.Sound (spec : Specification) (stream : Stream) : Prop :=
  ∀ rule pos, Ensures stream spec rule.body (fun after inner => spec rule pos inner.parts after) pos
    ((Setup.plain stream).frame { pos } .error)

section Soundness

variable {stream : Stream} {spec : Specification} (sound : spec.Sound stream)
include sound

/-- What a phrase reads satisfies every postcondition that is ensured. -/
theorem Reads.satisfies {phrase : Phrase} {pos : Nat} {frame : Frame}
    {result : Option (Nat × Frame)}
    (reads : Reads stream phrase pos frame result) {post : Nat → Frame → Prop}
    (ensures : Ensures stream spec phrase post pos frame) {after : Nat} {inner : Frame}
    (found : result = some (after, inner)) : post after inner := by
  induction reads generalizing post after inner with
  | done | operator | rekind =>
      cases found
      exact ensures
  | stop | expected | salvage | seqFails | wrapFails | reopenFails => cases found
  | seq _ _ firstIh secondIh => exact secondIh (firstIh ensures rfl) found
  | token | leaf | pick | mark =>
      split at found
      · rename_i there
        cases found
        exact ensures there
      · cases found
  | node _ ih | cover _ ih | documented _ ih =>
      obtain ⟨⟨stop, built⟩, rfl, same⟩ := Option.map_eq_some_iff.mp found
      cases same
      exact ih ensures rfl
  | wrap filled _ ih | reopen filled _ ih =>
      obtain ⟨⟨stop, built⟩, rfl, same⟩ := Option.map_eq_some_iff.mp found
      cases same
      exact ih (ensures _ _ filled) rfl
  | @branch look yes no pos frame _ _ ih =>
      refine ih ?_ found
      by_cases holds : (Setup.plain stream).holds { pos } frame look = true
      · rw [if_pos holds]
        exact ensures.1 holds
      · rw [if_neg holds]
        exact ensures.2 (Bool.not_eq_true _ ▸ holds)
  | @trial rule yes no pos frame tried _ _ _ _ ih =>
      refine ih ?_ found
      split
      · exact ensures.1
      · exact ensures.2
  | @call rule pos frame result reads ih =>
      obtain ⟨⟨stop, built⟩, rfl, same⟩ := Option.map_eq_some_iff.mp found
      cases same
      exact ensures built.parts after ⟨built, rfl, reads⟩ (ih (sound rule pos) rfl)
  | recover _ ih | orElse _ ih | closing _ ih => exact ih ensures found
  | @loopEnds look body pos frame ends =>
      cases found
      obtain ⟨invariant, begun, step⟩ := ensures
      exact (step pos frame begun).2 ends
  | @loop look body pos frame _ goesOn _ ih =>
      obtain ⟨invariant, begun, step⟩ := ensures
      refine ih ?_ found
      exact ((step pos frame begun).1 goesOn).mono fun _ _ begun => ⟨invariant, begun, step⟩

/-- Every rule meets a sound specification. -/
theorem RuleReads.meets {rule : Rule} {pos after : Nat} {parts : List Node}
    (reads : RuleReads stream rule pos (some parts) after) : spec rule pos parts after := by
  obtain ⟨inner, rfl, body⟩ := reads
  exact body.satisfies sound (sound rule pos) rfl

end Soundness

end JavaFront.Parser
