import JavaFront.Proofs.Grammar.Documenting
import JavaFront.Proofs.Parser.Building
import JavaFront.Proofs.Parser.Cursor
import JavaFront.Proofs.Token.Comments
import JavaFront.Proofs.Tree.Walk

/-!
# Documented declarations

In a walk over a tree, declarations come at ascending places, and each carries
the comment in front of its place; no other node carries one. That is followed
through all runs: a declaration is without its comment only between the phrase
that builds it and the phrase that documents it, and between these two the
cursor has passed its first token.
-/

namespace JavaFront.Parser

/-! ## Dated nodes -/

/-- Of these nodes, taken in order, the declarations start at ascending indexes
from the first up to the second, and carry the comment in front of their token.
No other carries one. -/
inductive Dated (stream : Stream) : (first after : Nat) → List Node → Prop
  | nil {first after} : first ≤ after → Dated stream first after []
  | other {first after node nodes} :
      node.kind.isDeclared = false → node.doc = none → Dated stream first after nodes →
      Dated stream first after (node :: nodes)
  | declared {first after index node nodes} :
      first ≤ index → node.kind.isDeclared = true →
      node.span.start = (stream.get index).span.start → node.doc = stream.docBefore? index →
      Dated stream (index + 1) after nodes → Dated stream first after (node :: nodes)

/-- A part without a comment that starts at an index. Behind its first token the
nodes in it are dated, up to another index. -/
structure Starts (stream : Stream) (first after : Nat) (part : Node) : Prop where
  start : part.span.start = (stream.get first).span.start
  doc : part.doc = none
  children : Dated stream (first + 1) after (Node.forest part.children)

/-- The nodes of a frame are dated. -/
def Frame.Dated (stream : Stream) (first after : Nat) (frame : Frame) : Prop :=
  Parser.Dated stream first after (Node.forest frame.parts.reverse)

namespace Dated

variable {stream : Stream} {first middle after : Nat} {nodes others : List Node} {node : Node}

theorem le (dated : Dated stream first after nodes) : first ≤ after := by
  induction dated with
  | nil le => exact le
  | other _ _ _ ih => exact ih
  | declared low _ _ _ _ ih => omega

theorem mono (dated : Dated stream first after nodes) {low high : Nat} (lower : low ≤ first)
    (higher : after ≤ high) : Dated stream low high nodes := by
  induction dated generalizing low with
  | nil le => exact .nil (by omega)
  | other plain doc _ ih => exact .other plain doc (ih lower higher)
  | declared le isDeclared start doc _ ih =>
      exact .declared (by omega) isDeclared start doc (ih (Nat.le_refl _) higher)

theorem append (dated : Dated stream first middle nodes)
    (later : Dated stream middle after others) :
    Dated stream first after (nodes ++ others) := by
  induction dated with
  | nil le => exact later.mono le (Nat.le_refl _)
  | other plain doc _ ih => exact .other plain doc (ih later)
  | declared le isDeclared start doc _ ih => exact .declared le isDeclared start doc (ih later)

theorem split (dated : Dated stream first after (nodes ++ others)) :
    ∃ middle, Dated stream first middle nodes ∧ Dated stream middle after others := by
  induction nodes generalizing first with
  | nil => exact ⟨first, .nil (Nat.le_refl _), dated⟩
  | cons node nodes ih =>
      cases dated with
      | other plain doc rest =>
          obtain ⟨middle, early, late⟩ := ih rest
          exact ⟨middle, .other plain doc early, late⟩
      | declared le isDeclared start doc rest =>
          obtain ⟨middle, early, late⟩ := ih rest
          exact ⟨middle, .declared le isDeclared start doc early, late⟩

theorem tail (dated : Dated stream first after (node :: nodes)) :
    Dated stream first after nodes := by
  cases dated with
  | other _ _ rest => exact rest
  | declared le _ _ _ rest => exact rest.mono (by omega) (Nat.le_refl _)

end Dated

namespace Frame.Dated

variable {stream : Stream} {first middle after : Nat} {frame : Frame}

theorem mono (dated : frame.Dated stream first middle) (higher : middle ≤ after) :
    frame.Dated stream first after :=
  Parser.Dated.mono dated (Nat.le_refl _) higher

/-- A part is dated as a whole if the nodes of its children are and it is not a
declaration. -/
theorem push (dated : frame.Dated stream first middle) {part : Node}
    (plain : part.kind.isDeclared = false) (doc : part.doc = none)
    (children : Parser.Dated stream middle after (Node.forest part.children)) :
    (frame.push part).Dated stream first after := by
  have whole : Parser.Dated stream middle after (Node.forest [part]) := by
    simpa using Parser.Dated.other plain doc children
  have both := Parser.Dated.append dated whole
  simpa [Frame.Dated, Frame.push, Node.forest] using both

theorem pushAll (dated : frame.Dated stream first middle) {parts : List Node}
    (later : Parser.Dated stream middle after (Node.forest parts.reverse)) :
    (frame.pushAll parts).Dated stream first after := by
  have both := Parser.Dated.append dated later
  simpa [Frame.Dated, Frame.pushAll, Node.forest] using both

/-- The part that was read last comes behind the others. -/
theorem take (dated : frame.Dated stream first after) {latest : Node} {others : List Node}
    (parts : frame.parts = latest :: others) :
    ∃ middle, Frame.Dated stream first middle { frame with parts := others } ∧
      Parser.Dated stream middle after (latest :: Node.forest latest.children) := by
  have whole : Parser.Dated stream first after
      (Node.forest others.reverse ++ (latest :: Node.forest latest.children)) := by
    simpa [Frame.Dated, parts, Node.forest, Node.nodes_eq latest] using dated
  exact whole.split

end Frame.Dated

/-! ## Frames -/

/-- The node under construction is the same, but for its parts, its token and a
kind that a phrase gives it. -/
structure Frame.Continues (frame : Frame) (kinds : List Node.Kind) (inner : Frame) : Prop where
  start : inner.start = frame.start
  kind : inner.kind = frame.kind ∨ inner.kind ∈ kinds

theorem Frame.Continues.refl {frame : Frame} {kinds : List Node.Kind} :
    frame.Continues kinds frame :=
  ⟨rfl, .inl rfl⟩

theorem Frame.Continues.trans {frame inner last : Frame} {kinds others : List Node.Kind}
    (early : frame.Continues kinds inner) (late : inner.Continues others last) :
    frame.Continues (kinds ++ others) last := by
  refine ⟨late.start.trans early.start, ?_⟩
  rcases late.kind with same | renamed
  · exact (same ▸ early.kind).imp_right (List.mem_append_left _)
  · exact .inr (List.mem_append_right _ renamed)

theorem Frame.Continues.mono {frame inner : Frame} {kinds others : List Node.Kind}
    (continues : frame.Continues kinds inner) (more : kinds ⊆ others) :
    frame.Continues others inner :=
  ⟨continues.start, continues.kind.imp_right fun renamed => more renamed⟩

theorem Setup.enclose_continues {setup : Setup} {frame outer : Frame} {outcome : Outcome}
    (start : outer.start = frame.start) (kind : outer.kind = frame.kind) :
    frame.Continues [] (setup.enclose outer outcome frame).frame := by
  simp only [enclose]
  split
  · exact ⟨rfl, .inl rfl⟩
  · exact ⟨start, .inl kind⟩

theorem Reply.into_continues (reply : Reply) (frame : Frame) :
    frame.Continues [] (reply.into frame).frame := by
  simp only [into]
  split <;> exact ⟨rfl, .inl rfl⟩

theorem Frame.Continues.documented {frame : Frame} {kinds : List Node.Kind} {outcome : Outcome}
    (continues : frame.Continues kinds outcome.frame) (doc : Option Token) :
    frame.Continues kinds (outcome.documented doc).frame := by
  obtain ⟨verdict, state, filled⟩ := outcome
  cases verdict with
  | ok =>
      simp only [Outcome.documented, Frame.document]
      split <;> exact ⟨continues.start, continues.kind⟩
  | failed | ended => exact continues

/-- A phrase adds parts to the node under construction and may change its kind,
and no more. -/
theorem Setup.run_continues (setup : Setup) (call : Caller) (phrase : Phrase) (state : State)
    (frame : Frame) :
    frame.Continues phrase.rekinds (setup.run call phrase state frame).frame := by
  induction phrase generalizing state frame with
  | done | stop | expected | operator => exact ⟨rfl, .inl rfl⟩
  | rekind kind => exact ⟨rfl, .inr List.mem_cons_self⟩
  | token | leaf | pick | mark =>
      simp only [run]
      split <;> exact ⟨rfl, .inl rfl⟩
  | seq first second firstIh secondIh =>
      rw [run_seq]
      split
      · exact (firstIh state frame).trans (secondIh _ _)
      · exact (firstIh state frame).mono (List.subset_append_left _ _)
  | orElse first second firstIh secondIh =>
      rw [run_orElse]
      split
      · exact (firstIh state frame).trans (secondIh _ _)
      · exact (firstIh state frame).mono (List.subset_append_left _ _)
  | node kind body => exact enclose_continues rfl rfl
  | wrap kind body | reopen kind body =>
      simp only [run]
      split
      · exact .refl
      · exact enclose_continues rfl rfl
  | cover kind body =>
      simp only [run]
      split <;> exact ⟨rfl, .inl rfl⟩
  | branch look yes no yesIh noIh =>
      rw [run_branch]
      split
      · exact (yesIh state frame).mono (List.subset_append_left _ _)
      · exact (noIh state frame).mono (List.subset_append_right _ _)
  | trial rule yes no yesIh noIh =>
      rw [run_trial]
      split
      · exact (yesIh _ frame).mono (List.subset_append_left _ _)
      · exact (noIh _ frame).mono (List.subset_append_right _ _)
  | call rule =>
      rw [run_call]
      exact Reply.into_continues _ _
  | recover rule =>
      rw [run_recover]
      exact Reply.into_continues _ _
  | loop look body ih =>
      simp only [run]
      generalize setup.stream.size - state.pos = rounds
      induction rounds generalizing state frame with
      | zero => exact .refl
      | succ rounds roundsIh =>
          simp only [repeatWhile]
          split
          · have once := ih state frame
            split
            · rename_i found
              rw [found] at once
              exact (once.trans (roundsIh _ _)).mono (by simp [Phrase.rekinds])
            · exact once
          · exact .refl
  | documented body ih =>
      rw [run_documented]
      exact (ih state frame).documented _
  | closing kind =>
      simp only [run, close]
      split
      · exact .refl
      · split <;> exact ⟨rfl, .inl rfl⟩
  | salvage =>
      simp only [run, salvage]
      split
      · exact .refl
      · split
        · exact .refl
        · split <;> exact ⟨rfl, .inl rfl⟩

/-! ## Rules -/

/-- Declarations may start at an index up to which the nodes are dated: the
phrase starts there or behind that, or right in front of it and defers what it
declares. -/
def StartsBehind (phrase : Phrase) (bound pos : Nat) : Prop :=
  bound ≤ pos ∨ phrase.defers = true ∧ bound ≤ pos + 1

theorem StartsBehind.mono {phrase other : Phrase} {bound pos : Nat}
    (behind : StartsBehind phrase bound pos) (defers : phrase.defers = true → other.defers = true) :
    StartsBehind other bound pos :=
  behind.imp_right fun ⟨defer, near⟩ => ⟨defers defer, near⟩

/-- The parts that a rule leaves from an index up to another are dated. An
initializer is left without its comment, and modifiers start where their rule
does. -/
structure RuleDated (stream : Stream) (rule : Rule) (pos : Nat) (parts : List Node) (after : Nat) :
    Prop where
  dated : rule ≠ .initializer → ∀ bound, StartsBehind (.call rule) bound pos →
    Dated stream bound (max bound after) (Node.forest parts.reverse)
  starts : rule = .initializer ∨ rule = .modifiers → ∃ part, parts = [part] ∧
    part.kind.isDeclared = decide (rule = .initializer) ∧
    Starts stream pos (max (pos + 1) after) part

/-- Every success in the memo table is dated. -/
def MemoDated (stream : Stream) (memo : Memo) : Prop :=
  memo.All fun key outcome => ∀ parts, outcome.parts? = some parts →
    RuleDated stream key.slot.rule key.pos parts outcome.stop

/-- The cursor stands inside of the stream, the memo table leads it on, and what
the table holds is dated. -/
structure State.Filed (stream : Stream) (state : State) : Prop where
  placed : state.Placed stream
  memo : MemoDated stream state.memo

/-- Nothing but the cursor and the memo table matters. -/
theorem State.Filed.of_same {stream : Stream} {state other : State} (filed : state.Filed stream)
    (pos : other.pos = state.pos) (memo : other.memo = state.memo) : other.Filed stream :=
  ⟨⟨pos ▸ filed.placed.inside, memo ▸ filed.placed.memo⟩, memo ▸ filed.memo⟩

/-- A way to run a rule whose parts are dated. -/
structure Dates (stream : Stream) (rule : Rule) (run : State → Reply) : Prop where
  memo : ∀ state : State, state.Filed stream → MemoDated stream (run state).state.memo
  parts : ∀ state : State, state.Filed stream → ∀ parts, (run state).parts? = some parts →
    RuleDated stream rule state.pos parts (run state).state.pos

/-- A way to call rules whose parts are dated. -/
structure Caller.Dating (call : Caller) (setup : Setup) : Prop where
  advances : ∀ rule, Advances setup.stream rule (call rule)
  dates : ∀ rule, Dates setup.stream rule (call rule)

section Phrases

variable {setup : Setup} {call : Caller}

theorem Caller.Dating.memo_recovered (dating : call.Dating setup) (rule : Rule) {state : State}
    (filed : state.Filed setup.stream) :
    MemoDated setup.stream (setup.recovered (call rule) state).state.memo := by
  rw [setup.recovered_memo]
  exact (dating.dates rule).memo { state with furthest := .none } (filed.of_same rfl rfl)

theorem Caller.Dating.filed_trial (dating : call.Dating setup) (rule : Rule) {state : State}
    (filed : state.Filed setup.stream) : (trial (call rule) state).2.Filed setup.stream :=
  ⟨((dating.advances rule).reaches_trial filed.placed).placed,
    (dating.dates rule).memo { state with speculating := state.speculating + 1 }
      (filed.of_same rfl rfl)⟩

/-- No phrase spoils the memo table. -/
theorem Caller.Dating.filed_run (dating : call.Dating setup) (phrase : Phrase) {state : State}
    (frame : Frame) (filed : state.Filed setup.stream) :
    (setup.run call phrase state frame).state.Filed setup.stream := by
  let relation (before after : State) : Prop :=
    before.Filed setup.stream → after.Filed setup.stream
  have relates : setup.Relates call relation := by
    constructor
    · exact fun state => id
    · exact fun before behind => behind ∘ before
    · exact fun state filed =>
        ⟨⟨Stream.succ_le_last filed.placed.inside, filed.placed.memo⟩, filed.memo⟩
    · exact fun state filed =>
        ⟨⟨Stream.advance_le_last _ filed.placed.inside, filed.placed.memo⟩, filed.memo⟩
    · exact fun state texts filed => filed.of_same rfl rfl
    · intro kind state frame filed
      exact ⟨(setup.reaches_close filed.placed kind frame).placed,
        (setup.close_memo kind state frame).symm ▸ filed.memo⟩
    · intro state frame filed
      exact ⟨(setup.reaches_salvage filed.placed frame).placed,
        (setup.salvage_memo state frame).symm ▸ filed.memo⟩
    · exact fun rule state filed => ⟨((dating.advances rule).reaches state filed.placed).placed,
        (dating.dates rule).memo state filed⟩
    · exact fun rule state filed => dating.filed_trial rule filed
    · exact fun rule state filed => ⟨((dating.advances rule).reaches_recovered filed.placed).placed,
        dating.memo_recovered rule filed⟩
  exact setup.run_relates relates phrase state frame filed

/-! ## Phrases -/

/-- A run that has not given up leaves the frame dated, up to where it has come
or to where it was dated before. -/
def Outcome.Dated (stream : Stream) (first bound : Nat) (outcome : Outcome) : Prop :=
  outcome.verdict ≠ .failed → outcome.frame.Dated stream first (max bound outcome.state.pos)

/-- The phrase leaves its frame dated wherever it runs. -/
def Setup.RunsDated (setup : Setup) (call : Caller) (phrase : Phrase) : Prop :=
  phrase.dates = true → phrase.restores = true →
    ∀ (state : State) (frame : Frame) (first bound : Nat), state.Filed setup.stream →
      frame.Dated setup.stream first bound → StartsBehind phrase bound state.pos →
      (setup.run call phrase state frame).Dated setup.stream first bound

/-- A run that has not given up has left one more part, a declaration without
its comment that starts at an index. -/
def Outcome.Opened (stream : Stream) (start : Nat) (others : List Node) (outcome : Outcome) :
    Prop :=
  outcome.verdict = .failed ∨ outcome.verdict = .ok ∧ ∃ part, outcome.frame.parts = part :: others ∧
    part.kind.isDeclared = true ∧ Starts stream start outcome.state.pos part

/-- The frame is ready for a declaration that starts at an index: there, or
where its latest part does, of which the declaration is made. -/
def Frame.Heads (stream : Stream) (head : Bool) (start : Nat) (others : List Node) (state : State)
    (frame : Frame) : Prop :=
  if head then ∃ part, frame.parts = part :: others ∧ part.kind.isDeclared = false ∧
    start ≤ state.pos ∧ Starts stream start (max (start + 1) state.pos) part
  else frame.parts = others ∧ start = state.pos

/-- The phrase leaves a declaration without its comment wherever it runs. -/
def Setup.RunsOpen (setup : Setup) (call : Caller) (phrase : Phrase) : Prop :=
  ∀ head, phrase.opens head = true → phrase.restores = true →
    ∀ (state : State) (frame : Frame) (start : Nat) (others : List Node),
      state.Filed setup.stream → frame.Heads setup.stream head start others state →
      (setup.run call phrase state frame).Opened setup.stream start others

/-- A node that a phrase has filled is of a kind that was checked. -/
theorem Frame.Continues.isDeclared {frame inner : Frame} {body : Phrase} {declared : Bool}
    (continues : frame.Continues body.rekinds inner)
    (declares : Phrase.declares declared frame.kind body = true) :
    inner.kind.isDeclared = declared := by
  simp only [Phrase.declares, List.all_eq_true, beq_iff_eq] at declares
  refine declares _ (List.mem_cons.mpr ?_)
  exact continues.kind

/-- A node that is no declaration keeps what was dated inside of it. -/
theorem Outcome.Dated.enclose {stream : Stream} {first middle bound : Nat}
    {kept outer inner : Frame} {body : Phrase} {outcome : Outcome}
    (inside : outcome.Dated stream middle bound)
    (declares : Phrase.declares false inner.kind body = true)
    (continues : inner.Continues body.rekinds outcome.frame)
    (before : outer.Dated stream first middle) :
    (setup.enclose outer outcome kept).Dated stream first bound := by
  obtain ⟨verdict, after, filled⟩ := outcome
  intro succeeds
  have built : verdict ≠ .failed := by
    rintro rfl
    exact succeeds rfl
  have dated : filled.Dated stream middle (max bound after.pos) := inside built
  have same : setup.enclose outer ⟨verdict, after, filled⟩ kept =
      ⟨.ok, after, outer.push (setup.finish after filled)⟩ := by
    cases verdict with
    | failed => exact absurd rfl built
    | ok | ended => rfl
  rw [same]
  exact before.push (continues.isDeclared declares) rfl dated

/-- A frame that was dated stays so where nothing is added. -/
theorem Outcome.Dated.of_same {stream : Stream} {first bound : Nat} {frame inner : Frame}
    {verdict : Verdict} {after : State} (dated : frame.Dated stream first bound)
    (same : inner.parts = frame.parts) :
    Outcome.Dated stream first bound ⟨verdict, after, inner⟩ := by
  intro _
  rw [Frame.Dated, same]
  exact dated.mono (Nat.le_max_left _ _)

/-- A part without parts of its own is dated if it is no declaration. -/
theorem Outcome.Dated.of_push {stream : Stream} {first bound : Nat} {frame : Frame}
    {verdict : Verdict} {after : State} {part : Node} (dated : frame.Dated stream first bound)
    (plain : part.kind.isDeclared = false) (doc : part.doc = none) (bare : part.children = []) :
    Outcome.Dated stream first bound ⟨verdict, after, frame.push part⟩ := by
  intro _
  refine Frame.Dated.push (dated.mono (Nat.le_max_left bound after.pos)) plain doc ?_
  rw [bare]
  exact .nil (Nat.le_refl _)

/-- Rounds of a loop do not take the cursor back. -/
theorem repeatWhile_le (advances : ∀ rule, Advances setup.stream rule (call rule)) (look : Look)
    (body : Phrase) (rounds : Nat) (state : State) (frame : Frame)
    (placed : state.Placed setup.stream) :
    state.pos ≤ (repeatWhile (fun state frame => setup.holds state frame look)
      (fun state frame => setup.run call body state frame) rounds state frame).state.pos := by
  let relation (before after : State) : Prop :=
    before.Placed setup.stream → before.Reaches setup.stream after
  have reaches := @Setup.repeatWhile_relates relation (fun state => .refl)
    (fun before behind placed => (before placed).trans (behind (before placed).placed))
    (fun state frame => setup.holds state frame look) _
    (fun state frame => setup.run_reaches advances body state frame) rounds state frame
  exact (reaches placed).le

namespace Setup.RunsDated

variable {first second body : Phrase} {kind : Node.Kind}

theorem seq (dating : call.Dating setup) (ordered : setup.stream.Ordered)
    (early : setup.RunsDated call first) (late : setup.RunsDated call second) :
    setup.RunsDated call (.seq first second) := by
  intro checked restores state frame low bound filed dated behind
  obtain ⟨firstChecked, secondChecked⟩ := Bool.and_eq_true_iff.mp checked
  obtain ⟨firstRestores, secondRestores⟩ := Bool.and_eq_true_iff.mp restores
  have front : StartsBehind first bound state.pos := by
    refine behind.mono fun defers => ?_
    simp only [Phrase.defers, Bool.and_eq_true] at defers
    exact defers.1
  have once := early firstChecked firstRestores state frame low bound filed dated front
  have reached := (setup.run_reaches dating.advances first state frame filed.placed).le
  have filedBehind := dating.filed_run first frame filed
  have passed := setup.run_passes dating.advances ordered first state frame false filed.placed
    (by simp)
  rw [run_seq]
  split
  · rename_i succeeded
    intro succeeds
    have rest : StartsBehind second (max bound (setup.run call first state frame).state.pos)
        (setup.run call first state frame).state.pos := by
      rcases behind with far | ⟨defers, near⟩
      · exact .inl (by omega)
      · simp only [Phrase.defers, Bool.and_eq_true, Bool.or_eq_true] at defers
        rcases defers.2 with moves | later
        · have moved := passed false succeeded moves
          exact .inl (by omega)
        · exact .inr ⟨later, by omega⟩
    have later := late secondChecked secondRestores _ _ low _ filedBehind
      (once (by simp [succeeded])) rest succeeds
    have onward := (setup.run_reaches dating.advances second _
      (setup.run call first state frame).frame filedBehind.placed).le
    exact later.mono (by omega)
  · exact once

theorem node (inner : setup.RunsDated call body) : setup.RunsDated call (.node kind body) := by
  intro checked restores state frame low bound filed dated behind
  obtain ⟨declares, bodyChecked⟩ := Bool.and_eq_true_iff.mp checked
  have inside := inner bodyChecked restores state (setup.frame state kind) bound bound filed
    (.nil (Nat.le_refl _)) (behind.mono id)
  exact inside.enclose declares (setup.run_continues call body state _) dated

theorem wrap (inner : setup.RunsDated call body) : setup.RunsDated call (.wrap kind body) := by
  intro checked restores state frame low bound filed dated behind
  obtain ⟨declares, bodyChecked⟩ := Bool.and_eq_true_iff.mp checked
  simp only [run]
  split
  · exact fun succeeds => absurd rfl succeeds
  · rename_i latest others parts
    obtain ⟨middle, early, late⟩ := dated.take parts
    have started : Frame.Dated setup.stream middle bound
        { kind, start := latest.span.start, parts := [latest] } := by
      simpa [Frame.Dated] using late
    have inside := inner bodyChecked restores state _ middle bound filed started (behind.mono id)
    exact inside.enclose declares (setup.run_continues call body state _) early

theorem reopen (inner : setup.RunsDated call body) : setup.RunsDated call (.reopen kind body) := by
  intro checked restores state frame low bound filed dated behind
  obtain ⟨declares, bodyChecked⟩ := Bool.and_eq_true_iff.mp checked
  simp only [run]
  split
  · exact fun succeeds => absurd rfl succeeds
  · rename_i head others parts
    obtain ⟨middle, early, late⟩ := dated.take parts
    have started : Frame.Dated setup.stream middle bound
        { kind, start := head.span.start, parts := head.children.reverse } := by
      simpa [Frame.Dated] using late.tail
    have inside := inner bodyChecked restores state _ middle bound filed started (behind.mono id)
    exact inside.enclose declares (setup.run_continues call body state _) early

theorem cover (inner : setup.RunsDated call body) : setup.RunsDated call (.cover kind body) := by
  intro checked restores state frame low bound filed dated behind
  obtain ⟨declares, bodyChecked⟩ := Bool.and_eq_true_iff.mp checked
  have inside := inner bodyChecked restores state { kind, start := .origin } bound bound filed
    (.nil (Nat.le_refl _)) (behind.mono id)
  have continues := setup.run_continues call body state { kind, start := .origin }
  simp only [run]
  generalize setup.run call body state { kind, start := .origin } = outcome at inside continues ⊢
  obtain ⟨verdict, after, filled⟩ := outcome
  cases verdict with
  | failed => exact fun succeeds => absurd rfl succeeds
  | ok | ended =>
      exact fun _ => dated.push (continues.isDeclared declares) rfl (inside (by simp))

theorem documented (opens : setup.RunsOpen call body) :
    setup.RunsDated call (.documented body) := by
  intro checked restores state frame low bound filed dated behind
  have far : bound ≤ state.pos := behind.resolve_right fun ⟨defers, _⟩ => by cases defers
  have opened := opens false checked restores state frame state.pos frame.parts filed ⟨rfl, rfl⟩
  simp only [run]
  generalize setup.run call body state frame = outcome at opened ⊢
  obtain ⟨verdict, after, filled⟩ := outcome
  rcases opened with rfl | ⟨rfl, part, parts, isDeclared, start, -, children⟩
  · exact fun succeeds => absurd rfl succeeds
  · intro _
    have attached : (filled.document (setup.stream.docBefore? state.pos)).parts =
        { part with doc := setup.stream.docBefore? state.pos } :: frame.parts := by
      simp only at parts
      simp [Frame.document, parts]
    have whole : Parser.Dated setup.stream bound after.pos
        ({ part with doc := setup.stream.docBefore? state.pos } :: Node.forest part.children) :=
      .declared far isDeclared start rfl children
    have both := Parser.Dated.append dated whole
    rw [Frame.Dated, attached]
    refine Parser.Dated.mono ?_ (Nat.le_refl _) (Nat.le_max_right _ _)
    simpa [Node.forest, Node.nodes_eq] using both

theorem loop {look : Look} (dating : call.Dating setup) (inner : setup.RunsDated call body) :
    setup.RunsDated call (.loop look body) := by
  intro checked restores state frame low bound filed dated behind
  simp only [run]
  generalize setup.stream.size - state.pos = rounds
  induction rounds generalizing state frame bound with
  | zero => exact .of_same dated rfl
  | succ rounds ih =>
      simp only [repeatWhile]
      split
      · have once := inner checked restores state frame low bound filed dated (behind.mono id)
        have reached := (setup.run_reaches dating.advances body state frame filed.placed).le
        have filedBehind := dating.filed_run body frame filed
        rcases found : setup.run call body state frame with ⟨verdict, middle, between⟩
        rw [found] at once reached filedBehind
        cases verdict with
        | failed => exact fun succeeds => absurd rfl succeeds
        | ended => exact once
        | ok =>
            have rest : StartsBehind (.loop look body) (max bound middle.pos) middle.pos := by
              rcases behind with far | ⟨defers, near⟩
              · exact .inl (by dsimp only at reached; omega)
              · exact .inr ⟨defers, by dsimp only at reached; omega⟩
            have onward := repeatWhile_le dating.advances look body rounds middle between
              filedBehind.placed
            dsimp only
            intro succeeds
            have later := ih middle between (max bound middle.pos) filedBehind
              (once (by simp)) rest succeeds
            exact later.mono (by omega)
      · exact .of_same dated rfl

theorem branch {look : Look} (yes : setup.RunsDated call first) (no : setup.RunsDated call second) :
    setup.RunsDated call (.branch look first second) := by
  intro checked restores state frame low bound filed dated behind
  obtain ⟨yesChecked, noChecked⟩ := Bool.and_eq_true_iff.mp checked
  obtain ⟨yesRestores, noRestores⟩ := Bool.and_eq_true_iff.mp restores
  rw [run_branch]
  split
  · exact yes yesChecked yesRestores state frame low bound filed dated
      (behind.mono fun defers => (Bool.and_eq_true_iff.mp defers).1)
  · exact no noChecked noRestores state frame low bound filed dated
      (behind.mono fun defers => (Bool.and_eq_true_iff.mp defers).2)

theorem trial {rule : Rule} (dating : call.Dating setup) (yes : setup.RunsDated call first)
    (no : setup.RunsDated call second) : setup.RunsDated call (.trial rule first second) := by
  intro checked restores state frame low bound filed dated behind
  obtain ⟨yesChecked, noChecked⟩ := Bool.and_eq_true_iff.mp checked
  obtain ⟨yesRestores, noRestores⟩ := Bool.and_eq_true_iff.mp restores
  have filedBehind := dating.filed_trial rule filed
  rw [run_trial]
  split
  · exact yes yesChecked yesRestores _ frame low bound filedBehind dated
      (behind.mono fun defers => (Bool.and_eq_true_iff.mp defers).1)
  · exact no noChecked noRestores _ frame low bound filedBehind dated
      (behind.mono fun defers => (Bool.and_eq_true_iff.mp defers).2)

theorem orElse (dating : call.Dating setup) (early : setup.RunsDated call first)
    (late : setup.RunsDated call second) : setup.RunsDated call (.orElse first second) := by
  intro checked restores state frame low bound filed dated behind
  obtain ⟨firstChecked, secondChecked⟩ := Bool.and_eq_true_iff.mp checked
  obtain ⟨calls, secondRestores⟩ := Phrase.restores_orElse restores
  have firstRestores : first.restores = true := by
    obtain ⟨rule, rfl | rfl⟩ := calls <;> rfl
  have once := early firstChecked firstRestores state frame low bound filed dated
    (behind.mono fun defers => (Bool.and_eq_true_iff.mp defers).1)
  have reached := (setup.run_reaches dating.advances first state frame filed.placed).le
  have filedBehind := dating.filed_run first frame filed
  rw [run_orElse]
  rcases found : setup.run call first state frame with ⟨verdict, middle, between⟩
  rw [found] at once reached filedBehind
  cases verdict with
  | ok | ended => exact once
  | failed =>
      obtain rfl := frame_of_failed calls found
      refine late secondChecked secondRestores middle between low bound filedBehind dated ?_
      rcases behind with far | ⟨defers, near⟩
      · exact .inl (Nat.le_trans far reached)
      · exact .inr ⟨(Bool.and_eq_true_iff.mp defers).2,
          Nat.le_trans near (Nat.add_le_add_right reached 1)⟩

/-- The parts of a rule come behind those that were there. -/
theorem of_reply {rule : Rule} {pos low bound : Nat} {frame : Frame} {parts : List Node}
    {after : State} (other : rule ≠ .initializer)
    (ruleDated : RuleDated setup.stream rule pos parts after.pos)
    (dated : frame.Dated setup.stream low bound) (behind : StartsBehind (.call rule) bound pos) :
    Outcome.Dated setup.stream low bound ⟨.ok, after, frame.pushAll parts⟩ :=
  fun _ => dated.pushAll (ruleDated.dated other bound behind)

theorem of_call {rule : Rule} (dating : call.Dating setup) :
    setup.RunsDated call (.call rule) := by
  intro checked _ state frame low bound filed dated behind
  have other : rule ≠ .initializer := by simpa [Phrase.dates] using checked
  have ruleDated := (dating.dates rule).parts state filed
  rw [run_call]
  rcases found : call rule state with ⟨- | parts, after⟩
  · exact fun succeeds => absurd rfl succeeds
  · rw [found] at ruleDated
    exact of_reply other (ruleDated parts rfl) dated behind

theorem of_recover {rule : Rule} (dating : call.Dating setup) :
    setup.RunsDated call (.recover rule) := by
  intro checked _ state frame low bound filed dated behind
  have other : rule ≠ .initializer := by simpa [Phrase.dates] using checked
  have ruleDated := (dating.dates rule).parts { state with furthest := .none }
    (filed.of_same rfl rfl)
  rw [run_recover]
  rcases setup.recovered_cases (call rule) state with
    ⟨parts, after, found, same⟩ | ⟨after, found, ⟨-, same⟩ | ⟨-, -, same⟩⟩
  all_goals
    rw [found] at ruleDated
    rw [same]
  · exact of_reply other (ruleDated parts rfl) dated behind
  · exact fun succeeds => absurd rfl succeeds
  · exact .of_push dated rfl rfl rfl

end Setup.RunsDated

namespace Setup.RunsOpen

variable {first second body : Phrase} {kind : Node.Kind}

/-- A node of a declaration starts where its frame does. What is declared inside
comes behind the first token. -/
theorem enclose {stream : Stream} {start bound : Nat} {kept outer inner : Frame}
    {outcome : Outcome} (inside : outcome.Dated stream (start + 1) bound)
    (declares : Phrase.declares true inner.kind body = true)
    (continues : inner.Continues body.rekinds outcome.frame)
    (starts : inner.start = (stream.get start).span.start)
    (moved : outcome.verdict ≠ .failed → bound ≤ outcome.state.pos) :
    (setup.enclose outer outcome kept).Opened stream start outer.parts := by
  obtain ⟨verdict, after, filled⟩ := outcome
  cases verdict with
  | failed => exact .inl rfl
  | ok | ended =>
      refine .inr ⟨rfl, setup.finish after filled, rfl, continues.isDeclared declares, ?_, rfl, ?_⟩
      · exact continues.start.trans starts
      · have dated : filled.Dated stream (start + 1) (max bound after.pos) := inside (by simp)
        exact Parser.Dated.mono dated (Nat.le_refl _)
          (Nat.max_le.mpr ⟨moved (by simp), Nat.le_refl _⟩)

/-- What is read for a declaration has moved the cursor on. -/
theorem moves (dating : call.Dating setup) (ordered : setup.stream.Ordered) {state : State}
    (filed : state.Filed setup.stream) (frame : Frame) (goes : body.forward false false = true)
    (ends : body.forward true false = true)
    (succeeds : (setup.run call body state frame).verdict ≠ .failed) :
    state.pos < (setup.run call body state frame).state.pos := by
  have passed := setup.run_passes dating.advances ordered body state frame false filed.placed
    (by simp)
  cases verdict : (setup.run call body state frame).verdict with
  | failed => exact absurd verdict succeeds
  | ok => exact passed false verdict goes
  | ended => exact passed true verdict ends

theorem node (dating : call.Dating setup) (ordered : setup.stream.Ordered)
    (inner : setup.RunsDated call body) : setup.RunsOpen call (.node kind body) := by
  intro head checked restores state frame start others filed heads
  simp only [Phrase.opens, Bool.and_eq_true, Bool.not_eq_true'] at checked
  obtain ⟨⟨⟨⟨⟨rfl, declares⟩, bodyChecked⟩, defers⟩, goes⟩, ends⟩ := checked
  obtain ⟨rfl, rfl⟩ := heads
  have inside := inner bodyChecked restores state (setup.frame state kind) (state.pos + 1)
    (state.pos + 1) filed (.nil (Nat.le_refl _)) (.inr ⟨defers, Nat.le_refl _⟩)
  exact enclose inside declares (setup.run_continues call body state _) rfl
    (moves dating ordered filed _ goes ends)

theorem wrap (dating : call.Dating setup) (ordered : setup.stream.Ordered)
    (inner : setup.RunsDated call body) : setup.RunsOpen call (.wrap kind body) := by
  intro head checked restores state frame start others filed heads
  simp only [Phrase.opens, Bool.and_eq_true] at checked
  obtain ⟨⟨⟨⟨⟨rfl, declares⟩, bodyChecked⟩, defers⟩, goes⟩, ends⟩ := checked
  obtain ⟨part, parts, plain, le, starts⟩ := heads
  simp only [run, parts]
  have started : Frame.Dated setup.stream (start + 1) (max (start + 1) state.pos)
      { kind, start := part.span.start, parts := [part] } := by
    simpa [Frame.Dated] using Parser.Dated.other plain starts.doc starts.children
  have inside := inner bodyChecked restores state _ (start + 1) (max (start + 1) state.pos) filed
    started (.inr ⟨defers, by omega⟩)
  have moved := moves dating ordered filed { kind, start := part.span.start, parts := [part] }
    goes ends
  exact enclose inside declares (setup.run_continues call body state _) starts.start
    fun succeeds => by have := moved succeeds; omega

theorem branch {look : Look} (yes : setup.RunsOpen call first) (no : setup.RunsOpen call second) :
    setup.RunsOpen call (.branch look first second) := by
  intro head checked restores state frame start others filed heads
  obtain ⟨yesChecked, noChecked⟩ := Bool.and_eq_true_iff.mp checked
  obtain ⟨yesRestores, noRestores⟩ := Bool.and_eq_true_iff.mp restores
  rw [run_branch]
  split
  · exact yes head yesChecked yesRestores state frame start others filed heads
  · exact no head noChecked noRestores state frame start others filed heads

/-- Modifiers are what a declaration starts with. -/
theorem modifiers (dating : call.Dating setup) (late : setup.RunsOpen call second) :
    setup.RunsOpen call (.seq (.call .modifiers) second) := by
  intro head checked restores state frame start others filed heads
  simp only [Phrase.opens, Bool.and_eq_true, Bool.not_eq_true'] at checked
  obtain ⟨rfl, secondChecked⟩ := checked
  obtain ⟨rfl, rfl⟩ := heads
  have ruleDated := (dating.dates .modifiers).parts state filed
  have reached := ((dating.advances .modifiers).reaches state filed.placed)
  have memo := (dating.dates .modifiers).memo state filed
  rw [run_seq, run_call]
  rcases found : call .modifiers state with ⟨- | parts, after⟩
  · exact .inl rfl
  · rw [found] at ruleDated reached memo
    obtain ⟨part, rfl, plain, starts⟩ := (ruleDated parts rfl).starts (.inr rfl)
    exact late true secondChecked (Bool.and_eq_true_iff.mp restores).2 after
      (frame.pushAll [part]) state.pos frame.parts ⟨reached.placed, memo⟩
      ⟨part, rfl, plain, reached.le, starts⟩

/-- An initializer is documented by the rule that calls it. -/
theorem initializer (dating : call.Dating setup) : setup.RunsOpen call (.call .initializer) := by
  intro head checked _ state frame start others filed heads
  simp only [Phrase.opens, Bool.and_eq_true, Bool.not_eq_true'] at checked
  obtain ⟨rfl, -⟩ := checked
  obtain ⟨rfl, rfl⟩ := heads
  have ruleDated := (dating.dates .initializer).parts state filed
  have moved := (dating.advances .initializer).lt state filed.placed
  rw [run_call]
  rcases found : call .initializer state with ⟨- | parts, after⟩
  · exact .inl rfl
  · rw [found] at ruleDated moved
    obtain ⟨part, rfl, isDeclared, starts⟩ := (ruleDated parts rfl).starts (.inl rfl)
    refine .inr ⟨rfl, part, rfl, isDeclared, starts.start, starts.doc, ?_⟩
    exact starts.children.mono (Nat.le_refl _) (Nat.max_le.mpr ⟨moved rfl rfl, Nat.le_refl _⟩)

end Setup.RunsOpen

/-- All phrases leave their frames dated or a declaration behind, as far as they
pass the checks for that. -/
theorem Caller.Dating.run (dating : call.Dating setup) (ordered : setup.stream.Ordered)
    (phrase : Phrase) : setup.RunsDated call phrase ∧ setup.RunsOpen call phrase := by
  induction phrase with
  | done | rekind =>
      exact ⟨fun _ _ _ _ _ _ _ dated _ => .of_same dated rfl, fun _ checked => by cases checked⟩
  | stop | expected =>
      exact ⟨fun _ _ _ _ _ _ _ _ _ succeeds => absurd rfl succeeds,
        fun _ _ _ _ _ _ _ _ _ => .inl rfl⟩
  | operator =>
      exact ⟨fun _ _ _ _ _ _ _ dated _ => .of_push dated rfl rfl rfl,
        fun _ checked => by cases checked⟩
  | token | mark =>
      refine ⟨fun _ _ state frame _ _ _ dated _ => ?_, fun _ checked => by cases checked⟩
      simp only [Setup.run]
      split <;> exact .of_same dated rfl
  | leaf | pick =>
      refine ⟨fun checked _ state frame _ _ _ dated _ => ?_, fun _ checked => by cases checked⟩
      simp only [Setup.run]
      split
      · exact .of_push dated (by simpa [Phrase.dates, Node.leaf] using checked) rfl rfl
      · exact .of_same dated rfl
  | seq first second firstIh secondIh =>
      refine ⟨firstIh.1.seq dating ordered secondIh.1, fun head checked => ?_⟩
      obtain rfl := Phrase.opens_seq checked
      exact Setup.RunsOpen.modifiers dating secondIh.2 head checked
  | node kind body ih =>
      exact ⟨ih.1.node, Setup.RunsOpen.node dating ordered ih.1⟩
  | wrap kind body ih =>
      exact ⟨ih.1.wrap, Setup.RunsOpen.wrap dating ordered ih.1⟩
  | reopen kind body ih => exact ⟨ih.1.reopen, fun _ checked => by cases checked⟩
  | cover kind body ih => exact ⟨ih.1.cover, fun _ checked => by cases checked⟩
  | branch look yes no yesIh noIh => exact ⟨yesIh.1.branch noIh.1, yesIh.2.branch noIh.2⟩
  | trial rule yes no yesIh noIh =>
      exact ⟨yesIh.1.trial dating noIh.1, fun _ checked => by cases checked⟩
  | call rule =>
      refine ⟨.of_call dating, fun head checked => ?_⟩
      obtain rfl := Phrase.opens_call checked
      exact Setup.RunsOpen.initializer dating head checked
  | recover rule => exact ⟨.of_recover dating, fun _ checked => by cases checked⟩
  | orElse first second firstIh secondIh =>
      exact ⟨firstIh.1.orElse dating secondIh.1, fun _ checked => by cases checked⟩
  | loop look body ih => exact ⟨ih.1.loop dating, fun _ checked => by cases checked⟩
  | documented body ih => exact ⟨.documented ih.2, fun _ checked => by cases checked⟩
  | closing kind =>
      refine ⟨fun _ _ state frame _ _ _ dated _ => ?_, fun _ checked => by cases checked⟩
      simp only [Setup.run, Setup.close]
      split
      · exact .of_same dated rfl
      · split
        · exact .of_same dated rfl
        · exact .of_push dated rfl rfl rfl
  | salvage =>
      refine ⟨fun _ _ state frame _ _ _ dated _ => ?_, fun _ checked => by cases checked⟩
      simp only [Setup.run, Setup.salvage]
      split
      · exact .of_same dated rfl
      · split
        · exact .of_same dated rfl
        · split
          · exact .of_same dated rfl
          · exact .of_push dated rfl rfl rfl

end Phrases

/-! ## Calls -/

section Calls

variable {setup : Setup} {rule : Rule} {run : State → Reply}

/-- Modifiers leave one node, which starts where they do. -/
theorem Setup.run_modifiers {call : Caller} {state : State}
    (succeeds : (setup.run call Rule.modifiers.body state (setup.frame state .error)).verdict ≠
      .failed) :
    ∃ part, (setup.run call Rule.modifiers.body state (setup.frame state .error)).frame.parts =
        [part] ∧ part.kind = .modifiers ∧ part.doc = none ∧
      part.span.start = (setup.stream.get state.pos).span.start := by
  obtain ⟨inner, body, plain⟩ :
      ∃ inner, Rule.modifiers.body = .node .modifiers inner ∧ inner.rekinds = [] := ⟨_, rfl, rfl⟩
  have continues := setup.run_continues call inner state (setup.frame state .modifiers)
  rw [body] at succeeds ⊢
  simp only [run, enclose] at succeeds ⊢
  generalize setup.run call inner state (setup.frame state .modifiers) = outcome
    at succeeds continues ⊢
  obtain ⟨verdict, after, filled⟩ := outcome
  cases verdict with
  | failed => exact absurd rfl succeeds
  | ok | ended =>
      refine ⟨_, rfl, ?_, rfl, continues.start⟩
      exact continues.kind.resolve_right (by simp [plain])

theorem Caller.Dating.runBody {call : Caller} (dating : call.Dating setup)
    (ordered : setup.stream.Ordered) (rule : Rule) :
    Dates setup.stream rule (setup.runBody call rule) := by
  constructor
  · intro state filed
    rw [Setup.runBody_state]
    exact (dating.filed_run rule.body (setup.frame state .error) filed).memo
  · intro state filed parts built
    obtain ⟨succeeds, same⟩ := setup.runBody_of_some _ built
    have sameState := setup.runBody_state call rule state
    obtain ⟨closed, opens⟩ := dating.run ordered rule.body
    have dated : rule ≠ .initializer → ∀ bound, StartsBehind (.call rule) bound state.pos →
        Dated setup.stream bound (max bound (setup.runBody call rule state).state.pos)
          (Node.forest parts.reverse) := by
      intro other bound behind
      have whole := closed (rule.body_dates other) rule.body_restores state
        (setup.frame state .error) bound bound filed (.nil (Nat.le_refl bound))
        (behind.mono rule.body_defers) succeeds
      rwa [Frame.Dated, same, ← sameState] at whole
    refine ⟨dated, ?_⟩
    rintro (rfl | rfl)
    · have opened := opens false Rule.initializer_opens (Rule.body_restores _) state
        (setup.frame state .error) state.pos [] filed ⟨rfl, rfl⟩
      obtain ⟨-, part, isPart, isDeclared, starts⟩ := opened.resolve_left succeeds
      rw [same] at isPart
      refine ⟨part, isPart, isDeclared, starts.start, starts.doc, ?_⟩
      rw [sameState]
      exact starts.children.mono (Nat.le_refl _) (Nat.le_max_right _ _)
    · obtain ⟨part, isPart, kind, doc, start⟩ := Setup.run_modifiers succeeds
      rw [same] at isPart
      have plain : part.kind.isDeclared = false := by rw [kind]; rfl
      refine ⟨part, isPart, plain, start, doc, ?_⟩
      have whole := dated (by simp) (state.pos + 1) (.inr ⟨rfl, Nat.le_refl _⟩)
      rw [isPart] at whole
      simpa using (show Dated _ _ _ (part :: Node.forest part.children) by simpa using whole).tail

theorem guarded_dates (dates : Dates setup.stream rule run) :
    Dates setup.stream rule (setup.guarded run) := by
  constructor
  · intro state filed
    rcases setup.guarded_cases run state with ⟨-, same⟩ | ⟨after, same, -, -, samePos, sameMemo⟩
    · rw [same]
      exact dates.memo { state with steps := state.steps + 1, depth := state.depth + 1 }
        (filed.of_same rfl rfl)
    · rw [same]
      exact sameMemo.symm ▸ filed.memo
  · intro state filed parts built
    rcases setup.guarded_cases run state with ⟨-, same⟩ | ⟨after, same, -⟩
    · rw [same] at built ⊢
      exact dates.parts { state with steps := state.steps + 1, depth := state.depth + 1 }
        (filed.of_same rfl rfl) parts built
    · rw [same] at built
      cases built

theorem remember_dates {slot : Memo.Slot} (kept : Memo.Slot.of? rule = some slot)
    (dates : Dates setup.stream rule run) {state : State} (filed : state.Filed setup.stream) :
    MemoDated setup.stream (remember ⟨slot, state.pos⟩ run state).state.memo ∧
      ∀ parts, (remember ⟨slot, state.pos⟩ run state).parts? = some parts →
        RuleDated setup.stream rule state.pos parts
          (remember ⟨slot, state.pos⟩ run state).state.pos := by
  have inner : State.Filed setup.stream { state with furthest := .none } := filed.of_same rfl rfl
  have memo := dates.memo _ inner
  have told := dates.parts _ inner
  simp only [remember]
  rcases found : run { state with furthest := .none } with ⟨parts?, after⟩
  rw [found] at memo told
  dsimp only at told ⊢
  split
  · exact ⟨memo, told⟩
  · refine ⟨Memo.All.put memo ?_, told⟩
    rintro parts rfl
    rw [Memo.Slot.rule_of? kept]
    exact told parts rfl

theorem memoized_dates {slot : Memo.Slot} (kept : Memo.Slot.of? rule = some slot)
    (dates : Dates setup.stream rule run) : Dates setup.stream rule (memoized slot run) := by
  have both : ∀ state : State, state.Filed setup.stream →
      MemoDated setup.stream (memoized slot run state).state.memo ∧
        ∀ parts, (memoized slot run state).parts? = some parts →
          RuleDated setup.stream rule state.pos parts (memoized slot run state).state.pos := by
    intro state filed
    have lookedUp : State.Filed setup.stream
        { state with memo := (state.memo.get ⟨slot, state.pos⟩).2 } :=
      ⟨⟨filed.placed.inside, Memo.All.get filed.placed.memo ⟨slot, state.pos⟩⟩,
        Memo.All.get filed.memo ⟨slot, state.pos⟩⟩
    have remembered := remember_dates kept dates lookedUp
    simp only [memoized]
    split
    · rename_i parts stop furthest found
      rw [state.memo.get_fst] at found
      refine ⟨lookedUp.memo, fun others same => ?_⟩
      cases same
      have told := filed.memo _ _ found parts rfl
      rwa [Memo.Slot.rule_of? kept] at told
    · split
      · exact ⟨lookedUp.memo, fun _ built => by cases built⟩
      · exact remembered
    · exact remembered
  exact ⟨fun state filed => (both state filed).1, fun state filed => (both state filed).2⟩

/-- Every call of a rule leaves dated parts. -/
theorem Setup.callWith_dating (setup : Setup) (ordered : setup.stream.Ordered) (budget : Nat) :
    Caller.Dating (setup.callWith budget) setup := by
  induction budget with
  | zero =>
      refine ⟨setup.callWith_advances ordered 0, fun rule => ⟨fun _ filed => filed.memo, ?_⟩⟩
      intro state _ parts built
      cases built
  | succ budget ih =>
      refine ⟨setup.callWith_advances ordered (budget + 1), fun rule => ?_⟩
      exact setup.runRule_induction (ih.runBody ordered rule) guarded_dates memoized_dates

end Calls

/-! ## Parses -/

/-- Where a dated node starts and what it carries. -/
theorem Dated.of_mem {stream : Stream} {first after : Nat} {nodes : List Node} {node : Node}
    (dated : Dated stream first after nodes) (member : node ∈ nodes) :
    (node.kind.isDeclared = true → ∃ index, first ≤ index ∧ index < after ∧
      node.span.start = (stream.get index).span.start ∧ node.doc = stream.docBefore? index) ∧
    (node.kind.isDeclared = false → node.doc = none) := by
  induction dated with
  | nil => cases member
  | other plain doc _ ih =>
      rcases List.mem_cons.mp member with rfl | inner
      · exact ⟨fun isDeclared => by simp [plain] at isDeclared, fun _ => doc⟩
      · exact ih inner
  | @declared _ _ index _ _ low isDeclared start doc rest ih =>
      rcases List.mem_cons.mp member with rfl | inner
      · exact ⟨fun _ => ⟨index, low, rest.le, start, doc⟩,
          fun plain => by simp [plain] at isDeclared⟩
      · refine ⟨fun found => ?_, (ih inner).2⟩
        obtain ⟨other, behind, within, told⟩ := (ih inner).1 found
        exact ⟨other, by omega, within, told⟩

/-- The comments of dated nodes come from ascending places, so they differ. -/
theorem Dated.docs_nodup {source : Source} {first after : Nat} {nodes : List Node}
    (dated : Dated (Stream.ofSource source) first after nodes)
    (inside : after ≤ (Stream.ofSource source).last) : (nodes.filterMap Node.doc).Nodup := by
  induction dated with
  | nil => exact .nil
  | other _ doc _ ih => simpa [doc] using ih inside
  | @declared _ _ index node nodes low isDeclared start doc rest ih =>
      cases found : node.doc with
      | none => simpa [found] using ih inside
      | some comment =>
          rw [List.filterMap_cons_some found, List.nodup_cons]
          refine ⟨fun again => ?_, ih inside⟩
          obtain ⟨other, member, same⟩ := List.mem_filterMap.mp again
          have told := rest.of_mem member
          cases isOther : other.kind.isDeclared with
          | false => simp [told.2 isOther] at same
          | true =>
              obtain ⟨later, behind, within, -, laterDoc⟩ := told.1 isOther
              exact Stream.docBefore?_ne source behind (Nat.lt_of_lt_of_le within inside)
                (doc ▸ found) (laterDoc ▸ same)

end JavaFront.Parser

namespace JavaFront.Source

open JavaFront.Parser

/-- The nodes of the tree of a parse are dated. -/
theorem parse_dated (source : Source) (entry : Entry) (options : Options) {tree : Node}
    (built : (source.parse entry options).tree = some tree) :
    ∃ after, after ≤ (Stream.ofSource source).last ∧
      Dated (Stream.ofSource source) 0 after tree.nodes := by
  have ordered := Stream.ofSource_ordered source
  let setup := Setup.ofSource source options
  have accepted : source.Accepted options := by
    intro refused
    simp [parse, refused, refuse] at built
  rw [(source.parse_of_accepted entry options accepted).1] at built
  obtain ⟨parts, found, latest⟩ := Option.bind_eq_some_iff.mp (Setup.node?_of_built built)
  obtain ⟨others, rfl⟩ := List.head?_eq_some_iff.mp latest
  have filed : setup.initial.Filed (Stream.ofSource source) :=
    ⟨⟨Nat.zero_le _, Memo.All.empty⟩, Memo.All.empty⟩
  have dating := setup.callWith_dating ordered setup.budget
  have ruleDated := (dating.dates entry.rule).parts setup.initial filed _ found
  have reached := (dating.advances entry.rule).reaches setup.initial filed.placed
  have other : entry.rule ≠ .initializer := by cases entry <;> simp [Entry.rule]
  have whole := ruleDated.dated other 0 (.inl (Nat.le_refl 0))
  rw [Nat.zero_max, List.reverse_cons, Node.forest, List.flatMap_append,
    List.flatMap_singleton] at whole
  obtain ⟨middle, -, late⟩ := whole.split
  exact ⟨_, reached.placed.inside, late.mono (Nat.zero_le _) (Nat.le_refl _)⟩

/-- Documentation comments get to the right declaration, and only once. In the
tree of a parse, recovered or abandoned ones included, a declaration carries the
last documentation comment between the significant token at which it starts and
the significant token before that, if there is one. No other node carries a
comment, and no two nodes carry the same. -/
theorem parse_documents (source : Source) (entry : Entry) (options : Options) {tree : Node}
    (built : (source.parse entry options).tree = some tree) :
    (∀ node ∈ tree.nodes,
      (node.kind.isDeclared = true → ∃ gap token, source.IsGap gap token ∧
        node.span.start = token.span.start ∧ node.doc = (gap.filter Token.isDoc).getLast?) ∧
      (node.kind.isDeclared = false → node.doc = none)) ∧
    (tree.nodes.filterMap Node.doc).Nodup := by
  obtain ⟨after, inside, dated⟩ := source.parse_dated entry options built
  refine ⟨fun node member => ⟨fun isDeclared => ?_, (dated.of_mem member).2⟩,
    dated.docs_nodup inside⟩
  obtain ⟨index, -, within, start, doc⟩ := (dated.of_mem member).1 isDeclared
  obtain ⟨gap, isGap, last⟩ := Stream.docBefore?_ofSource source (Nat.lt_of_lt_of_le within inside)
  exact ⟨gap, _, isGap, start, doc.trans last⟩

/-- A text with an error in its first class. In the initializer of the second the
parse is abandoned. -/
def annotated : Source :=
  of [] ("/** a */ /** b */ @A class C \x7b /** c */ int x; ) \x7d " ++
    "/** d */ class D \x7b /* e */ \x7b ((1)); \x7d \x7d")

/-- Both classes and the field are documented, and the initializer is not. -/
theorem parse_documents_annotated :
    ∃ tree, (annotated.parse .unit { maxDepth := 8 }).tree = some tree ∧
      (annotated.parse .unit { maxDepth := 8 }).abandoned = some (.tooDeep 8) ∧
      tree.nodes.filterMap (fun node => node.doc.map Token.text) =
        ["/** b */", "/** c */", "/** d */"].map Bytes.ofString ∧
      (∀ node ∈ tree.nodes,
        (node.kind.isDeclared = true → ∃ gap token, annotated.IsGap gap token ∧
          node.span.start = token.span.start ∧ node.doc = (gap.filter Token.isDoc).getLast?) ∧
        (node.kind.isDeclared = false → node.doc = none)) ∧
      (tree.nodes.filterMap Node.doc).Nodup := by
  obtain ⟨tree, built, texts⟩ := Option.map_eq_some_iff.mp
    (show (annotated.parse .unit { maxDepth := 8 }).tree.map
        (fun tree => tree.nodes.filterMap fun node => node.doc.map Token.text) =
      some (["/** b */", "/** c */", "/** d */"].map Bytes.ofString) by decide +kernel)
  exact ⟨tree, built, by decide +kernel, texts,
    parse_documents annotated .unit { maxDepth := 8 } built⟩

end JavaFront.Source
