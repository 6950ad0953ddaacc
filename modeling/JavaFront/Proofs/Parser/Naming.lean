import JavaFront.Proofs.Grammar.Naming
import JavaFront.Proofs.Parser.Building

/-!
# The names in trees

Whatever happens to a parse, its tree is named: identifiers and modifiers are
words, and types, packages and qualified names have the names they need. In a
unit the package stands first, and behind it nothing but imports, types,
modifiers without a type and what could not be read.
-/

namespace JavaFront

open Node (Kind AllNamed)

namespace Parser

variable {stream : Stream} {way : Way} {phrase : Phrase} {pos after : Nat} {frame inner : Frame}
  {ended : Bool}

/-! ## Kinds of parts -/

/-- Only a phrase that may end the node under construction does so. -/
theorem Builds.salvages (builds : Builds stream way phrase pos frame ended after inner)
    (ends : ended = true) : phrase.salvages = true := by
  induction builds with
  | salvage | salvageMarked => rfl
  | seq _ _ _ ih | otherwise _ _ ih => exact Bool.or_eq_true_iff.mpr (.inr (ih ends))
  | seqEnded _ ih | orElse _ ih => exact Bool.or_eq_true_iff.mpr (.inl (ih ends))
  | @branch _ _ _ _ _ _ _ _ _ chosen _ _ ih | @trial _ _ _ _ _ _ _ _ _ chosen _ ih =>
      cases chosen with
      | true => exact Bool.or_eq_true_iff.mpr (.inl (ih ends))
      | false => exact Bool.or_eq_true_iff.mpr (.inr (ih ends))
  | loop _ _ ih => exact (Bool.or_self _).symm.trans (ih ends)
  | documentedEnded _ ih => exact ih ends
  | _ => cases ends

namespace Frame

/-- The kinds of the parts, the latest first. -/
def kinds (frame : Frame) : List Kind :=
  frame.parts.map Node.kind

theorem kinds_document (frame : Frame) (doc : Option Token) :
    (frame.document doc).kinds = frame.kinds := by
  rcases frame with ⟨kind, start, token, _ | ⟨latest, others⟩⟩ <;> rfl

/-- Behind parts of the first kinds the frame holds parts of allowed kinds. -/
def Extends (frame : Frame) (first : List Kind) (allowed : Kind → Bool) : Prop :=
  ∃ new, frame.kinds = new ++ first ∧ ∀ kind ∈ new, allowed kind = true

namespace Extends

variable {first : List Kind} {allowed : Kind → Bool}

theorem self (frame : Frame) : frame.Extends frame.kinds allowed :=
  ⟨[], rfl, fun _ member => absurd member List.not_mem_nil⟩

/-- If there was no part at first, all parts are of allowed kinds. -/
theorem of_mem (holds : frame.Extends [] allowed) {part : Node} (member : part ∈ frame.parts) :
    allowed part.kind = true := by
  obtain ⟨new, same, kept⟩ := holds
  rw [List.append_nil] at same
  exact kept part.kind (same ▸ List.mem_map_of_mem member)

theorem pushAll (holds : frame.Extends first allowed) {parts : List Node}
    (proper : ∀ part ∈ parts, allowed part.kind = true) :
    (frame.pushAll parts).Extends first allowed := by
  obtain ⟨new, same, kept⟩ := holds
  refine ⟨parts.map Node.kind ++ new, ?_, List.forall_mem_append.mpr ⟨?_, kept⟩⟩
  · rw [List.append_assoc, ← same]
    exact List.map_append
  · exact List.forall_mem_map.mpr proper

theorem push (holds : frame.Extends first allowed) {part : Node}
    (proper : allowed part.kind = true) : (frame.push part).Extends first allowed :=
  holds.pushAll (List.forall_mem_singleton.mpr proper)

/-- A part may be taken away if all of them are of allowed kinds. -/
theorem take (holds : frame.Extends [] allowed) {latest : Node} {others : List Node}
    (parts : frame.parts = latest :: others) :
    Frame.Extends { frame with parts := others } [] allowed := by
  obtain ⟨new, same, kept⟩ := holds
  rw [kinds, parts, List.append_nil] at same
  subst same
  exact ⟨others.map Node.kind, (List.append_nil _).symm, (List.forall_mem_cons.mp kept).2⟩

end Extends

end Frame

/-- A finished node is of the kind that it was opened with, or of one that a
phrase has given to it. -/
theorem Builds.kind_mem (builds : Builds stream way phrase pos frame ended after inner) :
    inner.kind ∈ frame.kind :: phrase.rekinds :=
  List.mem_cons.mpr builds.kind

/-- A phrase leaves parts of the kinds that it pushes, and the others as they
are, unless it takes some of them. -/
theorem Builds.extends (builds : Builds stream way phrase pos frame ended after inner)
    {first : List Kind} {allowed : Kind → Bool} (pushes : phrase.pushes allowed = true)
    (keeps : phrase.takes = false ∨ first = []) (holds : frame.Extends first allowed) :
    inner.Extends first allowed := by
  induction builds generalizing first allowed with
  | done | token | mark | rekind | loopEnds | salvage => exact holds
  | seq _ _ firstIh secondIh =>
      obtain ⟨firstPushes, secondPushes⟩ := Bool.and_eq_true_iff.mp pushes
      have keepsBoth := keeps.imp_left Bool.or_eq_false_iff.mp
      exact secondIh secondPushes (keepsBoth.imp_left And.right)
        (firstIh firstPushes (keepsBoth.imp_left And.left) holds)
  | seqEnded _ ih | orElse _ ih =>
      exact ih (Bool.and_eq_true_iff.mp pushes).1
        (keeps.imp_left fun kept => (Bool.or_eq_false_iff.mp kept).1) holds
  | otherwise _ _ ih =>
      exact ih (Bool.and_eq_true_iff.mp pushes).2
        (keeps.imp_left fun kept => (Bool.or_eq_false_iff.mp kept).2) holds
  | leaf | pick | operator => exact holds.push pushes
  | node body | cover body => exact holds.push (List.all_eq_true.mp pushes _ body.kind_mem)
  | wrap parts body | reopen parts body =>
      have base : first = [] := keeps.resolve_left (by simp [Phrase.takes])
      subst base
      exact (holds.take parts).push (List.all_eq_true.mp pushes _ body.kind_mem)
  | @branch _ _ _ _ _ _ _ _ _ chosen _ _ ih | @trial _ _ _ _ _ _ _ _ _ chosen _ ih =>
      obtain ⟨yesPushes, noPushes⟩ := Bool.and_eq_true_iff.mp pushes
      have keepsBoth := keeps.imp_left Bool.or_eq_false_iff.mp
      cases chosen with
      | true => exact ih yesPushes (keepsBoth.imp_left And.left) holds
      | false => exact ih noPushes (keepsBoth.imp_left And.right) holds
  | @call way rule pos frame ended after inner _ _ ih =>
      have proper : inner.Extends [] rule.makes :=
        ih rule.body_pushes (.inr rfl) (Frame.Extends.self _)
      refine holds.pushAll fun part member => ?_
      have made := proper.of_mem member
      simpa [made] using List.all_eq_true.mp pushes part.kind part.kind.mem_all
  | recover _ ih => exact ih (Bool.and_eq_true_iff.mp pushes).2 (.inl rfl) holds
  | skip skips =>
      exact holds.push (by rw [skips.kind]; exact (Bool.and_eq_true_iff.mp pushes).1)
  | loop _ _ ih =>
      exact ih (Bool.and_eq_true_iff.mpr ⟨pushes, pushes⟩)
        (keeps.imp_left fun kept => Bool.or_eq_false_iff.mpr ⟨kept, kept⟩) holds
  | documented _ ih =>
      obtain ⟨new, same, proper⟩ := ih pushes keeps holds
      exact ⟨new, (Frame.kinds_document _ _).trans same, proper⟩
  | documentedEnded _ ih => exact ih pushes keeps holds
  | closing _ ih => exact ih rfl (.inl rfl) holds
  | missing _ marks | salvageMarked _ marks => exact holds.push (by rw [marks.kind]; exact pushes)

theorem Builds.kinds_suffix (builds : Builds stream way phrase pos frame ended after inner)
    (keeps : phrase.takes = false) : frame.kinds <:+ inner.kinds := by
  obtain ⟨new, same, -⟩ := builds.extends phrase.pushes_any (.inl keeps) (.self frame)
  exact ⟨new, same.symm⟩

/-- A part that a phrase supplies is there in any case. -/
theorem Builds.supplies (builds : Builds stream way phrase pos frame ended after inner)
    {kind : Kind} (supplies : phrase.supplies kind = true) : kind ∈ inner.kinds := by
  induction builds with
  | leaf | pick => exact of_decide_eq_true supplies ▸ List.mem_cons_self
  | @node way part body pos frame ended after inner bodyBuilds _ =>
      simp only [Phrase.supplies, Bool.and_eq_true, decide_eq_true_eq, List.isEmpty_iff] at supplies
      obtain ⟨rfl, unrenamed⟩ := supplies
      have same : inner.kind = part := bodyBuilds.kind.resolve_right (by simp [unrenamed])
      exact List.mem_cons.mpr (.inl same.symm)
  | seq firstBuilds secondBuilds firstIh secondIh =>
      simp only [Phrase.supplies, Bool.or_eq_true, Bool.and_eq_true, Bool.not_eq_true']
        at supplies
      rcases supplies with ⟨early, keeps⟩ | ⟨late, -⟩
      · exact (secondBuilds.kinds_suffix keeps).subset (firstIh early)
      · exact secondIh late
  | seqEnded firstBuilds ih =>
      simp only [Phrase.supplies, Bool.or_eq_true, Bool.and_eq_true, Bool.not_eq_true']
        at supplies
      rcases supplies with ⟨early, -⟩ | ⟨-, goesOn⟩
      · exact ih early
      · rw [firstBuilds.salvages rfl] at goesOn
        cases goesOn
  | @branch _ _ _ _ _ _ _ _ _ chosen _ _ ih | @trial _ _ _ _ _ _ _ _ _ chosen _ ih =>
      obtain ⟨yes, no⟩ := Bool.and_eq_true_iff.mp supplies
      cases chosen with
      | true => exact ih yes
      | false => exact ih no
  | @call way rule pos frame ended after inner _ _ ih =>
      rw [Frame.kinds, Frame.pushAll, List.map_append]
      exact List.mem_append_left _ (ih (rule.body_supplies supplies))
  | documented _ ih =>
      rw [Frame.kinds_document]
      exact ih supplies
  | documentedEnded _ ih => exact ih supplies
  | _ => cases supplies

/-! ## Names -/

/-- A node without children that is no word and needs no name is named. -/
theorem allNamed_of_error {node : Node} (isError : node.kind = .error)
    (childless : node.children = []) : node.AllNamed := by
  refine .of_children ⟨?_, ?_⟩ ?_
  · rw [isError]
    exact fun isSpelled => nomatch isSpelled
  · rw [isError]
    exact fun kind member => absurd member List.not_mem_nil
  · rw [childless]
    exact fun child member => absurd member List.not_mem_nil

/-- A leaf is named if its token is a word or need not be one. -/
theorem allNamed_leaf {kind : Kind} {token : Token} (simple : kind.needs = [])
    (spelled : kind.isSpelled = true → token.text ≠ [] ∧ token.text.IsInline) :
    (Node.leaf kind token).AllNamed := by
  refine .of_children ⟨spelled, ?_⟩ fun child member => absurd member List.not_mem_nil
  change ∀ needed ∈ kind.needs, _
  rw [simple]
  exact fun needed member => absurd member List.not_mem_nil

/-- A finished node is named if it holds what it needs. -/
theorem Frame.allNamed_toNode (all : frame.All AllNamed) (unspelled : frame.kind.isSpelled = false)
    (holds : ∀ kind ∈ frame.kind.needs, kind ∈ frame.kinds) (stop : Pos) :
    (frame.toNode stop).AllNamed := by
  refine .of_children ⟨?_, fun kind needed => ?_⟩ fun child member =>
    all child (List.mem_reverse.mp member)
  · intro isSpelled
    cases unspelled.symm.trans isSpelled
  · obtain ⟨child, isPart, same⟩ := List.mem_map.mp (holds kind needed)
    exact ⟨child, List.mem_reverse.mpr isPart, same⟩

/-- Whatever a node under construction is finished as, it holds what it needs. -/
theorem Builds.allNamed_toNode (builds : Builds stream way phrase pos frame ended after inner)
    (names : ((frame.kind :: phrase.rekinds).all fun kind =>
      !kind.isSpelled && kind.needs.all (phrase.supplies ·)) = true)
    (all : inner.All AllNamed) (stop : Pos) : (inner.toNode stop).AllNamed := by
  have proper := List.all_eq_true.mp names inner.kind builds.kind_mem
  simp only [Bool.and_eq_true, Bool.not_eq_true', List.all_eq_true] at proper
  exact Frame.allNamed_toNode all proper.1
    (fun kind needed => builds.supplies (proper.2 kind needed)) stop

/-- What a phrase builds of a source is named. -/
theorem Builds.allNamed {source : Source}
    (builds : Builds (Stream.ofSource source) way phrase pos frame ended after inner)
    (names : phrase.names = true) (all : frame.All AllNamed) : inner.All AllNamed := by
  induction builds with
  | done | token | mark | rekind | loopEnds | salvage => exact all
  | seq _ _ firstIh secondIh =>
      obtain ⟨firstNames, secondNames⟩ := Bool.and_eq_true_iff.mp names
      exact secondIh secondNames (firstIh firstNames all)
  | seqEnded _ ih | orElse _ ih => exact ih (Bool.and_eq_true_iff.mp names).1 all
  | otherwise _ _ ih => exact ih (Bool.and_eq_true_iff.mp names).2 all
  | leaf found =>
      simp only [Phrase.names, Bool.and_eq_true, List.isEmpty_iff, Bool.or_eq_true,
        Bool.not_eq_true'] at names
      refine all.push (allNamed_leaf names.1 fun isSpelled => Stream.isInline_word source ?_)
      rw [found]
      exact names.2.resolve_left (by simp [isSpelled])
  | pick accepted =>
      simp only [Phrase.names, Bool.and_eq_true, List.isEmpty_iff, Bool.or_eq_true,
        Bool.not_eq_true', List.all_eq_true] at names
      refine all.push (allNamed_leaf names.1 fun isSpelled => Stream.isInline_word source ?_)
      have isWord := names.2.resolve_left (by simp [isSpelled])
      exact (isWord _ (Token.Kind.mem_all _)).resolve_left (by simp [accepted])
  | operator => exact all.push (allNamed_leaf rfl fun isSpelled => nomatch isSpelled)
  | node body ih | cover body ih =>
      obtain ⟨proper, bodyNames⟩ := Bool.and_eq_true_iff.mp names
      exact all.push (body.allNamed_toNode proper (ih bodyNames .nil) _)
  | @wrap way kind body pos frame first others ended after inner parts builds ih =>
      obtain ⟨proper, bodyNames⟩ := Bool.and_eq_true_iff.mp names
      obtain ⟨firstAll, kept⟩ := all.take parts
      have filled := ih bodyNames (List.forall_mem_singleton.mpr firstAll)
      exact kept.push (builds.allNamed_toNode proper filled _)
  | @reopen way kind body pos frame head others ended after inner parts builds ih =>
      obtain ⟨proper, bodyNames⟩ := Bool.and_eq_true_iff.mp names
      obtain ⟨headAll, kept⟩ := all.take parts
      have filled := ih bodyNames fun child member => headAll.child (List.mem_reverse.mp member)
      exact kept.push (builds.allNamed_toNode proper filled _)
  | @branch _ _ _ _ _ _ _ _ _ chosen _ _ ih | @trial _ _ _ _ _ _ _ _ _ chosen _ ih =>
      obtain ⟨yes, no⟩ := Bool.and_eq_true_iff.mp names
      cases chosen with
      | true => exact ih yes all
      | false => exact ih no all
  | @call way rule pos frame ended after inner _ _ ih =>
      exact all.pushAll (ih rule.body_names .nil)
  | recover _ ih => exact ih rfl all
  | skip skips => exact all.push (allNamed_of_error skips.kind skips.children)
  | loop _ _ ih => exact ih (Bool.and_eq_true_iff.mpr ⟨names, names⟩) all
  | documented _ ih => exact (ih names all).document fun _ doc named => named.document doc
  | documentedEnded _ ih => exact ih names all
  | closing _ ih => exact ih rfl all
  | missing _ marks | salvageMarked _ marks =>
      exact all.push (allNamed_of_error marks.kind marks.children)

/-! ## Units -/

theorem Builds.few (builds : Builds stream way phrase pos frame ended after inner)
    (few : phrase.isFew = true) : inner.kinds.length ≤ frame.kinds.length + 1 := by
  induction builds with
  | done => exact Nat.le_succ _
  | leaf | pick | operator | node | cover => exact Nat.le_refl _
  | skip => exact Nat.le_refl _
  | @branch _ _ _ _ _ _ _ _ _ chosen _ _ ih | @trial _ _ _ _ _ _ _ _ _ chosen _ ih =>
      obtain ⟨yes, no⟩ := Bool.and_eq_true_iff.mp few
      cases chosen with
      | true => exact ih yes
      | false => exact ih no
  | @call way rule pos frame ended after inner _ _ ih =>
      have one : inner.kinds.length ≤ 1 := ih (rule.body_isFew few)
      rw [Frame.kinds, Frame.pushAll, List.map_append, List.length_append, Nat.add_comm]
      exact Nat.add_le_add_left one _
  | recover _ ih | documentedEnded _ ih => exact ih few
  | orElse _ ih => exact ih (Bool.and_eq_true_iff.mp few).1
  | otherwise _ _ ih => exact ih (Bool.and_eq_true_iff.mp few).2
  | documented _ ih =>
      rw [Frame.kinds_document]
      exact ih few
  | _ => cases few

/-- What the rule for a unit builds is one. -/
theorem BodyBuilds.isUnit {parts : List Node}
    (builds : BodyBuilds stream .compilationUnit way pos parts after) :
    ∀ part ∈ parts, part.IsUnit := by
  obtain ⟨first, others, isBody, few, goesOn, firstPushes, keeps, othersPush, unrenamed⟩ :=
    Rule.compilationUnit_body
  obtain ⟨ended, inner, rfl, whole⟩ := builds
  rw [isBody] at whole
  cases whole with
  | @cover _ _ _ _ _ _ _ filled body =>
      have kind : filled.kind = .compilationUnit := body.kind.resolve_right (by simp [unrenamed])
      rw [show Frame.parts _ = [filled.toNode _] from rfl, List.forall_mem_singleton]
      refine ⟨kind, ?_⟩
      cases body with
      | seqEnded early =>
          rw [early.salvages rfl] at goesOn
          cases goesOn
      | @seq _ _ _ _ _ _ between _ _ _ early late =>
          have one : between.kinds.length ≤ 1 := early.few few
          obtain ⟨front, same, frontProper⟩ := early.extends firstPushes (.inr rfl) (.self _)
          obtain ⟨rest, whole, restProper⟩ := late.extends othersPush (.inl keeps) (.self _)
          rw [List.append_nil] at same
          rw [same] at one whole
          obtain ⟨restParts, frontParts, parts, rfl, rfl⟩ := List.map_eq_append_iff.mp whole
          refine ⟨frontParts.reverse, restParts.reverse, ?_, by simpa using one, ?_, ?_⟩
          · rw [← List.reverse_append, ← parts]
            rfl
          · intro child member
            simpa using frontProper child.kind (List.mem_map_of_mem (List.mem_reverse.mp member))
          · intro child member
            exact restProper child.kind (List.mem_map_of_mem (List.mem_reverse.mp member))

end Parser

namespace Source

open JavaFront.Parser

/-- Whatever the limits and whatever happens to the parse, the tree of a unit is
one and is named. -/
theorem parse_isUnit (source : Source) (options : Options) {tree : Node}
    (built : (source.parse .unit options).tree = some tree) : tree.IsUnit ∧ tree.AllNamed := by
  obtain ⟨others, after, -, builds⟩ :=
    source.parse_builds .unit options true built fun _ => rfl
  refine ⟨builds.isUnit tree List.mem_cons_self, ?_⟩
  obtain ⟨ended, inner, same, builds⟩ := builds
  exact builds.allNamed (Rule.body_names _) .nil tree (same ▸ List.mem_cons_self)

end Source

end JavaFront
