import JavaFront.Proofs.Grammar.Brackets
import JavaFront.Proofs.Parser.Building
import JavaFront.Proofs.Parser.Whole

/-!
# How deep brackets nest

The limit on the depth of a parse bounds the guards that are entered one inside
of the other, and with them the brackets on every path of the tree, two for
every level. Arrays of element values that stand directly in one another are not
guarded, and there is no bound on those.
-/

namespace JavaFront

open Node (nestedArrays)

namespace Parser

/-! ## Frames -/

namespace Frame

variable {frame inner : Frame} {inArray : Bool} {limit : Nat}

/-- A finished node adds what its kind weighs, whatever it has been renamed to. -/
theorem weighs_toNode {kind : Node.Kind} {rekinds : List Node.Kind} {below : Nat}
    (weighs : inner.All (Node.Weighs (kind = .elementValueArray) below))
    (renamed : inner.kind = kind ∨ inner.kind ∈ rekinds)
    (isOpen : ∀ other ∈ rekinds, other.isBracketed = false)
    (named : rekinds = [] ∨ kind ≠ .elementValueArray)
    (le : below + kind.weight inArray ≤ limit) (stop : Pos) :
    (inner.toNode stop).Weighs inArray limit := by
  rcases renamed with rfl | changed
  · exact .of_children (fun child isChild => weighs child (List.mem_reverse.mp isChild)) le
  · have innerOpen := isOpen inner.kind changed
    have notArray : kind ≠ .elementValueArray := by
      rcases named with empty | other
      · rw [empty] at changed
        cases changed
      · exact other
    have innerNotArray : inner.kind ≠ .elementValueArray := by
      rintro array
      rw [array] at innerOpen
      cases innerOpen
    have children : ∀ child ∈ (inner.toNode stop).children,
        child.Weighs (inner.kind = .elementValueArray) below := by
      intro child isChild
      have bound := weighs child (List.mem_reverse.mp isChild)
      rw [decide_eq_false notArray] at bound
      exact bound.mono (by simp)
    have none : (inner.toNode stop).kind.weight inArray = 0 := Node.Kind.weight_of_open innerOpen
    exact .of_children children (by omega)

/-- A finished node that is not in brackets adds nothing. -/
theorem weighs_toNode_open {kind : Node.Kind} {rekinds : List Node.Kind}
    (weighs : inner.All (Node.Weighs false limit))
    (renamed : inner.kind = kind ∨ inner.kind ∈ rekinds)
    (isOpen : kind.isBracketed = false) (stays : ∀ other ∈ rekinds, other.isBracketed = false)
    (stop : Pos) : (inner.toNode stop).Weighs false limit := by
  have notArray : kind ≠ .elementValueArray := by
    rintro rfl
    cases isOpen
  refine weighs_toNode ?_ renamed stays (.inr notArray)
    (by rw [Node.Kind.weight_of_open isOpen]; exact Nat.le_refl _) stop
  rwa [decide_eq_false notArray]

end Frame

/-! ## Phrases -/

/-- In so much room and with what is allowed in front of the guards, brackets
nest so deep at most. -/
theorem Way.inside_room {way : Way} {rule : Rule} {room : Nat} (known : way.room = some room)
    (admits : way.Admits rule) : ∃ left, (way.inside rule).room = some left ∧
      2 * left + rule.allowance = 2 * room + rule.excess := by
  by_cases guarded : rule.isGuarded = true
  · have spare : room ≠ 0 := fun full => admits guarded (by rw [known, full])
    refine ⟨room - 1, by simp [inside, guarded, known], ?_⟩
    rw [Rule.allowance, if_pos guarded]
    omega
  · refine ⟨room, by rw [inside, if_neg guarded, known], ?_⟩
    rw [Rule.allowance, if_neg guarded]

/-- No phrase nests brackets deeper than the guards that there is room for
allow, two to each, and what it opens in front of them. -/
theorem Builds.weighs {stream : Stream} {way : Way} {phrase : Phrase} {pos after : Nat}
    {frame inner : Frame} {ended : Bool}
    (builds : Builds stream way phrase pos frame ended after inner) {room limit : Nat}
    {inArray : Bool} (known : way.room = some room)
    (bounded : phrase.bounded inArray limit = true)
    (weighs : frame.All (Node.Weighs inArray (2 * room + limit))) :
    inner.All (Node.Weighs inArray (2 * room + limit)) := by
  induction builds generalizing room limit inArray with
  | done | token | mark | rekind | loopEnds | salvage => exact weighs
  | seq _ _ firstIh secondIh =>
      obtain ⟨first, second⟩ := Bool.and_eq_true_iff.mp bounded
      exact secondIh known second (firstIh known first weighs)
  | seqEnded _ ih => exact ih known (Bool.and_eq_true_iff.mp bounded).1 weighs
  | @leaf way kind | @pick way kind =>
      have isOpen : kind.isBracketed = false := by simpa [Phrase.bounded] using bounded
      exact weighs.push (.of_leaf rfl isOpen)
  | operator => exact weighs.push (.of_leaf rfl rfl)
  | @node way kind body pos frame ended after inner bodyBuilds ih =>
      simp only [Phrase.bounded, Bool.and_eq_true, decide_eq_true_eq, Bool.or_eq_true,
        List.all_eq_true, Bool.not_eq_true', List.isEmpty_iff, bne_iff_ne] at bounded
      obtain ⟨⟨⟨fits, stays⟩, named⟩, bodyBounded⟩ := bounded
      have filled := ih known bodyBounded Frame.All.nil
      exact weighs.push (Frame.weighs_toNode filled bodyBuilds.kind stays named (by omega) _)
  | @wrap way kind body pos frame first others ended after inner parts bodyBuilds ih =>
      simp only [Phrase.bounded, Bool.and_eq_true, Bool.not_eq_true', List.all_eq_true] at bounded
      obtain ⟨⟨⟨rfl, isOpen⟩, stays⟩, bodyBounded⟩ := bounded
      obtain ⟨firstWeighs, kept⟩ := weighs.take parts
      have filled := ih known bodyBounded (List.forall_mem_singleton.mpr firstWeighs)
      exact kept.push (Frame.weighs_toNode_open filled bodyBuilds.kind isOpen stays _)
  | @reopen way kind body pos frame head others ended after inner parts bodyBuilds ih =>
      simp only [Phrase.bounded, Bool.and_eq_true, Bool.not_eq_true', List.all_eq_true] at bounded
      obtain ⟨⟨⟨rfl, isOpen⟩, stays⟩, bodyBounded⟩ := bounded
      obtain ⟨headWeighs, kept⟩ := weighs.take parts
      have filled := ih known bodyBounded fun child member =>
        headWeighs.child (List.mem_reverse.mp member)
      exact kept.push (Frame.weighs_toNode_open filled bodyBuilds.kind isOpen stays _)
  | @cover way kind body pos frame ended after inner bodyBuilds ih =>
      simp only [Phrase.bounded, Bool.and_eq_true, Bool.not_eq_true', List.all_eq_true] at bounded
      obtain ⟨⟨⟨rfl, isOpen⟩, stays⟩, bodyBounded⟩ := bounded
      have filled := ih known bodyBounded Frame.All.nil
      exact weighs.push (Frame.weighs_toNode_open filled bodyBuilds.kind isOpen stays _)
  | @branch _ _ _ _ _ _ _ _ _ chosen _ _ ih | @trial _ _ _ _ _ _ _ _ _ chosen _ ih =>
      obtain ⟨yes, no⟩ := Bool.and_eq_true_iff.mp bounded
      cases chosen with
      | true => exact ih known yes weighs
      | false => exact ih known no weighs
  | @call way rule pos frame ended after inner admits bodyBuilds ih =>
      obtain ⟨left, inRule, same⟩ := Way.inside_room known admits
      have filled := ih inRule rule.body_bounded Frame.All.nil
      refine weighs.pushAll fun part member => ?_
      have fits := of_decide_eq_true bounded
      exact (same ▸ filled part member).mono (by omega)
  | recover _ ih => exact ih known bounded weighs
  | skip skips =>
      exact weighs.push (.of_leaf skips.children (by rw [skips.kind]; rfl))
  | orElse _ ih => exact ih known (Bool.and_eq_true_iff.mp bounded).1 weighs
  | otherwise _ _ ih => exact ih known (Bool.and_eq_true_iff.mp bounded).2 weighs
  | loop _ _ ih => exact ih known (Bool.and_eq_true_iff.mpr ⟨bounded, bounded⟩) weighs
  | documented _ ih =>
      exact (ih known bounded weighs).document fun _ doc bound => bound.document doc
  | documentedEnded _ ih => exact ih known bounded weighs
  | closing _ ih => exact ih known rfl weighs
  | missing _ marks | salvageMarked _ marks =>
      exact weighs.push (.of_leaf marks.children (by rw [marks.kind]; rfl))

/-- A rule nests brackets no deeper than the guards that there is room for
allow, two to each. -/
theorem RuleBuilds.weighs {stream : Stream} {rule : Rule} {way : Way} {pos after : Nat}
    {parts : List Node} (builds : RuleBuilds stream rule way pos parts after) {room : Nat}
    (known : way.room = some room) :
    ∀ part ∈ parts, part.Weighs rule.isElement (2 * room + rule.excess) := by
  obtain ⟨admits, ended, inner, rfl, builds⟩ := builds
  obtain ⟨left, inRule, same⟩ := Way.inside_room known admits
  exact same ▸ builds.weighs inRule rule.body_bounded
    Frame.All.nil

end Parser

namespace Source

open JavaFront.Parser

/-- Without the memo table, two brackets at most are nested for every level of
the limit, the arrays of element values in others apart. -/
theorem parse_weighs (source : Source) (entry : Entry) (options : Options)
    (bare : options.memo = false) {tree : Node}
    (built : (source.parse entry options).tree = some tree) :
    tree.Weighs false (2 * options.maxDepth.toNat) := by
  obtain ⟨others, after, builds⟩ :=
    source.parse_builds entry options true built fun _ => rfl
  have room : ((Setup.ofSource source options).way true
      (Setup.ofSource source options).initial).room = some options.maxDepth.toNat := by
    have notKept : (Setup.ofSource source options).options.memo = false := bare
    rw [Setup.way, notKept]
    rfl
  have weighs := builds.weighs room tree List.mem_cons_self
  cases entry <;> exact weighs

/-- A text without errors has one tree, whatever the limits and whether the memo
table is in use. -/
theorem tree_eq_of_clean (source : Source) (entry : Entry) {options others : Options}
    (clean : (source.parse entry options).hasErrors = false)
    (otherClean : (source.parse entry others).hasErrors = false) :
    (source.parse entry options).tree = (source.parse entry others).tree := by
  obtain ⟨-, calm, -, tree⟩ := parse_of_clean clean
  obtain ⟨-, otherCalm, -, otherTree⟩ := parse_of_clean otherClean
  have ordered := Stream.ofSource_ordered source
  have first := ((Setup.ofSource source options).reply_faithful ordered calm).reads
  have second := ((Setup.ofSource source others).reply_faithful ordered otherCalm).reads
  rw [tree, otherTree, Setup.node?, Setup.node?, (first.unique second).1]

/-- The limit on the depth bounds how deep brackets nest, but for arrays of
element values that stand directly in one another. On every path of a tree
without errors there are two brackets at most for every level, such arrays
apart. With the memo table, what it keeps is not entered again, so that the
levels are those that a parse without it takes. -/
theorem parse_brackets (source : Source) (entry : Entry) (options : Options)
    (clean : (source.parse entry options).hasErrors = false)
    (bareClean : (source.parse entry { options with memo := false }).hasErrors = false)
    {tree : Node} (built : (source.parse entry options).tree = some tree) {path : List Node}
    (leads : tree.Leads path) : path.countP (·.kind.isBracketed) ≤
      2 * options.maxDepth.toNat + nestedArrays path := by
  have sameTree := source.tree_eq_of_clean entry clean bareClean
  have weighs := source.parse_weighs entry { options with memo := false } rfl
    (sameTree.symm.trans built) path leads
  simpa using weighs

/-- Two annotations, one inside of an array in the other, with an array in an
array in each of them. -/
theorem parse_brackets_annotations :
    ∃ tree path, ((of [] "@A(\x7b\x7b@B(\x7b\x7b\x7d\x7d)\x7d\x7d) class C \x7b\x7d").parse .unit
        { maxDepth := 3 }).tree = some tree ∧ tree.Leads path ∧ nestedArrays path = 2 ∧
      path.countP (·.kind.isBracketed) = 6 ∧
      path.countP (·.kind.isBracketed) ≤ 2 * Int.toNat 3 + nestedArrays path := by
  let source := of [] "@A(\x7b\x7b@B(\x7b\x7b\x7d\x7d)\x7d\x7d) class C \x7b\x7d"
  let steps := [0, 0, 0, 1, 0, 0, 1, 0]
  have found : (source.parse .unit { maxDepth := 3 }).tree.map (fun tree =>
      ((tree.at? steps).any (·.children.isEmpty), nestedArrays (tree.along steps),
        (tree.along steps).countP (·.kind.isBracketed))) = some (true, 2, 6) := by
    decide +kernel
  obtain ⟨tree, built, same⟩ := Option.map_eq_some_iff.mp found
  simp only [Prod.mk.injEq] at same
  obtain ⟨ends, nested, brackets⟩ := same
  obtain ⟨leaf, isLeaf, childless⟩ := (Option.any_eq_true _ _).mp ends
  have leads := Node.leads_along isLeaf (List.isEmpty_iff.mp childless)
  exact ⟨tree, tree.along steps, built, leads, nested, brackets,
    parse_brackets source .unit { maxDepth := 3 } (by decide +kernel) (by decide +kernel) built
      leads⟩

/-- Arrays of element values in one another are no deeper nested than one. -/
theorem parse_overnests :
    ∃ tree path, ((of [] "@A(\x7b\x7b\x7b\x7b\x7d\x7d\x7d\x7d) class B \x7b\x7d").parse .unit
        { maxDepth := 2 }).hasErrors = false ∧
      ((of [] "@A(\x7b\x7b\x7b\x7b\x7d\x7d\x7d\x7d) class B \x7b\x7d").parse .unit
        { maxDepth := 2 }).tree = some tree ∧ tree.Leads path ∧
      2 * 2 < path.countP (·.kind.isBracketed) := by
  let source := of [] "@A(\x7b\x7b\x7b\x7b\x7d\x7d\x7d\x7d) class B \x7b\x7d"
  let steps := [0, 0, 0, 1, 0, 0, 0]
  have found : (source.parse .unit { maxDepth := 2 }).tree.map (fun tree =>
      ((tree.at? steps).any (·.children.isEmpty),
        (tree.along steps).countP (·.kind.isBracketed))) = some (true, 5) := by
    decide +kernel
  obtain ⟨tree, built, same⟩ := Option.map_eq_some_iff.mp found
  simp only [Prod.mk.injEq] at same
  obtain ⟨ends, brackets⟩ := same
  obtain ⟨leaf, isLeaf, childless⟩ := (Option.any_eq_true _ _).mp ends
  have leads := Node.leads_along isLeaf (List.isEmpty_iff.mp childless)
  exact ⟨tree, tree.along steps, by decide +kernel, built, leads, by rw [brackets]; decide⟩

end Source

end JavaFront
