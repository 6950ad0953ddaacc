import JavaFront.Proofs.Parser.Furthest
import JavaFront.Proofs.Parser.MemoTable
import JavaFront.Proofs.Parser.Persistence

/-!
# Failures on their own and together

A rule behind the memo table records its failures on its own, and they are
merged with those that were met before it. That tells the same as recording them
one after another, in the same order, however often it is done and however deep
it is nested: merging is associative, and having met no failure is its identity.

The identity needs a failure that tells no text twice and whose place is not in
front of the one that stands for no failure. All failures of a parse are so.
-/

namespace JavaFront

namespace Failure

/-- A failure as a parse has it: its place is a token index or minus one, and it
tells no text twice. -/
structure Regular (failure : Failure) : Prop where
  place : -1 ≤ failure.pos
  nodup : failure.expected.Nodup

/-- Records failures one after another, each a text at an index. -/
def recordEach (failure : Failure) (events : List (Nat × String)) : Failure :=
  events.foldl (fun failure event => failure.record event.1 event.2) failure

theorem nodup_foldl_addText {texts : List String} (nodup : texts.Nodup) (more : List String) :
    (more.foldl addText texts).Nodup := by
  induction more generalizing texts with
  | nil => exact nodup
  | cons text more ih => exact ih (nodup_addText nodup text)

/-- Texts that are all different and all new are added in their order. -/
theorem foldl_addText_of_disjoint {texts more : List String} (nodup : more.Nodup)
    (new : ∀ text ∈ more, text ∉ texts) : more.foldl addText texts = texts ++ more := by
  induction more generalizing texts with
  | nil => exact (List.append_nil texts).symm
  | cons text more ih =>
      obtain ⟨fresh, others⟩ := List.forall_mem_cons.mp new
      obtain ⟨once, rest⟩ := List.nodup_cons.mp nodup
      rw [List.foldl_cons, addText_of_not_mem fresh, ih rest, List.append_assoc]
      · rfl
      · intro other member
        rw [List.mem_append, List.mem_singleton, not_or]
        exact ⟨others other member, fun same => once (same ▸ member)⟩

namespace Regular

variable {failure other : Failure}

theorem none : Regular .none :=
  ⟨Int.le_refl _, List.nodup_nil⟩

theorem merge (regular : failure.Regular) (behind : other.Regular) :
    (failure.merge other).Regular := by
  rcases Int.lt_trichotomy failure.pos other.pos with further | level | before
  · rwa [merge_of_lt further]
  · rw [merge_of_eq level]
    exact ⟨regular.place, nodup_foldl_addText regular.nodup _⟩
  · rwa [merge_of_gt before]

theorem record (regular : failure.Regular) (pos : Nat) (text : String) :
    (failure.record pos text).Regular := by
  rw [record_eq_merge]
  have place : (-1 : Int) ≤ pos := Int.le_trans (by decide) (Int.natCast_nonneg pos)
  exact regular.merge ⟨place, List.nodup_singleton text⟩

theorem recordEach (regular : failure.Regular) (events : List (Nat × String)) :
    (failure.recordEach events).Regular := by
  simp only [Failure.recordEach]
  induction events generalizing failure with
  | nil => exact regular
  | cons event events ih => exact ih (regular.record event.1 event.2)

theorem merge_none (regular : failure.Regular) : failure.merge .none = failure := by
  rcases Int.lt_or_eq_of_le regular.place with met | same
  · exact merge_of_gt met
  · exact merge_of_eq same.symm

theorem none_merge (regular : failure.Regular) : Failure.none.merge failure = failure := by
  rcases Int.lt_or_eq_of_le regular.place with met | same
  · exact merge_of_lt met
  · have all := foldl_addText_of_disjoint regular.nodup fun text _ => List.not_mem_nil
    rw [merge_of_eq (show Failure.none.pos = failure.pos from same)]
    exact congr (congrArg Failure.mk same) all

end Regular

/-- What is recorded behind two merged failures is recorded behind the second. -/
theorem merge_recordEach (first second : Failure) (events : List (Nat × String)) :
    first.merge (second.recordEach events) = (first.merge second).recordEach events := by
  simp only [recordEach]
  induction events generalizing second with
  | nil => rfl
  | cons event events ih => rw [List.foldl_cons, ih, merge_record, List.foldl_cons]

/-- To record failures one after another is to record them on their own and to
merge them then, and merging is associative with having met no failure as its
identity, among the failures that a parse can have. A failure in front of minus
one is left out: no failure state of a parse stands there, and having met no
failure would take its place when merged with it. -/
theorem recordEach_eq_merge {failure : Failure} (regular : failure.Regular) :
    (∀ events, failure.recordEach events = failure.merge (none.recordEach events) ∧
      (failure.recordEach events).Regular) ∧
    none.merge failure = failure ∧ failure.merge none = failure ∧
    ∀ second, second.Regular → (failure.merge second).Regular ∧
      ∀ third, third.Regular →
        (failure.merge second).merge third = failure.merge (second.merge third) := by
  refine ⟨fun events => ⟨?_, regular.recordEach events⟩, regular.none_merge, regular.merge_none,
    fun second behind => ⟨regular.merge behind, fun third _ => merge_assoc failure second third⟩⟩
  calc
    failure.recordEach events = (failure.merge none).recordEach events := by
      rw [regular.merge_none]
    _ = failure.merge (none.recordEach events) := (merge_recordEach failure none events).symm

/-- What is told again at the furthest place is told once, and what was met in
front of it is forgotten. -/
theorem recordEach_eq_merge_repeated :
    Regular ⟨2, ["identifier", "','"]⟩ ∧
      none.recordEach [(1, "type"), (2, "')'"), (2, "identifier"), (2, "')'")] =
        ⟨2, ["')'", "identifier"]⟩ ∧
      recordEach ⟨2, ["identifier", "','"]⟩
          [(1, "type"), (2, "')'"), (2, "identifier"), (2, "')'")] =
        merge ⟨2, ["identifier", "','"]⟩ ⟨2, ["')'", "identifier"]⟩ ∧
      merge ⟨2, ["identifier", "','"]⟩ ⟨2, ["')'", "identifier"]⟩ =
        ⟨2, ["identifier", "','", "')'"]⟩ := by
  have regular : Regular ⟨2, ["identifier", "','"]⟩ := ⟨by decide, by decide⟩
  have alone : none.recordEach [(1, "type"), (2, "')'"), (2, "identifier"), (2, "')'")] =
      ⟨2, ["')'", "identifier"]⟩ := by
    decide
  have together := ((recordEach_eq_merge regular).1
    [(1, "type"), (2, "')'"), (2, "identifier"), (2, "')'")]).1
  rw [alone] at together
  exact ⟨regular, alone, together, by decide⟩

end Failure

/-! ## The failures of a parse -/

namespace Parser

/-- What has been met of failures is regular, and so is what the table keeps. -/
structure State.IsRegular (state : State) : Prop where
  furthest : state.furthest.Regular
  memo : state.memo.All fun _ outcome => outcome.furthest.Regular

/-- A run meets regular failures only. -/
def MeetsRegular (run : State → Reply) : Prop :=
  ∀ state : State, state.IsRegular → (run state).state.IsRegular

namespace State.IsRegular

variable {setup : Setup} {state : State} {run : State → Reply}

theorem isolated (regular : state.IsRegular) : IsRegular { state with furthest := .none } :=
  ⟨.none, regular.memo⟩

theorem failAll (regular : state.IsRegular) (texts : List String) :
    (state.failAll texts).IsRegular := by
  refine ⟨?_, regular.memo⟩
  simp only [State.failAll, Failure.recordAll]
  have inner := regular.furthest
  generalize state.furthest = failure at inner
  induction texts generalizing failure with
  | nil => exact inner
  | cons text texts ih => exact ih _ (inner.record state.pos text)

theorem report (regular : state.IsRegular) (failure : Failure) :
    (setup.report state failure).IsRegular := by
  simp only [Setup.report]
  generalize (if failure.pos < 0 then state.pos else failure.pos.toNat) = index
  split
  · exact regular
  · exact ⟨regular.furthest, regular.memo⟩

theorem abandon (regular : state.IsRegular) (reason : Abandonment) :
    (setup.abandon state reason).IsRegular := by
  simp only [Setup.abandon]
  split
  · exact regular
  · exact ⟨regular.furthest, regular.memo⟩

theorem enter (regular : state.IsRegular) : (setup.enter state).2.IsRegular := by
  have counted : ∀ steps, IsRegular { state with steps } :=
    fun steps => ⟨regular.furthest, regular.memo⟩
  simp only [Setup.enter]
  split
  · exact regular
  · split
    · exact regular.abandon _
    · split
      · exact (counted _).abandon _
      · exact ⟨regular.furthest, regular.memo⟩

theorem close (regular : state.IsRegular) (kind : Token.Kind) (frame : Frame) :
    (setup.close kind state frame).state.IsRegular := by
  have failed := regular.failAll [kind.describe]
  simp only [Setup.close]
  split
  · exact ⟨regular.furthest, regular.memo⟩
  · split
    · exact failed
    · exact (failed.report _).isolated

theorem salvage (regular : state.IsRegular) (frame : Frame) :
    (setup.salvage state frame).state.IsRegular := by
  simp only [Setup.salvage]
  split
  · exact regular
  · split
    · exact regular
    · split
      · exact regular
      · exact ⟨regular.furthest, regular.memo⟩

theorem trial (meets : MeetsRegular run) (regular : state.IsRegular) :
    (trial run state).2.IsRegular :=
  ⟨regular.furthest,
    (meets { state with speculating := state.speculating + 1 }
      ⟨regular.furthest, regular.memo⟩).memo⟩

theorem recovered (meets : MeetsRegular run) (regular : state.IsRegular) :
    (setup.recovered run state).state.IsRegular := by
  have inner := meets _ regular.isolated
  simp only [Setup.recovered]
  split
  · exact ⟨regular.furthest, inner.memo⟩
  · split
    · exact ⟨regular.furthest.merge inner.furthest, inner.memo⟩
    · exact ⟨regular.furthest, (inner.report _).memo⟩

end State.IsRegular

section Settings

variable {setup : Setup} {call : Caller} {run : State → Reply}

theorem guarded_regular (meets : MeetsRegular run) : MeetsRegular (setup.guarded run) := by
  intro state regular
  have entered : (setup.enter state).2.IsRegular := regular.enter
  simp only [Setup.guarded]
  split
  · rename_i found
    rwa [found] at entered
  · rename_i found
    rw [found] at entered
    have inner := meets _ entered
    exact ⟨inner.furthest, inner.memo⟩

theorem remember_regular (key : Memo.Key) (meets : MeetsRegular run) :
    MeetsRegular (remember key run) := by
  intro state regular
  have inner := meets _ regular.isolated
  have merged := regular.furthest.merge inner.furthest
  simp only [remember]
  split
  · exact ⟨merged, inner.memo⟩
  · exact ⟨merged, .put inner.memo inner.furthest⟩

theorem memoized_regular (slot : Memo.Slot) (meets : MeetsRegular run) :
    MeetsRegular (memoized slot run) := by
  intro state regular
  have looked : State.IsRegular { state with memo := (state.memo.get ⟨slot, state.pos⟩).2 } :=
    ⟨regular.furthest, regular.memo.get _⟩
  have kept : ∀ outcome, (state.memo.get ⟨slot, state.pos⟩).1 = some outcome →
      outcome.furthest.Regular := by
    intro outcome found
    rw [state.memo.get_fst] at found
    exact regular.memo _ outcome found
  simp only [memoized]
  split
  · rename_i found
    exact ⟨regular.furthest.merge (kept _ found), looked.memo⟩
  · rename_i found
    split
    · exact ⟨regular.furthest.merge (kept _ found), looked.memo⟩
    · exact remember_regular _ meets _ looked
  · exact remember_regular _ meets _ looked

theorem run_regular (meets : ∀ rule, MeetsRegular (call rule)) (phrase : Phrase) {state : State}
    (regular : state.IsRegular) (frame : Frame) :
    (setup.run call phrase state frame).state.IsRegular := by
  have relates : setup.Relates call fun before after => before.IsRegular → after.IsRegular :=
    { refl := fun _ => id
      trans := fun first second => second ∘ first
      advance := fun _ inner => ⟨inner.furthest, inner.memo⟩
      operator := fun _ inner => ⟨inner.furthest, inner.memo⟩
      failAll := fun _ texts inner => inner.failAll texts
      close := fun kind _ frame inner => inner.close kind frame
      salvage := fun _ frame inner => inner.salvage frame
      calls := meets
      trials := fun rule _ inner => inner.trial (meets rule)
      recovers := fun rule _ inner => inner.recovered (meets rule) }
  exact setup.run_relates relates phrase state frame regular

/-- Where a parse starts with regular failures, it meets no others. -/
theorem callWith_regular (setup : Setup) (budget : Nat) (rule : Rule) :
    MeetsRegular (setup.callWith budget rule) := by
  induction budget generalizing rule with
  | zero => exact fun _ => id
  | succ budget ih =>
      have body : MeetsRegular (setup.runBody (setup.callWith budget) rule) := by
        intro state regular
        rw [Setup.runBody_state]
        exact run_regular ih _ regular _
      exact setup.runRule_induction body guarded_regular fun _ => memoized_regular _

/-- The first state of a parse has met no failure and kept none. -/
theorem State.IsRegular.initial : IsRegular {} :=
  ⟨.none, .empty⟩

end Settings

end Parser

end JavaFront
