import JavaFront.Proofs.Parser.Reading

/-!
# Sound memo tables

A memo table is sound if every outcome in it is one that its rule reads. What
was looked up or added leaves it sound.
-/

namespace JavaFront

namespace Memo

/-- The rule whose outcomes a slot keeps. -/
def Slot.rule : Slot → Rule
  | .type => .type
  | .typeArguments => .typeArguments
  | .cast => .castHead
  | .lambda => .lambdaHead
  | .localVarHead => .localVarHead
  | .genericRef => .genericRefHead

theorem Slot.rule_of? {rule : Rule} {slot : Slot} (kept : Slot.of? rule = some slot) :
    slot.rule = rule := by
  cases rule <;> cases kept <;> rfl

instance : Std.TransCmp (compare : Key → Key → Ordering) :=
  inferInstanceAs (Std.TransCmp
    (compareLex (compareOn fun key : Key => key.slot.index) (compareOn fun key : Key => key.pos)))

theorem Key.eq_of_compare {first second : Key} (same : compare first second = .eq) :
    first = second := by
  obtain ⟨firstSlot, firstPos⟩ := first
  obtain ⟨secondSlot, secondPos⟩ := second
  change compareLex (compareOn fun key : Key => key.slot.index) (compareOn fun key : Key => key.pos)
    _ _ = .eq at same
  simp only [compareLex, compareOn, Ordering.then_eq_eq, Nat.compare_eq_eq] at same
  obtain ⟨sameIndex, rfl⟩ := same
  have sameSlot : firstSlot = secondSlot := by
    cases firstSlot <;> cases secondSlot <;> first | rfl | cases sameIndex
  rw [sameSlot]

/-- In a text of fewer than 2 ^ 32 bytes every token index is a word of 32 bits, so
that keys made of such words are told apart as well. -/
theorem Key.pos_lt (source : Source) (short : source.size < UInt32.size) {index : Nat}
    (inside : index < (Stream.ofSource source).size) : index < UInt32.size := by
  have few := Stream.size_ofSource_le source
  omega

theorem get_fst (memo : Memo) (key : Key) : (memo.get key).1 = memo.table[key]? := by
  simp only [get]
  split <;> simp_all

theorem get_table (memo : Memo) (key : Key) : (memo.get key).2.table = memo.table := by
  simp only [get]
  split <;> rfl

/-- What holds of every outcome in the table under its key. -/
def All (holds : Key → Outcome → Prop) (memo : Memo) : Prop :=
  ∀ key outcome, memo.table[key]? = some outcome → holds key outcome

namespace All

variable {holds : Key → Outcome → Prop} {memo : Memo}

theorem empty : All holds {} := by
  intro key outcome found
  simp at found

theorem get (all : memo.All holds) (key : Key) : (memo.get key).2.All holds := by
  intro other outcome found
  rw [memo.get_table] at found
  exact all other outcome found

theorem put (all : memo.All holds) {key : Key} {outcome : Outcome} (new : holds key outcome) :
    (memo.put key outcome).All holds := by
  intro other found present
  simp only [Memo.put, Std.TreeMap.getElem?_insert] at present
  split at present
  · rename_i same
    cases present
    rwa [← Key.eq_of_compare same]
  · exact all other found present

end All

end Memo

namespace Parser

/-- A rule reads these parts from an index up to another, or gives up. -/
def RuleReads (stream : Stream) (rule : Rule) (pos : Nat) (parts? : Option (List Node))
    (stop : Nat) : Prop :=
  match parts? with
  | some parts => ∃ inner : Frame, inner.parts = parts ∧
      Reads stream rule.body pos ((Setup.plain stream).frame { pos } .error) (some (stop, inner))
  | none => Reads stream rule.body pos ((Setup.plain stream).frame { pos } .error) none

/-- There is one way to read a rule. -/
theorem RuleReads.unique {stream : Stream} {rule : Rule} {pos : Nat}
    {first? second? : Option (List Node)} {firstStop secondStop : Nat}
    (first : RuleReads stream rule pos first? firstStop)
    (second : RuleReads stream rule pos second? secondStop) :
    first? = second? ∧ (first?.isSome → firstStop = secondStop) := by
  cases first? with
  | some parts =>
      obtain ⟨inner, rfl, reads⟩ := first
      cases second? with
      | some others =>
          obtain ⟨other, rfl, again⟩ := second
          cases reads.unique again
          exact ⟨rfl, fun _ => rfl⟩
      | none => cases reads.unique second
  | none =>
      cases second? with
      | some others =>
          obtain ⟨other, rfl, again⟩ := second
          cases Reads.unique first again
      | none => exact ⟨rfl, by simp⟩

/-- A call reads what its rule reads and takes over the parts. -/
theorem RuleReads.call {stream : Stream} {rule : Rule} {pos stop : Nat}
    {parts? : Option (List Node)} (reads : RuleReads stream rule pos parts? stop) (frame : Frame) :
    Reads stream (.call rule) pos frame
      (parts?.map fun parts => (stop, frame.pushAll parts)) := by
  cases parts? with
  | some parts =>
      obtain ⟨inner, rfl, found⟩ := reads
      exact .call found
  | none => exact .call reads

/-- Every outcome in the memo table is one that its rule reads. -/
def MemoSound (stream : Stream) (memo : Memo) : Prop :=
  memo.All fun key outcome =>
    RuleReads stream key.slot.rule key.pos outcome.parts? outcome.stop

end Parser

end JavaFront
