import Mathlib.Data.List.Nodup
import JavaFront.Parser.Failure

/-!
# Failures one after another

Merging failures is associative, and recording a failure is merging it. So it
makes no difference whether a stretch of a parse records its failures into what
was met before, or on its own and is merged afterwards: the furthest place and
the texts in their order are the same.
-/

namespace JavaFront.Failure

theorem addText_of_mem {texts : List String} {text : String} (member : text ∈ texts) :
    addText texts text = texts := by
  simp [addText, member]

theorem addText_of_not_mem {texts : List String} {text : String} (new : text ∉ texts) :
    addText texts text = texts ++ [text] := by
  simp [addText, new]

theorem mem_addText {texts : List String} {text other : String} :
    other ∈ addText texts text ↔ other ∈ texts ∨ other = text := by
  by_cases member : text ∈ texts
  · rw [addText_of_mem member]
    exact ⟨.inl, fun either => either.elim id fun same => same ▸ member⟩
  · simp [addText_of_not_mem member]

theorem nodup_addText {texts : List String} (nodup : texts.Nodup) (text : String) :
    (addText texts text).Nodup := by
  by_cases member : text ∈ texts
  · rwa [addText_of_mem member]
  · rw [addText_of_not_mem member]
    exact nodup.append (List.nodup_singleton _) (List.disjoint_singleton.mpr member)

theorem mem_foldl_addText {more texts : List String} {text : String} :
    text ∈ more.foldl addText texts ↔ text ∈ texts ∨ text ∈ more := by
  induction more generalizing texts with
  | nil => simp
  | cons first more ih =>
      rw [List.foldl_cons, ih, mem_addText, List.mem_cons, or_assoc]

theorem foldl_addText_addText (first second : List String) (text : String) :
    (addText second text).foldl addText first = addText (second.foldl addText first) text := by
  by_cases member : text ∈ second
  · rw [addText_of_mem member, addText_of_mem (mem_foldl_addText.mpr (.inr member))]
  · rw [addText_of_not_mem member, List.foldl_append]
    rfl

theorem foldl_addText_assoc (first second third : List String) :
    (third.foldl addText second).foldl addText first =
      third.foldl addText (second.foldl addText first) := by
  induction third generalizing second with
  | nil => rfl
  | cons text third ih => rw [List.foldl_cons, ih, foldl_addText_addText, List.foldl_cons]

section Merge

variable {first second : Failure}

theorem merge_of_lt (further : first.pos < second.pos) : first.merge second = second := by
  rw [merge, if_neg (by omega), if_pos further]

theorem merge_of_gt (further : second.pos < first.pos) : first.merge second = first :=
  if_pos further

theorem merge_of_eq (level : first.pos = second.pos) :
    first.merge second = ⟨first.pos, second.expected.foldl addText first.expected⟩ := by
  rw [merge, if_neg (by omega), if_neg (by omega)]

theorem le_pos_merge (first second : Failure) : second.pos ≤ (first.merge second).pos := by
  rcases Int.lt_trichotomy first.pos second.pos with further | level | behind
  · exact Int.le_of_eq (congrArg Failure.pos (merge_of_lt further)).symm
  · rw [merge_of_eq level]
    exact Int.le_of_eq level.symm
  · rw [merge_of_gt behind]
    exact Int.le_of_lt behind

end Merge

theorem merge_assoc (first second third : Failure) :
    (first.merge second).merge third = first.merge (second.merge third) := by
  rcases Int.lt_trichotomy second.pos third.pos with further | level | behind
  · -- the third failure hides the second one on both sides
    rw [merge_of_lt further]
    rcases Int.lt_trichotomy first.pos second.pos with ahead | level | behind
    · rw [merge_of_lt ahead, merge_of_lt further, merge_of_lt (Int.lt_trans ahead further)]
    · rw [merge_of_eq level, merge_of_lt (level ▸ further), merge_of_lt (level ▸ further)]
    · rw [merge_of_gt behind]
  · have merged := merge_of_eq level
    have samePos : (second.merge third).pos = second.pos := by rw [merged]
    rcases Int.lt_trichotomy first.pos second.pos with ahead | same | behind
    · have below : first.pos < (second.merge third).pos := by omega
      rw [merge_of_lt ahead, merge_of_lt below]
    · rw [merge_of_eq same, merge_of_eq (same.trans samePos.symm), merged, foldl_addText_assoc]
      exact merge_of_eq (by dsimp only; omega)
    · have above : third.pos < first.pos := by omega
      have higher : (second.merge third).pos < first.pos := by omega
      rw [merge_of_gt behind, merge_of_gt above, merge_of_gt higher]
  · rw [merge_of_gt behind]
    exact merge_of_gt (Int.lt_of_lt_of_le behind (le_pos_merge first second))

/-- To record a failure is to merge it. -/
theorem record_eq_merge (failure : Failure) (pos : Nat) (text : String) :
    failure.record pos text = failure.merge ⟨pos, [text]⟩ := by
  rcases Int.lt_trichotomy failure.pos pos with ahead | level | behind
  · rw [merge_of_lt ahead, record, if_pos ahead]
  · rw [merge_of_eq level, record, if_neg (by omega), if_pos level]
    rfl
  · rw [merge_of_gt behind, record, if_neg (by omega), if_neg (by omega)]

theorem merge_record (first second : Failure) (pos : Nat) (text : String) :
    first.merge (second.record pos text) = (first.merge second).record pos text := by
  rw [record_eq_merge, record_eq_merge, merge_assoc]

theorem merge_recordAll (first second : Failure) (pos : Nat) (texts : List String) :
    first.merge (second.recordAll pos texts) = (first.merge second).recordAll pos texts := by
  simp only [recordAll]
  induction texts generalizing second with
  | nil => rfl
  | cons text texts ih => rw [List.foldl_cons, ih, merge_record, List.foldl_cons]

end JavaFront.Failure
