import JavaFront.Diagnostic
import Mathlib.Data.List.Basic

/-!
# Diagnostics by offset

Diagnostics are shown in the order of the offsets they start at, and those that
start at one offset in the order in which they were reported. There is only one
such order: it is fixed by what starts at each offset.
-/

namespace JavaFront.Diagnostic

/-- The offset at which a diagnostic starts. -/
def offset (diagnostic : Diagnostic) : Int :=
  diagnostic.start.offset

/-- The first diagnostic does not start behind the second one. -/
def notBehind (first second : Diagnostic) : Bool :=
  first.offset ≤ second.offset

/-- Diagnostics by offset. Those at one offset stay in the order they are in. -/
def arranged (diagnostics : List Diagnostic) : List Diagnostic :=
  diagnostics.mergeSort notBehind

/-- The diagnostics that start at one offset. -/
def startingAt (offset : Int) (diagnostics : List Diagnostic) : List Diagnostic :=
  diagnostics.filter fun diagnostic => diagnostic.offset = offset

theorem notBehind_trans (first second third : Diagnostic) (before : notBehind first second)
    (behind : notBehind second third) : notBehind first third := by
  simp only [notBehind, decide_eq_true_eq] at *
  exact Int.le_trans before behind

theorem notBehind_total (first second : Diagnostic) :
    (notBehind first second || notBehind second first) = true := by
  simpa [notBehind] using Int.le_total first.offset second.offset

theorem arranged_sorted (diagnostics : List Diagnostic) :
    (arranged diagnostics).Pairwise (notBehind · ·) :=
  List.pairwise_mergeSort notBehind_trans notBehind_total diagnostics

@[simp]
theorem arranged_eq_nil_iff {diagnostics : List Diagnostic} :
    arranged diagnostics = [] ↔ diagnostics = [] := by
  rw [← List.length_eq_zero_iff, ← List.length_eq_zero_iff, arranged, List.length_mergeSort]

/-- What starts at one offset keeps its order. -/
theorem startingAt_arranged (offset : Int) (diagnostics : List Diagnostic) :
    startingAt offset (arranged diagnostics) = startingAt offset diagnostics := by
  have level : (startingAt offset diagnostics).Pairwise (notBehind · ·) := by
    refine List.pairwise_of_forall_mem_list ?_
    intro first inFirst second inSecond
    simp only [startingAt, List.mem_filter, decide_eq_true_eq] at inFirst inSecond
    simp [notBehind, inFirst.2, inSecond.2]
  have kept : (startingAt offset diagnostics).Sublist (arranged diagnostics) :=
    List.sublist_mergeSort notBehind_trans notBehind_total level List.filter_sublist
  have inside := kept.filter fun diagnostic => diagnostic.offset = offset
  have permuted := (List.mergeSort_perm diagnostics notBehind).filter
    fun diagnostic => diagnostic.offset = offset
  simp only [startingAt, List.filter_filter, Bool.and_self] at inside ⊢
  exact (inside.eq_of_length permuted.length_eq.symm).symm

theorem mem_startingAt {diagnostic : Diagnostic} {offset : Int} {diagnostics : List Diagnostic} :
    diagnostic ∈ startingAt offset diagnostics ↔
      diagnostic ∈ diagnostics ∧ diagnostic.offset = offset := by
  simp [startingAt]

theorem startingAt_cons (offset : Int) (head : Diagnostic) (diagnostics : List Diagnostic) :
    startingAt offset (head :: diagnostics) =
      if head.offset = offset then head :: startingAt offset diagnostics
      else startingAt offset diagnostics := by
  simp [startingAt, List.filter_cons]

/-- The head of a list by offset does not start behind anything that starts
where something in the list does. -/
theorem head_offset_le {head other : Diagnostic} {first second : List Diagnostic}
    (sorted : (head :: first).Pairwise (notBehind · ·))
    (same : ∀ offset, startingAt offset (head :: first) = startingAt offset second)
    (member : other ∈ second) : head.offset ≤ other.offset := by
  have inFirst : other ∈ startingAt other.offset (head :: first) := by
    rw [same]
    exact mem_startingAt.mpr ⟨member, rfl⟩
  rcases List.mem_cons.mp (mem_startingAt.mp inFirst).1 with rfl | later
  · exact Int.le_refl _
  · simpa [notBehind] using List.rel_of_pairwise_cons sorted later

/-- Two lists by offset are the same if they have the same at every offset. -/
theorem eq_of_startingAt {first second : List Diagnostic}
    (firstSorted : first.Pairwise (notBehind · ·)) (secondSorted : second.Pairwise (notBehind · ·))
    (same : ∀ offset, startingAt offset first = startingAt offset second) : first = second := by
  induction first generalizing second with
  | nil =>
      cases second with
      | nil => rfl
      | cons other second => simpa [startingAt] using same other.offset
  | cons head first ih =>
      cases second with
      | nil => simpa [startingAt] using same head.offset
      | cons other second =>
          -- neither head starts behind the other, so both are the first of one offset
          have forth := head_offset_le firstSorted same List.mem_cons_self
          have back := head_offset_le secondSorted (fun offset => (same offset).symm)
            List.mem_cons_self
          have heads := same head.offset
          rw [startingAt_cons, startingAt_cons, if_pos rfl, if_pos (Int.le_antisymm back forth)]
            at heads
          obtain ⟨rfl, -⟩ := List.cons.inj heads
          refine congrArg (head :: ·) (ih firstSorted.of_cons secondSorted.of_cons ?_)
          intro offset
          have rest := same offset
          rw [startingAt_cons, startingAt_cons] at rest
          split at rest
          · exact List.tail_eq_of_cons_eq rest
          · exact rest

/-- A list by offset is the arrangement of every list that has the same at every
offset. -/
theorem eq_arranged {first second : List Diagnostic} (sorted : first.Pairwise (notBehind · ·))
    (same : ∀ offset, startingAt offset first = startingAt offset second) :
    first = arranged second :=
  eq_of_startingAt sorted (arranged_sorted second) fun offset =>
    (same offset).trans (startingAt_arranged offset second).symm

end JavaFront.Diagnostic
