import JavaFront.Text.Bytes
import Mathlib.Data.List.Basic

/-!
# Texts in byte order

Sorting texts puts them in byte order, and leaving out those that repeat the one
before makes the order strict.
-/

namespace JavaFront.Bytes

theorem sort_sorted (texts : List Bytes) : (sort texts).Pairwise (· ≤ ·) := by
  have sorted : (sort texts).Pairwise fun first second => decide (first ≤ second) = true := by
    refine List.pairwise_mergeSort ?_ ?_ texts
    · intro first second third before behind
      simp only [decide_eq_true_eq] at *
      exact List.le_trans before behind
    · intro first second
      simpa using List.le_total first second
  simpa only [decide_eq_true_eq] using sorted

theorem mem_distinct {text : Bytes} (texts : List Bytes) :
    text ∈ distinct texts ↔ text ∈ texts := by
  fun_induction distinct texts with
  | case1 => rfl
  | case2 => rfl
  | case3 second texts ih => simp [ih]
  | case4 first second texts _ ih => simp [ih]

/-- Texts in byte order without repetitions are in strict order. -/
theorem distinct_sorted {texts : List Bytes} (sorted : texts.Pairwise (· ≤ ·)) :
    (distinct texts).Pairwise (· < ·) := by
  fun_induction distinct texts with
  | case1 => exact .nil
  | case2 => exact List.pairwise_singleton _ _
  | case3 second texts ih => exact ih sorted.of_cons
  | case4 first second texts different ih =>
      refine List.pairwise_cons.mpr ⟨fun text member => ?_, ih sorted.of_cons⟩
      have ahead : first ≤ second := List.rel_of_pairwise_cons sorted List.mem_cons_self
      have behind : second ≤ text := by
        rcases List.mem_cons.mp ((mem_distinct _).mp member) with rfl | later
        · exact List.le_refl _
        · exact List.rel_of_pairwise_cons sorted.of_cons later
      have strict : first < second := by
        rcases Std.lt_trichotomy first second with less | same | more
        · exact less
        · exact absurd same different
        · exact absurd more (List.not_lt.mpr ahead)
      exact Std.lt_of_lt_of_le strict behind

end JavaFront.Bytes
