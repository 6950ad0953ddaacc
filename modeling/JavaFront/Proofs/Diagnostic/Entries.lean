import JavaFront.Diagnostic.Ledger
import Mathlib.Data.List.Basic

/-!
# Entries in order

The keys of a ledger are in a strict total order, and putting an entry at its
place or removing one leaves entries in order. In entries in order, those of one
file stand together, so a search from the pivot of a file finds them all and no
others, unless an offset is out of reach.
-/

namespace JavaFront.Ledger

/-! ## Keys -/

namespace Key

variable {first second third : Key}

theorem before_iff : first.before second ↔
    first.file < second.file ∨ first.file = second.file ∧
      (first.offset < second.offset ∨ first.offset = second.offset ∧
        first.number < second.number) := by
  simp only [before]
  split
  · rename_i sameFile
    split <;> simp_all [List.lt_irrefl]
  · simp_all

theorem before_irrefl (key : Key) : ¬ key.before key := by
  simp [before]

theorem before_trans (ahead : first.before second) (behind : second.before third) :
    first.before third := by
  rw [before_iff] at ahead behind ⊢
  rcases ahead with fileAhead | ⟨sameFile, ahead⟩
  · rcases behind with fileBehind | ⟨sameFile, -⟩
    · exact .inl (List.lt_trans fileAhead fileBehind)
    · exact .inl (sameFile ▸ fileAhead)
  · rcases behind with fileBehind | ⟨sameBehind, behind⟩
    · exact .inl (sameFile ▸ fileBehind)
    · exact .inr ⟨sameFile.trans sameBehind, by omega⟩

/-- Of two keys one stands before the other, unless they are the same. -/
theorem before_total (first second : Key) :
    first.before second ∨ first = second ∨ second.before first := by
  obtain ⟨firstFile, firstOffset, firstNumber⟩ := first
  obtain ⟨secondFile, secondOffset, secondNumber⟩ := second
  simp only [before_iff, mk.injEq]
  rcases Std.lt_trichotomy firstFile secondFile with ahead | rfl | behind
  · exact .inl (.inl ahead)
  · simp only [true_and, List.lt_irrefl, false_or]
    omega
  · exact .inr (.inr (.inl behind))

/-- A key that stands before another one is of the same file or of one before. -/
theorem file_le (ahead : first.before second) : first.file ≤ second.file := by
  rcases before_iff.mp ahead with fileAhead | ⟨sameFile, -⟩
  · exact List.le_of_lt fileAhead
  · exact sameFile ▸ List.le_refl _

end Key

/-! ## Entries -/

/-- The entries stand in the order of their keys, each key once. -/
def Sorted (entries : List Entry) : Prop :=
  entries.Pairwise fun first second => first.key.before second.key

section Sorted

variable {entries : List Entry} {entry other : Entry} {file : Bytes}

theorem mem_insert (member : other ∈ insert entry entries) : other = entry ∨ other ∈ entries := by
  induction entries with
  | nil => simpa [insert] using member
  | cons head entries ih =>
      simp only [insert] at member
      split at member
      · rcases List.mem_cons.mp member with rfl | later
        · exact .inr List.mem_cons_self
        · exact (ih later).imp id (List.mem_cons_of_mem _)
      · split at member
        · exact List.mem_cons.mp member
        · exact (List.mem_cons.mp member).imp id (List.mem_cons_of_mem _)

theorem Sorted.insert (sorted : Sorted entries) (entry : Entry) :
    Sorted (Ledger.insert entry entries) := by
  induction entries with
  | nil => simp [Sorted, Ledger.insert]
  | cons head entries ih =>
      obtain ⟨ahead, rest⟩ := List.pairwise_cons.mp sorted
      simp only [Ledger.insert]
      split
      · rename_i first
        refine List.pairwise_cons.mpr ⟨fun other member => ?_, ih rest⟩
        rcases mem_insert member with rfl | later
        · exact first
        · exact ahead other later
      · rename_i notFirst
        split
        · rename_i last
          refine List.pairwise_cons.mpr ⟨fun other member => ?_, sorted⟩
          rcases List.mem_cons.mp member with rfl | later
          · exact last
          · exact Key.before_trans last (ahead other later)
        · rename_i notLast
          -- the new entry takes the place of one with the same key
          have sameKey : head.key = entry.key := by
            rcases Key.before_total head.key entry.key with before | same | behind
            · exact absurd before notFirst
            · exact same
            · exact absurd behind notLast
          exact List.pairwise_cons.mpr ⟨fun other later => sameKey ▸ ahead other later, rest⟩

theorem Sorted.filter (sorted : Sorted entries) (keep : Entry → Bool) :
    Sorted (entries.filter keep) :=
  sorted.sublist List.filter_sublist

/-- Entries in order are the same if they are the same entries. -/
theorem Sorted.eq_of_mem_iff {others : List Entry} (sorted : Sorted entries)
    (otherSorted : Sorted others) (same : ∀ entry, entry ∈ entries ↔ entry ∈ others) :
    entries = others := by
  have distinct : ∀ {entries : List Entry}, Sorted entries → entries.Nodup := by
    intro entries sorted
    refine List.Pairwise.imp (fun {first second} before same => ?_) sorted
    exact Key.before_irrefl second.key (same ▸ before)
  refine List.Perm.eq_of_pairwise (fun first second _ _ ahead behind => ?_) sorted otherSorted
    ((List.perm_ext_iff_of_nodup (distinct sorted) (distinct otherSorted)).mpr same)
  exact absurd (Key.before_trans ahead behind) (Key.before_irrefl _)

/-- Where an entry is put among entries in order: behind those that stand before
it, and in front of those that stand behind it. -/
theorem Sorted.exists_insert (sorted : Sorted entries)
    (new : ∀ other ∈ entries, other.key ≠ entry.key) :
    ∃ ahead behind, entries = ahead ++ behind ∧
      Ledger.insert entry entries = ahead ++ entry :: behind ∧
      (∀ other ∈ ahead, other.key.before entry.key) ∧
      ∀ other ∈ behind, entry.key.before other.key := by
  induction entries with
  | nil => exact ⟨[], [], rfl, rfl, by simp, by simp⟩
  | cons head entries ih =>
      obtain ⟨headAhead, rest⟩ := List.pairwise_cons.mp sorted
      rcases Key.before_total head.key entry.key with before | same | behind
      · obtain ⟨ahead, later, rfl, inserted, aheads, behinds⟩ :=
          ih rest fun other member => new other (List.mem_cons_of_mem _ member)
        refine ⟨head :: ahead, later, rfl, ?_, ?_, behinds⟩
        · simp only [Ledger.insert, before, if_true, inserted, List.cons_append]
        · intro other member
          rcases List.mem_cons.mp member with rfl | member
          · exact before
          · exact aheads other member
      · exact absurd same (new head List.mem_cons_self)
      · have notFirst : ¬ head.key.before entry.key := fun before =>
          Key.before_irrefl _ (Key.before_trans before behind)
        refine ⟨[], head :: entries, rfl, ?_, by simp, ?_⟩
        · simp only [Ledger.insert, if_neg notFirst, if_pos behind, List.nil_append]
        · intro other member
          rcases List.mem_cons.mp member with rfl | later
          · exact behind
          · exact Key.before_trans behind (headAhead other later)

/-! ## Searching -/

/-- No entry has an offset out of reach of a search. -/
def InReach (entries : List Entry) : Prop :=
  ∀ entry ∈ entries, (pivot entry.file).offset ≤ entry.offset

/-- An entry that does not stand before the pivot of its file is in reach. -/
theorem not_before_pivot (reach : (pivot entry.file).offset ≤ entry.offset) :
    ¬ entry.key.before (pivot entry.file) := by
  intro before
  rcases Key.before_iff.mp before with smaller | ⟨-, less | ⟨-, less⟩⟩
  · exact List.lt_irrefl _ smaller
  · exact Int.not_lt.mpr reach less
  · exact Nat.not_lt_zero _ less

/-- Behind an entry that does not stand before a key, none does. -/
theorem ascend_eq_self {key : Key} (sorted : Sorted (entry :: entries))
    (reached : ¬ entry.key.before key) : ascend key entries = entries := by
  cases entries with
  | nil => rfl
  | cons next entries =>
      have ahead : entry.key.before next.key := List.rel_of_pairwise_cons sorted List.mem_cons_self
      exact List.dropWhile_cons_of_neg fun before => reached (Key.before_trans ahead before)

/-- A search finds the entries of a file, no more and no less. -/
theorem scan_eq_filter (sorted : Sorted entries) (reach : InReach entries) (file : Bytes) :
    scan file entries = entries.filter fun entry => entry.file = file := by
  induction entries with
  | nil => rfl
  | cons head entries ih =>
      have inner := ih sorted.of_cons fun entry member =>
        reach entry (List.mem_cons_of_mem _ member)
      have headReach := not_before_pivot (reach head List.mem_cons_self)
      by_cases before : head.key.before (pivot file) = true
      · have otherFile : head.file ≠ file := fun same => headReach (same ▸ before)
        have skips : ascend (pivot file) (head :: entries) = ascend (pivot file) entries :=
          List.dropWhile_cons_of_pos before
        rw [List.filter_cons_of_neg (by simpa using otherFile), ← inner, scan, scan, skips]
      · have starts : ascend (pivot file) (head :: entries) = head :: entries :=
          List.dropWhile_cons_of_neg before
        by_cases sameFile : head.file = file
        · rw [List.filter_cons_of_pos (by simpa using sameFile), ← inner, scan, starts,
            List.takeWhile_cons_of_pos (by simpa using sameFile), scan,
            ascend_eq_self sorted before]
        · rw [List.filter_cons_of_neg (by simpa using sameFile), scan, starts,
            List.takeWhile_cons_of_neg (by simpa using sameFile)]
          -- the head is of a file behind, and so is all that follows it
          have headBehind : file < head.file := by
            rcases Std.lt_trichotomy head.file file with less | same | more
            · exact absurd (Key.before_iff.mpr (.inl less)) before
            · exact absurd same sameFile
            · exact more
          refine (List.filter_eq_nil_iff.mpr fun entry member => ?_).symm
          have behind : head.file ≤ entry.file :=
            Key.file_le (List.rel_of_pairwise_cons sorted member)
          intro isOf
          have same : entry.file = file := by simpa using isOf
          exact List.not_lt.mpr behind (same ▸ headBehind)

/-- Removing entries by their keys leaves those with other keys. -/
theorem foldl_remove (stale : List Entry) (entries : List Entry) :
    stale.foldl (fun entries old => remove entries old.key) entries =
      entries.filter fun entry => !stale.any fun old => entry.key = old.key := by
  induction stale generalizing entries with
  | nil => simp
  | cons old stale ih =>
      rw [List.foldl_cons, ih, remove, List.filter_filter]
      refine List.filter_congr fun entry _ => ?_
      by_cases same : entry.key = old.key <;> simp [same]

/-- Forgetting a file leaves the entries of the other files. -/
theorem clear_entries {ledger : Ledger} (sorted : Sorted ledger.entries)
    (reach : InReach ledger.entries) (file : Bytes) :
    (ledger.clear file).entries = ledger.entries.filter fun entry => entry.file ≠ file := by
  simp only [clear, foldl_remove, scan_eq_filter sorted reach]
  refine List.filter_congr fun entry member => ?_
  by_cases same : entry.file = file
  · have found : (ledger.entries.filter fun entry => entry.file = file).any
        (fun old => entry.key = old.key) = true :=
      List.any_eq_true.mpr ⟨entry, by simpa using ⟨member, same⟩, by simp⟩
    simp [found, same]
  · have notFound : (ledger.entries.filter fun entry => entry.file = file).any
        (fun old => entry.key = old.key) = false := by
      refine List.any_eq_false.mpr fun old stale sameKey => same ?_
      have keys : entry.key = old.key := by simpa using sameKey
      have isOf : old.file = file := by simpa using (List.mem_filter.mp stale).2
      exact (congrArg Key.file keys).trans isOf
    simp [notFound, same]

end Sorted

end JavaFront.Ledger
