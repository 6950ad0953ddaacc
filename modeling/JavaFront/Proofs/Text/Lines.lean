import JavaFront.Text.Bytes
import JavaFront.Proofs.Text.Decimal
import Mathlib.Data.List.Basic

/-!
# Lines and fields

Texts without tabs and line ends can be written as the fields of a line, with
tabs between, and read back from it.
-/

namespace JavaFront.Bytes

/-- What holds of all bytes of the parts and the separator holds of the whole. -/
theorem forall_mem_join {holds : UInt8 → Prop} {separator : Bytes}
    (between : ∀ byte ∈ separator, holds byte) {parts : List Bytes}
    (inside : ∀ part ∈ parts, ∀ byte ∈ part, holds byte) :
    ∀ byte ∈ join separator parts, holds byte := by
  induction parts with
  | nil => exact fun byte member => absurd member List.not_mem_nil
  | cons first parts ih =>
      rw [List.forall_mem_cons] at inside
      cases parts with
      | nil => simpa [join] using inside.1
      | cons second parts =>
          rw [join, List.intercalate_cons_cons]
          exact List.forall_mem_append.mpr
            ⟨List.forall_mem_append.mpr ⟨inside.1, between⟩, ih inside.2⟩

/-- The text holds no tab and nothing that breaks a line. -/
def IsInline (text : Bytes) : Prop :=
  ∀ byte ∈ text, byte < 0x09 ∨ 0x0d < byte

instance (text : Bytes) : Decidable text.IsInline :=
  List.decidableBAll (fun byte => byte < 0x09 ∨ 0x0d < byte) text

namespace IsInline

variable {text other : Bytes}

theorem nil : IsInline [] :=
  fun _ member => absurd member List.not_mem_nil

theorem append (inline : text.IsInline) (behind : other.IsInline) : (text ++ other).IsInline :=
  List.forall_mem_append.mpr ⟨inline, behind⟩

theorem subset (inline : text.IsInline) (inside : other ⊆ text) : other.IsInline :=
  fun byte member => inline byte (inside member)

theorem join {separator : Bytes} (inline : separator.IsInline) {parts : List Bytes}
    (proper : ∀ part ∈ parts, part.IsInline) : (Bytes.join separator parts).IsInline :=
  forall_mem_join inline proper

theorem ofNat (n : Nat) : (Bytes.ofNat n).IsInline := by
  intro byte member
  have digit := isDigit_of_mem_ofNat n byte member
  simp only [isDigit, Bool.and_eq_true, decide_eq_true_eq, UInt8.le_iff_toNat_le] at digit
  right
  rw [UInt8.lt_iff_toNat_lt]
  exact Nat.lt_of_lt_of_le (by decide) digit.1

theorem not_mem (inline : text.IsInline) {byte : UInt8} (tabOrBreak : 0x09 ≤ byte ∧ byte ≤ 0x0d) :
    byte ∉ text := by
  intro member
  have outside := inline byte member
  rw [UInt8.lt_iff_toNat_lt, UInt8.lt_iff_toNat_lt] at outside
  rw [UInt8.le_iff_toNat_le, UInt8.le_iff_toNat_le] at tabOrBreak
  omega

end IsInline

theorem splitOn_eq (separator : UInt8) (text : Bytes) :
    splitOn separator text = List.splitOn separator text := by
  induction text with
  | nil => exact (List.splitOn_nil separator).symm
  | cons byte rest ih =>
      rw [List.splitOn, List.splitOnP_cons_eq_if_modifyHead, ← List.splitOn, splitOn, ih]
      by_cases same : byte = separator
      · simp [same]
      · cases pieces : List.splitOn separator rest with
        | nil => exact absurd pieces (List.splitOnP_ne_nil _ rest)
        | cons piece pieces => simp [same]

/-- Pieces that do not hold the separator are found again. -/
theorem splitOn_join {separator : UInt8} {parts : List Bytes}
    (free : ∀ part ∈ parts, separator ∉ part) (filled : parts ≠ []) :
    splitOn separator (join [separator] parts) = parts := by
  rw [splitOn_eq, join, List.splitOn_intercalate separator free filled]

/-- Between fields there is one separator. -/
theorem count_join {separator : UInt8} {first : Bytes} {parts : List Bytes}
    (free : ∀ part ∈ first :: parts, separator ∉ part) :
    (join [separator] (first :: parts)).count separator = parts.length := by
  induction parts generalizing first with
  | nil => simpa [join, List.count_eq_zero] using free first List.mem_cons_self
  | cons second parts ih =>
      obtain ⟨firstFree, others⟩ := List.forall_mem_cons.mp free
      rw [join, List.intercalate_cons_cons, List.count_append, List.count_append, ← join, ih others,
        List.count_eq_zero.mpr firstFree]
      simp
      omega

/-- Every part is found in the whole. -/
theorem subset_join (separator : Bytes) {part : Bytes} {parts : List Bytes}
    (member : part ∈ parts) : part ⊆ join separator parts := by
  induction parts with
  | nil => cases member
  | cons first parts ih =>
      cases parts with
      | nil => simpa [join] using List.mem_singleton.mp member ▸ List.Subset.refl part
      | cons second parts =>
          rw [join, List.intercalate_cons_cons]
          rcases List.mem_cons.mp member with rfl | behind
          · rw [List.append_assoc]
            exact List.subset_append_left _ _
          · exact List.Subset.trans (ih behind) (List.subset_append_right _ _)

/-- A text behind the others. -/
theorem join_concat (separator : Bytes) {parts : List Bytes} (filled : parts ≠ []) (last : Bytes) :
    join separator (parts ++ [last]) = join separator parts ++ separator ++ last := by
  induction parts with
  | nil => exact absurd rfl filled
  | cons part parts ih =>
      cases parts with
      | nil => simp [join]
      | cons next parts =>
          simp only [List.cons_append, join, List.intercalate_cons_cons, List.append_assoc]
            at ih ⊢
          rw [ih (by simp)]

end JavaFront.Bytes
