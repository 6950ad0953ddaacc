import JavaFront.Listing.Summary
import JavaFront.Proofs.Text.Lines
import JavaFront.Proofs.Text.Runes

/-!
# Summaries fit on a line

A summary is made of words of a comment with single blanks between them. No word
holds white space, so there is neither a tab nor the end of a line in a summary,
whatever the comment holds.
-/

namespace JavaFront

namespace Bytes

/-- A rune that is no white space is spelled without tabs and line ends. -/
theorem isInline_spelling (text : Bytes) : ∀ unit ∈ text.spelledRunes,
    unit.1.isBlank = false → unit.2.IsInline := by
  match text with
  | [] => exact fun unit member => absurd member List.not_mem_nil
  | first :: rest =>
      intro unit member visible
      rw [spelledRunes_cons, List.mem_cons] at member
      rcases member with rfl | behind
      · intro byte isByte
        cases proper : (Rune.decode first rest).wellFormed with
        | true =>
            obtain ⟨valid, spelling⟩ := Rune.encode_decode proper
            simp only [← spelling] at isByte
            rcases Rune.mem_encode valid byte isByte with ⟨-, same⟩ | ⟨-, wide⟩
            · simp [Rune.isBlank, proper, blankRanges, Ranges.has] at visible
              rw [UInt8.lt_iff_toNat_lt, UInt8.lt_iff_toNat_lt, same]
              have outside := visible.1
              simp only [UInt8.reduceToNat]
              omega
            · right
              rw [UInt8.lt_iff_toNat_lt]
              exact Nat.lt_of_lt_of_le (by decide) wide
        | false =>
            obtain ⟨broken, wide⟩ := Rune.decode_of_malformed proper
            simp only [broken, Rune.malformed, List.take_succ_cons, List.take_zero,
              List.mem_singleton] at isByte
            right
            rw [isByte, UInt8.lt_iff_toNat_lt]
            exact Nat.lt_of_lt_of_le (by decide) (UInt8.le_iff_toNat_le.mp wide)
      · exact isInline_spelling _ unit behind visible
termination_by text.length

theorem isInline_gatherWords {units : List (Rune × Bytes)}
    (spelled : ∀ unit ∈ units, unit.1.isBlank = false → unit.2.IsInline) :
    (gatherWords units).1.IsInline ∧ ∀ word ∈ (gatherWords units).2, word.IsInline := by
  induction units with
  | nil => exact ⟨.nil, fun word member => absurd member List.not_mem_nil⟩
  | cons unit units ih =>
      obtain ⟨first, others⟩ := List.forall_mem_cons.mp spelled
      obtain ⟨word, words⟩ := ih others
      simp only [gatherWords]
      split
      · refine ⟨.nil, ?_⟩
        split
        · exact words
        · exact List.forall_mem_cons.mpr ⟨word, words⟩
      · rename_i visible
        exact ⟨(first (by simpa using visible)).append word, words⟩

theorem isInline_words (text : Bytes) : ∀ word ∈ text.words, word.IsInline := by
  obtain ⟨word, words⟩ := isInline_gatherWords (isInline_spelling text)
  simp only [Bytes.words]
  split
  · exact words
  · exact List.forall_mem_cons.mpr ⟨word, words⟩

end Bytes

/-- A summary holds no tab and no line end. -/
theorem isInline_docSummary (comment : Bytes) : (docSummary comment).IsInline := by
  have joined : (Bytes.join [0x20] (commentWords comment)).IsInline := by
    refine .join (by decide) fun word member => ?_
    obtain ⟨line, -, isWord⟩ := List.mem_flatMap.mp member
    exact Bytes.isInline_words line word isWord
  simp only [docSummary]
  split
  · exact joined.subset (List.take_subset _ _)
  · exact joined

end JavaFront
