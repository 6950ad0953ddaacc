import JavaFront.Proofs.Text.Lines
import JavaFront.Proofs.Text.Runes
import JavaFront.Proofs.Token.Slices

/-!
# The texts of words

Identifiers and reserved words hold no tab and no line end. Some control
characters may stand in a word, but none of those that separate tokens.
-/

namespace JavaFront

/-- Identifiers and reserved words. -/
def Token.Kind.isWord (kind : Token.Kind) : Bool :=
  kind = .ident || kind.isKeyword

namespace Lexer

/-- The spelling of a character that a word may hold. -/
theorem isInline_wordPart {first : UInt8} {rest : Bytes}
    (proper : (Rune.decode first rest).wellFormed = true)
    (isPart : isWordPart (Rune.decode first rest).code = true) :
    Bytes.IsInline ((first :: rest).take (Rune.decode first rest).size) := by
  obtain ⟨valid, spelling⟩ := Rune.encode_decode proper
  rw [← spelling]
  intro byte member
  rw [UInt8.lt_iff_toNat_lt, UInt8.lt_iff_toNat_lt]
  rcases Rune.mem_encode valid byte member with ⟨narrow, same⟩ | ⟨-, wide⟩
  · rw [same]
    simp [isWordPart, isWordStart, narrow] at isPart
    simp only [UInt8.reduceToNat]
    omega
  · exact .inr (Nat.lt_of_lt_of_le (by decide) wide)

theorem isInline_wordRun (skipped : Nat) (text : Bytes)
    (inline : Bytes.IsInline (text.take skipped)) : (wordRun skipped text).1.IsInline := by
  induction text generalizing skipped with
  | nil => cases skipped <;> exact inline
  | cons byte text ih =>
      cases skipped with
      | succ skipped =>
          obtain ⟨first, others⟩ := List.forall_mem_cons.mp inline
          exact List.forall_mem_cons.mpr ⟨first, ih skipped others⟩
      | zero =>
          simp only [wordRun]
          split
          · rename_i accepted
            obtain ⟨proper, isPart⟩ := Bool.and_eq_true_iff.mp accepted
            have some := Rune.decode_size_pos byte text
            have spelled := isInline_wordPart proper isPart
            rw [List.take_cons some] at spelled
            obtain ⟨first, others⟩ := List.forall_mem_cons.mp spelled
            exact List.forall_mem_cons.mpr ⟨first, ih _ others⟩
          · exact .nil

/-- Only the reader of words gives a word. -/
theorem Scans.of_isWord {byte : UInt8} {rest : Bytes} {found : Scan}
    (read : Scans byte rest found) (isWord : found.kind.isWord = true) :
    (Rune.decode byte rest).wellFormed = true ∧
      isWordStart (Rune.decode byte rest).code = true ∧ found = Lexer.word (byte :: rest) := by
  have noNumber : ∀ kind ∈ numberKinds, ¬kind.isWord = true := by decide
  have noCharacter : ∀ kind ∈ [Token.Kind.charLiteral, .error], ¬kind.isWord = true := by decide
  have noString : ∀ kind ∈ [Token.Kind.stringLiteral, .error], ¬kind.isWord = true := by decide
  have noOperator : ∀ kind ∈ .error :: operators, ¬kind.isWord = true := by decide
  cases read with
  | lineComment | comment | unclosed | blanks | stray => cases isWord
  | word wellFormed starts => exact ⟨wellFormed, starts, rfl⟩
  | number => exact absurd isWord (noNumber _ (number_kind _))
  | characterLiteral => exact absurd isWord (noCharacter _ (characterLiteral_kind _))
  | stringLiteral => exact absurd isWord (noString _ (stringLiteral_kind _))
  | operator => exact absurd isWord (noOperator _ (operator_kind _))

end Lexer

namespace Stream

/-- A word of a source is not empty and holds no tab and no line end. -/
theorem isInline_word (source : Source) {index : Nat}
    (isWord : ((ofSource source).kind index).isWord = true) :
    ((ofSource source).get index).text ≠ [] ∧ ((ofSource source).get index).text.IsInline := by
  have ordered := ofSource_ordered source
  have inside : index < (ofSource source).last := by
    refine ordered.lt_last fun atEnd => ?_
    rw [atEnd] at isWord
    cases isWord
  have listed := get_mem_tokens inside
  rw [(tokens_ofSource source).1] at listed
  obtain ⟨byte, rest, sameKind, sameText⟩ :=
    source.lexes_tokens.exists_scan (List.mem_of_mem_filter listed) (by
      intro isEnd
      rw [kind, isEnd] at isWord
      cases isWord)
  rw [kind, sameKind] at isWord
  rw [sameText]
  refine ⟨Lexer.scan_ne_nil byte rest, ?_⟩
  rw [((Lexer.scan_scans byte rest).of_isWord isWord).2.2]
  exact Lexer.isInline_wordRun 0 (byte :: rest) .nil

end Stream

end JavaFront
