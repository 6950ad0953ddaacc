import Mathlib.Algebra.Ring.Parity
import JavaFront.Proofs.Source.LineIndex
import JavaFront.Proofs.Text.Runes
import JavaFront.Proofs.Token.Slices

/-!
# Quoted literals and the ends of lines

A character literal stays on its line, whether it is a proper one or not. A
string that is no text block goes on behind the end of its line in one case
only: where a backslash escapes that end. A backslash takes any byte with it,
so what escapes is the last of an odd number of backslashes in a row.
-/

namespace JavaFront

namespace Bytes

/-- The number of backslashes at the end of a text. -/
def backslashes (text : Bytes) : Nat :=
  (text.reverse.takeWhile (· = 0x5c)).length

/-- Whatever in the text ends a line is escaped by a backslash in front of it,
which is not itself escaped. -/
def EscapesLineEnds (text : Bytes) : Prop :=
  ∀ (front : Bytes) byte back, text = front ++ byte :: back →
    Source.isLineEnd byte = true → Odd front.backslashes

variable {byte : UInt8} {text other : Bytes}

/-! ## Backslashes in a row -/

theorem backslashes_cons (byte : UInt8) (text : Bytes) :
    backslashes (byte :: text) =
      if text.backslashes = text.length ∧ byte = 0x5c then text.length + 1
      else text.backslashes := by
  simp only [backslashes, List.reverse_cons, List.takeWhile_append, List.length_reverse]
  by_cases all : (text.reverse.takeWhile (· = 0x5c)).length = text.length
  · by_cases mark : byte = 0x5c <;> simp [all, mark]
  · simp [all]

theorem backslashes_le_length (text : Bytes) : text.backslashes ≤ text.length := by
  have bound := (List.takeWhile_prefix (· = 0x5c) (l := text.reverse)).length_le
  rwa [List.length_reverse] at bound

theorem backslashes_cons_of_ne (other : byte ≠ 0x5c) :
    backslashes (byte :: text) = text.backslashes := by
  rw [backslashes_cons, if_neg fun both => other both.2]

/-- A backslash and what it escapes keep the number odd. -/
theorem odd_backslashes_pair (escaped : UInt8) (odd : Odd text.backslashes) :
    Odd (backslashes (0x5c :: escaped :: text)) := by
  have bound := text.backslashes_le_length
  rw [backslashes_cons, backslashes_cons, List.length_cons]
  by_cases all : text.backslashes = text.length ∧ escaped = 0x5c
  · rw [if_pos all, if_pos ⟨rfl, rfl⟩, ← all.1]
    exact odd.add_even even_two
  · rw [if_neg all, if_neg (by omega)]
    exact odd

namespace EscapesLineEnds

theorem nil : EscapesLineEnds [] := by
  intro front byte back split
  simp at split

theorem cons (inner : Source.isLineEnd byte = false) (other : byte ≠ 0x5c)
    (escapes : text.EscapesLineEnds) : EscapesLineEnds (byte :: text) := by
  intro front ending back split ends
  cases front with
  | nil =>
      obtain ⟨rfl, -⟩ := List.cons_eq_cons.mp split
      rw [inner] at ends
      cases ends
  | cons first front =>
      obtain ⟨rfl, inside⟩ := List.cons_eq_cons.mp split
      rw [backslashes_cons_of_ne other]
      exact escapes front ending back inside ends

/-- A backslash may escape the end of a line. -/
theorem pair (escaped : UInt8) (escapes : text.EscapesLineEnds) :
    EscapesLineEnds (0x5c :: escaped :: text) := by
  intro front ending back split ends
  rcases front with _ | ⟨mark, _ | ⟨second, front⟩⟩
  · obtain ⟨rfl, -⟩ := List.cons_eq_cons.mp split
    exact absurd ends (by decide)
  · obtain ⟨rfl, -⟩ := List.cons_eq_cons.mp split
    decide
  · obtain ⟨sameMark, behind⟩ := List.cons_eq_cons.mp split
    obtain ⟨rfl, inside⟩ := List.cons_eq_cons.mp behind
    rw [← sameMark]
    exact odd_backslashes_pair _ (escapes front ending back inside ends)

end EscapesLineEnds

end Bytes

namespace Lexer

open Bytes (OnLine EscapesLineEnds)

variable {mark byte : UInt8} {text : Bytes}

/-! ## Character literals -/

/-- A run of accepted bytes stays on the line if no end of a line is accepted. -/
theorem onLine_takeWhile {accept : UInt8 → Bool}
    (inner : ∀ byte, accept byte = true → Source.isLineEnd byte = false) (text : Bytes) :
    OnLine (text.takeWhile accept) :=
  fun byte member => inner byte (List.mem_takeWhile_imp member)

theorem isLineEnd_of_ne (noFeed : byte ≠ 0x0a) (noReturn : byte ≠ 0x0d) :
    Source.isLineEnd byte = false := by
  simp [Source.isLineEnd, noFeed, noReturn]

theorem isLineEnd_of_le {low : UInt8} (above : 0x0d < low) (within : low ≤ byte) :
    Source.isLineEnd byte = false := by
  rw [UInt8.lt_iff_toNat_lt] at above
  rw [UInt8.le_iff_toNat_le] at within
  apply isLineEnd_of_ne
  all_goals
    rintro rfl
    simp only [UInt8.reduceToNat] at above within
    omega

theorem isLineEnd_of_isHexDigit (digit : Bytes.isHexDigit byte = true) :
    Source.isLineEnd byte = false := by
  simp only [Bytes.isHexDigit, Bytes.isDigit, Bool.or_eq_true, Bool.and_eq_true,
    decide_eq_true_eq] at digit
  rcases digit with (⟨low, -⟩ | ⟨low, -⟩) | ⟨low, -⟩
  all_goals exact isLineEnd_of_le (by decide) low

theorem isLineEnd_of_isOctalDigit (digit : isOctalDigit byte = true) :
    Source.isLineEnd byte = false := by
  simp only [isOctalDigit, Bool.and_eq_true, decide_eq_true_eq] at digit
  exact isLineEnd_of_le (by decide) digit.1

theorem isLineEnd_of_isEscapeLetter (letter : isEscapeLetter byte = true) :
    Source.isLineEnd byte = false := by
  apply isLineEnd_of_ne
  all_goals
    rintro rfl
    exact absurd letter (by decide)

/-- An escape stays on the line: the end of a line makes no escape, and no digits
go on behind it. -/
theorem escape_onLine (inner : Source.isLineEnd mark = false) (text : Bytes) :
    OnLine (escape (mark :: text)).2.1 := by
  rw [escape_cons]
  by_cases letter : isEscapeLetter (front text) = true
  · rw [if_pos letter]
    cases text with
    | nil => exact absurd letter (by decide)
    | cons head text => exact .cons inner (.cons (isLineEnd_of_isEscapeLetter letter) .nil)
  · rw [if_neg letter]
    split
    · refine .cons inner (.append ?_ (onLine_takeWhile (fun _ => isLineEnd_of_isHexDigit) _))
      rw [List.span_eq_takeWhile_dropWhile]
      refine onLine_takeWhile (fun byte isLetter => ?_) text
      rw [of_decide_eq_true isLetter]
      decide
    · split
      · exact .cons inner (onLine_takeWhile (fun _ => isLineEnd_of_isOctalDigit) _)
      · exact .cons inner .nil

/-- The bytes of a character stay on the line if the first of them does. -/
theorem rune_onLine (inner : Source.isLineEnd byte = false) (text : Bytes) :
    OnLine ((byte :: text).take (Rune.decode byte text).size) := by
  cases proper : (Rune.decode byte text).wellFormed with
  | false =>
      rw [(Rune.decode_of_malformed proper).1]
      exact .cons inner .nil
  | true =>
      obtain ⟨valid, spelling⟩ := Rune.encode_decode proper
      rw [← spelling]
      have size := Rune.decode_size_pos byte text
      have first : byte ∈ Rune.encode (Rune.decode byte text).code := by
        rw [spelling, List.take_cons size]
        exact List.mem_cons_self
      intro other member
      rcases Rune.mem_encode valid other member with ⟨narrow, same⟩ | ⟨-, wide⟩
      · rcases Rune.mem_encode valid byte first with ⟨-, sameFirst⟩ | ⟨wide, -⟩
        · rwa [UInt8.toNat_inj.mp (same.trans sameFirst.symm)]
        · omega
      · exact @isLineEnd_of_le other 0x80 (by decide) (UInt8.le_iff_toNat_le.mpr wide)

theorem character_onLine (text : Bytes) : OnLine (character text).2.1 := by
  cases text with
  | nil => exact .nil
  | cons byte text =>
      rw [character_cons]
      split
      · exact .nil
      · rename_i inside
        have inner : Source.isLineEnd byte = false := by
          simp only [Bool.or_eq_true, decide_eq_true_eq, not_or] at inside
          exact isLineEnd_of_ne inside.1.2 inside.2
        split
        · exact escape_onLine inner text
        · exact rune_onLine inner text

/-- What starts as a character literal ends with its line at the latest. -/
theorem characterLiteral_onLine (inner : Source.isLineEnd mark = false) (text : Bytes) :
    OnLine (characterLiteral (mark :: text)).text := by
  have quote : ∀ {rest : Bytes}, front rest = 0x27 → OnLine (rest.take 1) := by
    intro rest isQuote
    cases rest with
    | nil => exact .nil
    | cons byte rest =>
        obtain rfl : byte = 0x27 := isQuote
        exact .cons (by decide) .nil
  have read : OnLine (mark :: (character text).2.1) := .cons inner (character_onLine text)
  simp only [characterLiteral, List.take_succ_cons, List.take_zero, List.drop_succ_cons,
    List.drop_zero, List.cons_append, List.nil_append]
  generalize (character text).2.2 = rest
  have skipped : OnLine (rest.span fun byte =>
      byte != 0x27 && byte != 0x0a && byte != 0x0d).1 := by
    rw [List.span_eq_takeWhile_dropWhile]
    refine onLine_takeWhile (fun byte accepted => ?_) rest
    simp only [Bool.and_eq_true, bne_iff_ne] at accepted
    exact isLineEnd_of_ne accepted.1.2 accepted.2
  split
  · rename_i closed
    exact read.append (quote (of_decide_eq_true (Bool.and_eq_true_iff.mp closed).2))
  · split
    · rename_i isQuote
      exact (read.append skipped).append (quote isQuote)
    · exact read.append skipped

/-! ## Strings -/

/-- Inside of a string only a backslash takes the end of a line with it. -/
theorem stringRest_escapes (text : Bytes) : EscapesLineEnds (stringRest text).2.1 := by
  fun_induction stringRest text with
  | case1 => exact .nil
  | case2 escaped text closed read rest tail ih =>
      rw [tail] at ih
      exact .pair escaped ih
  | case3 text => exact .cons (by decide) (by decide) .nil
  | case4 => exact .nil
  | case5 byte text unescaped notQuote notEnd closed read rest tail ih =>
      rw [tail] at ih
      have inner : Source.isLineEnd byte = false := Bool.not_eq_true _ ▸ notEnd
      by_cases mark : byte = 0x5c
      · -- a backslash with nothing behind it escapes nothing
        cases text with
        | nil =>
            cases tail
            rintro (_ | ⟨first, _ | ⟨second, front⟩⟩) ending back split ends
            · obtain ⟨rfl, -⟩ := List.cons_eq_cons.mp split
              rw [inner] at ends
              cases ends
            · simp at split
            · simp at split
        | cons escaped text => exact absurd rfl (unescaped escaped text mark)
      · exact .cons inner mark ih

theorem scan_apostrophe (text : Bytes) : scan 0x27 text = characterLiteral (0x27 :: text) :=
  (Scans.characterLiteral rfl).eq

theorem scan_quote (text : Bytes) : scan 0x22 text = stringLiteral (0x22 :: text) :=
  (Scans.stringLiteral rfl).eq

/-- A string that is no text block escapes the ends of lines in it. -/
theorem stringLiteral_escapes (text : Bytes)
    (noBlock : ¬ [0x22, 0x22, 0x22] <+: (stringLiteral (0x22 :: text)).text) :
    EscapesLineEnds (stringLiteral (0x22 :: text)).text := by
  rw [stringLiteral_cons] at noBlock ⊢
  by_cases opens : (0x22 :: text).take 3 = [0x22, 0x22, 0x22]
  · rw [if_pos opens, opens] at noBlock
    exact absurd (List.prefix_append _ _) noBlock
  · rw [if_neg opens]
    exact .cons (by decide) (by decide) (stringRest_escapes text)

end Lexer

namespace Source

/-- A token that starts with an apostrophe stays on its line. One that starts with
a quote and is no text block goes on behind the end of a line only where a
backslash escapes that end. -/
theorem quoted_escapes (source : Source) (token : Token) (listed : token ∈ source.tokens) :
    (token.text.head? = some 0x27 → token.text.OnLine) ∧
      (token.text.head? = some 0x22 → ¬ [0x22, 0x22, 0x22] <+: token.text →
        token.text.EscapesLineEnds) := by
  by_cases atEnd : token.kind = .eof
  · rw [source.lexes_tokens.text_of_eof listed atEnd]
    exact ⟨nofun, nofun⟩
  · obtain ⟨byte, rest, -, textEq⟩ := source.lexes_tokens.exists_scan listed atEnd
    obtain ⟨tail, spelled⟩ := Lexer.scan_text byte rest
    rw [textEq]
    constructor
    · intro opens
      rw [spelled] at opens
      obtain rfl := Option.some.inj opens
      rw [Lexer.scan_apostrophe]
      exact Lexer.characterLiteral_onLine (by decide) rest
    · intro opens noBlock
      rw [spelled] at opens
      obtain rfl := Option.some.inj opens
      rw [Lexer.scan_quote] at noBlock ⊢
      exact Lexer.stringLiteral_escapes rest noBlock

/-- A string that takes in the end of its line, behind the name in front of it. -/
theorem quoted_escapes_folded :
    ⟨.error, ⟨⟨2, 1, 3⟩, ⟨6, 2, 2⟩⟩, [0x22, 0x5c, 0x0a, 0x61]⟩ ∈
        (of [] [0x61, 0x3d, 0x22, 0x5c, 0x0a, 0x61]).tokens ∧
      Bytes.EscapesLineEnds [0x22, 0x5c, 0x0a, 0x61] := by
  have listed : ⟨.error, ⟨⟨2, 1, 3⟩, ⟨6, 2, 2⟩⟩, [0x22, 0x5c, 0x0a, 0x61]⟩ ∈
      (of [] [0x61, 0x3d, 0x22, 0x5c, 0x0a, 0x61]).tokens := by
    decide +kernel
  exact ⟨listed, (quoted_escapes _ _ listed).2 rfl (by decide)⟩

/-- Not every quoted literal stays on its line. -/
theorem not_quoted_onLine :
    ¬ ∀ (source : Source) (token : Token), token ∈ source.tokens →
      (token.text.head? = some 0x27 ∨
        token.text.head? = some 0x22 ∧ ¬ [0x22, 0x22, 0x22] <+: token.text) →
      token.text.OnLine := by
  intro claim
  have listed : ⟨.error, ⟨⟨0, 1, 1⟩, ⟨5, 2, 2⟩⟩, [0x22, 0x61, 0x5c, 0x0a, 0x62]⟩ ∈
      (of [] [0x22, 0x61, 0x5c, 0x0a, 0x62]).tokens := by
    decide +kernel
  have noEnd := claim _ _ listed (.inr ⟨rfl, by decide⟩) 0x0a (by decide)
  exact absurd noEnd (by decide)

end Source

end JavaFront
