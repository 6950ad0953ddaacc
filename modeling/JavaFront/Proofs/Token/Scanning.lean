import JavaFront.Token.Lexer
import Mathlib.Data.List.TakeDrop

/-!
# Scanning splits the text

Every reader of the lexer cuts the text it is given in two: what it read
followed by what it left is that text again. The token that `Lexer.scan` reads
is moreover never empty and never an end token, so a text is used up after at
most as many tokens as it has bytes.

`Lexer.scan` chooses among the readers. `Scans` is that choice as a relation,
one constructor for each reader, and the laws of tokens go by its cases.
-/

namespace JavaFront

/-- What was read and what was left are together the text that was given. -/
def Scan.Splits (scan : Scan) (text : Bytes) : Prop :=
  scan.text ++ scan.rest = text

namespace Rune

/-- A rune covers at least one byte. -/
theorem decode_size_pos (first : UInt8) (rest : Bytes) : 0 < (decode first rest).size := by
  simp only [decode]
  repeat' split
  all_goals simp [malformed]

/-- A byte below the continuation range is a character by itself. -/
theorem decode_of_lt {first : UInt8} (rest : Bytes) (narrow : first < 0x80) :
    decode first rest = ⟨first.toNat, 1, true⟩ := by
  simp [decode, narrow]

end Rune

namespace Lexer

/-! ## Blanks, comments and words -/

theorem span_append (accept : UInt8 → Bool) (text : Bytes) :
    (text.span accept).1 ++ (text.span accept).2 = text := by
  rw [List.span_eq_takeWhile_dropWhile]
  exact List.takeWhile_append_dropWhile

theorem commentRest?_append {text read rest : Bytes}
    (closed : commentRest? text = some (read, rest)) : read ++ rest = text := by
  induction text generalizing read rest with
  | nil => simp [commentRest?] at closed
  | cons byte text ih =>
      simp only [commentRest?] at closed
      split at closed
      · rename_i ends
        simp only [Bool.and_eq_true, decide_eq_true_eq] at ends
        cases text with
        | nil => simp at ends
        | cons slash text =>
            simp only [Option.some.injEq, Prod.mk.injEq, List.drop_succ_cons,
              List.drop_zero] at closed
            obtain ⟨rfl, rfl⟩ := closed
            simpa using ends.2.symm
      · obtain ⟨⟨tailRead, tailRest⟩, tailClosed, pairEq⟩ := Option.map_eq_some_iff.mp closed
        simp only [Prod.mk.injEq] at pairEq
        obtain ⟨rfl, rfl⟩ := pairEq
        simpa using ih tailClosed

theorem wordRun_append (skipped : Nat) (text : Bytes) :
    (wordRun skipped text).1 ++ (wordRun skipped text).2 = text := by
  induction text generalizing skipped with
  | nil => cases skipped <;> rfl
  | cons byte text ih =>
      cases skipped with
      | succ skipped => simpa [wordRun] using ih skipped
      | zero =>
          simp only [wordRun]
          split
          · simpa using ih _
          · rfl

theorem word_splits (text : Bytes) : (word text).Splits text :=
  wordRun_append 0 text

/-! ## Numbers -/

theorem digitRun_append (accept : UInt8 → Bool) (text : Bytes) :
    (digitRun accept text).1 ++ (digitRun accept text).2 = text :=
  span_append _ text

theorem sign_append (text : Bytes) : (sign text).1 ++ (sign text).2 = text := by
  cases text with
  | nil => rfl
  | cons byte text =>
      simp only [sign]
      split <;> rfl

theorem exponent_append (text : Bytes) :
    (exponent text).2.1 ++ (exponent text).2.2 = text := by
  have signed := sign_append (text.drop 1)
  have digits := digitRun_append Bytes.isDigit (sign (text.drop 1)).2
  simp only [exponent]
  split
  · rw [List.append_assoc, List.append_assoc, digits, signed, List.take_append_drop]
  · rw [List.append_assoc, signed, List.take_append_drop]

theorem fraction_append (text : Bytes) : (fraction text).1 ++ (fraction text).2 = text := by
  simp only [fraction]
  split
  · rename_i dotted
    cases text with
    | nil => simp [front] at dotted
    | cons byte text =>
        have digits := digitRun_append Bytes.isDigit text
        have isDot : byte = 0x2e := by
          simp only [Bool.and_eq_true, decide_eq_true_eq] at dotted
          exact dotted.1.1
        simp [isDot, digits]
  · rfl

/-- A reader that takes one byte more still splits the text. -/
theorem take_one_splits (kind : Token.Kind) (read text : Bytes) :
    (Scan.mk kind (read ++ text.take 1) (text.drop 1)).Splits (read ++ text) := by
  simp only [Scan.Splits]
  rw [List.append_assoc, List.take_append_drop]

theorem decimalSuffix_splits (fractional : Bool) (read text : Bytes) :
    (decimalSuffix fractional read text).Splits (read ++ text) := by
  simp only [decimalSuffix]
  split
  · exact take_one_splits _ _ _
  · split
    · exact take_one_splits _ _ _
    · split
      · exact take_one_splits _ _ _
      · split <;> rfl

theorem decimal_splits (text : Bytes) : (decimal text).Splits text := by
  simp only [decimal]
  have whole := digitRun_append Bytes.isDigit text
  generalize digitRun Bytes.isDigit text = run at whole ⊢
  have decimals := fraction_append run.2
  generalize fraction run.2 = tail at decimals ⊢
  have joined : run.1 ++ tail.1 ++ tail.2 = text := by
    rw [List.append_assoc, decimals, whole]
  split
  · have power := exponent_append tail.2
    generalize exponent tail.2 = scaled at power ⊢
    have all : run.1 ++ tail.1 ++ scaled.2.1 ++ scaled.2.2 = text := by
      rw [List.append_assoc _ scaled.2.1, power, joined]
    split
    · have suffix := decimalSuffix_splits true (run.1 ++ tail.1 ++ scaled.2.1) scaled.2.2
      rwa [all] at suffix
    · exact all
  · have suffix := decimalSuffix_splits (!tail.1.isEmpty) (run.1 ++ tail.1) tail.2
    rwa [joined] at suffix

theorem hexFraction_append (text : Bytes) :
    (hexFraction text).1 ++ (hexFraction text).2 = text := by
  simp only [hexFraction]
  split
  · rename_i dotted
    cases text with
    | nil => simp [front] at dotted
    | cons byte text =>
        have isDot : byte = 0x2e := dotted
        simpa [isDot] using digitRun_append Bytes.isHexDigit text
  · rfl

theorem hexadecimal_splits (text : Bytes) : (hexadecimal text).Splits text := by
  simp only [hexadecimal]
  have whole := digitRun_append Bytes.isHexDigit (text.drop 2)
  generalize digitRun Bytes.isHexDigit (text.drop 2) = run at whole ⊢
  have decimals := hexFraction_append run.2
  generalize hexFraction run.2 = tail at decimals ⊢
  have joined : text.take 2 ++ run.1 ++ tail.1 ++ tail.2 = text := by
    rw [List.append_assoc _ tail.1, decimals, List.append_assoc, whole, List.take_append_drop]
  generalize text.take 2 ++ run.1 ++ tail.1 = read at joined ⊢
  split
  · have power := exponent_append tail.2
    generalize exponent tail.2 = scaled at power ⊢
    have all : read ++ scaled.2.1 ++ scaled.2.2 = text := by
      rw [List.append_assoc, power, joined]
    rw [← all]
    split
    · rfl
    · split
      · exact take_one_splits _ _ _
      · split
        · exact take_one_splits _ _ _
        · rfl
  · rw [← joined]
    split
    · rfl
    · split
      · exact take_one_splits _ _ _
      · rfl

theorem binary_splits (text : Bytes) : (binary text).Splits text := by
  simp only [binary]
  have digits := digitRun_append isBinaryDigit (text.drop 2)
  generalize digitRun isBinaryDigit (text.drop 2) = run at digits ⊢
  have joined : text.take 2 ++ run.1 ++ run.2 = text := by
    rw [List.append_assoc, digits, List.take_append_drop]
  generalize text.take 2 ++ run.1 = read at joined ⊢
  rw [← joined]
  split
  · exact take_one_splits _ _ _
  · rfl

theorem number_splits (text : Bytes) : (number text).Splits text := by
  simp only [number]
  split
  · exact hexadecimal_splits text
  · split
    · exact binary_splits text
    · exact decimal_splits text

/-! ## Quoted literals -/

theorem takeWhile_take_append_drop (count : Nat) (accept : UInt8 → Bool) (text : Bytes) :
    (text.take count).takeWhile accept ++
      text.drop ((text.take count).takeWhile accept).length = text := by
  have isPrefix : (text.take count).takeWhile accept <+: text :=
    (List.takeWhile_prefix accept).trans (List.take_prefix count text)
  exact List.prefix_iff_eq_append.mp isPrefix

theorem escape_append (text : Bytes) : (escape text).2.1 ++ (escape text).2.2 = text := by
  simp only [escape]
  split
  · rw [List.append_assoc, List.take_append_drop, List.take_append_drop]
  · split
    · have letters := span_append (· = 0x75) (text.drop 1)
      generalize (text.drop 1).span (· = 0x75) = run at letters ⊢
      rw [List.append_assoc, takeWhile_take_append_drop, List.append_assoc, letters,
        List.take_append_drop]
    · split
      · rw [List.append_assoc, takeWhile_take_append_drop, List.take_append_drop]
      · exact List.take_append_drop 1 text

theorem character_append (text : Bytes) :
    (character text).2.1 ++ (character text).2.2 = text := by
  cases text with
  | nil => rfl
  | cons byte text =>
      simp only [character]
      split
      · rfl
      · split
        · exact escape_append (byte :: text)
        · exact List.take_append_drop _ _

theorem characterLiteral_splits (text : Bytes) : (characterLiteral text).Splits text := by
  simp only [characterLiteral]
  have inside := character_append (text.drop 1)
  generalize character (text.drop 1) = found at inside ⊢
  have joined : text.take 1 ++ found.2.1 ++ found.2.2 = text := by
    rw [List.append_assoc, inside, List.take_append_drop]
  generalize text.take 1 ++ found.2.1 = read at joined ⊢
  rw [← joined]
  split
  · exact take_one_splits _ _ _
  · have skipped := span_append (fun byte => byte != 0x27 && byte != 0x0a && byte != 0x0d) found.2.2
    generalize found.2.2.span (fun byte => byte != 0x27 && byte != 0x0a && byte != 0x0d) = run
      at skipped ⊢
    rw [← skipped, ← List.append_assoc]
    split
    · exact take_one_splits _ _ _
    · rfl

theorem stringRest_append (text : Bytes) :
    (stringRest text).2.1 ++ (stringRest text).2.2 = text := by
  fun_induction stringRest text with
  | case1 => rfl
  | case2 escaped text closed read rest tail ih => simpa [tail] using ih
  | case3 => simp
  | case4 => rfl
  | case5 byte text _ _ _ closed read rest tail ih => simpa [tail] using ih

theorem blockRest_append (text : Bytes) :
    (blockRest text).2.1 ++ (blockRest text).2.2 = text := by
  fun_induction blockRest text with
  | case1 => rfl
  | case2 escaped text closed read rest tail ih => simpa [tail] using ih
  | case3 byte text _ closes =>
      simp only [Bool.and_eq_true, decide_eq_true_eq] at closes
      simpa [closes.2] using List.take_append_drop 2 text
  | case4 byte text _ _ closed read rest tail ih => simpa [tail] using ih

theorem stringLiteral_splits (text : Bytes) : (stringLiteral text).Splits text := by
  simp only [stringLiteral, Scan.Splits]
  split
  · simp only [if_true]
    rw [List.append_assoc, blockRest_append, List.take_append_drop]
  · rw [if_neg (by decide), List.append_assoc, stringRest_append, List.take_append_drop]

/-! ## Operators and tokens -/

theorem operator_splits (text : Bytes) : (operator text).Splits text := by
  simp only [operator]
  split <;> exact List.take_append_drop _ _

/-! ## The reader of a token

Which reader a token comes from is told once, by a relation that agrees with
`scan`. What holds of every token is shown reader by reader, and a text that a
reader is known to be chosen for is read by that one. -/

/-- An operator is what starts none of the other tokens. -/
structure StartsOperator (byte : UInt8) (rest : Bytes) : Prop where
  comment : byte = 0x2f → front rest ≠ 0x2f ∧ front rest ≠ 0x2a
  blank : isBlank byte = false
  narrow : byte < 0x80
  word : isWordStart byte.toNat = false
  number : (Bytes.isDigit byte || (byte = 0x2e && Bytes.isDigit (front rest))) = false
  character : byte ≠ 0x27
  string : byte ≠ 0x22

/-- The token in front of `byte :: rest` and what it leaves, with the reader that
it comes from and what that was chosen by. -/
inductive Scans (byte : UInt8) (rest : Bytes) : Scan → Prop where
  | lineComment (slash : byte = 0x2f) (opens : front rest = 0x2f) :
      Scans byte rest ⟨.lineComment, (byte :: rest).take 2 ++ (lineRest (rest.drop 1)).1,
        (lineRest (rest.drop 1)).2⟩
  | comment {read left : Bytes} (slash : byte = 0x2f) (opens : front rest = 0x2a)
      (closed : commentRest? (rest.drop 1) = some (read, left)) :
      Scans byte rest ⟨.comment, (byte :: rest).take 2 ++ read, left⟩
  | unclosed (slash : byte = 0x2f) (opens : front rest = 0x2a)
      (isOpen : commentRest? (rest.drop 1) = none) :
      Scans byte rest ⟨.error, byte :: rest, []⟩
  | blanks (blank : isBlank byte = true) :
      Scans byte rest ⟨.whitespace, (blanks (byte :: rest)).1, (blanks (byte :: rest)).2⟩
  | word (wellFormed : (Rune.decode byte rest).wellFormed = true)
      (starts : isWordStart (Rune.decode byte rest).code = true) :
      Scans byte rest (word (byte :: rest))
  | stray (wide : 0x80 ≤ byte)
      (noWord : ((Rune.decode byte rest).wellFormed &&
        isWordStart (Rune.decode byte rest).code) = false) :
      Scans byte rest ⟨.error, (byte :: rest).take (Rune.decode byte rest).size,
        (byte :: rest).drop (Rune.decode byte rest).size⟩
  | number (starts : (Bytes.isDigit byte || (byte = 0x2e && Bytes.isDigit (front rest))) = true) :
      Scans byte rest (number (byte :: rest))
  | characterLiteral (quote : byte = 0x27) : Scans byte rest (characterLiteral (byte :: rest))
  | stringLiteral (quote : byte = 0x22) : Scans byte rest (stringLiteral (byte :: rest))
  | operator (starts : StartsOperator byte rest) : Scans byte rest (operator (byte :: rest))

section Readers

variable {byte : UInt8} {rest : Bytes} {found : Scan}

theorem scanWide_scans (wide : 0x80 ≤ byte) : Scans byte rest (scanWide byte rest) := by
  simp only [scanWide]
  split
  · rename_i starts
    obtain ⟨wellFormed, isStart⟩ := Bool.and_eq_true_iff.mp starts
    exact .word wellFormed isStart
  · rename_i noWord
    exact .stray wide (Bool.eq_false_iff.mpr noWord)

/-- Every token comes from one of the readers. -/
theorem scan_scans (byte : UInt8) (rest : Bytes) : Scans byte rest (scan byte rest) := by
  simp only [scan]
  split
  · rename_i slashes
    simp only [Bool.and_eq_true, decide_eq_true_eq] at slashes
    exact .lineComment slashes.1 slashes.2
  rename_i noLine
  split
  · rename_i opens
    simp only [Bool.and_eq_true, decide_eq_true_eq] at opens
    split
    · rename_i closed
      exact .comment opens.1 opens.2 closed
    · rename_i isOpen
      exact .unclosed opens.1 opens.2 isOpen
  rename_i noBlock
  split
  · exact .blanks ‹_›
  rename_i notBlank
  split
  · rename_i wide
    exact scanWide_scans wide
  rename_i notWide
  have narrow : byte < 0x80 := UInt8.not_le.mp notWide
  split
  · rename_i starts
    have decoded := Rune.decode_of_lt rest narrow
    exact .word (by rw [decoded]) (by rw [decoded]; exact starts)
  rename_i noWord
  split
  · exact .number ‹_›
  rename_i noNumber
  split
  · exact .characterLiteral ‹_›
  split
  · exact .stringLiteral ‹_›
  refine .operator ⟨?_, Bool.eq_false_iff.mpr notBlank, narrow, Bool.eq_false_iff.mpr noWord,
    Bool.eq_false_iff.mpr noNumber, ‹_›, ‹_›⟩
  rintro rfl
  exact ⟨by simpa using noLine, by simpa using noBlock⟩

/-- A blank is a character by itself, and starts no word. -/
theorem plain_of_isBlank (blank : isBlank byte = true) :
    byte < 0x80 ∧ isWordStart byte.toNat = false := by
  simp only [isBlank, Bool.or_eq_true, decide_eq_true_eq] at blank
  rcases blank with (((rfl | rfl) | rfl) | rfl) | rfl
  all_goals decide

/-- A digit or a dot starts a number or an operator only. -/
theorem plain_of_digit_or_dot (starts : Bytes.isDigit byte = true ∨ byte = 0x2e) :
    byte ≠ 0x2f ∧ isBlank byte = false ∧ byte < 0x80 ∧ isWordStart byte.toNat = false ∧
      byte ≠ 0x27 ∧ byte ≠ 0x22 := by
  have low : byte.toNat = 0x2e ∨ (0x30 ≤ byte.toNat ∧ byte.toNat ≤ 0x39) := by
    simp only [Bytes.isDigit, Bool.and_eq_true, decide_eq_true_eq, UInt8.le_iff_toNat_le,
      UInt8.reduceToNat, ← UInt8.toNat_inj] at starts
    exact starts.symm
  have noWord : isWordStart byte.toNat = false := by
    simp only [isWordStart, show byte.toNat < 0x80 by omega, if_true, Bool.or_eq_false_iff,
      Bool.and_eq_false_iff, decide_eq_false_iff_not]
    omega
  simp only [noWord, isBlank, Bool.or_eq_false_iff, decide_eq_false_iff_not, UInt8.lt_iff_toNat_lt,
    ne_eq, ← UInt8.toNat_inj, UInt8.reduceToNat, true_and]
  omega

/-- A word does not start with a byte that is a character by itself and starts
none. -/
theorem ne_of_wordStart (starts : isWordStart (Rune.decode byte rest).code = true) {other : UInt8}
    (narrow : other < 0x80) (noWord : isWordStart other.toNat = false) : byte ≠ other := by
  rintro rfl
  rw [Rune.decode_of_lt rest narrow] at starts
  exact absurd starts (by simp [noWord])

/-- No two readers are chosen for one text. -/
theorem Scans.eq (read : Scans byte rest found) : scan byte rest = found := by
  cases read with
  | lineComment slash opens => simp only [scan, slash, opens, decide_true, Bool.and_self, if_true]
  | comment slash opens closed =>
      subst slash
      simp only [scan, opens, closed]
      rfl
  | unclosed slash opens isOpen =>
      subst slash
      simp only [scan, opens, isOpen]
      rfl
  | blanks blank =>
      have noSlash : byte ≠ 0x2f := by
        rintro rfl
        exact absurd blank (by decide)
      simp [scan, noSlash, blank]
  | word wellFormed starts =>
      have noSlash : byte ≠ 0x2f := ne_of_wordStart starts (by decide) (by decide)
      have notBlank : ¬isBlank byte = true := fun blank =>
        ne_of_wordStart starts (plain_of_isBlank blank).1 (plain_of_isBlank blank).2 rfl
      by_cases wide : 0x80 ≤ byte
      · simp [scan, scanWide, noSlash, notBlank, wide, wellFormed, starts]
      · rw [Rune.decode_of_lt rest (UInt8.not_le.mp wide)] at starts
        simp [scan, noSlash, notBlank, wide, starts]
  | stray wide noWord =>
      have noSlash : byte ≠ 0x2f := by
        rintro rfl
        exact absurd wide (by decide)
      have notBlank : ¬isBlank byte = true := fun blank =>
        UInt8.not_le.mpr (plain_of_isBlank blank).1 wide
      simp [scan, scanWide, noSlash, notBlank, wide, noWord]
  | number starts =>
      have begins := starts
      simp only [Bool.or_eq_true, Bool.and_eq_true, decide_eq_true_eq] at begins
      obtain ⟨noSlash, notBlank, narrow, noWord, -, -⟩ :=
        plain_of_digit_or_dot (begins.imp_right And.left)
      simp only [scan, noSlash, notBlank, UInt8.not_le.mpr narrow, noWord, starts, decide_false,
        Bool.false_and, Bool.false_eq_true, if_true, if_false]
  | characterLiteral quote =>
      subst quote
      rfl
  | stringLiteral quote =>
      subst quote
      rfl
  | operator starts =>
      obtain ⟨comment, notBlank, narrow, noWord, noNumber, noCharacter, noString⟩ := starts
      have noLine : (byte = 0x2f && front rest = 0x2f) = false := by
        simpa using fun slash => (comment slash).1
      have noBlock : (byte = 0x2f && front rest = 0x2a) = false := by
        simpa using fun slash => (comment slash).2
      simp only [scan, noLine, noBlock, notBlank, UInt8.not_le.mpr narrow, noWord, noNumber,
        noCharacter, noString, Bool.false_eq_true, if_false]

end Readers

theorem exists_of_front {next : UInt8} {rest : Bytes} (isNext : front rest = next)
    (present : next ≠ 0) : ∃ text, rest = next :: text := by
  cases rest with
  | nil => exact absurd isNext.symm present
  | cons second text => exact ⟨text, congrArg (· :: text) isNext⟩

/-- Two bytes in front of a reader that splits what follows them. -/
theorem take_two_append {byte next : UInt8} {rest read left : Bytes}
    (isNext : front rest = next) (present : next ≠ 0)
    (splits : read ++ left = rest.drop 1) :
    (byte :: rest).take 2 ++ read ++ left = byte :: rest := by
  obtain ⟨text, rfl⟩ := exists_of_front isNext present
  simpa using splits

theorem Scans.splits {byte : UInt8} {rest : Bytes} {found : Scan} (read : Scans byte rest found) :
    found.Splits (byte :: rest) := by
  cases read with
  | lineComment _ opens => exact take_two_append opens (by decide) (span_append _ _)
  | comment _ opens closed =>
      exact take_two_append opens (by decide) (commentRest?_append closed)
  | unclosed => exact List.append_nil _
  | blanks => exact span_append _ _
  | word => exact word_splits _
  | stray => exact List.take_append_drop _ _
  | number => exact number_splits _
  | characterLiteral => exact characterLiteral_splits _
  | stringLiteral => exact stringLiteral_splits _
  | operator => exact operator_splits _

/-- The token in front of a text and the text behind it are the text. -/
theorem scan_splits (byte : UInt8) (rest : Bytes) :
    (scan byte rest).Splits (byte :: rest) :=
  (scan_scans byte rest).splits

/-! ## No token is empty -/

theorem isWordPart_of_isWordStart {code : Nat} (starts : isWordStart code = true) :
    isWordPart code = true := by
  simp only [isWordPart]
  split <;> simp [starts]

theorem wordRun_ne_nil {byte : UInt8} {rest : Bytes}
    (wellFormed : (Rune.decode byte rest).wellFormed = true)
    (starts : isWordStart (Rune.decode byte rest).code = true) :
    (wordRun 0 (byte :: rest)).1 ≠ [] := by
  simp [wordRun, wellFormed, isWordPart_of_isWordStart starts]

theorem isFractionStop_of_isDigit {byte : UInt8} (digit : Bytes.isDigit byte = true) :
    isFractionStop byte = false := by
  simp [Bytes.isDigit, UInt8.le_iff_toNat_le] at digit
  simp [isFractionStop, Bytes.isLetter, ← UInt8.toNat_inj, UInt8.le_iff_toNat_le]
  omega

theorem digitRun_ne_nil {accept : UInt8 → Bool} {byte : UInt8} {rest : Bytes}
    (accepted : accept byte = true) : (digitRun accept (byte :: rest)).1 ≠ [] := by
  simp [digitRun, List.span_eq_takeWhile_dropWhile, accepted]

theorem fraction_ne_nil {rest : Bytes} (digit : Bytes.isDigit (front rest) = true) :
    (fraction (0x2e :: rest)).1 ≠ [] := by
  have notDot : front rest ≠ 0x2e := by
    intro isDot
    rw [isDot] at digit
    exact absurd digit (by decide)
  have goesOn := isFractionStop_of_isDigit digit
  have dotted : front (0x2e :: rest) = 0x2e := rfl
  simp [fraction, dotted, notDot, goesOn]

theorem decimalSuffix_ne_nil {fractional : Bool} {read text : Bytes} (some_read : read ≠ []) :
    (decimalSuffix fractional read text).text ≠ [] := by
  simp only [decimalSuffix]
  repeat' split
  all_goals simp [some_read]

theorem decimal_ne_nil {byte : UInt8} {rest : Bytes}
    (starts : (Bytes.isDigit byte || (byte = 0x2e && Bytes.isDigit (front rest))) = true) :
    (decimal (byte :: rest)).text ≠ [] := by
  have some_read : (digitRun Bytes.isDigit (byte :: rest)).1 ++
      (fraction (digitRun Bytes.isDigit (byte :: rest)).2).1 ≠ [] := by
    by_cases digit : Bytes.isDigit byte = true
    · simp [digitRun_ne_nil digit]
    · simp only [digit, Bool.false_or, Bool.and_eq_true, decide_eq_true_eq] at starts
      obtain ⟨rfl, next⟩ := starts
      have none_read : digitRun Bytes.isDigit (0x2e :: rest) = ([], 0x2e :: rest) := by
        simp [digitRun, List.span_eq_takeWhile_dropWhile, digit]
      simp [none_read, fraction_ne_nil next]
  simp only [decimal]
  split
  · split
    · exact decimalSuffix_ne_nil (by simp_all)
    · simp_all
  · exact decimalSuffix_ne_nil some_read

theorem hexadecimal_ne_nil (byte : UInt8) (rest : Bytes) :
    (hexadecimal (byte :: rest)).text ≠ [] := by
  simp only [hexadecimal]
  repeat' split
  all_goals simp

theorem binary_ne_nil (byte : UInt8) (rest : Bytes) : (binary (byte :: rest)).text ≠ [] := by
  simp only [binary]
  split <;> simp

theorem number_ne_nil {byte : UInt8} {rest : Bytes}
    (starts : (Bytes.isDigit byte || (byte = 0x2e && Bytes.isDigit (front rest))) = true) :
    (number (byte :: rest)).text ≠ [] := by
  simp only [number]
  split
  · exact hexadecimal_ne_nil byte rest
  · split
    · exact binary_ne_nil byte rest
    · exact decimal_ne_nil starts

theorem characterLiteral_ne_nil (byte : UInt8) (rest : Bytes) :
    (characterLiteral (byte :: rest)).text ≠ [] := by
  simp only [characterLiteral]
  repeat' split
  all_goals simp

theorem stringLiteral_ne_nil (byte : UInt8) (rest : Bytes) :
    (stringLiteral (byte :: rest)).text ≠ [] := by
  simp only [stringLiteral]
  split <;> simp

theorem operator_ne_nil (byte : UInt8) (rest : Bytes) : (operator (byte :: rest)).text ≠ [] := by
  have spelled : ∀ kind ∈ operators, kind.name.utf8ByteSize ≠ 0 := by decide
  simp only [operator]
  split
  · rename_i kind found
    simpa using spelled kind (List.mem_of_find?_eq_some found)
  · simp

theorem Scans.ne_nil {byte : UInt8} {rest : Bytes} {found : Scan} (read : Scans byte rest found) :
    found.text ≠ [] := by
  cases read with
  | lineComment | comment | unclosed => simp
  | blanks blank => simp [Lexer.blanks, List.span_eq_takeWhile_dropWhile, blank]
  | word wellFormed starts => exact wordRun_ne_nil wellFormed starts
  | stray =>
      have positive := Rune.decode_size_pos byte rest
      simp
      omega
  | number starts => exact number_ne_nil starts
  | characterLiteral => exact characterLiteral_ne_nil byte rest
  | stringLiteral => exact stringLiteral_ne_nil byte rest
  | operator => exact operator_ne_nil byte rest

/-- The token in front of a text that is not empty takes at least one byte. -/
theorem scan_ne_nil (byte : UInt8) (rest : Bytes) : (scan byte rest).text ≠ [] :=
  (scan_scans byte rest).ne_nil

/-! ## No token is an end token -/

/-- What is read as a word is an identifier or a reserved one. -/
theorem word_kind (text : Bytes) : (word text).kind ∈ .ident :: Token.Kind.words := by
  simp only [word, Token.Kind.ofWord]
  cases found : Token.Kind.words.find? fun kind =>
      Bytes.ofString kind.name == (wordRun 0 text).1 with
  | none => exact List.mem_cons_self
  | some kind => exact List.mem_cons_of_mem _ (List.mem_of_find?_eq_some found)

/-- The kinds of numbers, and of what is not quite one. -/
def numberKinds : List Token.Kind :=
  [.intLiteral, .longLiteral, .floatLiteral, .doubleLiteral, .error]

theorem checked_mem_numberKinds {valid : Bool} {kind : Token.Kind} (member : kind ∈ numberKinds) :
    (if valid = true then kind else .error) ∈ numberKinds := by
  split
  · exact member
  · decide

theorem decimalSuffix_kind (fractional : Bool) (read text : Bytes) :
    (decimalSuffix fractional read text).kind ∈ numberKinds := by
  simp only [decimalSuffix]
  repeat' split
  all_goals simp [numberKinds]

theorem decimal_kind (text : Bytes) : (decimal text).kind ∈ numberKinds := by
  simp only [decimal]
  split
  · split
    · exact decimalSuffix_kind _ _ _
    · simp [numberKinds]
  · exact decimalSuffix_kind _ _ _

theorem hexadecimal_kind (text : Bytes) : (hexadecimal text).kind ∈ numberKinds := by
  simp only [hexadecimal]
  split
  · split
    · simp [numberKinds]
    · split
      · exact checked_mem_numberKinds (by decide)
      · split
        · exact checked_mem_numberKinds (by decide)
        · exact checked_mem_numberKinds (by decide)
  · split
    · simp [numberKinds]
    · split
      · exact checked_mem_numberKinds (by decide)
      · exact checked_mem_numberKinds (by decide)

theorem binary_kind (text : Bytes) : (binary text).kind ∈ numberKinds := by
  simp only [binary]
  split
  · exact checked_mem_numberKinds (by decide)
  · exact checked_mem_numberKinds (by decide)

/-- What is read as a number is one or not quite one. -/
theorem number_kind (text : Bytes) : (number text).kind ∈ numberKinds := by
  simp only [number]
  split
  · exact hexadecimal_kind text
  · split
    · exact binary_kind text
    · exact decimal_kind text

/-- What is read as an operator is one or an error. -/
theorem operator_kind (text : Bytes) : (operator text).kind ∈ .error :: operators := by
  simp only [operator]
  split
  · rename_i kind found
    exact List.mem_cons_of_mem _ (List.mem_of_find?_eq_some found)
  · exact List.mem_cons_self

/-- What starts with an apostrophe is a character or an error. -/
theorem characterLiteral_kind (text : Bytes) :
    (characterLiteral text).kind ∈ [.charLiteral, .error] := by
  simp only [characterLiteral]
  repeat' split
  all_goals simp

/-- What starts with a quote is a string or an error. -/
theorem stringLiteral_kind (text : Bytes) :
    (stringLiteral text).kind ∈ [.stringLiteral, .error] := by
  simp only [stringLiteral]
  repeat' split
  all_goals simp

theorem Scans.kind_ne_eof {byte : UInt8} {rest : Bytes} {found : Scan}
    (read : Scans byte rest found) : found.kind ≠ .eof := by
  cases read with
  | lineComment | comment | unclosed | blanks | stray => exact Token.Kind.noConfusion
  | word => exact ne_of_mem_of_not_mem (word_kind _) (by decide)
  | number => exact ne_of_mem_of_not_mem (number_kind _) (by decide)
  | characterLiteral => exact ne_of_mem_of_not_mem (characterLiteral_kind _) (by decide)
  | stringLiteral => exact ne_of_mem_of_not_mem (stringLiteral_kind _) (by decide)
  | operator => exact ne_of_mem_of_not_mem (operator_kind _) (by decide)

/-- Only the end of the text gives an end token. -/
theorem scan_kind_ne_eof (byte : UInt8) (rest : Bytes) : (scan byte rest).kind ≠ .eof :=
  (scan_scans byte rest).kind_ne_eof

end Lexer

end JavaFront
