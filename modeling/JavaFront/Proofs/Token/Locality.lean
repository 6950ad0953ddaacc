import JavaFront.Proofs.Token.Partition
import Mathlib.Data.List.TakeWhile

/-!
# Tokens in a shorter text

A proper token is found again when the text behind it ends early: no reader
looks so far ahead that the end of the text would change its mind. There is one
exception. A number takes a dot that is the last byte of the text, but leaves
it alone where a name follows, so the text must not end with that dot.

Tokens that stand side by side are therefore found again when the text they
cover is read on its own.
-/

namespace JavaFront

namespace Rune

/-- A text that ends early starts with the same rune, unless it cuts that rune
off. -/
theorem decode_isPrefix_cases {first : UInt8} {shorter text : Bytes}
    (isPrefix : shorter <+: text) :
    decode first text = decode first shorter ∨
      decode first shorter = malformed ∧ shorter.length + 1 < (decode first text).size := by
  obtain ⟨tail, rfl⟩ := isPrefix
  rcases shorter with _ | ⟨second, _ | ⟨third, _ | ⟨fourth, shorter⟩⟩⟩
  case cons.cons.cons => exact .inl rfl
  all_goals
    simp only [decode, List.nil_append, List.cons_append]
    repeat' split
  all_goals first
    | exact .inl rfl
    | exact .inr ⟨rfl, by simp⟩

theorem decode_of_wellFormed {first : UInt8} {shorter text : Bytes} (isPrefix : shorter <+: text)
    (wellFormed : (decode first shorter).wellFormed = true) :
    decode first text = decode first shorter := by
  rcases decode_isPrefix_cases isPrefix with same | ⟨broken, -⟩
  · exact same
  · rw [broken] at wellFormed
    cases wellFormed

theorem decode_of_size_le {first : UInt8} {shorter text : Bytes} (isPrefix : shorter <+: text)
    (enough : (decode first text).size ≤ shorter.length + 1) :
    decode first shorter = decode first text := by
  rcases decode_isPrefix_cases isPrefix with same | ⟨-, tooShort⟩
  · exact same.symm
  · omega

/-- The bytes of a rune stand in the text. -/
theorem decode_size_le (first : UInt8) (text : Bytes) :
    (decode first text).size ≤ text.length + 1 := by
  simp only [decode]
  repeat' split
  all_goals simp [malformed]

end Rune

namespace Lexer

/-! ## Fronts -/

theorem front_of_isPrefix {shorter text : Bytes} (isPrefix : shorter <+: text) :
    shorter = [] ∨ front shorter = front text := by
  obtain ⟨tail, rfl⟩ := isPrefix
  cases shorter with
  | nil => exact .inl rfl
  | cons byte shorter => exact .inr rfl

/-- What does not stand in front of a text does not stand in front of a shorter
one, which may be empty. -/
theorem front_accept_of_isPrefix (accept : UInt8 → Bool) {shorter text : Bytes}
    (isPrefix : shorter <+: text) (zero : accept 0 = false)
    (rejects : accept (front text) = false) :
    accept (front shorter) = false := by
  rcases front_of_isPrefix isPrefix with rfl | same
  · exact zero
  · rw [same]
    exact rejects

theorem front_ne_of_isPrefix {byte : UInt8} {shorter text : Bytes} (isPrefix : shorter <+: text)
    (proper : byte ≠ 0) (different : front text ≠ byte) : front shorter ≠ byte := by
  have rejects := front_accept_of_isPrefix (· = byte) isPrefix
    (by simpa using proper.symm) (by simpa using different)
  simpa using rejects

theorem startsWith_of_isPrefix {small capital : UInt8} {shorter text : Bytes}
    (isPrefix : shorter <+: text) (proper : small ≠ 0 ∧ capital ≠ 0)
    (rejects : startsWith small capital text = false) :
    startsWith small capital shorter = false := by
  simp only [startsWith, Bool.or_eq_false_iff, decide_eq_false_iff_not] at rejects ⊢
  exact ⟨front_ne_of_isPrefix isPrefix proper.1 rejects.1,
    front_ne_of_isPrefix isPrefix proper.2 rejects.2⟩

/-! ## Runs, comments and words -/

/-- A run ends where it ended, or with the text. -/
theorem span_local (accept : UInt8 → Bool) {text shorter : Bytes}
    (isPrefix : shorter <+: (text.span accept).2) :
    ((text.span accept).1 ++ shorter).span accept = ((text.span accept).1, shorter) := by
  rw [List.span_eq_takeWhile_dropWhile] at isPrefix ⊢
  rw [List.span_eq_takeWhile_dropWhile]
  have inside : ∀ byte ∈ text.takeWhile accept, accept byte = true :=
    fun byte member => List.mem_takeWhile_imp member
  rw [List.takeWhile_append_of_pos inside, List.dropWhile_append_of_pos inside]
  cases shorter with
  | nil => simp
  | cons byte shorter =>
      obtain ⟨tail, same⟩ := isPrefix
      have rejects : accept byte = false := by
        have head := List.head?_dropWhile_not accept text
        dsimp only at same
        rw [← same] at head
        exact head
      simp [rejects]

theorem blanks_local {text shorter : Bytes} (isPrefix : shorter <+: (blanks text).2) :
    blanks ((blanks text).1 ++ shorter) = ((blanks text).1, shorter) :=
  span_local _ isPrefix

theorem lineRest_local {text shorter : Bytes} (isPrefix : shorter <+: (lineRest text).2) :
    lineRest ((lineRest text).1 ++ shorter) = ((lineRest text).1, shorter) :=
  span_local _ isPrefix

theorem commentRest?_ne_nil {text read rest : Bytes}
    (closed : commentRest? text = some (read, rest)) : read ≠ [] := by
  cases text with
  | nil => simp [commentRest?] at closed
  | cons byte text =>
      simp only [commentRest?] at closed
      split at closed
      · cases closed
        simp
      · obtain ⟨_, _, same⟩ := Option.map_eq_some_iff.mp closed
        cases same
        simp

theorem commentRest?_local {text read rest : Bytes}
    (closed : commentRest? text = some (read, rest)) (other : Bytes) :
    commentRest? (read ++ other) = some (read, other) := by
  induction text generalizing read rest with
  | nil => simp [commentRest?] at closed
  | cons byte text ih =>
      simp only [commentRest?] at closed
      split at closed
      · rename_i ends
        simp only [Bool.and_eq_true, decide_eq_true_eq] at ends
        cases closed
        simp [commentRest?, ends.1]
      · rename_i goesOn
        obtain ⟨⟨tailRead, tailRest⟩, tailClosed, pairEq⟩ := Option.map_eq_some_iff.mp closed
        cases pairEq
        have sameHead : (tailRead ++ other).head? = text.head? := by
          rw [← commentRest?_append tailClosed]
          cases tailRead with
          | nil => exact absurd rfl (commentRest?_ne_nil tailClosed)
          | cons next tailRead => rfl
        simp only [List.cons_append, commentRest?, sameHead]
        rw [if_neg goesOn, ih tailClosed]
        rfl

theorem le_length_wordRun {skipped : Nat} {text : Bytes} (inside : skipped ≤ text.length) :
    skipped ≤ (wordRun skipped text).1.length := by
  induction text generalizing skipped with
  | nil => simpa [wordRun] using inside
  | cons byte text ih =>
      cases skipped with
      | zero => exact Nat.zero_le _
      | succ skipped =>
          have := ih (Nat.le_of_succ_le_succ inside)
          simp only [wordRun, List.length_cons]
          omega

/-- A word ends where it ended, or with the text. -/
theorem wordRun_local (skipped : Nat) {text shorter : Bytes}
    (isPrefix : shorter <+: (wordRun skipped text).2) :
    wordRun skipped ((wordRun skipped text).1 ++ shorter) =
      ((wordRun skipped text).1, shorter) := by
  induction text generalizing skipped with
  | nil =>
      have empty : shorter = [] := by
        cases skipped <;> exact List.prefix_nil.mp isPrefix
      cases skipped <;> simp [wordRun, empty]
  | cons byte text ih =>
      cases skipped with
      | succ skipped =>
          simp only [wordRun] at isPrefix ⊢
          simp only [List.cons_append, wordRun, ih skipped isPrefix]
      | zero =>
          simp only [wordRun] at isPrefix ⊢
          split at isPrefix
          · rename_i accepted
            rw [if_pos accepted]
            have again := ih _ isPrefix
            have whole :
                (wordRun ((Rune.decode byte text).size - 1) text).1 ++ shorter <+: text := by
              have parts := wordRun_append ((Rune.decode byte text).size - 1) text
              obtain ⟨tail, same⟩ := isPrefix
              exact ⟨tail, by rw [List.append_assoc, same, parts]⟩
            have size := Rune.decode_size_le byte text
            have read := le_length_wordRun
              (show (Rune.decode byte text).size - 1 ≤ text.length by omega)
            have sameRune : Rune.decode byte
                ((wordRun ((Rune.decode byte text).size - 1) text).1 ++ shorter) =
                  Rune.decode byte text := by
              apply Rune.decode_of_size_le whole
              rw [List.length_append]
              omega
            simp only [List.cons_append, wordRun, sameRune]
            rw [if_pos accepted, again]
          · rename_i rejected
            rw [if_neg rejected]
            cases shorter with
            | nil => rfl
            | cons next shorter =>
                obtain ⟨rfl, behind⟩ := List.cons_prefix_cons.mp isPrefix
                simp only [List.nil_append, wordRun]
                rw [if_neg]
                intro accepted
                apply rejected
                rw [Rune.decode_of_wellFormed behind (Bool.and_eq_true_iff.mp accepted).1]
                exact accepted

/-! ## Numbers -/

theorem digitRun_local {accept : UInt8 → Bool} {text shorter : Bytes}
    (isPrefix : shorter <+: (digitRun accept text).2) :
    digitRun accept ((digitRun accept text).1 ++ shorter) = ((digitRun accept text).1, shorter) :=
  span_local _ isPrefix

theorem sign_local {text shorter : Bytes} (isPrefix : shorter <+: (sign text).2) :
    sign ((sign text).1 ++ shorter) = ((sign text).1, shorter) := by
  cases text with
  | nil =>
      rw [List.prefix_nil.mp isPrefix]
      rfl
  | cons byte text =>
      simp only [sign] at isPrefix ⊢
      split at isPrefix
      · rename_i signs
        simp [signs]
      · rename_i plain
        rw [if_neg plain]
        cases shorter with
        | nil => rfl
        | cons next shorter =>
            obtain ⟨rfl, -⟩ := List.cons_prefix_cons.mp isPrefix
            simp [plain]

theorem front_append_of_ne_nil {read : Bytes} (some_read : read ≠ []) (text : Bytes) :
    front (read ++ text) = front read := by
  cases read with
  | nil => exact absurd rfl some_read
  | cons byte read => rfl

theorem exponent_local {text shorter : Bytes} (complete : (exponent text).1 = true)
    (isPrefix : shorter <+: (exponent text).2.2) :
    exponent ((exponent text).2.1 ++ shorter) = (true, (exponent text).2.1, shorter) := by
  cases text with
  | nil => cases complete
  | cons mark text =>
      have digit : Bytes.isDigit (front (sign text).2) = true := by
        by_contra none
        simp [exponent, none] at complete
      simp only [exponent, List.drop_succ_cons, List.drop_zero, digit, if_true] at isPrefix ⊢
      have digits := digitRun_append Bytes.isDigit (sign text).2
      have some_read : (digitRun Bytes.isDigit (sign text).2).1 ≠ [] := by
        cases rest : (sign text).2 with
        | nil =>
            rw [rest] at digit
            cases digit
        | cons byte tail =>
            rw [rest] at digit
            exact digitRun_ne_nil digit
      have signs : sign ((sign text).1 ++ ((digitRun Bytes.isDigit (sign text).2).1 ++ shorter)) =
          ((sign text).1, (digitRun Bytes.isDigit (sign text).2).1 ++ shorter) := by
        apply sign_local
        obtain ⟨tail, same⟩ := isPrefix
        exact ⟨tail, by rw [List.append_assoc, same, digits]⟩
      have sameFront : front ((digitRun Bytes.isDigit (sign text).2).1 ++ shorter) =
          front (sign text).2 := by
        rw [front_append_of_ne_nil some_read, ← front_append_of_ne_nil some_read, digits]
      simp only [List.take_succ_cons, List.take_zero, List.append_assoc, List.cons_append,
        List.nil_append, List.drop_succ_cons, List.drop_zero, signs, sameFront, digit, if_true,
        digitRun_local isPrefix]

/-- A dot takes the digits behind it with it, or is left alone. -/
theorem fraction_cons (byte : UInt8) (text : Bytes) :
    fraction (byte :: text) =
      if byte = 0x2e && front text != 0x2e && !isFractionStop (front text) then
        (0x2e :: (digitRun Bytes.isDigit text).1, (digitRun Bytes.isDigit text).2)
      else ([], byte :: text) :=
  rfl

/-- A dot at the very end of the text would be taken for the point of a
number. -/
theorem fraction_local {text shorter : Bytes} (isPrefix : shorter <+: (fraction text).2)
    (notDot : shorter ≠ [0x2e]) :
    fraction ((fraction text).1 ++ shorter) = ((fraction text).1, shorter) := by
  cases text with
  | nil =>
      rw [List.prefix_nil.mp isPrefix]
      rfl
  | cons byte text =>
      rw [fraction_cons] at isPrefix ⊢
      by_cases point : (byte = 0x2e && front text != 0x2e && !isFractionStop (front text)) = true
      · rw [if_pos point] at isPrefix ⊢
        have behind : (digitRun Bytes.isDigit text).1 ++ shorter <+: text := by
          have digits := digitRun_append Bytes.isDigit text
          obtain ⟨tail, same⟩ := isPrefix
          exact ⟨tail, by rw [List.append_assoc, same, digits]⟩
        simp only [Bool.and_eq_true, decide_eq_true_eq, bne_iff_ne, Bool.not_eq_true'] at point
        have noDot := front_ne_of_isPrefix behind (by decide) point.1.2
        have noStop := front_accept_of_isPrefix isFractionStop behind (by decide) point.2
        rw [List.cons_append, fraction_cons, digitRun_local isPrefix,
          if_pos (by simp [noDot, noStop])]
      · rw [if_neg point] at isPrefix ⊢
        rcases shorter with _ | ⟨first, _ | ⟨next, shorter⟩⟩
        · rfl
        · rw [List.nil_append, fraction_cons, if_neg]
          intro taken
          simp only [Bool.and_eq_true, decide_eq_true_eq] at taken
          exact notDot (by rw [taken.1.1])
        · obtain ⟨rfl, tail, rfl⟩ := List.cons_prefix_cons.mp isPrefix
          exact if_neg point

theorem startsWith_cases {small capital : UInt8} {text : Bytes} (proper : small ≠ 0 ∧ capital ≠ 0)
    (starts : startsWith small capital text = true) :
    ∃ byte tail, text = byte :: tail ∧ (byte = small ∨ byte = capital) := by
  cases text with
  | nil => simp [startsWith, front, proper.1.symm, proper.2.symm] at starts
  | cons byte tail => exact ⟨byte, tail, rfl, by simpa [startsWith, front] using starts⟩

/-- A reader goes on by one byte, which is no dot, or not at all; the byte in
front tells. -/
def Trails (reader : Bytes → Scan) (read text : Bytes) : Prop :=
  (∃ kind byte tail, text = byte :: tail ∧ byte ≠ 0x2e ∧
    ∀ other, reader (byte :: other) = ⟨kind, read ++ [byte], other⟩) ∨
  ∃ kind, ∀ shorter, shorter <+: text → reader shorter = ⟨kind, read, shorter⟩

namespace Trails

variable {reader : Bytes → Scan} {read text shorter : Bytes}

theorem ends (kind : Token.Kind) (read text : Bytes) :
    Trails (fun text => ⟨kind, read, text⟩) read text :=
  .inr ⟨kind, fun _ _ => rfl⟩

theorem suffix (small capital : UInt8) (proper : small ≠ 0 ∧ capital ≠ 0)
    (noDot : small ≠ 0x2e ∧ capital ≠ 0x2e) (kind : Token.Kind)
    (trails : Trails reader read text) :
    Trails (fun text =>
      if startsWith small capital text then ⟨kind, read ++ text.take 1, text.drop 1⟩
      else reader text) read text := by
  by_cases starts : startsWith small capital text = true
  · obtain ⟨byte, tail, rfl, spelled⟩ := startsWith_cases proper starts
    refine .inl ⟨kind, byte, tail, rfl, ?_, fun other => if_pos starts⟩
    rcases spelled with rfl | rfl
    · exact noDot.1
    · exact noDot.2
  · rw [Bool.not_eq_true] at starts
    rcases trails with ⟨kind, byte, tail, rfl, different, takes⟩ | ⟨kind, stays⟩
    · refine .inl ⟨kind, byte, tail, rfl, different, fun other => ?_⟩
      have otherwise : startsWith small capital (byte :: other) = false := starts
      simp only [otherwise, takes]
      rfl
    · refine .inr ⟨kind, fun shorter isPrefix => ?_⟩
      simp only [startsWith_of_isPrefix isPrefix proper starts, stays shorter isPrefix]
      rfl

/-- What a reader takes is a part of the token or does not stand behind it. -/
theorem exists_suffix (trails : Trails reader read text) (isPrefix : shorter <+: (reader text).rest)
    (notDot : shorter ≠ [0x2e]) :
    ∃ suffix, (reader text).text = read ++ suffix ∧ suffix ++ shorter <+: text ∧
      suffix ++ shorter ≠ [0x2e] ∧
      reader (suffix ++ shorter) = ⟨(reader text).kind, read ++ suffix, shorter⟩ := by
  rcases trails with ⟨kind, byte, tail, rfl, different, takes⟩ | ⟨kind, stays⟩
  · rw [takes] at isPrefix ⊢
    exact ⟨[byte], rfl, List.cons_prefix_cons.mpr ⟨rfl, isPrefix⟩, by simp [different],
      takes shorter⟩
  · have whole := stays text (List.prefix_refl text)
    rw [whole] at isPrefix ⊢
    exact ⟨[], (List.append_nil read).symm, isPrefix, notDot, by
      rw [List.nil_append, stays shorter isPrefix, List.append_nil]⟩

end Trails

theorem decimalSuffix_trails (fractional : Bool) (read text : Bytes) :
    Trails (decimalSuffix fractional read) read text := by
  cases fractional with
  | true =>
      have same : decimalSuffix true read = fun text =>
          if startsWith 0x66 0x46 text then ⟨.floatLiteral, read ++ text.take 1, text.drop 1⟩
          else if startsWith 0x64 0x44 text then ⟨.doubleLiteral, read ++ text.take 1, text.drop 1⟩
          else ⟨.doubleLiteral, read, text⟩ := by
        funext text
        simp [decimalSuffix]
      rw [same]
      exact .suffix _ _ (by decide) (by decide) _
        (.suffix _ _ (by decide) (by decide) _ (.ends _ _ _))
  | false =>
      have same : decimalSuffix false read = fun text =>
          if startsWith 0x66 0x46 text then ⟨.floatLiteral, read ++ text.take 1, text.drop 1⟩
          else if startsWith 0x64 0x44 text then ⟨.doubleLiteral, read ++ text.take 1, text.drop 1⟩
          else if startsWith 0x6c 0x4c text then ⟨.longLiteral, read ++ text.take 1, text.drop 1⟩
          else ⟨.intLiteral, read, text⟩ := by
        funext text
        simp [decimalSuffix]
      rw [same]
      exact .suffix _ _ (by decide) (by decide) _ (.suffix _ _ (by decide) (by decide) _
        (.suffix _ _ (by decide) (by decide) _ (.ends _ _ _)))

theorem prefix_of_append {read rest shorter text : Bytes} (splits : read ++ rest = text)
    (isPrefix : shorter <+: rest) : read ++ shorter <+: text :=
  splits ▸ (List.prefix_append_right_inj read).mpr isPrefix

/-- The exponent of a proper number starts with its mark wherever the text
ends. -/
theorem startsWith_exponent {small capital : UInt8} {text : Bytes}
    (proper : small ≠ 0 ∧ capital ≠ 0)
    (starts : startsWith small capital text = true) (other : Bytes) :
    startsWith small capital ((exponent text).2.1 ++ other) = true := by
  obtain ⟨mark, tail, rfl, -⟩ := startsWith_cases proper starts
  have marked : front ((exponent (mark :: tail)).2.1 ++ other) = mark := by
    simp only [exponent]
    split <;> rfl
  simp only [startsWith, marked]
  exact starts

theorem decimal_local {text shorter : Bytes} (proper : (decimal text).kind ≠ .error)
    (isPrefix : shorter <+: (decimal text).rest) (notDot : shorter ≠ [0x2e]) :
    decimal ((decimal text).text ++ shorter) =
      ⟨(decimal text).kind, (decimal text).text, shorter⟩ := by
  have wholeParts := digitRun_append Bytes.isDigit text
  have pointParts := fraction_append (digitRun Bytes.isDigit text).2
  have runs : ∀ other, other <+: (fraction (digitRun Bytes.isDigit text).2).2 → other ≠ [0x2e] →
      digitRun Bytes.isDigit ((digitRun Bytes.isDigit text).1 ++
          ((fraction (digitRun Bytes.isDigit text).2).1 ++ other)) =
        ((digitRun Bytes.isDigit text).1, (fraction (digitRun Bytes.isDigit text).2).1 ++ other) ∧
      fraction ((fraction (digitRun Bytes.isDigit text).2).1 ++ other) =
        ((fraction (digitRun Bytes.isDigit text).2).1, other) := by
    intro other shorter otherNotDot
    exact ⟨digitRun_local (prefix_of_append pointParts shorter), fraction_local shorter otherNotDot⟩
  simp only [decimal] at proper isPrefix ⊢
  generalize (digitRun Bytes.isDigit text).1 = whole at *
  generalize (digitRun Bytes.isDigit text).2 = rest at *
  generalize (fraction rest).1 = decimals at *
  generalize (fraction rest).2 = tail at *
  by_cases scaled : startsWith 0x65 0x45 tail = true
  · simp only [scaled, if_true] at proper isPrefix ⊢
    have powerParts := exponent_append tail
    cases complete : (exponent tail).1 with
    | false => simp [complete] at proper
    | true =>
        simp only [complete, if_true] at isPrefix ⊢
        obtain ⟨suffix, textEq, behind, -, suffixed⟩ :=
          (decimalSuffix_trails true _ _).exists_suffix isPrefix notDot
        have powered := exponent_local complete behind
        have marked := startsWith_exponent (by decide) scaled (suffix ++ shorter)
        have otherNotDot : (exponent tail).2.1 ++ (suffix ++ shorter) ≠ [0x2e] := by
          intro isDot
          rw [isDot] at marked
          cases marked
        obtain ⟨digits, point⟩ := runs _ (prefix_of_append powerParts behind) otherNotDot
        rw [textEq]
        simp only [List.append_assoc]
        simp only [digits, point, marked, powered, if_true]
        simpa only [List.append_assoc] using suffixed
  · rw [Bool.not_eq_true] at scaled
    simp only [scaled, Bool.false_eq_true, if_false] at isPrefix ⊢
    obtain ⟨suffix, textEq, behind, otherNotDot, suffixed⟩ :=
      (decimalSuffix_trails _ _ _).exists_suffix isPrefix notDot
    obtain ⟨digits, point⟩ := runs _ behind otherNotDot
    have unscaled := startsWith_of_isPrefix behind (by decide) scaled
    rw [textEq]
    simp only [List.append_assoc]
    simp only [digits, point, unscaled, Bool.false_eq_true, if_false]
    simpa only [List.append_assoc] using suffixed

theorem hexFraction_local {text shorter : Bytes} (isPrefix : shorter <+: (hexFraction text).2) :
    hexFraction ((hexFraction text).1 ++ shorter) = ((hexFraction text).1, shorter) := by
  by_cases dotted : front text = 0x2e
  · simp only [hexFraction, if_pos dotted] at isPrefix ⊢
    have again : front (0x2e :: (digitRun Bytes.isHexDigit (text.drop 1)).1 ++ shorter) = 0x2e :=
      rfl
    rw [if_pos again, List.cons_append, List.drop_succ_cons, List.drop_zero,
      digitRun_local isPrefix]
  · simp only [hexFraction, if_neg dotted] at isPrefix ⊢
    rw [List.nil_append, if_neg (front_ne_of_isPrefix isPrefix (by decide) dotted)]

theorem hexadecimal_local {first second : UInt8} {text shorter : Bytes}
    (proper : (hexadecimal (first :: second :: text)).kind ≠ .error)
    (isPrefix : shorter <+: (hexadecimal (first :: second :: text)).rest)
    (notDot : shorter ≠ [0x2e]) :
    hexadecimal ((hexadecimal (first :: second :: text)).text ++ shorter) =
      ⟨(hexadecimal (first :: second :: text)).kind, (hexadecimal (first :: second :: text)).text,
        shorter⟩ := by
  have pointParts := hexFraction_append (digitRun Bytes.isHexDigit text).2
  have runs : ∀ other, other <+: (hexFraction (digitRun Bytes.isHexDigit text).2).2 →
      digitRun Bytes.isHexDigit ((digitRun Bytes.isHexDigit text).1 ++
          ((hexFraction (digitRun Bytes.isHexDigit text).2).1 ++ other)) =
        ((digitRun Bytes.isHexDigit text).1,
          (hexFraction (digitRun Bytes.isHexDigit text).2).1 ++ other) ∧
      hexFraction ((hexFraction (digitRun Bytes.isHexDigit text).2).1 ++ other) =
        ((hexFraction (digitRun Bytes.isHexDigit text).2).1, other) := by
    intro other shorter
    exact ⟨digitRun_local (prefix_of_append pointParts shorter), hexFraction_local shorter⟩
  simp only [hexadecimal, List.drop_succ_cons, List.drop_zero, List.take_succ_cons,
    List.take_zero] at proper isPrefix ⊢
  generalize (digitRun Bytes.isHexDigit text).1 = whole at *
  generalize (digitRun Bytes.isHexDigit text).2 = rest at *
  generalize (hexFraction rest).1 = decimals at *
  generalize (hexFraction rest).2 = tail at *
  by_cases scaled : startsWith 0x70 0x50 tail = true
  · simp only [scaled, if_true] at proper isPrefix ⊢
    have powerParts := exponent_append tail
    cases complete : (exponent tail).1 with
    | false => simp [complete] at proper
    | true =>
        simp only [complete, Bool.not_true, Bool.false_eq_true, if_false] at isPrefix ⊢
        obtain ⟨suffix, textEq, behind, -, suffixed⟩ :=
          (Trails.suffix 0x66 0x46 (by decide) (by decide) _
            (.suffix 0x64 0x44 (by decide) (by decide) _ (.ends _ _ _))).exists_suffix isPrefix
              notDot
        have powered := exponent_local complete behind
        have marked := startsWith_exponent (by decide) scaled (suffix ++ shorter)
        obtain ⟨digits, point⟩ := runs _ (prefix_of_append powerParts behind)
        rw [textEq]
        simp only [List.append_assoc, List.cons_append, List.nil_append, List.drop_succ_cons,
          List.drop_zero, List.take_succ_cons, List.take_zero] at suffixed ⊢
        simp only [digits, point, marked, powered, if_true, Bool.not_true, Bool.false_eq_true,
          if_false]
        exact suffixed
  · rw [Bool.not_eq_true] at scaled
    simp only [scaled, Bool.false_eq_true, if_false] at proper isPrefix ⊢
    cases pointed : decimals.isEmpty with
    | false => simp [pointed] at proper
    | true =>
        simp only [pointed, Bool.not_true, Bool.false_eq_true, if_false] at isPrefix ⊢
        obtain ⟨suffix, textEq, behind, -, suffixed⟩ :=
          (Trails.suffix 0x6c 0x4c (by decide) (by decide) _ (.ends _ _ _)).exists_suffix isPrefix
            notDot
        obtain ⟨digits, point⟩ := runs _ behind
        have unscaled := startsWith_of_isPrefix behind (by decide) scaled
        rw [textEq]
        simp only [List.append_assoc, List.cons_append, List.nil_append, List.drop_succ_cons,
          List.drop_zero, List.take_succ_cons, List.take_zero] at suffixed ⊢
        simp only [digits, point, unscaled, pointed, Bool.not_true, Bool.false_eq_true, if_false]
        exact suffixed

theorem binary_local {first second : UInt8} {text shorter : Bytes}
    (isPrefix : shorter <+: (binary (first :: second :: text)).rest) (notDot : shorter ≠ [0x2e]) :
    binary ((binary (first :: second :: text)).text ++ shorter) =
      ⟨(binary (first :: second :: text)).kind, (binary (first :: second :: text)).text,
        shorter⟩ := by
  have runs : ∀ other, other <+: (digitRun isBinaryDigit text).2 →
      digitRun isBinaryDigit ((digitRun isBinaryDigit text).1 ++ other) =
        ((digitRun isBinaryDigit text).1, other) := fun _ => digitRun_local
  simp only [binary, List.drop_succ_cons, List.drop_zero, List.take_succ_cons,
    List.take_zero] at isPrefix ⊢
  obtain ⟨suffix, textEq, behind, -, suffixed⟩ :=
    (Trails.suffix 0x6c 0x4c (by decide) (by decide) _ (.ends _ _ _)).exists_suffix isPrefix notDot
  rw [textEq]
  simp only [List.append_assoc, List.cons_append, List.nil_append, List.drop_succ_cons,
    List.drop_zero, List.take_succ_cons, List.take_zero] at suffixed ⊢
  simp only [runs _ behind]
  exact suffixed

/-- The first byte and the one behind it tell which kind of number it is. -/
theorem number_cons (first : UInt8) (text : Bytes) :
    number (first :: text) =
      if first = 0x30 && startsWith 0x78 0x58 text then hexadecimal (first :: text)
      else if first = 0x30 && startsWith 0x62 0x42 text then binary (first :: text)
      else decimal (first :: text) :=
  rfl

theorem hexadecimal_text (first second : UInt8) (text : Bytes) :
    ∃ more, (hexadecimal (first :: second :: text)).text = first :: second :: more := by
  simp only [hexadecimal]
  repeat' split
  all_goals exact ⟨_, rfl⟩

theorem binary_text (first second : UInt8) (text : Bytes) :
    ∃ more, (binary (first :: second :: text)).text = first :: second :: more := by
  simp only [binary]
  split <;> exact ⟨_, rfl⟩

theorem number_local {first : UInt8} {text shorter : Bytes}
    (proper : (number (first :: text)).kind ≠ .error)
    (isPrefix : shorter <+: (number (first :: text)).rest) (notDot : shorter ≠ [0x2e])
    (some_read : (number (first :: text)).text ≠ []) :
    number ((number (first :: text)).text ++ shorter) =
      ⟨(number (first :: text)).kind, (number (first :: text)).text, shorter⟩ := by
  have whole : (number (first :: text)).text ++ shorter <+: first :: text :=
    prefix_of_append (number_splits _) isPrefix
  by_cases hex : (first = 0x30 && startsWith 0x78 0x58 text) = true
  · obtain ⟨second, tail, rfl, -⟩ := startsWith_cases (by decide) (Bool.and_eq_true_iff.mp hex).2
    rw [number_cons, if_pos hex] at proper isPrefix ⊢
    obtain ⟨more, textEq⟩ := hexadecimal_text first second tail
    rw [← hexadecimal_local proper isPrefix notDot, textEq, List.cons_append, number_cons]
    exact if_pos hex
  · by_cases bin : (first = 0x30 && startsWith 0x62 0x42 text) = true
    · obtain ⟨second, tail, rfl, -⟩ := startsWith_cases (by decide) (Bool.and_eq_true_iff.mp bin).2
      rw [number_cons, if_neg hex, if_pos bin] at isPrefix ⊢
      obtain ⟨more, textEq⟩ := binary_text first second tail
      rw [← binary_local isPrefix notDot, textEq, List.cons_append, number_cons]
      exact (if_neg hex).trans (if_pos bin)
    · rw [number_cons, if_neg hex, if_neg bin] at proper isPrefix some_read whole ⊢
      rw [← decimal_local proper isPrefix notDot]
      obtain ⟨byte, more, textEq⟩ := List.exists_cons_of_ne_nil some_read
      rw [textEq, List.cons_append] at whole ⊢
      obtain ⟨rfl, behind⟩ := List.cons_prefix_cons.mp whole
      have stays : ∀ small capital : UInt8, small ≠ 0 ∧ capital ≠ 0 →
          ¬ (byte = 0x30 && startsWith small capital text) = true →
          ¬ (byte = 0x30 && startsWith small capital (more ++ shorter)) = true := by
        intro small capital nonzero other taken
        obtain ⟨isZero, starts⟩ := Bool.and_eq_true_iff.mp taken
        rw [Bool.and_eq_true, not_and] at other
        rw [startsWith_of_isPrefix behind nonzero (Bool.not_eq_true _ ▸ other isZero)] at starts
        cases starts
      rw [number_cons, if_neg (stays _ _ (by decide) hex), if_neg (stays _ _ (by decide) bin)]

/-! ## Quoted literals -/

theorem stringRest_local {text : Bytes} (closed : (stringRest text).1 = true) (other : Bytes) :
    stringRest ((stringRest text).2.1 ++ other) = (true, (stringRest text).2.1, other) := by
  fun_induction stringRest text with
  | case1 => cases closed
  | case2 escaped text closed read rest tail ih =>
      rw [tail] at ih
      simp [stringRest, ih closed]
  | case3 => simp [stringRest]
  | case4 => cases closed
  | case5 byte text unescaped notQuote notEnd closed read rest tail ih =>
      rw [tail] at ih
      have plain : byte ≠ 0x5c := by
        cases text with
        | nil =>
            cases tail
            cases closed
        | cons escaped text => exact fun isMark => unescaped escaped text isMark rfl
      simp only [List.cons_append]
      rw [stringRest, if_neg notQuote, if_neg notEnd, ih closed]
      exact fun _ _ isMark => absurd isMark plain

theorem three_le_length_blockRest {text : Bytes} (closed : (blockRest text).1 = true) :
    3 ≤ (blockRest text).2.1.length := by
  fun_induction blockRest text with
  | case1 => cases closed
  | case2 escaped text closed read rest tail ih =>
      rw [tail] at ih
      exact Nat.le_trans (ih closed) (by simp; omega)
  | case3 => simp
  | case4 byte text _ _ closed read rest tail ih =>
      rw [tail] at ih
      exact Nat.le_trans (ih closed) (by simp)

theorem blockRest_local {text : Bytes} (closed : (blockRest text).1 = true) (other : Bytes) :
    blockRest ((blockRest text).2.1 ++ other) = (true, (blockRest text).2.1, other) := by
  fun_induction blockRest text with
  | case1 => cases closed
  | case2 escaped text closed read rest tail ih =>
      rw [tail] at ih
      simp [blockRest, ih closed]
  | case3 byte text _ closes =>
      simp only [Bool.and_eq_true, decide_eq_true_eq] at closes
      simp [blockRest, closes.1]
  | case4 byte text unescaped goesOn closed read rest tail ih =>
      have long := @three_le_length_blockRest text
      have parts := blockRest_append text
      rw [tail] at ih long parts
      have plain : byte ≠ 0x5c := by
        cases text with
        | nil =>
            cases tail
            cases closed
        | cons escaped text => exact fun isMark => unescaped escaped text isMark rfl
      have sameFront : (read ++ other).take 2 = text.take 2 := by
        have inside : 2 ≤ read.length := Nat.le_of_succ_le (long closed)
        rw [← parts, List.take_append_of_le_length inside, List.take_append_of_le_length inside]
      simp only [List.cons_append]
      rw [blockRest, sameFront, if_neg goesOn, ih closed]
      exact fun _ _ isMark => absurd isMark plain

theorem take_of_isPrefix {shorter text : Bytes} (isPrefix : shorter <+: text) {count : Nat}
    (enough : (shorter.take count).length = count) : text.take count = shorter.take count := by
  obtain ⟨tail, rfl⟩ := isPrefix
  rw [List.length_take] at enough
  rw [List.take_append_of_le_length (by omega)]

/-- Three quotes open a block, any other quote a string. -/
theorem stringLiteral_cons (first : UInt8) (text : Bytes) :
    stringLiteral (first :: text) =
      if (first :: text).take 3 = [0x22, 0x22, 0x22] then
        ⟨if (blockRest (text.drop 2)).1 then .stringLiteral else .error,
          (first :: text).take 3 ++ (blockRest (text.drop 2)).2.1, (blockRest (text.drop 2)).2.2⟩
      else
        ⟨if (stringRest text).1 then .stringLiteral else .error,
          first :: (stringRest text).2.1, (stringRest text).2.2⟩ := by
  simp only [stringLiteral]
  split <;> rfl

theorem stringLiteral_local {first : UInt8} {text shorter : Bytes}
    (proper : (stringLiteral (first :: text)).kind ≠ .error)
    (isPrefix : shorter <+: (stringLiteral (first :: text)).rest) :
    stringLiteral ((stringLiteral (first :: text)).text ++ shorter) =
      ⟨(stringLiteral (first :: text)).kind, (stringLiteral (first :: text)).text, shorter⟩ := by
  rw [stringLiteral_cons] at proper isPrefix ⊢
  by_cases block : (first :: text).take 3 = [0x22, 0x22, 0x22]
  · rw [if_pos block] at proper isPrefix ⊢
    have closed : (blockRest (text.drop 2)).1 = true := by
      by_contra isOpen
      simp [isOpen] at proper
    simp only [block, List.cons_append, List.nil_append, stringLiteral_cons, List.take_succ_cons,
      List.take_zero, List.drop_succ_cons, List.drop_zero, blockRest_local closed, closed, if_true]
  · rw [if_neg block] at proper isPrefix ⊢
    have closed : (stringRest text).1 = true := by
      by_contra isOpen
      simp [isOpen] at proper
    have again : ¬ (first :: ((stringRest text).2.1 ++ shorter)).take 3 = [0x22, 0x22, 0x22] := by
      intro opens
      apply block
      have whole : first :: ((stringRest text).2.1 ++ shorter) <+: first :: text :=
        List.cons_prefix_cons.mpr ⟨rfl, prefix_of_append (stringRest_append text) isPrefix⟩
      rw [take_of_isPrefix whole (by rw [opens]; rfl), opens]
    simp only [List.cons_append, stringLiteral_cons, if_neg again, stringRest_local closed, closed,
      if_true]

/-! ## Operators -/

theorem length_ofString (text : String) : (Bytes.ofString text).length = text.utf8ByteSize :=
  rfl

theorem operator_local {text shorter : Bytes} (proper : (operator text).kind ≠ .error)
    (isPrefix : shorter <+: (operator text).rest) :
    operator ((operator text).text ++ shorter) =
      ⟨(operator text).kind, (operator text).text, shorter⟩ := by
  have whole : (operator text).text ++ shorter <+: text :=
    prefix_of_append (operator_splits _) isPrefix
  simp only [operator] at proper isPrefix whole ⊢
  cases found : operators.find? fun kind => (Bytes.ofString kind.name).isPrefixOf text with
  | none => simp [found] at proper
  | some kind =>
      simp only [found] at isPrefix whole ⊢
      obtain ⟨spelled, before, behind, listed, others⟩ := List.find?_eq_some_iff_append.mp found
      have spelling : text.take kind.name.utf8ByteSize = Bytes.ofString kind.name := by
        rw [← length_ofString]
        exact (List.prefix_iff_eq_take.mp (List.isPrefixOf_iff_prefix.mp spelled)).symm
      have again : operators.find? (fun other => (Bytes.ofString other.name).isPrefixOf
          (Bytes.ofString kind.name ++ shorter)) = some kind := by
        refine List.find?_eq_some_iff_append.mpr ⟨?_, before, behind, listed, ?_⟩
        · exact List.isPrefixOf_iff_prefix.mpr (List.prefix_append _ _)
        · intro other member
          rw [spelling] at whole
          have absent := others other member
          simp only [Bool.not_eq_true', Bool.eq_false_iff, ne_eq, List.isPrefixOf_iff_prefix]
            at absent ⊢
          exact fun present => absent (present.trans whole)
      rw [spelling]
      simp only [again]
      rw [← length_ofString, List.take_left, List.drop_left]

/-! ## Characters -/

theorem takeWhile_of_isPrefix {accept : UInt8 → Bool} {shorter text : Bytes}
    (isPrefix : shorter <+: text) (enough : text.takeWhile accept <+: shorter) :
    shorter.takeWhile accept = text.takeWhile accept := by
  obtain ⟨tail, rfl⟩ := isPrefix
  rw [List.takeWhile_append] at enough ⊢
  split at enough
  · rename_i all
    rw [if_pos all]
    have same : shorter.takeWhile accept = shorter :=
      (List.takeWhile_prefix accept).eq_of_length all
    have none : tail.takeWhile accept = [] := by
      have bound := enough.length_le
      rw [List.length_append] at bound
      exact List.eq_nil_of_length_eq_zero (by omega)
    rw [same, none, List.append_nil]
  · rename_i some
    rw [if_neg some]

/-- A limited run ends where it ended, or with the text. -/
theorem takeWhile_take_local {accept : UInt8 → Bool} {count : Nat} {text shorter : Bytes}
    (isPrefix : shorter <+: text.drop ((text.take count).takeWhile accept).length) :
    (((text.take count).takeWhile accept ++ shorter).take count).takeWhile accept =
      (text.take count).takeWhile accept := by
  have whole : (text.take count).takeWhile accept ++ shorter <+: text :=
    prefix_of_append (takeWhile_take_append_drop count accept text) isPrefix
  have short : ((text.take count).takeWhile accept).length ≤ count :=
    Nat.le_trans (List.takeWhile_prefix accept).length_le (List.length_take_le count text)
  have cut : ((text.take count).takeWhile accept ++ shorter).take count <+: text.take count :=
    List.prefix_take_iff.mpr ⟨(List.take_prefix _ _).trans whole, List.length_take_le _ _⟩
  apply takeWhile_of_isPrefix cut
  rw [List.take_append, List.take_of_length_le short]
  exact List.prefix_append _ _

/-- The byte behind the mark tells which kind of escape it is. -/
theorem escape_cons (mark : UInt8) (text : Bytes) :
    escape (mark :: text) =
      if isEscapeLetter (front text) then (true, mark :: text.take 1, text.drop 1)
      else if front text = 0x75 then
        let letters := (text.span (· = 0x75)).1
        let rest := (text.span (· = 0x75)).2
        let digits := (rest.take 4).takeWhile Bytes.isHexDigit
        (digits.length = 4, mark :: (letters ++ digits), rest.drop digits.length)
      else if isOctalDigit (front text) then
        let digits := (text.take (if front text ≤ 0x33 then 3 else 2)).takeWhile isOctalDigit
        (true, mark :: digits, text.drop digits.length)
      else (false, [mark], text) :=
  rfl

theorem escape_local {mark : UInt8} {text shorter : Bytes}
    (proper : (escape (mark :: text)).1 = true)
    (isPrefix : shorter <+: (escape (mark :: text)).2.2) :
    ∃ tail, (escape (mark :: text)).2.1 = mark :: tail ∧
      escape (mark :: (tail ++ shorter)) = (true, mark :: tail, shorter) := by
  rw [escape_cons] at proper isPrefix ⊢
  cases text with
  | nil => cases proper
  | cons head text =>
      have headed : ∀ other, front (head :: other) = head := fun _ => rfl
      rw [headed] at proper isPrefix ⊢
      by_cases letter : isEscapeLetter head = true
      · rw [if_pos letter] at isPrefix ⊢
        refine ⟨[head], rfl, ?_⟩
        rw [escape_cons, List.cons_append, headed, if_pos letter]
        rfl
      · rw [if_neg letter] at proper isPrefix ⊢
        by_cases unicode : head = 0x75
        · rw [if_pos unicode] at proper isPrefix ⊢
          have four := of_decide_eq_true proper
          have opens : ∃ more, ((head :: text).span (· = 0x75)).1 = head :: more := by
            rw [List.span_eq_takeWhile_dropWhile, List.takeWhile_cons_of_pos (by simp [unicode])]
            exact ⟨_, rfl⟩
          have digits := takeWhile_take_append_drop 4 Bytes.isHexDigit
            ((head :: text).span (· = 0x75)).2
          have runs := takeWhile_take_local isPrefix
          have spans := span_local (· = 0x75) (prefix_of_append digits isPrefix)
          dsimp only at four ⊢
          generalize ((head :: text).span (· = 0x75)).1 = letters at *
          generalize ((head :: text).span (· = 0x75)).2 = rest at *
          generalize (rest.take 4).takeWhile Bytes.isHexDigit = hex at *
          obtain ⟨more, rfl⟩ := opens
          refine ⟨_, rfl, ?_⟩
          rw [escape_cons, List.append_assoc, List.cons_append, headed, if_neg letter,
            if_pos unicode, ← List.cons_append, spans]
          dsimp only
          rw [runs, List.drop_left, decide_eq_true four]
        · rw [if_neg unicode] at proper isPrefix ⊢
          by_cases octal : isOctalDigit head = true
          · rw [if_pos octal] at isPrefix ⊢
            have runs := takeWhile_take_local isPrefix
            have opens : ∃ more, ((head :: text).take (if head ≤ 0x33 then 3 else 2)).takeWhile
                isOctalDigit = head :: more := by
              split <;> simp [octal]
            dsimp only
            generalize ((head :: text).take (if head ≤ 0x33 then 3 else 2)).takeWhile
              isOctalDigit = run at *
            obtain ⟨more, rfl⟩ := opens
            refine ⟨_, rfl, ?_⟩
            rw [escape_cons, List.cons_append, headed, if_neg letter, if_neg unicode, if_pos octal,
              ← List.cons_append]
            dsimp only
            rw [runs, List.drop_left]
          · rw [if_neg octal] at proper
            cases proper

theorem character_cons (byte : UInt8) (text : Bytes) :
    character (byte :: text) =
      if byte = 0x27 || byte = 0x0a || byte = 0x0d then (false, [], byte :: text)
      else if byte = 0x5c then escape (byte :: text)
      else
        (true, (byte :: text).take (Rune.decode byte text).size,
          (byte :: text).drop (Rune.decode byte text).size) :=
  rfl

theorem character_local {text shorter : Bytes} (proper : (character text).1 = true)
    (isPrefix : shorter <+: (character text).2.2) :
    character ((character text).2.1 ++ shorter) = (true, (character text).2.1, shorter) := by
  cases text with
  | nil => cases proper
  | cons byte text =>
      have whole := prefix_of_append (character_append (byte :: text)) isPrefix
      rw [character_cons] at proper isPrefix whole ⊢
      by_cases ends : (byte = 0x27 || byte = 0x0a || byte = 0x0d) = true
      · simp [ends] at proper
      · rw [if_neg ends] at proper isPrefix whole ⊢
        by_cases escaped : byte = 0x5c
        · rw [if_pos escaped] at proper isPrefix whole ⊢
          obtain ⟨tail, textEq, again⟩ := escape_local proper isPrefix
          rw [textEq, List.cons_append, character_cons, if_neg ends, if_pos escaped, again]
        · rw [if_neg escaped] at isPrefix whole ⊢
          have size := Rune.decode_size_le byte text
          have positive := Rune.decode_size_pos byte text
          obtain ⟨more, textEq⟩ : ∃ more, (byte :: text).take (Rune.decode byte text).size =
              byte :: more := by
            obtain ⟨less, sizeEq⟩ := Nat.exists_eq_add_of_lt positive
            rw [sizeEq]
            exact ⟨_, rfl⟩
          have length := congrArg List.length textEq
          dsimp only at whole ⊢
          rw [textEq] at whole ⊢
          obtain ⟨-, behind⟩ := List.cons_prefix_cons.mp whole
          simp only [List.length_take, List.length_cons] at length
          have sameRune : Rune.decode byte (more ++ shorter) = Rune.decode byte text := by
            refine Rune.decode_of_size_le behind ?_
            rw [List.length_append]
            omega
          have exact_size : (Rune.decode byte text).size = (byte :: more).length := by
            rw [List.length_cons]
            omega
          rw [List.cons_append, character_cons, if_neg ends, if_neg escaped, sameRune,
            exact_size, ← List.cons_append, List.take_left, List.drop_left]

theorem characterLiteral_local {first : UInt8} {text shorter : Bytes}
    (proper : (characterLiteral (first :: text)).kind ≠ .error)
    (isPrefix : shorter <+: (characterLiteral (first :: text)).rest) :
    characterLiteral ((characterLiteral (first :: text)).text ++ shorter) =
      ⟨(characterLiteral (first :: text)).kind, (characterLiteral (first :: text)).text,
        shorter⟩ := by
  simp only [characterLiteral, List.drop_succ_cons, List.drop_zero, List.take_succ_cons,
    List.take_zero] at proper isPrefix ⊢
  by_cases closed : ((character text).1 && front (character text).2.2 = 0x27) = true
  · simp only [closed, if_true] at isPrefix ⊢
    obtain ⟨found, quoted⟩ := Bool.and_eq_true_iff.mp closed
    cases behind : (character text).2.2 with
    | nil => simp [behind, front] at quoted
    | cons quote tail =>
        have isQuote : quote = 0x27 := by simpa [behind, front] using quoted
        have inside : quote :: shorter <+: (character text).2.2 := by
          rw [behind] at isPrefix ⊢
          exact List.cons_prefix_cons.mpr ⟨rfl, isPrefix⟩
        have again := character_local found inside
        rw [isQuote] at again ⊢
        simp [again, front]
  · rw [if_neg closed] at proper
    split at proper <;> exact absurd rfl proper

/-! ## Tokens -/

/-- The first byte is read, whatever comes behind it. -/
theorem scan_text (byte : UInt8) (rest : Bytes) : ∃ tail, (scan byte rest).text = byte :: tail := by
  obtain ⟨first, tail, textEq⟩ := List.exists_cons_of_ne_nil (scan_ne_nil byte rest)
  have splits := scan_splits byte rest
  rw [Scan.Splits, textEq, List.cons_append, List.cons.injEq] at splits
  exact ⟨tail, splits.1 ▸ textEq⟩

theorem word_local {text shorter : Bytes} (isPrefix : shorter <+: (word text).rest) :
    word ((word text).text ++ shorter) = ⟨(word text).kind, (word text).text, shorter⟩ := by
  simp only [word] at isPrefix ⊢
  rw [wordRun_local 0 isPrefix]

/-- The character that a word starts with is read again from the word and any part
of what stands behind it. -/
theorem decode_word_local {byte : UInt8} {rest shorter tail : Bytes}
    (wellFormed : (Rune.decode byte rest).wellFormed = true)
    (starts : isWordStart (Rune.decode byte rest).code = true)
    (textEq : (word (byte :: rest)).text = byte :: tail) (behind : tail ++ shorter <+: rest) :
    Rune.decode byte (tail ++ shorter) = Rune.decode byte rest := by
  apply Rune.decode_of_size_le behind
  have size := Rune.decode_size_le byte rest
  have read := le_length_wordRun
    (show (Rune.decode byte rest).size - 1 ≤ rest.length by omega)
  have tailEq : (wordRun ((Rune.decode byte rest).size - 1) rest).1 = tail := by
    simpa [word, wordRun, wellFormed, isWordPart_of_isWordStart starts] using textEq
  rw [tailEq] at read
  rw [List.length_append]
  omega

/-- A number that starts with its point goes on behind it. -/
theorem number_text_ne_dot {rest : Bytes} (digit : Bytes.isDigit (front rest) = true) :
    (number (0x2e :: rest)).text ≠ [0x2e] := by
  have notDot : front rest ≠ 0x2e := by
    intro isDot
    rw [isDot] at digit
    cases digit
  have point : fraction (0x2e :: rest) =
      (0x2e :: (digitRun Bytes.isDigit rest).1, (digitRun Bytes.isDigit rest).2) := by
    rw [fraction_cons, if_pos (by simp [notDot, isFractionStop_of_isDigit digit])]
  have some_read : (digitRun Bytes.isDigit rest).1 ≠ [] := by
    cases rest with
    | nil => cases digit
    | cons byte rest => exact digitRun_ne_nil digit
  have none_read : digitRun Bytes.isDigit (0x2e :: rest) = ([], 0x2e :: rest) := by
    have notDigit : Bytes.isDigit 0x2e = false := by decide
    simp [digitRun, List.span_eq_takeWhile_dropWhile, notDigit]
  rw [number_cons, if_neg (by simp), if_neg (by simp)]
  simp only [decimal, none_read, point, decimalSuffix]
  repeat' split
  all_goals simp [some_read]

/-- What starts no other token starts none in front of any part of what stands
behind it. -/
theorem StartsOperator.of_prefix {byte : UInt8} {rest shorter : Bytes}
    (starts : StartsOperator byte rest) (isPrefix : shorter <+: rest) :
    StartsOperator byte shorter where
  comment slash := by
    obtain ⟨noLine, noBlock⟩ := starts.comment slash
    exact ⟨front_ne_of_isPrefix isPrefix (by decide) noLine,
      front_ne_of_isPrefix isPrefix (by decide) noBlock⟩
  blank := starts.blank
  narrow := starts.narrow
  word := starts.word
  number := by
    have noNumber := starts.number
    simp only [Bool.or_eq_false_iff, Bool.and_eq_false_imp, decide_eq_true_eq] at noNumber ⊢
    exact noNumber.imp_right fun noDigit isDot =>
      front_accept_of_isPrefix Bytes.isDigit isPrefix (by decide) (noDigit isDot)
  character := starts.character
  string := starts.string

/-- A token is read again from its text and any part of what stands behind it,
unless that is a dot alone. -/
theorem Scans.local {byte : UInt8} {rest shorter tail : Bytes} {found : Scan}
    (read : Scans byte rest found) (textEq : found.text = byte :: tail)
    (proper : found.kind ≠ .error) (isPrefix : shorter <+: found.rest)
    (notDot : shorter ≠ [0x2e]) :
    Scans byte (tail ++ shorter) ⟨found.kind, found.text, shorter⟩ := by
  have behind : tail ++ shorter <+: rest := by
    have whole := prefix_of_append read.splits isPrefix
    rw [textEq] at whole
    exact (List.cons_prefix_cons.mp whole).2
  cases read with
  | lineComment slash opens =>
      obtain ⟨text, rfl⟩ := exists_of_front opens (by decide)
      obtain rfl : 0x2f :: (lineRest text).1 = tail := (List.cons.inj textEq).2
      have again : Scans byte (0x2f :: ((lineRest text).1 ++ shorter)) _ := .lineComment slash rfl
      have sameLine : lineRest ((lineRest text).1 ++ shorter) = ((lineRest text).1, shorter) :=
        lineRest_local isPrefix
      rwa [List.drop_succ_cons, List.drop_zero, sameLine] at again
  | @comment read _ slash opens closed =>
      obtain ⟨text, rfl⟩ := exists_of_front opens (by decide)
      obtain rfl : 0x2a :: read = tail := (List.cons.inj textEq).2
      exact .comment slash rfl (commentRest?_local closed shorter)
  | unclosed => exact absurd rfl proper
  | blanks blank =>
      have again : Scans byte (tail ++ shorter) _ := .blanks blank
      rwa [← List.cons_append, ← textEq, blanks_local isPrefix] at again
  | word wellFormed starts =>
      have sameRune := decode_word_local wellFormed starts textEq behind
      have again : Scans byte (tail ++ shorter) _ := .word (by rwa [sameRune]) (by rwa [sameRune])
      rwa [← List.cons_append, ← textEq, word_local isPrefix] at again
  | stray => exact absurd rfl proper
  | number starts =>
      have again : (Bytes.isDigit byte ||
          (byte = 0x2e && Bytes.isDigit (front (tail ++ shorter)))) = true := by
        simp only [Bool.or_eq_true, Bool.and_eq_true, decide_eq_true_eq] at starts ⊢
        apply starts.imp_right
        rintro ⟨rfl, digit⟩
        rcases front_of_isPrefix behind with empty | same
        · rw [(List.append_eq_nil_iff.mp empty).1] at textEq
          exact absurd textEq (number_text_ne_dot digit)
        · exact ⟨rfl, same ▸ digit⟩
      have again := Scans.number again
      rwa [← List.cons_append, ← textEq,
        number_local proper isPrefix notDot (by simp [textEq])] at again
  | characterLiteral quote =>
      have again : Scans byte (tail ++ shorter) _ := .characterLiteral quote
      rwa [← List.cons_append, ← textEq, characterLiteral_local proper isPrefix] at again
  | stringLiteral quote =>
      have again : Scans byte (tail ++ shorter) _ := .stringLiteral quote
      rwa [← List.cons_append, ← textEq, stringLiteral_local proper isPrefix] at again
  | operator starts =>
      have again := Scans.operator (starts.of_prefix behind)
      rwa [← List.cons_append, ← textEq, operator_local proper isPrefix] at again

theorem scan_local {byte : UInt8} {rest shorter tail : Bytes}
    (textEq : (scan byte rest).text = byte :: tail) (proper : (scan byte rest).kind ≠ .error)
    (isPrefix : shorter <+: (scan byte rest).rest) (notDot : shorter ≠ [0x2e]) :
    scan byte (tail ++ shorter) = ⟨(scan byte rest).kind, (scan byte rest).text, shorter⟩ :=
  ((scan_scans byte rest).local textEq proper isPrefix notDot).eq

end Lexer

end JavaFront
