import JavaFront.Proofs.Text.Runes
import JavaFront.Proofs.Token.Locality

/-!
# No token cuts a character

Every token ends where a character ends, or a byte that starts none. Most
readers go byte by byte, but they stop at a byte that is a character of its own:
behind it, in front of it, or at the end of the text. Such a byte is never part
of a longer character, so no character is cut there. The others go by whole
characters.
-/

namespace JavaFront

namespace Rune

/-- Behind its first byte a character has no byte that is one of its own. -/
theorem le_of_mem_decode {first byte : UInt8} {text : Bytes}
    (inside : byte ∈ text.take ((decode first text).size - 1)) : 0x80 ≤ byte := by
  cases proper : (decode first text).wellFormed with
  | false =>
      rw [(decode_of_malformed proper).1] at inside
      cases inside
  | true =>
      rcases wellFormed_cases proper with ⟨-, same⟩ | ⟨second, tail, rfl, -, bound, same⟩ |
        ⟨second, third, tail, rfl, -, bound, -, thirdBound, same⟩ |
        ⟨second, third, fourth, tail, rfl, -, bound, -, thirdBound, fourthBound, same⟩
      all_goals
        rw [same] at inside
        rw [UInt8.le_iff_toNat_le]
        simp only [Nat.reduceSub, List.take_succ_cons, List.take_zero, List.mem_cons,
          List.not_mem_nil, or_false] at inside
      · rw [inside]
        exact bound.1
      · rcases inside with rfl | rfl
        exacts [bound.1, thirdBound.1]
      · rcases inside with rfl | rfl | rfl
        exacts [bound.1, thirdBound.1, fourthBound.1]

/-- A character goes no further than to a byte that is one of its own, or to the
end of the text. -/
theorem decode_size_le_of_narrow {first : UInt8} {front rest : Bytes}
    (narrow : ∀ next, rest.head? = some next → next < 0x80) :
    (decode first (front ++ rest)).size ≤ front.length + 1 := by
  by_contra tooLong
  cases rest with
  | nil =>
      have size := decode_size_le first (front ++ [])
      rw [List.append_nil] at size tooLong
      exact tooLong size
  | cons next rest =>
      have taken : next ∈ (front ++ next :: rest).take
          ((decode first (front ++ next :: rest)).size - 1) := by
        obtain ⟨more, size⟩ : ∃ more, (decode first (front ++ next :: rest)).size - 1 =
            front.length + (more + 1) := by
          exact ⟨(decode first (front ++ next :: rest)).size - (front.length + 2), by omega⟩
        rw [size, List.take_length_add_append, List.take_succ_cons]
        exact List.mem_append_right _ List.mem_cons_self
      exact UInt8.not_le.mpr (narrow next rfl) (le_of_mem_decode taken)

end Rune

/-! ## What characters leave of a text -/

namespace Bytes

/-- What is left of a text behind some of its runes. -/
inductive Leaves : Bytes → Bytes → Prop
  | refl (text : Bytes) : Leaves text text
  | rune {first : UInt8} {rest behind : Bytes} :
      Leaves (rest.drop ((Rune.decode first rest).size - 1)) behind → Leaves (first :: rest) behind

/-- A text in front of another, cut behind or in front of a byte that is a
character of its own, or at the end. -/
def CutAtNarrow (read rest : Bytes) : Prop :=
  (∃ last, read.getLast? = some last ∧ last < 0x80) ∨
    ∀ next, rest.head? = some next → next < 0x80

namespace Leaves

variable {text front rest behind : Bytes}

theorem trans (first : Leaves text rest) (second : Leaves rest behind) : Leaves text behind := by
  induction first with
  | refl => exact second
  | rune _ ih => exact .rune (ih second)

theorem isSuffix (leaves : Leaves text rest) : rest <:+ text := by
  induction leaves with
  | refl => exact List.suffix_refl _
  | @rune first rest _ _ ih =>
      exact ih.trans ((List.drop_suffix _ _).trans (List.suffix_cons first rest))

/-- Of two texts that are left of a third one the shorter is left of the longer. -/
theorem linear (longer : Leaves text rest) (shorter : Leaves text behind)
    (order : behind.length ≤ rest.length) : Leaves rest behind := by
  induction longer with
  | refl => exact shorter
  | @rune first tail rest later ih =>
      cases shorter with
      | refl =>
          have bound := (later.isSuffix.trans (List.drop_suffix _ _)).length_le
          simp only [List.length_cons] at order
          omega
      | rune others => exact ih others order

theorem of_narrow {byte : UInt8} (narrow : byte < 0x80) (rest : Bytes) :
    Leaves (byte :: rest) rest := by
  apply rune
  rw [Rune.decode_of_lt rest narrow]
  exact .refl rest

/-- No character goes past the end of the text or a byte that is one of its own. -/
theorem to_narrow (front : Bytes) {rest : Bytes}
    (narrow : ∀ next, rest.head? = some next → next < 0x80) : Leaves (front ++ rest) rest := by
  match front with
  | [] => exact .refl rest
  | first :: front =>
      have size : (Rune.decode first (front ++ rest)).size ≤ front.length + 1 :=
        Rune.decode_size_le_of_narrow narrow
      rw [List.cons_append]
      apply rune
      rw [List.drop_append_of_le_length (by omega)]
      exact to_narrow _ narrow
termination_by front.length

theorem of_cutAtNarrow {read : Bytes} (cut : CutAtNarrow read rest) :
    Leaves (read ++ rest) rest := by
  rcases cut with ⟨last, isLast, narrow⟩ | narrow
  · obtain ⟨front, rfl⟩ := List.getLast?_eq_some_iff.mp isLast
    rw [List.append_assoc]
    refine (to_narrow front ?_).trans (of_narrow narrow rest)
    rintro next same
    obtain rfl := Option.some.inj same
    exact narrow
  · exact to_narrow read narrow

/-- The runes of a text are those in front of a cut and those behind it, also if
the text ends earlier. -/
theorem spelledRunes_append {text front rest : Bytes} (leaves : Leaves text rest)
    (splits : text = front ++ rest) {other : Bytes} (isPrefix : other <+: rest) :
    spelledRunes (front ++ other) = spelledRunes front ++ spelledRunes other := by
  induction leaves generalizing front with
  | refl text =>
      obtain rfl : front = [] := List.self_eq_append_left.mp splits
      rfl
  | @rune first tail rest later ih =>
      have bound := later.isSuffix.length_le
      cases front with
      | nil =>
          have shorter := (later.isSuffix.trans (List.drop_suffix _ _)).length_le
          have same := congrArg List.length splits
          simp only [List.nil_append, List.length_cons] at same
          omega
      | cons byte front =>
          simp only [List.cons_append, List.cons.injEq] at splits
          obtain ⟨rfl, rfl⟩ := splits
          have size : (Rune.decode first (front ++ rest)).size ≤ front.length + 1 := by
            have inside := Rune.decode_size_le first (front ++ rest)
            simp only [List.length_drop, List.length_append] at bound inside
            omega
          have same : ∀ shorter, shorter <+: rest →
              Rune.decode first (front ++ shorter) = Rune.decode first (front ++ rest) := by
            intro shorter isShorter
            apply Rune.decode_of_size_le ((List.prefix_append_right_inj front).mpr isShorter)
            rw [List.length_append]
            omega
          have alone := same [] List.nil_prefix
          rw [List.append_nil] at alone
          have behind := ih (List.drop_append_of_le_length (by omega)) isPrefix
          rw [List.cons_append, spelledRunes_cons, spelledRunes_cons, same other isPrefix, alone,
            ← List.cons_append, List.take_append_of_le_length (by simpa using size),
            List.drop_append_of_le_length (by omega), behind]
          rfl

end Leaves

/-- All bytes of the text are characters of their own. -/
def IsNarrow (text : Bytes) : Prop :=
  ∀ byte ∈ text, byte < 0x80

namespace IsNarrow

variable {text other : Bytes}

theorem nil : IsNarrow [] :=
  fun _ member => absurd member List.not_mem_nil

theorem append (first : text.IsNarrow) (second : other.IsNarrow) : (text ++ other).IsNarrow :=
  List.forall_mem_append.mpr ⟨first, second⟩

theorem cutAtNarrow (narrow : text.IsNarrow) (filled : text ≠ []) (rest : Bytes) :
    CutAtNarrow text rest :=
  .inl ⟨text.getLast filled, List.getLast?_eq_some_getLast filled,
    narrow _ (List.getLast_mem filled)⟩

end IsNarrow

namespace CutAtNarrow

variable {read rest : Bytes}

theorem behind {last : UInt8} (narrow : last < 0x80) (read rest : Bytes) :
    CutAtNarrow (read ++ [last]) rest :=
  .inl ⟨last, by simp, narrow⟩

theorem before {next : UInt8} (narrow : next < 0x80) (read rest : Bytes) :
    CutAtNarrow read (next :: rest) :=
  .inr fun _ same => Option.some.inj same ▸ narrow

theorem atEnd (read : Bytes) : CutAtNarrow read [] :=
  .inr fun _ same => nomatch same

theorem append (cut : CutAtNarrow read rest) (front : Bytes) : CutAtNarrow (front ++ read) rest :=
  cut.imp (fun ⟨last, isLast, narrow⟩ => ⟨last, by simp [isLast], narrow⟩) id

end CutAtNarrow

/-- A byte that is a character of its own parts the runes of a text. -/
theorem spelledRunes_append_narrow {byte : UInt8} (narrow : byte < 0x80) (front rest : Bytes) :
    spelledRunes (front ++ byte :: rest) =
      spelledRunes front ++ (⟨byte.toNat, 1, true⟩, [byte]) :: spelledRunes rest := by
  rw [(Leaves.of_cutAtNarrow (.before narrow front rest)).spelledRunes_append rfl
    (List.prefix_refl _), spelledRunes_cons, Rune.decode_of_lt rest narrow]
  rfl

end Bytes

/-! ## The readers -/

namespace Lexer

open Bytes

theorem isNarrow_of_startsWith {small capital : UInt8} {text : Bytes}
    (proper : small ≠ 0 ∧ capital ≠ 0) (narrow : small < 0x80 ∧ capital < 0x80)
    (starts : startsWith small capital text = true) : IsNarrow (text.take 1) := by
  obtain ⟨byte, tail, rfl, rfl | rfl⟩ := startsWith_cases proper starts
  · simpa [IsNarrow] using narrow.1
  · simpa [IsNarrow] using narrow.2

theorem isNarrow_digitRun {accept : UInt8 → Bool}
    (narrow : ∀ byte, accept byte = true → byte < 0x80) (text : Bytes) :
    IsNarrow (digitRun accept text).1 := by
  rw [digitRun, List.span_eq_takeWhile_dropWhile]
  intro byte member
  have accepted := List.mem_takeWhile_imp member
  rw [Bool.or_eq_true, decide_eq_true_eq] at accepted
  rcases accepted with digit | rfl
  · exact narrow byte digit
  · decide

theorem lt_of_isDigit {byte : UInt8} (digit : Bytes.isDigit byte = true) : byte < 0x80 := by
  simp only [Bytes.isDigit, Bool.and_eq_true, decide_eq_true_eq] at digit
  exact Std.lt_of_le_of_lt digit.2 (by decide)

theorem lt_of_isHexDigit {byte : UInt8} (digit : Bytes.isHexDigit byte = true) : byte < 0x80 := by
  simp only [Bytes.isHexDigit, Bool.or_eq_true, Bool.and_eq_true, decide_eq_true_eq] at digit
  rcases digit with (digit | ⟨-, low⟩) | ⟨-, low⟩
  · exact lt_of_isDigit digit
  all_goals exact Std.lt_of_le_of_lt low (by decide)

theorem lt_of_isBinaryDigit {byte : UInt8} (digit : isBinaryDigit byte = true) : byte < 0x80 := by
  simp only [isBinaryDigit, Bool.or_eq_true, decide_eq_true_eq] at digit
  rcases digit with rfl | rfl <;> decide

theorem isNarrow_sign (text : Bytes) : IsNarrow (sign text).1 := by
  cases text with
  | nil => exact IsNarrow.nil
  | cons byte text =>
      simp only [sign]
      split
      · rename_i isSign
        simp only [Bool.or_eq_true, decide_eq_true_eq] at isSign
        rcases isSign with rfl | rfl <;> simp [IsNarrow]
      · exact IsNarrow.nil

theorem isNarrow_exponent {text : Bytes} (mark : IsNarrow (text.take 1)) :
    IsNarrow (exponent text).2.1 := by
  have signed := mark.append (isNarrow_sign (text.drop 1))
  simp only [exponent]
  split
  · exact signed.append (isNarrow_digitRun (fun _ => lt_of_isDigit) _)
  · exact signed

theorem isNarrow_fraction (text : Bytes) : IsNarrow (fraction text).1 := by
  simp only [fraction]
  split
  · exact List.forall_mem_cons.mpr ⟨by decide, isNarrow_digitRun (fun _ => lt_of_isDigit) _⟩
  · exact IsNarrow.nil

theorem isNarrow_hexFraction (text : Bytes) : IsNarrow (hexFraction text).1 := by
  simp only [hexFraction]
  split
  · exact List.forall_mem_cons.mpr ⟨by decide, isNarrow_digitRun (fun _ => lt_of_isHexDigit) _⟩
  · exact IsNarrow.nil

theorem isNarrow_decimalSuffix (fractional : Bool) {read : Bytes} (narrow : read.IsNarrow)
    (text : Bytes) : (decimalSuffix fractional read text).text.IsNarrow := by
  simp only [decimalSuffix]
  split
  · rename_i starts
    exact narrow.append (isNarrow_of_startsWith (by decide) (by decide) starts)
  split
  · rename_i starts
    exact narrow.append (isNarrow_of_startsWith (by decide) (by decide) starts)
  split
  · rename_i starts
    exact narrow.append
      (isNarrow_of_startsWith (by decide) (by decide) (Bool.and_eq_true_iff.mp starts).1)
  split <;> exact narrow

theorem isNarrow_decimal (text : Bytes) : (decimal text).text.IsNarrow := by
  simp only [decimal]
  have whole := isNarrow_digitRun (fun _ => lt_of_isDigit) text
  generalize digitRun Bytes.isDigit text = run at whole ⊢
  have decimals := whole.append (isNarrow_fraction run.2)
  generalize fraction run.2 = tail at decimals ⊢
  split
  · rename_i starts
    have power := decimals.append
      (isNarrow_exponent (isNarrow_of_startsWith (by decide) (by decide) starts))
    split
    · exact isNarrow_decimalSuffix _ power _
    · exact power
  · exact isNarrow_decimalSuffix _ decimals _

theorem isNarrow_hexadecimal {text : Bytes} (opening : IsNarrow (text.take 2)) :
    (hexadecimal text).text.IsNarrow := by
  simp only [hexadecimal]
  have whole := opening.append (isNarrow_digitRun (fun _ => lt_of_isHexDigit) (text.drop 2))
  generalize digitRun Bytes.isHexDigit (text.drop 2) = run at whole ⊢
  have decimals := whole.append (isNarrow_hexFraction run.2)
  generalize hexFraction run.2 = tail at decimals ⊢
  generalize text.take 2 ++ run.1 ++ tail.1 = read at decimals ⊢
  split
  · rename_i starts
    have power := decimals.append
      (isNarrow_exponent (isNarrow_of_startsWith (by decide) (by decide) starts))
    split
    · exact power
    split
    · rename_i float
      exact power.append (isNarrow_of_startsWith (by decide) (by decide) float)
    split
    · rename_i double
      exact power.append (isNarrow_of_startsWith (by decide) (by decide) double)
    · exact power
  · split
    · exact decimals
    split
    · rename_i long
      exact decimals.append (isNarrow_of_startsWith (by decide) (by decide) long)
    · exact decimals

theorem isNarrow_binary {text : Bytes} (opening : IsNarrow (text.take 2)) :
    (binary text).text.IsNarrow := by
  simp only [binary]
  have digits := opening.append (isNarrow_digitRun (fun _ => lt_of_isBinaryDigit) (text.drop 2))
  generalize digitRun isBinaryDigit (text.drop 2) = run at digits ⊢
  split
  · rename_i long
    exact digits.append (isNarrow_of_startsWith (by decide) (by decide) long)
  · exact digits

/-- The zero and the letter in front of a number of another base. -/
theorem isNarrow_take_two {small capital : UInt8} {text : Bytes}
    (proper : small ≠ 0 ∧ capital ≠ 0) (narrow : small < 0x80 ∧ capital < 0x80)
    (opens : (front text = 0x30 && startsWith small capital (text.drop 1)) = true) :
    IsNarrow (text.take 2) := by
  obtain ⟨zero, starts⟩ := Bool.and_eq_true_iff.mp opens
  have letter := isNarrow_of_startsWith proper narrow starts
  cases text with
  | nil => exact IsNarrow.nil
  | cons byte text =>
      obtain rfl : byte = 0x30 := of_decide_eq_true zero
      exact List.forall_mem_cons.mpr ⟨by decide, letter⟩

/-- Numbers hold no byte but those that are characters of their own. -/
theorem isNarrow_number (text : Bytes) : (number text).text.IsNarrow := by
  simp only [number]
  split
  · rename_i opens
    exact isNarrow_hexadecimal (isNarrow_take_two (by decide) (by decide) opens)
  split
  · rename_i opens
    exact isNarrow_binary (isNarrow_take_two (by decide) (by decide) opens)
  · exact isNarrow_decimal text

theorem lt_of_isBlank {byte : UInt8} (blank : isBlank byte = true) : byte < 0x80 := by
  simp only [isBlank, Bool.or_eq_true, decide_eq_true_eq] at blank
  rcases blank with (((rfl | rfl) | rfl) | rfl) | rfl <;> decide

/-- A run ends in front of a byte that it does not accept. -/
theorem cut_span {accept : UInt8 → Bool} (narrow : ∀ byte, accept byte = false → byte < 0x80)
    (text : Bytes) : CutAtNarrow (text.span accept).1 (text.span accept).2 := by
  rw [List.span_eq_takeWhile_dropWhile]
  refine .inr fun next same => narrow next ?_
  have head := List.head?_dropWhile_not accept text
  dsimp only at same
  rw [same] at head
  exact head

theorem cut_blanks {byte : UInt8} (blank : isBlank byte = true) (rest : Bytes) :
    CutAtNarrow (blanks (byte :: rest)).1 (blanks (byte :: rest)).2 := by
  rw [blanks, List.span_eq_takeWhile_dropWhile]
  refine IsNarrow.cutAtNarrow (fun other member => lt_of_isBlank ?_) ?_ _
  · exact List.mem_takeWhile_imp member
  · simp [blank]

theorem cut_comment {text read rest : Bytes} (closed : commentRest? text = some (read, rest)) :
    CutAtNarrow read rest := by
  induction text generalizing read rest with
  | nil => cases closed
  | cons byte text ih =>
      simp only [commentRest?] at closed
      split at closed
      · obtain ⟨rfl, rfl⟩ := Prod.mk.inj (Option.some.inj closed)
        exact .behind (by decide) [byte] _
      · obtain ⟨⟨inner, rest⟩, later, same⟩ := Option.map_eq_some_iff.mp closed
        obtain ⟨rfl, rfl⟩ := Prod.mk.inj same
        exact (ih later).append [byte]

/-- A closing quote ends a literal. -/
theorem cut_quote {rest : Bytes} (isQuote : front rest = 0x27) (read : Bytes) :
    CutAtNarrow (read ++ rest.take 1) (rest.drop 1) := by
  cases rest with
  | nil => exact absurd isQuote (by decide)
  | cons byte rest =>
      obtain rfl : byte = 0x27 := isQuote
      exact .behind (by decide) read rest

theorem cut_characterLiteral (text : Bytes) :
    CutAtNarrow (characterLiteral text).text (characterLiteral text).rest := by
  simp only [characterLiteral]
  generalize character (text.drop 1) = found
  split
  · rename_i closed
    exact cut_quote (of_decide_eq_true (Bool.and_eq_true_iff.mp closed).2) _
  · have stops : ∀ byte : UInt8, (byte != 0x27 && byte != 0x0a && byte != 0x0d) = false →
        byte < 0x80 := by
      intro byte stop
      simp only [Bool.and_eq_false_iff, bne_eq_false_iff_eq] at stop
      rcases stop with (rfl | rfl) | rfl <;> decide
    have skipped := cut_span stops found.2.2
    split
    · rename_i isQuote
      exact cut_quote isQuote _
    · exact skipped.append _

theorem cut_stringRest (text : Bytes) :
    CutAtNarrow (stringRest text).2.1 (stringRest text).2.2 := by
  fun_induction stringRest text with
  | case1 => exact .atEnd []
  | case2 escaped text closed read rest tail ih =>
      rw [tail] at ih
      exact ih.append [0x5c, escaped]
  | case3 text => exact .behind (by decide) [] text
  | case4 byte text _ _ ends =>
      simp only [Bool.or_eq_true, decide_eq_true_eq] at ends
      rcases ends with rfl | rfl <;> exact .before (by decide) [] text
  | case5 byte text _ _ _ closed read rest tail ih =>
      rw [tail] at ih
      exact ih.append [byte]

theorem cut_blockRest (text : Bytes) :
    CutAtNarrow (blockRest text).2.1 (blockRest text).2.2 := by
  fun_induction blockRest text with
  | case1 => exact .atEnd []
  | case2 escaped text closed read rest tail ih =>
      rw [tail] at ih
      exact ih.append [0x5c, escaped]
  | case3 byte text _ closes => exact .behind (by decide) [byte, 0x22] _
  | case4 byte text _ _ closed read rest tail ih =>
      rw [tail] at ih
      exact ih.append [byte]

theorem cut_stringLiteral (text : Bytes) :
    CutAtNarrow (stringLiteral text).text (stringLiteral text).rest := by
  simp only [stringLiteral]
  split
  · simpa using (cut_blockRest (text.drop 3)).append _
  · simpa using (cut_stringRest (text.drop 1)).append _

theorem cut_operator {byte : UInt8} (narrow : byte < 0x80) (rest : Bytes) :
    CutAtNarrow (operator (byte :: rest)).text (operator (byte :: rest)).rest := by
  simp only [operator]
  split
  · rename_i kind found
    have listed := List.mem_of_find?_eq_some found
    have starts := List.find?_some found
    rw [← length_ofString, ← List.prefix_iff_eq_take.mp (List.isPrefixOf_iff_prefix.mp starts)]
    have plain : ∀ kind ∈ operators, Bytes.ofString kind.name ≠ [] ∧
        (Bytes.ofString kind.name).all (· < 0x80) = true := by decide +kernel
    obtain ⟨filled, all⟩ := plain kind listed
    exact IsNarrow.cutAtNarrow (by simpa [IsNarrow] using all) filled _
  · exact .behind narrow [] rest

/-- A run of identifier characters ends where one of its characters ends. -/
theorem leaves_wordRun (skipped : Nat) (text : Bytes) :
    Leaves (text.drop skipped) (wordRun skipped text).2 := by
  induction text generalizing skipped with
  | nil => cases skipped <;> exact .refl _
  | cons byte text ih =>
      cases skipped with
      | succ skipped => exact ih skipped
      | zero =>
          simp only [wordRun, List.drop_zero]
          split
          · exact .rune (ih _)
          · exact .refl _

theorem leaves_of_cut {scan : Scan} {text : Bytes} (splits : scan.Splits text)
    (cut : CutAtNarrow scan.text scan.rest) : Leaves text scan.rest :=
  splits ▸ Leaves.of_cutAtNarrow cut

/-- What a token leaves of a text, some of the text's runes leave of it. -/
theorem leaves_scan (byte : UInt8) (rest : Bytes) :
    Leaves (byte :: rest) (scan byte rest).rest := by
  have read := scan_scans byte rest
  have splits := read.splits
  generalize scan byte rest = found at read splits ⊢
  cases read with
  | lineComment slash opens =>
      obtain ⟨text, rfl⟩ := exists_of_front opens (by decide)
      refine leaves_of_cut splits ((cut_span (fun byte stops => ?_) text).append [byte, 0x2f])
      simp only [Bool.and_eq_false_iff, bne_eq_false_iff_eq] at stops
      rcases stops with rfl | rfl <;> decide
  | comment slash opens closed =>
      obtain ⟨text, rfl⟩ := exists_of_front opens (by decide)
      exact leaves_of_cut splits ((cut_comment closed).append [byte, 0x2a])
  | unclosed => exact leaves_of_cut splits (.atEnd _)
  | blanks blank => exact leaves_of_cut splits (cut_blanks blank rest)
  | word => exact leaves_wordRun 0 (byte :: rest)
  | stray =>
      have some := Rune.decode_size_pos byte rest
      rw [List.drop_cons some]
      exact .rune (.refl _)
  | number starts =>
      exact leaves_of_cut splits ((isNarrow_number _).cutAtNarrow (number_ne_nil starts) _)
  | characterLiteral => exact leaves_of_cut splits (cut_characterLiteral _)
  | stringLiteral => exact leaves_of_cut splits (cut_stringLiteral _)
  | operator starts => exact leaves_of_cut splits (cut_operator starts.narrow rest)

end Lexer

/-! ## The ends of tokens -/

namespace Token

theorem drop_next (pos : Pos) (text : Bytes) {offset : Nat}
    (behind : (next pos text).1.span.stop.offset ≤ offset) :
    text.drop (offset - pos.offset) =
      (next pos text).2.drop (offset - (next pos text).1.span.stop.offset) := by
  have stop : (next pos text).1.span.stop.offset =
      pos.offset + (next pos text).1.text.length := by
    rw [next_span, Pos.advance_offset]
  conv_lhs => rw [← next_append pos text]
  obtain ⟨more, rfl⟩ := Nat.exists_eq_add_of_le behind
  rw [Nat.add_sub_cancel_left, stop, Nat.add_assoc, Nat.add_sub_cancel_left,
    List.drop_length_add_append]

/-- What is left of a text where one of its tokens starts or ends. -/
theorem Lexes.leaves {pos : Pos} {text : Bytes} {tokens : List Token}
    (lexed : Lexes pos text tokens) : ∀ token ∈ tokens,
      pos.offset ≤ token.span.start.offset ∧
      token.span.start.offset ≤ token.span.stop.offset ∧
      text.Leaves (text.drop (token.span.start.offset - pos.offset)) ∧
      text.Leaves (text.drop (token.span.stop.offset - pos.offset)) := by
  induction lexed with
  | finish pos =>
      intro token member
      obtain rfl := List.mem_singleton.mp member
      simp only [List.drop_nil]
      exact ⟨Nat.le_refl _, Nat.le_refl _, .refl _, .refl _⟩
  | @token pos byte text tokens later ih =>
      have first : Bytes.Leaves (byte :: text) (next pos (byte :: text)).2 :=
        Lexer.leaves_scan byte text
      have order : pos.offset ≤ (next pos (byte :: text)).1.span.stop.offset := by
        rw [next_span, Pos.advance_offset]
        exact Nat.le_add_right _ _
      intro token member
      rcases List.mem_cons.mp member with rfl | member
      · have start : (next pos (byte :: text)).1.span.start = pos := by rw [next_span]
        rw [start, Nat.sub_self, List.drop_zero, drop_next pos _ (Nat.le_refl _), Nat.sub_self,
          List.drop_zero]
        exact ⟨Nat.le_refl _, order, .refl _, first⟩
      · obtain ⟨behind, proper, start, stop⟩ := ih token member
        rw [drop_next pos _ behind, drop_next pos _ (Nat.le_trans behind proper)]
        exact ⟨Nat.le_trans order behind, proper, first.trans start, first.trans stop⟩

end Token

namespace Source

/-- A token of the source starts or ends at the offset. -/
def IsBoundary (source : Source) (offset : Nat) : Prop :=
  ∃ token ∈ source.tokens, offset = token.span.start.offset ∨ offset = token.span.stop.offset

/-- Where a token starts or ends no character is cut. -/
theorem IsBoundary.leaves {source : Source} {offset : Nat} (boundary : source.IsBoundary offset) :
    source.text.Leaves (source.text.drop offset) := by
  obtain ⟨token, member, here⟩ := boundary
  obtain ⟨-, -, start, stop⟩ := source.lexes_tokens.leaves token member
  rcases here with rfl | rfl
  · exact start
  · exact stop

end Source

end JavaFront
