import JavaFront.Proofs.Token.Spacing

/-!
# Tokens and the space behind them

A reader that looks at what stands behind a token sees there nothing, or the
text that goes on. A space in that place is as good as nothing: it is no digit,
no letter, no dot, no quote and no part of an operator. So a token that was read
in front of some text is read in front of a space as well, and the tokens of a
text can be written with one space between them.
-/

namespace JavaFront

variable {byte : UInt8} {text tail : Bytes}

namespace Lexer

/-! ## Fronts and runs -/

/-- What does not tell a space from the end of a text does not see what is
behind. -/
theorem front_accept_apart (apart : tail.IsApart) (accept : UInt8 → Bool)
    (same : accept 0x20 = accept 0) (text : Bytes) :
    accept (front (text ++ tail)) = accept (front text) := by
  cases text with
  | cons byte text => rfl
  | nil =>
      rcases apart with rfl | ⟨rest, rfl⟩
      · rfl
      · exact same

theorem front_apart (apart : tail.IsApart) (proper : byte ≠ 0 ∧ byte ≠ 0x20) (text : Bytes) :
    front (text ++ tail) = byte ↔ front text = byte := by
  have same := front_accept_apart apart (· = byte)
    (by simp [proper.1.symm, proper.2.symm]) text
  simpa using same

theorem startsWith_apart (apart : tail.IsApart) {small capital : UInt8}
    (proper : (small ≠ 0 ∧ small ≠ 0x20) ∧ capital ≠ 0 ∧ capital ≠ 0x20) (text : Bytes) :
    startsWith small capital (text ++ tail) = startsWith small capital text := by
  simp only [startsWith, front_apart apart proper.1, front_apart apart proper.2]

/-- A run that stops at a space leaves it. -/
theorem span_apart (apart : tail.IsApart) {accept : UInt8 → Bool} (stops : accept 0x20 = false)
    (text : Bytes) :
    (text ++ tail).span accept = ((text.span accept).1, (text.span accept).2 ++ tail) := by
  simp only [List.span_eq_takeWhile_dropWhile]
  induction text with
  | nil => rcases apart with rfl | ⟨rest, rfl⟩ <;> simp [stops]
  | cons byte text ih =>
      by_cases accepted : accept byte = true
      · simpa [accepted] using ih
      · simp [accepted]

theorem takeWhile_take_apart (apart : tail.IsApart) {accept : UInt8 → Bool}
    (stops : accept 0x20 = false) (count : Nat) (text : Bytes) :
    ((text ++ tail).take count).takeWhile accept = (text.take count).takeWhile accept := by
  induction text generalizing count with
  | nil => rcases apart with rfl | ⟨rest, rfl⟩ <;> cases count <;> simp [stops]
  | cons byte text ih =>
      cases count with
      | zero => rfl
      | succ count => simp [List.takeWhile_cons, ih]

/-! ## Numbers -/

theorem digitRun_apart (apart : tail.IsApart) {accept : UInt8 → Bool}
    (stops : accept 0x20 = false) (text : Bytes) :
    digitRun accept (text ++ tail) =
      ((digitRun accept text).1, (digitRun accept text).2 ++ tail) :=
  span_apart apart (by simp [stops]) text

theorem sign_apart (apart : tail.IsApart) (text : Bytes) :
    sign (text ++ tail) = ((sign text).1, (sign text).2 ++ tail) := by
  cases text with
  | nil => rcases apart with rfl | ⟨rest, rfl⟩ <;> rfl
  | cons byte text =>
      simp only [List.cons_append, sign]
      split <;> rfl

theorem exponent_apart (apart : tail.IsApart) (mark : UInt8) (text : Bytes) :
    exponent (mark :: text ++ tail) =
      ((exponent (mark :: text)).1, (exponent (mark :: text)).2.1,
        (exponent (mark :: text)).2.2 ++ tail) := by
  simp only [exponent, List.cons_append, List.drop_succ_cons, List.drop_zero, List.take_succ_cons,
    List.take_zero, sign_apart apart, front_accept_apart apart Bytes.isDigit rfl,
    digitRun_apart apart (show Bytes.isDigit 0x20 = false from rfl)]
  split <;> rfl

theorem fraction_apart (apart : tail.IsApart) (text : Bytes) :
    fraction (text ++ tail) = ((fraction text).1, (fraction text).2 ++ tail) := by
  cases text with
  | nil =>
      rcases apart with rfl | ⟨rest, rfl⟩
      · rfl
      · simp [fraction, front]
  | cons byte text =>
      simp only [List.cons_append, fraction_cons,
        front_accept_apart apart (· != 0x2e) rfl, front_accept_apart apart isFractionStop rfl,
        digitRun_apart apart (show Bytes.isDigit 0x20 = false from rfl)]
      split <;> rfl

/-- A byte that is a suffix is not a space. -/
theorem suffix_apart (apart : tail.IsApart) {small capital : UInt8}
    (proper : (small ≠ 0 ∧ small ≠ 0x20) ∧ capital ≠ 0 ∧ capital ≠ 0x20) (kind : Token.Kind)
    (read text : Bytes) {other plain : Scan} (same : other = plain.before tail) :
    (if startsWith small capital (text ++ tail) = true then
        (⟨kind, read ++ (text ++ tail).take 1, (text ++ tail).drop 1⟩ : Scan) else other) =
      (if startsWith small capital text = true then ⟨kind, read ++ text.take 1, text.drop 1⟩
        else plain).before tail := by
  rw [startsWith_apart apart proper]
  split
  · rename_i starts
    obtain ⟨byte, rest, rfl, -⟩ := startsWith_cases ⟨proper.1.1, proper.2.1⟩ starts
    rfl
  · exact same

theorem decimalSuffix_apart (apart : tail.IsApart) (fractional : Bool) (read text : Bytes) :
    decimalSuffix fractional read (text ++ tail) =
      (decimalSuffix fractional read text).before tail := by
  cases fractional with
  | true =>
      simp only [decimalSuffix, Bool.not_true, Bool.and_false, Bool.false_eq_true, if_false,
        if_true]
      exact suffix_apart apart (by decide) _ _ _ (suffix_apart apart (by decide) _ _ _ rfl)
  | false =>
      simp only [decimalSuffix, Bool.not_false, Bool.and_true, Bool.false_eq_true, if_false]
      exact suffix_apart apart (by decide) _ _ _ (suffix_apart apart (by decide) _ _ _
        (suffix_apart apart (by decide) _ _ _ rfl))

theorem decimal_apart (apart : tail.IsApart) (text : Bytes) :
    decimal (text ++ tail) = (decimal text).before tail := by
  simp only [decimal, digitRun_apart apart (show Bytes.isDigit 0x20 = false from rfl),
    fraction_apart apart]
  generalize (digitRun Bytes.isDigit text).1 = whole
  generalize (digitRun Bytes.isDigit text).2 = rest
  generalize (fraction rest).1 = decimals
  generalize (fraction rest).2 = rest
  rw [startsWith_apart apart (by decide)]
  by_cases scaled : startsWith 0x65 0x45 rest = true
  · obtain ⟨mark, more, rfl, -⟩ := startsWith_cases (by decide) scaled
    simp only [if_pos scaled, exponent_apart apart]
    split
    · exact decimalSuffix_apart apart _ _ _
    · rfl
  · simp only [if_neg scaled]
    exact decimalSuffix_apart apart _ _ _

theorem hexFraction_apart (apart : tail.IsApart) (text : Bytes) :
    hexFraction (text ++ tail) = ((hexFraction text).1, (hexFraction text).2 ++ tail) := by
  cases text with
  | nil =>
      rcases apart with rfl | ⟨rest, rfl⟩
      · rfl
      · simp [hexFraction, front]
  | cons byte text =>
      simp only [hexFraction, front, List.cons_append, List.headD_cons, List.drop_succ_cons,
        List.drop_zero, digitRun_apart apart (show Bytes.isHexDigit 0x20 = false from rfl)]
      split <;> rfl

theorem hexadecimal_apart (apart : tail.IsApart) (first second : UInt8) (text : Bytes) :
    hexadecimal (first :: second :: text ++ tail) =
      (hexadecimal (first :: second :: text)).before tail := by
  have opens : ∀ rest : Bytes, (first :: second :: rest).take 2 = [first, second] ∧
      (first :: second :: rest).drop 2 = rest := fun _ => ⟨rfl, rfl⟩
  rw [List.cons_append, List.cons_append]
  simp only [hexadecimal, (opens _).1, (opens _).2,
    digitRun_apart apart (show Bytes.isHexDigit 0x20 = false from rfl), hexFraction_apart apart]
  generalize (digitRun Bytes.isHexDigit text).1 = whole
  generalize (digitRun Bytes.isHexDigit text).2 = rest
  generalize (hexFraction rest).1 = decimals
  generalize (hexFraction rest).2 = rest
  rw [startsWith_apart apart (by decide)]
  by_cases scaled : startsWith 0x70 0x50 rest = true
  · obtain ⟨mark, more, rfl, -⟩ := startsWith_cases (by decide) scaled
    simp only [if_pos scaled, exponent_apart apart]
    split
    · rfl
    · exact suffix_apart apart (by decide) _ _ _ (suffix_apart apart (by decide) _ _ _ rfl)
  · simp only [if_neg scaled]
    split
    · rfl
    · exact suffix_apart apart (by decide) _ _ _ rfl

theorem binary_apart (apart : tail.IsApart) (first second : UInt8) (text : Bytes) :
    binary (first :: second :: text ++ tail) =
      (binary (first :: second :: text)).before tail := by
  have opens : ∀ rest : Bytes, (first :: second :: rest).take 2 = [first, second] ∧
      (first :: second :: rest).drop 2 = rest := fun _ => ⟨rfl, rfl⟩
  rw [List.cons_append, List.cons_append]
  simp only [binary, (opens _).1, (opens _).2,
    digitRun_apart apart (show isBinaryDigit 0x20 = false from rfl)]
  exact suffix_apart apart (by decide) _ _ _ rfl

theorem number_apart (apart : tail.IsApart) (byte : UInt8) (text : Bytes) :
    number (byte :: text ++ tail) = (number (byte :: text)).before tail := by
  rw [List.cons_append, number_cons, number_cons, startsWith_apart apart (by decide),
    startsWith_apart apart (by decide)]
  split
  · rename_i hex
    obtain ⟨second, rest, rfl, -⟩ := startsWith_cases (by decide) (Bool.and_eq_true_iff.mp hex).2
    exact hexadecimal_apart apart byte second rest
  · split
    · rename_i bin
      obtain ⟨second, rest, rfl, -⟩ := startsWith_cases (by decide) (Bool.and_eq_true_iff.mp bin).2
      exact binary_apart apart byte second rest
    · exact decimal_apart apart (byte :: text)

/-! ## Characters and words -/

/-- A space is no part of a character of several bytes. -/
theorem decode_apart (apart : tail.IsApart) (first : UInt8) (text : Bytes) :
    Rune.decode first (text ++ tail) = Rune.decode first text := by
  have either :=
    @Rune.decode_isPrefix_cases first text (text ++ tail) (List.prefix_append text tail)
  rcases either with same | ⟨-, long⟩
  · exact same
  · exfalso
    rcases apart with rfl | ⟨rest, rfl⟩
    · have bound := Rune.decode_size_le first (text ++ [])
      rw [List.append_nil] at bound long
      omega
    · have proper : (Rune.decode first (text ++ 0x20 :: rest)).wellFormed = true := by
        by_contra broken
        rw [(Rune.decode_of_malformed (Bool.not_eq_true _ ▸ broken)).1] at long
        simp [Rune.malformed] at long
      obtain ⟨valid, spelling⟩ := Rune.encode_decode proper
      have covered :
          (0x20 : UInt8) ∈ Rune.encode (Rune.decode first (text ++ 0x20 :: rest)).code := by
        rw [spelling]
        refine List.mem_of_getElem? (i := text.length + 1) ?_
        rw [List.getElem?_take_of_lt long]
        simp
      have bound := Rune.decode_size_le first (text ++ 0x20 :: rest)
      rcases Rune.mem_encode valid 0x20 covered with ⟨narrow, -⟩ | ⟨-, wide⟩
      · have lengths := congrArg List.length spelling
        simp only [Rune.encode, if_pos narrow, List.length_take, List.length_cons,
          List.length_nil] at lengths
        omega
      · exact absurd wide (by decide)

theorem wordRun_apart (apart : tail.IsApart) (skipped : Nat) (inside : skipped ≤ text.length) :
    wordRun skipped (text ++ tail) =
      ((wordRun skipped text).1, (wordRun skipped text).2 ++ tail) := by
  induction text generalizing skipped with
  | nil =>
      obtain rfl : skipped = 0 := Nat.le_zero.mp inside
      exact wordRun_of_isApart apart
  | cons byte text ih =>
      cases skipped with
      | succ skipped =>
          simp only [List.cons_append, wordRun, ih skipped (Nat.le_of_succ_le_succ inside)]
      | zero =>
          have size := Rune.decode_size_le byte text
          simp only [List.cons_append, wordRun, decode_apart apart]
          split
          · rw [ih _ (by omega)]
          · rfl

theorem word_apart (apart : tail.IsApart) (text : Bytes) :
    word (text ++ tail) = (word text).before tail := by
  simp only [word, wordRun_apart apart 0 (Nat.zero_le _), Scan.before]

/-! ## Quoted literals -/

theorem escape_apart (apart : tail.IsApart) (mark : UInt8) (text : Bytes) :
    escape (mark :: text ++ tail) =
      ((escape (mark :: text)).1, (escape (mark :: text)).2.1,
        (escape (mark :: text)).2.2 ++ tail) := by
  have dropped : ∀ (count : Nat) (accept : UInt8 → Bool) (rest : Bytes),
      (rest ++ tail).drop ((rest.take count).takeWhile accept).length =
        rest.drop ((rest.take count).takeWhile accept).length ++ tail := by
    intro count accept rest
    refine List.drop_append_of_le_length ?_
    exact ((List.takeWhile_prefix accept).trans (List.take_prefix count rest)).length_le
  cases text with
  | nil => rcases apart with rfl | ⟨rest, rfl⟩ <;> rfl
  | cons head text =>
      have headed : ∀ other, front (head :: other) = head := fun _ => rfl
      rw [List.cons_append, List.cons_append, escape_cons, escape_cons, headed, headed,
        ← List.cons_append]
      have letters : ∀ rest : Bytes, (rest ++ tail).span (· = 0x75) =
          ((rest.span (· = 0x75)).1, (rest.span (· = 0x75)).2 ++ tail) :=
        span_apart apart rfl
      simp only [letters,
        takeWhile_take_apart apart (show Bytes.isHexDigit 0x20 = false from rfl),
        takeWhile_take_apart apart (show isOctalDigit 0x20 = false from rfl), dropped]
      repeat' split
      all_goals rfl

/-- The character of a literal is not the space behind it. -/
theorem character_apart (apart : tail.IsApart) (byte : UInt8) (text : Bytes) :
    character (byte :: text ++ tail) =
      ((character (byte :: text)).1, (character (byte :: text)).2.1,
        (character (byte :: text)).2.2 ++ tail) := by
  have size : (Rune.decode byte text).size ≤ (byte :: text).length := Rune.decode_size_le byte text
  have escaped := escape_apart apart byte text
  rw [List.cons_append, character_cons, character_cons, decode_apart apart, ← List.cons_append,
    escaped, List.take_append_of_le_length size, List.drop_append_of_le_length size]
  split
  · rfl
  · split <;> rfl

theorem characterLiteral_apart (apart : tail.IsApart) (mark : UInt8) (text : Bytes)
    (proper : (characterLiteral (mark :: text)).kind ≠ .error) :
    characterLiteral (mark :: text ++ tail) = (characterLiteral (mark :: text)).before tail := by
  cases text with
  | nil => exact absurd rfl proper
  | cons byte text =>
      have inside := character_apart apart byte text
      rw [List.cons_append] at inside ⊢
      simp only [characterLiteral, List.drop_succ_cons, List.drop_zero, List.take_succ_cons,
        List.take_zero] at proper ⊢
      rw [List.cons_append, inside]
      by_cases closed : ((character (byte :: text)).1 &&
          front (character (byte :: text)).2.2 = 0x27) = true
      · cases behind : (character (byte :: text)).2.2 with
        | nil => simp [behind, front] at closed
        | cons quote rest =>
            rw [behind] at closed
            have still : ((character (byte :: text)).1 &&
                front (quote :: rest ++ tail) = 0x27) = true := closed
            simp only [if_pos closed, if_pos still]
            rfl
      · simp only [if_neg closed] at proper
        split at proper <;> exact absurd rfl proper

theorem stringRest_apart {text : Bytes} (closed : (stringRest text).1 = true) (tail : Bytes) :
    stringRest (text ++ tail) = (true, (stringRest text).2.1, (stringRest text).2.2 ++ tail) := by
  have again := stringRest_local closed ((stringRest text).2.2 ++ tail)
  rwa [← List.append_assoc, stringRest_append] at again

theorem blockRest_apart {text : Bytes} (closed : (blockRest text).1 = true) (tail : Bytes) :
    blockRest (text ++ tail) = (true, (blockRest text).2.1, (blockRest text).2.2 ++ tail) := by
  have again := blockRest_local closed ((blockRest text).2.2 ++ tail)
  rwa [← List.append_assoc, blockRest_append] at again

theorem stringLiteral_apart (apart : tail.IsApart) (mark : UInt8) (text : Bytes)
    (proper : (stringLiteral (mark :: text)).kind ≠ .error) :
    stringLiteral (mark :: text ++ tail) = (stringLiteral (mark :: text)).before tail := by
  have opens : ∀ other : Bytes, other.take 3 = [0x22, 0x22, 0x22] ↔
      [0x22, 0x22, 0x22].isPrefixOf other = true := by
    intro other
    rw [List.isPrefixOf_iff_prefix, List.prefix_iff_eq_take]
    exact eq_comm
  rw [List.cons_append, stringLiteral_cons, stringLiteral_cons, ← List.cons_append]
  rw [stringLiteral_cons] at proper
  simp only [opens, isPrefixOf_apart (show (0x20 : UInt8) ∉ [0x22, 0x22, 0x22] by decide) apart]
    at proper ⊢
  split at proper
  · rename_i block
    rw [if_pos block, if_pos block]
    have three := List.isPrefixOf_iff_prefix.mp block
    have long : 2 ≤ text.length := Nat.le_of_succ_le_succ three.length_le
    have closed : (blockRest (text.drop 2)).1 = true := by
      by_contra isOpen
      simp [isOpen] at proper
    rw [List.drop_append_of_le_length long, blockRest_apart closed,
      List.take_append_of_le_length (by simpa using long)]
    simp [Scan.before, closed]
  · rename_i string
    rw [if_neg string, if_neg string]
    have closed : (stringRest text).1 = true := by
      by_contra isOpen
      simp [isOpen] at proper
    rw [stringRest_apart closed]
    simp [Scan.before, closed]

/-! ## Tokens -/

theorem StartsOperator.apart (apart : tail.IsApart) (starts : StartsOperator byte text) :
    StartsOperator byte (text ++ tail) where
  comment slash := by
    rw [ne_eq, ne_eq, front_apart apart (by decide), front_apart apart (by decide)]
    exact starts.comment slash
  blank := starts.blank
  narrow := starts.narrow
  word := starts.word
  number := by
    rw [front_accept_apart apart Bytes.isDigit rfl text]
    exact starts.number
  character := starts.character
  string := starts.string

/-- A proper token that the grammar sees leaves a space behind the text alone. -/
theorem Scans.apart {found : Scan} (read : Scans byte text found) (apart : tail.IsApart)
    (proper : found.kind ≠ .error) (seen : found.kind.isTrivia = false) :
    Scans byte (text ++ tail) (found.before tail) := by
  cases read with
  | lineComment | comment | blanks => cases seen
  | unclosed | stray => exact absurd rfl proper
  | word wellFormed starts =>
      have sameRune := decode_apart apart byte text
      have again : Scans byte (text ++ tail) _ := .word (by rwa [sameRune]) (by rwa [sameRune])
      rwa [← List.cons_append, word_apart apart] at again
  | number starts =>
      have point := front_accept_apart apart Bytes.isDigit rfl text
      have again : Scans byte (text ++ tail) _ := .number (by rwa [point])
      rwa [← List.cons_append, number_apart apart] at again
  | characterLiteral quote =>
      have again : Scans byte (text ++ tail) _ := .characterLiteral quote
      rwa [← List.cons_append, characterLiteral_apart apart byte text proper] at again
  | stringLiteral quote =>
      have again : Scans byte (text ++ tail) _ := .stringLiteral quote
      rwa [← List.cons_append, stringLiteral_apart apart byte text proper] at again
  | operator starts =>
      have again : Scans byte (text ++ tail) _ := .operator (starts.apart apart)
      rwa [← List.cons_append, operator_before apart proper] at again

theorem scan_apart (apart : tail.IsApart) (proper : (scan byte text).kind ≠ .error)
    (seen : (scan byte text).kind.isTrivia = false) :
    scan byte (text ++ tail) = (scan byte text).before tail :=
  ((scan_scans byte text).apart apart proper seen).eq

end Lexer

/-! ## Tokens with spaces between -/

/-- A word that is a token of its own in front of nothing and in front of a space. -/
def Word.Stands (word : Word) : Prop :=
  word.1.isTrivia = false ∧ ∀ tail : Bytes, tail.IsApart → word.Leads tail

theorem Word.Stands.opens {word : Word} (stands : word.Stands) :
    ∃ byte rest, word.2 = byte :: rest ∧ Lexer.isBlank byte = false := by
  obtain ⟨seen, leads⟩ := stands
  obtain ⟨byte, rest, spelled, scanned⟩ := leads [] (.inl rfl)
  refine ⟨byte, rest, spelled, ?_⟩
  by_contra blank
  have kindEq : (Lexer.scan byte _).kind = word.1 := congrArg Scan.kind scanned
  rw [← kindEq, Lexer.scan_of_isBlank _ (Bool.not_eq_false _ ▸ blank)] at seen
  cases seen

namespace Token

/-- What a token is depends on no more of the text behind it than that this does
not go on with it. -/
theorem Lexes.stands {pos : Pos} {tokens : List Token} (lexed : Lexes pos text tokens)
    {token : Token} (member : token ∈ tokens) (proper : token.kind ≠ .error)
    (significant : token.isSignificant = true) : Word.Stands token.shape := by
  obtain ⟨seen, notEnd⟩ : token.kind.isTrivia = false ∧ token.kind ≠ .eof := by
    simpa [isSignificant] using significant
  obtain ⟨byte, rest, sameKind, sameText⟩ := lexed.exists_scan member notEnd
  obtain ⟨tail, textEq⟩ := Lexer.scan_text byte rest
  rw [sameKind] at proper seen
  have alone := Lexer.scan_local textEq proper List.nil_prefix (by simp)
  rw [List.append_nil] at alone
  refine ⟨(congrArg Kind.isTrivia sameKind).trans seen, fun gap apart =>
    ⟨byte, tail, sameText.trans textEq, ?_⟩⟩
  have aloneKind : (Lexer.scan byte tail).kind = (Lexer.scan byte rest).kind := by rw [alone]
  rw [Lexer.scan_apart apart (aloneKind ▸ proper) (aloneKind ▸ seen), alone]
  simp only [Scan.before, shape, sameKind, sameText, List.nil_append]

/-- Words that stand for themselves are found again with one space between them. -/
theorem Lexes.of_join {words : List Word} (stand : ∀ word ∈ words, word.Stands) {pos : Pos}
    {tokens : List Token}
    (lexed : Lexes pos (Bytes.join [0x20] (words.map Prod.snd)) tokens) :
    (tokens.filter (!·.kind.isTrivia)).map shape = words ++ [(.eof, [])] := by
  induction words generalizing pos tokens with
  | nil =>
      cases lexed with
      | finish => rfl
  | cons word words ih =>
      obtain ⟨first, others⟩ := List.forall_mem_cons.mp stand
      rw [List.map_cons, Bytes.join_cons] at lexed
      obtain ⟨token, rest, place, rfl, shapeEq, behind⟩ :=
        of_leads (first.2 _ (Bytes.gap_isApart _)) lexed
      obtain ⟨further, later, goesOn, sameSeen, -⟩ :=
        behind.of_gap fun word member => (others word member).opens
      have kept : (!token.kind.isTrivia) = true := by
        have sameKind : token.kind = word.1 := congrArg Prod.fst shapeEq
        rw [sameKind, first.1]
        rfl
      rw [List.filter_cons, if_pos kept, List.map_cons, sameSeen, ih others goesOn, shapeEq]
      rfl

end Token

namespace Source

/-- The kinds and texts of the tokens that the grammar sees. -/
def shapes (source : Source) : List Word :=
  (source.tokens.filter (!·.kind.isTrivia)).map Token.shape

/-- Lexing does not depend on how tokens are spaced. Where no token of a text is
an error, those that the grammar sees are found again when they are written with
one space between them. -/
theorem shapes_join (source : Source) (file : Bytes)
    (proper : ∀ token ∈ source.tokens, token.kind ≠ .error) :
    (of file (Bytes.join [0x20]
      ((source.tokens.filter Token.isSignificant).map Token.text))).shapes = source.shapes := by
  have stand : ∀ word ∈ (source.tokens.filter Token.isSignificant).map Token.shape,
      Word.Stands word := by
    intro word member
    obtain ⟨token, listed, rfl⟩ := List.mem_map.mp member
    obtain ⟨member, significant⟩ := List.mem_filter.mp listed
    exact source.lexes_tokens.stands member (proper token member) significant
  have texts : (source.tokens.filter Token.isSignificant).map Token.text =
      ((source.tokens.filter Token.isSignificant).map Token.shape).map Prod.snd := by
    rw [List.map_map]
    rfl
  rw [shapes, shapes, Stream.seen_tokens source, List.map_append, texts]
  exact Token.Lexes.of_join stand (lexes_tokens (of file _))

/-- Numbers, dots and quotes that touch, and a comment between two words. -/
theorem shapes_join_touching :
    (∀ token ∈ (of [] (Bytes.ofString "1..2+\"a\"'b'x/* c */y>=.5")).tokens, token.kind ≠ .error) ∧
      (of [] (Bytes.ofString "1 . .2 + \"a\" 'b' x y > = .5")).shapes =
        (of [] (Bytes.ofString "1..2+\"a\"'b'x/* c */y>=.5")).shapes := by
  have proper : ∀ token ∈ (of [] (Bytes.ofString "1..2+\"a\"'b'x/* c */y>=.5")).tokens,
      token.kind ≠ .error := by
    decide +kernel
  have joined := shapes_join _ [] proper
  refine ⟨proper, ?_⟩
  rw [← joined]
  decide +kernel

end Source

end JavaFront
