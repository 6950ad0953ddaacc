import JavaFront.Proofs.Grammar.Formula
import JavaFront.Proofs.Token.Layout
import JavaFront.Proofs.Token.Words
import Mathlib.Data.List.Chain
import Mathlib.Data.List.Find

/-!
# Words with spaces between

A name, an operator or a separator is one token with a space behind it as it is
on its own. So words that are written with one space between them are read back
as they are, and the operators among them are put together again.
-/

namespace JavaFront

/-! ## A token and a space -/

/-- The scan with more text behind it. -/
def Scan.before (scan : Scan) (tail : Bytes) : Scan :=
  { scan with rest := scan.rest ++ tail }

/-- Nothing, or a space in front. -/
def Bytes.IsApart (tail : Bytes) : Prop :=
  tail = [] ∨ ∃ rest, tail = 0x20 :: rest

/-- What is behind a text that is joined with others by spaces. -/
def Bytes.gap : List Bytes → Bytes
  | [] => []
  | parts => 0x20 :: Bytes.join [0x20] parts

theorem Bytes.gap_isApart (parts : List Bytes) : (Bytes.gap parts).IsApart := by
  cases parts with
  | nil => exact .inl rfl
  | cons => exact .inr ⟨_, rfl⟩

theorem Bytes.join_cons (part : Bytes) (parts : List Bytes) :
    Bytes.join [0x20] (part :: parts) = part ++ Bytes.gap parts := by
  cases parts with
  | nil => simp [join, gap, List.intercalate]
  | cons => simp [join, gap, List.intercalate]

namespace Lexer

variable {byte : UInt8} {rest tail text : Bytes}

theorem wordRun_of_isApart (apart : tail.IsApart) : wordRun 0 tail = ([], tail) := by
  rcases apart with rfl | ⟨rest, rfl⟩
  · rfl
  · have noPart : isWordPart (Rune.decode 0x20 rest).code = false := by
      rw [Rune.decode_of_lt rest (by decide)]
      decide
    simp [wordRun, noPart]

theorem scan_of_isBlank (rest : Bytes) (blank : isBlank byte = true) :
    (scan byte rest).kind = .whitespace := by
  rw [(Scans.blanks blank).eq]

/-- A space in front of something else is a token of its own. -/
theorem scan_space (rest : Bytes) (solid : isBlank byte = false) :
    scan 0x20 (byte :: rest) = ⟨.whitespace, [0x20], byte :: rest⟩ := by
  have isSpace : isBlank 0x20 = true := by decide
  rw [(Scans.blanks isSpace).eq]
  simp [blanks, List.span_eq_takeWhile_dropWhile, isSpace, solid]

/-- A run of identifier characters ends in front of a text that does not go on
with another one. -/
theorem wordRun_before (skipped : Nat) (inside : skipped ≤ text.length)
    (whole : wordRun skipped text = (text, [])) (ends : wordRun 0 tail = ([], tail)) :
    wordRun skipped (text ++ tail) = (text, tail) := by
  induction text generalizing skipped with
  | nil =>
      obtain rfl : skipped = 0 := Nat.le_zero.mp inside
      exact ends
  | cons byte text ih =>
      cases skipped with
      | succ skipped =>
          simp only [wordRun, Prod.mk.injEq, List.cons.injEq, true_and] at whole
          have others := ih skipped (Nat.le_of_succ_le_succ inside) (Prod.ext whole.1 whole.2)
          simp only [List.cons_append, wordRun, others]
      | zero =>
          simp only [wordRun] at whole
          split at whole
          · rename_i accepted
            have proper := (Bool.and_eq_true_iff.mp accepted).1
            have sameRune := Rune.decode_of_wellFormed (List.prefix_append text tail) proper
            have size := Rune.decode_size_le byte text
            simp only [Prod.mk.injEq, List.cons.injEq, true_and] at whole
            have others := ih ((Rune.decode byte text).size - 1) (by omega)
              (Prod.ext whole.1 whole.2)
            simp only [List.cons_append, wordRun, sameRune, accepted, if_true, others]
          · cases whole

/-- An identifier or reserved word that is a whole text is read again in front of
a text that does not go on with it. -/
theorem scan_word_before {kind : Token.Kind} (isWord : kind.isWord = true)
    (alone : scan byte rest = ⟨kind, byte :: rest, []⟩) (ends : wordRun 0 tail = ([], tail)) :
    scan byte (rest ++ tail) = ⟨kind, byte :: rest, tail⟩ := by
  have read := scan_scans byte rest
  rw [alone] at read
  obtain ⟨wellFormed, starts, isRun⟩ := read.of_isWord isWord
  rw [word, Scan.mk.injEq] at isRun
  have whole : wordRun 0 (byte :: rest) = (byte :: rest, []) :=
    Prod.ext isRun.2.1.symm isRun.2.2.symm
  have further := wordRun_before 0 (Nat.zero_le _) whole ends
  have sameRune := Rune.decode_of_wellFormed (List.prefix_append rest tail) wellFormed
  have again : Scans byte (rest ++ tail) _ := .word (by rwa [sameRune]) (by rwa [sameRune])
  rw [again.eq, word, ← List.cons_append, further, isRun.1, ← isRun.2.1]

/-- A text without spaces stands in front of another one if it stands in front of
what is left of that before a space. -/
theorem isPrefixOf_apart {spelling : Bytes} (closed : 0x20 ∉ spelling) (apart : tail.IsApart) :
    spelling.isPrefixOf (text ++ tail) = spelling.isPrefixOf text := by
  rw [Bool.eq_iff_iff, List.isPrefixOf_iff_prefix, List.isPrefixOf_iff_prefix]
  refine ⟨fun present => ?_, fun present => present.trans (List.prefix_append text tail)⟩
  rcases List.prefix_or_prefix_of_prefix present (List.prefix_append text tail) with
    inside | ⟨others, rfl⟩
  · exact inside
  · have behind := (List.prefix_append_right_inj text).mp present
    rcases apart with rfl | ⟨rest, rfl⟩
    · obtain rfl := List.prefix_nil.mp behind
      exact ⟨[], by simp⟩
    · cases others with
      | nil => exact ⟨[], by simp⟩
      | cons first others =>
          obtain ⟨rfl, -⟩ := List.cons_prefix_cons.mp behind
          simp at closed

theorem operator_found {kind : Token.Kind}
    (found : operators.find? (fun kind => (Bytes.ofString kind.name).isPrefixOf text) = some kind) :
    kind ∈ operators ∧ Bytes.ofString kind.name <+: text := by
  have spelled : (Bytes.ofString kind.name).isPrefixOf text = true := by
    simpa using List.find?_some found
  exact ⟨List.mem_of_find?_eq_some found, List.isPrefixOf_iff_prefix.mp spelled⟩

/-- An operator leaves a space behind the text alone. -/
theorem operator_before (apart : tail.IsApart) (proper : (operator text).kind ≠ .error) :
    operator (text ++ tail) = (operator text).before tail := by
  have closed : ∀ other ∈ operators, 0x20 ∉ Bytes.ofString other.name := by decide +kernel
  have same : operators.find? (fun kind => (Bytes.ofString kind.name).isPrefixOf (text ++ tail)) =
      operators.find? fun kind => (Bytes.ofString kind.name).isPrefixOf text :=
    List.find?_congr fun other member => isPrefixOf_apart (closed other member) apart
  simp only [operator, same] at proper ⊢
  cases found : operators.find? fun kind => (Bytes.ofString kind.name).isPrefixOf text with
  | none =>
      rw [found] at proper
      exact absurd rfl proper
  | some kind =>
      have enough := (operator_found found).2.length_le
      rw [length_ofString] at enough
      simp only [List.take_append_of_le_length enough, List.drop_append_of_le_length enough]
      rfl

/-- An operator that is a whole text is one in front of a space as well. -/
theorem operator_apart {kind : Token.Kind} (known : kind ∈ operators) (apart : tail.IsApart) :
    operator (Bytes.ofString kind.name ++ tail) = ⟨kind, Bytes.ofString kind.name, tail⟩ := by
  have whole : ∀ kind ∈ operators, kind ≠ .error ∧
      operator (Bytes.ofString kind.name) = ⟨kind, Bytes.ofString kind.name, []⟩ := by
    decide +kernel
  obtain ⟨proper, alone⟩ := whole kind known
  rw [operator_before apart (by rwa [alone]), alone]
  rfl

/-- An operator is read where no other one stands in front. -/
theorem operator_of_unlike {kind : Token.Kind} (known : kind ∈ operators)
    (unlike : ∀ other ∈ operators, other ≠ kind →
      ¬ Bytes.ofString other.name <+: Bytes.ofString kind.name ++ tail) :
    operator (Bytes.ofString kind.name ++ tail) = ⟨kind, Bytes.ofString kind.name, tail⟩ := by
  have found : operators.find? (fun other => (Bytes.ofString other.name).isPrefixOf
      (Bytes.ofString kind.name ++ tail)) = operators.find? (· = kind) := by
    apply List.find?_congr
    intro other member
    by_cases same : other = kind
    · simp [same]
    · rw [decide_eq_false same, Bool.eq_false_iff, ne_eq, List.isPrefixOf_iff_prefix]
      exact unlike other member same
  have listed : ∀ kind ∈ operators, operators.find? (· = kind) = some kind := by decide
  simp only [operator, found, listed kind known]
  rw [← length_ofString, List.take_left, List.drop_left]

/-- Two texts that do not start with one another start no common text. -/
theorem not_prefix_append {spelling other : Bytes} (notInside : ¬ other <+: spelling)
    (notAround : ¬ spelling <+: other) : ¬ other <+: spelling ++ tail := by
  intro present
  rcases List.prefix_or_prefix_of_prefix present (List.prefix_append _ tail) with inside | around
  · exact notInside inside
  · exact notAround around

/-- Separators and operators that have no beginning in common with another
one. -/
def delimiters : List Token.Kind :=
  [.less, .greater, .lparen, .rparen, .lbrace, .rbrace, .lbracket, .rbracket, .semicolon, .comma,
   .atSign, .bitNot, .question]

/-- A delimiter is a token whatever comes behind it. -/
theorem operator_delimiter {kind : Token.Kind} (delimits : kind ∈ delimiters) :
    operator (Bytes.ofString kind.name ++ tail) = ⟨kind, Bytes.ofString kind.name, tail⟩ := by
  have known : ∀ kind ∈ delimiters, kind ∈ operators := by decide
  have unlike : ∀ kind ∈ delimiters, ∀ other ∈ operators, other ≠ kind →
      ¬ Bytes.ofString other.name <+: Bytes.ofString kind.name ∧
        ¬ Bytes.ofString kind.name <+: Bytes.ofString other.name := by
    decide +kernel
  refine operator_of_unlike (known kind delimits) fun other member differs => ?_
  obtain ⟨notInside, notAround⟩ := unlike kind delimits other member differs
  exact not_prefix_append notInside notAround

/-- The first bytes of a text make it an operator or a separator and no number
or comment. -/
def startsSymbol : Bytes → Bool
  | [] => false
  | byte :: rest =>
    !isBlank byte && byte < 0x80 && !isWordStart byte.toNat && !Bytes.isDigit byte &&
      byte != 0x2e && byte != 0x27 && byte != 0x22 &&
      (byte != 0x2f || (front rest != 0x2f && front rest != 0x2a))

theorem startsSymbol_append (starts : startsSymbol (byte :: rest) = true)
    (ends : tail.IsApart ∨ byte ≠ 0x2f) : startsSymbol (byte :: (rest ++ tail)) = true := by
  simp only [startsSymbol, Bool.and_eq_true, Bool.or_eq_true, bne_iff_ne] at starts ⊢
  refine ⟨starts.1, ?_⟩
  rcases starts.2 with noSlash | ⟨noLine, noBlock⟩
  · exact .inl noSlash
  · cases rest with
    | cons next rest => exact .inr ⟨noLine, noBlock⟩
    | nil =>
        rcases ends with (rfl | ⟨rest, rfl⟩) | noSlash
        · exact .inr (by decide)
        · exact .inr (by simp [front])
        · exact .inl noSlash

theorem scan_of_startsSymbol (starts : startsSymbol (byte :: rest) = true) :
    scan byte rest = operator (byte :: rest) := by
  simp only [startsSymbol, Bool.and_eq_true, Bool.or_eq_true, Bool.not_eq_true', bne_iff_ne,
    decide_eq_true_eq] at starts
  obtain ⟨⟨⟨⟨⟨⟨⟨notBlank, narrow⟩, noWord⟩, noDigit⟩, noDot⟩, noQuote⟩, noString⟩, plain⟩ := starts
  refine (Scans.operator ⟨fun isSlash => ?_, notBlank, narrow, noWord, ?_, noQuote, noString⟩).eq
  · exact plain.resolve_left (absurd isSlash)
  · simp [noDigit, noDot]

end Lexer

/-! ## Words in front of a text -/

/-- The token in front of the text is the word, and the other text is behind
it. -/
def Word.Leads (word : Word) (tail : Bytes) : Prop :=
  ∃ byte rest, word.2 = byte :: rest ∧
    Lexer.scan byte (rest ++ tail) = ⟨word.1, word.2, tail⟩

theorem Name.leads (name : Name) {tail : Bytes} (ends : Lexer.wordRun 0 tail = ([], tail)) :
    Word.Leads (.ident, name.text) tail := by
  obtain ⟨text, alone⟩ := name
  cases text with
  | nil => cases alone
  | cons byte rest =>
      have first := (List.cons.inj alone).1
      have sameKind : (Lexer.scan byte rest).kind = .ident := congrArg Prod.fst first
      have sameText : (Lexer.scan byte rest).text = byte :: rest := congrArg Prod.snd first
      have splits := Lexer.scan_splits byte rest
      rw [Scan.Splits, sameText] at splits
      have whole : Lexer.scan byte rest = ⟨.ident, byte :: rest, []⟩ := by
        rw [← sameKind, ← sameText, ← List.append_right_eq_self.mp splits]
      exact ⟨byte, rest, rfl, Lexer.scan_word_before rfl whole ends⟩

/-- The operators and separators that the lexer reads, without those that start
with a dot. -/
def Token.Kind.isSymbol (kind : Token.Kind) : Bool :=
  Lexer.operators.contains kind && kind != .dot && kind != .ellipsis

theorem Token.Kind.word_leads {kind : Token.Kind} (isSymbol : kind.isSymbol = true) {tail : Bytes}
    (ends : tail.IsApart ∨ kind ∈ Lexer.delimiters) : kind.word.Leads tail := by
  obtain ⟨⟨known, noDot⟩, noEllipsis⟩ : (kind ∈ Lexer.operators ∧ kind ≠ .dot) ∧
      kind ≠ .ellipsis := by
    simpa [Token.Kind.isSymbol] using isSymbol
  have opens : ∀ kind ∈ Lexer.operators, kind ≠ .dot → kind ≠ .ellipsis →
      Lexer.startsSymbol (Bytes.ofString kind.name) = true := by
    decide +kernel
  have starts := opens kind known noDot noEllipsis
  have reads : Lexer.operator (Bytes.ofString kind.name ++ tail) = ⟨kind, _, tail⟩ :=
    ends.elim (Lexer.operator_apart known) Lexer.operator_delimiter
  cases spelled : Bytes.ofString kind.name with
  | nil =>
      rw [spelled] at starts
      cases starts
  | cons byte rest =>
      rw [spelled] at starts reads
      refine ⟨byte, rest, spelled, ?_⟩
      have further : Lexer.startsSymbol (byte :: (rest ++ tail)) = true := by
        refine Lexer.startsSymbol_append starts (ends.imp_right fun delimits isSlash => ?_)
        have noSlash : ∀ kind ∈ Lexer.delimiters,
            (Bytes.ofString kind.name).head? ≠ some 0x2f := by
          decide +kernel
        exact noSlash kind delimits (by rw [spelled, isSlash]; rfl)
      rw [Lexer.scan_of_startsSymbol further]
      exact reads.trans (by rw [← spelled]; rfl)

/-! ## Words made of pieces -/

namespace Stream

variable {stream : Stream} {index : Nat}

theorem follows_of_touch {ahead : Nat} {kind : Token.Kind}
    (touch : stream.adjacent (index + ahead) = true)
    (found : stream.kind (index + (ahead + 1)) = kind) :
    stream.follows index (ahead + 1) kind = true := by
  simp only [follows, found, decide_true, Bool.and_true]
  exact touch

theorem not_follows_of_kind {ahead : Nat} {kind other : Token.Kind}
    (found : stream.kind (index + ahead) = kind) (differ : kind ≠ other) :
    stream.follows index ahead other = false := by
  simp [follows, found, differ]

/-- Where the pieces of an operator stand side by side and no further piece
touches them, that is the operator. -/
theorem operator_of_pieces (kind : Token.Kind)
    (spelled : ∀ ahead piece, kind.pieces[ahead]? = some piece →
      stream.kind (index + ahead) = piece)
    (touch : ∀ ahead, ahead + 1 < kind.pieces.length → stream.adjacent (index + ahead) = true)
    (ends : ∀ piece, isPiece piece = true →
      stream.follows index kind.pieces.length piece = false) :
    stream.operator index = (kind, kind.pieces.length) := by
  have next : ∀ ahead piece, kind.pieces[ahead + 1]? = some piece →
      stream.follows index (ahead + 1) piece = true := by
    intro ahead piece found
    have inside := (List.getElem?_eq_some_iff.mp found).1
    exact follows_of_touch (touch ahead inside) (spelled (ahead + 1) piece found)
  have unlike : ∀ ahead piece other, kind.pieces[ahead]? = some piece → piece ≠ other →
      stream.follows index ahead other = false :=
    fun ahead piece other found differ => not_follows_of_kind (spelled ahead piece found) differ
  cases kind with
  | less =>
      have first : stream.kind index = .less := spelled 0 .less rfl
      have noShift : stream.follows index 1 .less = false := ends .less rfl
      have noAssign : stream.follows index 1 .assign = false := ends .assign rfl
      simp [operator, first, noShift, noAssign, Token.Kind.pieces]
  | greater =>
      have first : stream.kind index = .greater := spelled 0 .greater rfl
      have noShift : stream.follows index 1 .greater = false := ends .greater rfl
      have noAssign : stream.follows index 1 .assign = false := ends .assign rfl
      simp [operator, first, noShift, noAssign, Token.Kind.pieces]
  | lessEqual =>
      have first : stream.kind index = .less := spelled 0 .less rfl
      have second : stream.follows index 1 .assign = true := next 0 _ rfl
      have noShift : stream.follows index 1 .less = false := unlike 1 _ _ rfl (by decide)
      simp [operator, first, second, noShift, Token.Kind.pieces]
  | greaterEqual =>
      have first : stream.kind index = .greater := spelled 0 .greater rfl
      have second : stream.follows index 1 .assign = true := next 0 _ rfl
      have noShift : stream.follows index 1 .greater = false := unlike 1 _ _ rfl (by decide)
      simp [operator, first, second, noShift, Token.Kind.pieces]
  | shiftLeft =>
      have first : stream.kind index = .less := spelled 0 .less rfl
      have second : stream.follows index 1 .less = true := next 0 _ rfl
      have noAssign : stream.follows index 2 .assign = false := ends .assign rfl
      simp [operator, first, second, noAssign, Token.Kind.pieces]
  | shiftLeftAssign =>
      have first : stream.kind index = .less := spelled 0 .less rfl
      have second : stream.follows index 1 .less = true := next 0 _ rfl
      have third : stream.follows index 2 .assign = true := next 1 _ rfl
      simp [operator, first, second, third, Token.Kind.pieces]
  | shiftRight =>
      have first : stream.kind index = .greater := spelled 0 .greater rfl
      have second : stream.follows index 1 .greater = true := next 0 _ rfl
      have noShift : stream.follows index 2 .greater = false := ends .greater rfl
      have noAssign : stream.follows index 2 .assign = false := ends .assign rfl
      simp [operator, first, second, noShift, noAssign, Token.Kind.pieces]
  | shiftRightAssign =>
      have first : stream.kind index = .greater := spelled 0 .greater rfl
      have second : stream.follows index 1 .greater = true := next 0 _ rfl
      have noShift : stream.follows index 2 .greater = false := unlike 2 _ _ rfl (by decide)
      have third : stream.follows index 2 .assign = true := next 1 _ rfl
      simp [operator, first, second, noShift, third, Token.Kind.pieces]
  | unsignedShiftRight =>
      have first : stream.kind index = .greater := spelled 0 .greater rfl
      have second : stream.follows index 1 .greater = true := next 0 _ rfl
      have third : stream.follows index 2 .greater = true := next 1 _ rfl
      have noAssign : stream.follows index 3 .assign = false := ends .assign rfl
      simp [operator, first, second, third, noAssign, Token.Kind.pieces]
  | unsignedShiftRightAssign =>
      have first : stream.kind index = .greater := spelled 0 .greater rfl
      have second : stream.follows index 1 .greater = true := next 0 _ rfl
      have third : stream.follows index 2 .greater = true := next 1 _ rfl
      have fourth : stream.follows index 3 .assign = true := next 2 _ rfl
      simp [operator, first, second, third, fourth, Token.Kind.pieces]
  | _ =>
      have first := spelled 0 _ rfl
      rw [Nat.add_zero] at first
      rw [operator, first]
      rfl

end Stream

theorem Token.Kind.pieces_of_single {kind : Token.Kind} (single : Stream.isComposed kind = false) :
    kind.pieces = [kind] := by
  cases kind <;> first | rfl | cases single

/-- The tokens of the text that make up a word. -/
def Word.pieces (word : Word) : List Word :=
  if Stream.isComposed word.1 then word.1.pieces.map Token.Kind.word else [word]

theorem Token.Kind.word_pieces (kind : Token.Kind) :
    kind.word.pieces = kind.pieces.map Token.Kind.word := by
  simp only [Word.pieces]
  split
  · rfl
  · rename_i composed
    have single : Stream.isComposed kind = false := Bool.eq_false_iff.mpr composed
    rw [pieces_of_single single]
    rfl

/-- An identifier, or an operator or separator whose pieces the lexer reads. -/
inductive Word.Proper : Word → Prop
  | name (name : Name) : Proper (.ident, name.text)
  | symbol {kind : Token.Kind} : kind.pieces.all Token.Kind.isSymbol = true → Proper kind.word

/-- Words that lead one another, the last of them the text. -/
def Word.Lead : List Word → Bytes → Prop
  | [], _ => True
  | word :: words, tail => word.Leads (words.flatMap Prod.snd ++ tail) ∧ Word.Lead words tail

/-- Angle brackets and a symbol behind them need no spaces between. -/
theorem Word.lead_angles {kinds : List Token.Kind} {final : Token.Kind} {tail : Bytes}
    (angles : ∀ kind ∈ kinds, kind = .less ∨ kind = .greater) (isSymbol : final.isSymbol = true)
    (apart : tail.IsApart) : Word.Lead ((kinds ++ [final]).map Token.Kind.word) tail := by
  induction kinds with
  | nil => exact ⟨Token.Kind.word_leads isSymbol (.inl apart), trivial⟩
  | cons kind kinds ih =>
      have angle := angles kind List.mem_cons_self
      refine ⟨Token.Kind.word_leads ?_ (.inr ?_), ih fun other member =>
        angles other (List.mem_cons_of_mem kind member)⟩
      all_goals rcases angle with rfl | rfl <;> decide

namespace Word.Proper

variable {word : Word}

theorem lead_pieces (proper : word.Proper) {tail : Bytes} (apart : tail.IsApart) :
    Word.Lead word.pieces tail := by
  cases proper with
  | name name => exact ⟨name.leads (Lexer.wordRun_of_isApart apart), trivial⟩
  | @symbol kind symbols =>
      obtain ⟨angles, final, split, angled⟩ : ∃ angles final, kind.pieces = angles ++ [final] ∧
          ∀ other ∈ angles, other = .less ∨ other = .greater := by
        refine ⟨kind.pieces.dropLast, kind.pieces.getLast?.getD kind, ?_⟩
        cases kind <;> decide
      rw [Token.Kind.word_pieces, split]
      rw [split] at symbols
      exact Word.lead_angles angled (by simpa using List.all_eq_true.mp symbols final (by simp))
        apart

/-- The pieces of a word spell it. -/
theorem flatMap_pieces (proper : word.Proper) : word.pieces.flatMap Prod.snd = word.2 := by
  cases proper with
  | name name => exact List.append_nil _
  | @symbol kind symbols =>
      rw [Token.Kind.word_pieces]
      cases composed : Stream.isComposed kind with
      | false =>
          rw [Token.Kind.pieces_of_single composed]
          exact List.append_nil _
      | true =>
          cases kind <;> first | exact absurd composed (by decide) | decide +kernel

theorem map_pieces (proper : word.Proper) : word.pieces.map Prod.fst = word.1.pieces := by
  cases proper with
  | name name => rfl
  | @symbol kind symbols =>
      rw [Token.Kind.word_pieces, List.map_map]
      exact List.map_id' _

/-- The pieces of a word are tokens that the grammar sees. -/
theorem seen_pieces (proper : word.Proper) : ∀ piece ∈ word.pieces, piece.1.isTrivia = false := by
  have symbolSeen : ∀ kind : Token.Kind, kind.isSymbol = true → kind.isTrivia = false := by
    intro kind isSymbol
    cases kind <;> first | rfl | exact absurd isSymbol (by decide)
  cases proper with
  | name name => exact List.forall_mem_singleton.mpr rfl
  | @symbol kind symbols =>
      rw [Token.Kind.word_pieces]
      exact List.forall_mem_map.mpr fun piece member =>
        symbolSeen piece (List.all_eq_true.mp symbols piece member)

/-- A word starts with a byte that is not blank. -/
theorem opens (proper : word.Proper) :
    ∃ byte rest, word.2 = byte :: rest ∧ Lexer.isBlank byte = false := by
  have lead := proper.lead_pieces (.inl rfl)
  have seen := proper.seen_pieces
  rw [← proper.flatMap_pieces]
  cases found : word.pieces with
  | nil =>
      have kinds := proper.map_pieces
      rw [found] at kinds
      revert kinds
      generalize word.1 = kind
      cases kind <;> simp [Token.Kind.pieces]
  | cons piece pieces =>
      rw [found] at lead seen
      obtain ⟨⟨byte, rest, spelled, scanned⟩, -⟩ := lead
      refine ⟨byte, rest ++ pieces.flatMap Prod.snd, ?_, ?_⟩
      · rw [List.flatMap_cons, spelled, List.cons_append]
      · by_contra blank
        have kindEq : (Lexer.scan byte _).kind = piece.1 := congrArg Scan.kind scanned
        rw [Lexer.scan_of_isBlank _ (Bool.not_eq_false _ ▸ blank)] at kindEq
        have isSeen := seen piece List.mem_cons_self
        rw [← kindEq] at isSeen
        cases isSeen

end Word.Proper

namespace Token.Lexes

/-- A word in front of a text is read as one token. -/
theorem of_leads {word : Word} {tail : Bytes} {pos : Pos} {tokens : List Token}
    (leads : word.Leads tail) (lexed : Lexes pos (word.2 ++ tail) tokens) :
    ∃ token rest place, tokens = token :: rest ∧ token.shape = word ∧ Lexes place tail rest := by
  obtain ⟨byte, rest, spelled, scanned⟩ := leads
  rw [spelled, List.cons_append] at lexed
  cases lexed with
  | @token _ _ _ tokens later =>
      have sameRest : (next pos (byte :: (rest ++ tail))).2 = tail := congrArg Scan.rest scanned
      rw [sameRest] at later
      refine ⟨_, tokens, _, rfl, ?_, later⟩
      simp only [shape, next, scanned]

/-- Words that lead one another are read one after another. -/
theorem of_lead {words : List Word} {tail : Bytes} {pos : Pos} {tokens : List Token}
    (lead : Word.Lead words tail) (lexed : Lexes pos (words.flatMap Prod.snd ++ tail) tokens) :
    ∃ group rest place, tokens = group ++ rest ∧ group.map shape = words ∧
      Lexes place tail rest := by
  induction words generalizing pos tokens with
  | nil => exact ⟨[], tokens, pos, rfl, rfl, lexed⟩
  | cons word words ih =>
      obtain ⟨leads, others⟩ := lead
      rw [List.flatMap_cons, List.append_assoc] at lexed
      obtain ⟨token, further, place, rfl, shape, later⟩ := of_leads leads lexed
      obtain ⟨group, rest, place, rfl, shapes, behind⟩ := ih others later
      exact ⟨token :: group, rest, place, rfl, by rw [List.map_cons, shape, shapes], behind⟩

theorem endAt_mem {pos : Pos} {text : Bytes} {tokens : List Token}
    (lexed : Lexes pos text tokens) : endAt (pos.advance text []) ∈ tokens := by
  obtain ⟨body, final, rfl, rfl, -⟩ := lexed.exists_body
  simp

/-- The space between two words is a token of its own, which the grammar does
not see, and what is behind it stands farther on. -/
theorem of_gap {words : List Word}
    (open_words : ∀ word ∈ words, ∃ byte rest, word.2 = byte :: rest ∧ Lexer.isBlank byte = false)
    {pos : Pos} {tokens : List Token} (lexed : Lexes pos (Bytes.gap (words.map Prod.snd)) tokens) :
    ∃ place later, Lexes place (Bytes.join [0x20] (words.map Prod.snd)) later ∧
      tokens.filter (!·.kind.isTrivia) = later.filter (!·.kind.isTrivia) ∧
      ∀ token ∈ later, token.kind = .eof ∨ pos.offset < token.span.start.offset := by
  cases words with
  | nil =>
      refine ⟨pos, tokens, lexed, rfl, ?_⟩
      cases lexed
      simp [endAt]
  | cons word words =>
      obtain ⟨byte, rest, spelled, solid⟩ := open_words word List.mem_cons_self
      have text : Bytes.join [0x20] ((word :: words).map Prod.snd) =
          byte :: (rest ++ Bytes.gap (words.map Prod.snd)) := by
        rw [List.map_cons, Bytes.join_cons, spelled, List.cons_append]
      have spaced : Bytes.gap ((word :: words).map Prod.snd) =
          0x20 :: Bytes.join [0x20] ((word :: words).map Prod.snd) := rfl
      rw [spaced, text] at lexed
      rw [text]
      have read := Lexer.scan_space (rest ++ Bytes.gap (words.map Prod.snd)) solid
      cases lexed with
      | @token _ _ _ later behind =>
          have pairwise := behind.pairwise.2
          simp only [next, read, Pos.advance_offset, List.length_singleton] at behind pairwise
          refine ⟨_, later, behind, ?_, fun token member => .inr (pairwise token member)⟩
          rw [List.filter_cons_of_neg]
          simp [next, read, Token.Kind.isTrivia]

end Token.Lexes

/-! ## Words in a stream -/

namespace Stream

/-- The word stands at an index of the stream and ends in front of another
one. -/
structure Shows (stream : Stream) (word : Word) (index after : Nat) : Prop where
  kinds_eq : (stream.segment index after).map Token.kind = word.1.pieces
  operator_fst : (stream.operator index).1 = word.1
  after_eq : stream.afterOperator index = after
  bare_eq : (stream.operatorToken index).bare = word.token
  lt : index < after
  inside : after ≤ stream.last

theorem Shows.le_last {stream : Stream} {word : Word} {index after : Nat}
    (shows : stream.Shows word index after) : index ≤ stream.last :=
  Nat.le_trans (Nat.le_of_lt shows.lt) shows.inside

/-- The words stand in the stream one behind another, from an index up to
another one. -/
def Lays (stream : Stream) : List Word → Nat → Nat → Prop
  | [], index, after => index = after
  | word :: words, index, after => ∃ middle, stream.Shows word index middle ∧
      stream.Lays words middle after

theorem lays_append {stream : Stream} {words others : List Word} {index after : Nat} :
    stream.Lays (words ++ others) index after ↔
      ∃ middle, stream.Lays words index middle ∧ stream.Lays others middle after := by
  induction words generalizing index with
  | nil => exact ⟨fun lays => ⟨index, rfl, lays⟩, fun ⟨_, same, lays⟩ => same ▸ lays⟩
  | cons word words ih =>
      constructor
      · rintro ⟨next, shows, lays⟩
        obtain ⟨middle, front, back⟩ := ih.mp lays
        exact ⟨middle, ⟨next, shows, front⟩, back⟩
      · rintro ⟨middle, ⟨next, shows, front⟩, back⟩
        exact ⟨next, shows, ih.mpr ⟨middle, front, back⟩⟩

theorem Lays.le {stream : Stream} {words : List Word} {index after : Nat}
    (lays : stream.Lays words index after) : index ≤ after := by
  induction words generalizing index with
  | nil => exact Nat.le_of_eq lays
  | cons word words ih =>
      obtain ⟨middle, shows, behind⟩ := lays
      exact Nat.le_trans (Nat.le_of_lt shows.lt) (ih behind)

/-- What stands in a stream are the pieces of the words. -/
theorem Lays.kinds_eq {stream : Stream} {words : List Word} {index after : Nat}
    (lays : stream.Lays words index after) :
    (stream.segment index after).map Token.kind = words.flatMap fun word => word.1.pieces := by
  induction words generalizing index with
  | nil =>
      obtain rfl := lays
      rw [segment_self]
      rfl
  | cons word words ih =>
      obtain ⟨middle, shows, behind⟩ := lays
      rw [stream.segment_append (Nat.le_of_lt shows.lt) behind.le, List.map_append, shows.kinds_eq,
        ih behind, List.flatMap_cons]

variable {stream : Stream} {index : Nat}

/-- A word of one token. -/
theorem Shows.single {word : Word} {after : Nat} (shows : stream.Shows word index after)
    (single : isComposed word.1 = false) :
    stream.kind index = word.1 ∧ stream.succ index = after ∧
      (stream.get index).bare = word.token := by
  rcases stream.operator_cases index with isToken | ⟨composed, -⟩
  · obtain ⟨sameToken, sameAfter⟩ := operatorToken_of_single isToken
    refine ⟨?_, sameAfter.symm.trans shows.after_eq, ?_⟩
    · rw [← shows.operator_fst, isToken]
    · rw [← sameToken]
      exact shows.bare_eq
  · rw [shows.operator_fst, single] at composed
    cases composed

/-- The tokens at the front of what is left of a stream. -/
theorem get_of_segment {group others : List Token}
    (seen : stream.segment index stream.size = group ++ others) :
    (∀ ahead token, group[ahead]? = some token → stream.get (index + ahead) = token) ∧
      stream.segment (index + group.length) stream.size = others := by
  induction group generalizing index with
  | nil => exact ⟨by simp, seen⟩
  | cons token group ih =>
      have before : index < stream.size := by
        by_contra past
        have empty : stream.segment index stream.size = [] := by
          simp [segment, Nat.sub_eq_zero_of_le (Nat.not_lt.mp past)]
        rw [empty] at seen
        cases seen
      rw [segment_cons before, List.cons_append, List.cons.injEq] at seen
      obtain ⟨same, rest⟩ := ih seen.2
      refine ⟨fun ahead other found => ?_, ?_⟩
      · cases ahead with
        | zero => exact seen.1.trans (Option.some.inj found)
        | succ ahead =>
            have there := same ahead other found
            rw [Nat.add_assoc, Nat.add_comm 1] at there
            exact there
      · rw [List.length_cons, Nat.add_comm group.length, ← Nat.add_assoc]
        exact rest

/-- A word is shown where its pieces stand side by side and the token behind
them, if there is one, does not touch them. -/
theorem shows_of_segment {word : Word} (proper : word.Proper) {group others : List Token}
    (spelled : group.map Token.shape = word.pieces)
    (seen : stream.segment index stream.size = group ++ others) (goesOn : others ≠ [])
    (touch : group.IsChain fun first second => first.span.stop = second.span.start)
    (ends : ∀ final ∈ group.getLast?, ∀ next ∈ others.head?,
      next.kind = .eof ∨ final.span.stop.offset ≠ next.span.start.offset) :
    stream.Shows word index (index + group.length) := by
  obtain ⟨here, behind⟩ := get_of_segment seen
  have kinds : group.map Token.kind = word.1.pieces := by
    rw [← proper.map_pieces, ← spelled, List.map_map]
    rfl
  have count : word.1.pieces.length = group.length := by rw [← kinds, List.length_map]
  have positive : 0 < word.1.pieces.length := by
    generalize word.1 = kind
    cases kind <;> exact Nat.succ_pos _
  obtain ⟨next, later, rfl⟩ := List.exists_cons_of_ne_nil goesOn
  have within : index + group.length < stream.size := by
    by_contra past
    have empty : stream.segment (index + group.length) stream.size = [] := by
      simp [segment, Nat.sub_eq_zero_of_le (Nat.not_lt.mp past)]
    rw [empty] at behind
    cases behind
  have nextEq : stream.get (index + group.length) = next := by
    rw [segment_cons within] at behind
    exact (List.cons.inj behind).1
  have kindEq : ∀ ahead token, group[ahead]? = some token →
      stream.kind (index + ahead) = token.kind :=
    fun ahead token found => congrArg Token.kind (here ahead token found)
  have operatorEq : stream.operator index = (word.1, word.1.pieces.length) := by
    refine operator_of_pieces word.1 ?_ ?_ ?_
    · intro ahead piece found
      rw [← kinds, List.getElem?_map, Option.map_eq_some_iff] at found
      obtain ⟨token, isThere, rfl⟩ := found
      exact kindEq ahead token isThere
    · intro ahead inside
      rw [count] at inside
      have first := here ahead group[ahead] (List.getElem?_eq_getElem (by omega))
      have second := here (ahead + 1) group[ahead + 1] (List.getElem?_eq_getElem inside)
      have touches := List.isChain_iff_getElem.mp touch ahead inside
      rw [← first, ← second] at touches
      simp only [adjacent, Bool.and_eq_true, decide_eq_true_eq]
      refine ⟨?_, congrArg Pos.offset touches⟩
      simp only [size] at within
      omega
    · intro piece isPiece
      rw [count] at positive ⊢
      have isFinal := List.getLast?_eq_some_getLast (List.length_pos_iff.mp positive)
      rcases ends _ isFinal next rfl with atEnd | apart
      · refine not_follows_of_kind (congrArg Token.kind nextEq) fun same => ?_
        rw [← same, atEnd] at isPiece
        cases isPiece
      · rw [List.getLast?_eq_getElem?] at isFinal
        have finalEq := here (group.length - 1) _ isFinal
        have same : index + group.length - 1 = index + (group.length - 1) := by omega
        have nextIndex : index + (group.length - 1) + 1 = index + group.length := by omega
        simp only [follows, adjacent, same, nextIndex, finalEq, nextEq, apart, decide_false,
          Bool.and_false, Bool.false_and]
  have afterEq : stream.afterOperator index = index + group.length := by
    rw [afterOperator, operatorEq, count]
    exact advance_of_lt (Nat.le_of_lt_succ within)
  have front : stream.segment index (index + group.length) = group := by
    rw [stream.segment_append (Nat.le_add_right index group.length) (Nat.le_of_lt within),
      behind] at seen
    exact List.append_cancel_right seen
  refine ⟨by rw [front, kinds], by rw [operatorEq], afterEq, ?_, by omega,
    Nat.le_of_lt_succ within⟩
  have texts : ((List.range group.length).map fun ahead => (stream.get (index + ahead)).text) =
      group.map Token.text := by
    apply List.ext_getElem (by simp)
    intro ahead low high
    rw [List.length_map] at high
    simp [here ahead group[ahead] (List.getElem?_eq_getElem high)]
  have spelledText : (group.map Token.text).flatten = word.2 := by
    rw [← proper.flatMap_pieces, ← spelled, List.flatMap_map]
    rfl
  rw [operatorToken, operatorEq]
  simp only [fuse, count, texts, spelledText]
  rfl

theorem eq_last_of_segment {final : Token}
    (seen : stream.segment index stream.size = [final]) : index = stream.last := by
  have count := congrArg List.length seen
  simp only [segment, size, List.length_map, List.length_range', List.length_singleton] at count
  omega

/-- Words with one space between stand in the stream one behind another. -/
theorem lays_of_lexes {words : List Word} (proper : ∀ word ∈ words, word.Proper) {pos : Pos}
    {tokens : List Token}
    (lexed : Token.Lexes pos (Bytes.join [0x20] (words.map Prod.snd)) tokens)
    (seen : stream.segment index stream.size = tokens.filter (!·.kind.isTrivia)) :
    stream.Lays words index stream.last := by
  induction words generalizing index pos tokens with
  | nil =>
      cases lexed with
      | finish => exact eq_last_of_segment seen
  | cons word words ih =>
      obtain ⟨first, others⟩ := List.forall_mem_cons.mp proper
      rw [List.map_cons, Bytes.join_cons] at lexed
      have apart : (Bytes.gap (words.map Prod.snd)).IsApart := Bytes.gap_isApart _
      rw [← first.flatMap_pieces] at lexed
      obtain ⟨group, rest, place, rfl, shapes, behind⟩ :=
        Token.Lexes.of_lead (first.lead_pieces apart) lexed
      obtain ⟨further, later, goesOn, sameSeen, ahead⟩ :=
        behind.of_gap fun word member => (others word member).opens
      have kept : group.filter (!·.kind.isTrivia) = group := by
        rw [List.filter_eq_self]
        intro token member
        have listed : token.shape ∈ word.pieces := shapes ▸ List.mem_map_of_mem member
        rw [Bool.not_eq_true']
        exact first.seen_pieces _ listed
      rw [List.filter_append, kept, sameSeen] at seen
      obtain ⟨chained, -, joined⟩ := List.isChain_append.mp lexed.isChain
      refine ⟨index + group.length, shows_of_segment first shapes seen ?_ chained ?_,
        ih others goesOn (get_of_segment seen).2⟩
      · exact List.ne_nil_of_mem (List.mem_filter.mpr ⟨goesOn.endAt_mem, rfl⟩)
      · intro final isFinal next isNext
        refine (ahead next (List.mem_of_mem_filter (List.mem_of_mem_head? isNext))).imp_right
          fun later same => ?_
        obtain ⟨start, isStart, sameStart⟩ := Option.map_eq_some_iff.mp behind.head_start
        have touch := joined final isFinal start isStart
        rw [sameStart] at touch
        rw [touch] at same
        omega

/-- The tokens of a source that the grammar sees are the significant ones and the
end token behind them. -/
theorem seen_tokens (source : Source) :
    source.tokens.filter (!·.kind.isTrivia) =
      source.tokens.filter Token.isSignificant ++
        [Token.endAt (Pos.origin.advance source.text [])] := by
  obtain ⟨body, final, split, rfl, proper⟩ := source.lexes_tokens.exists_body
  have inBody : body.filter Token.isSignificant = body.filter (!·.kind.isTrivia) := by
    apply List.filter_congr
    intro token member
    simp [Token.isSignificant, (proper token member).1]
  rw [split, List.filter_append, List.filter_append, inBody]
  simp [Token.isSignificant, Token.endAt, Token.Kind.isTrivia]

/-- A stream holds the tokens of its source that the grammar sees, up to the end
token and with it. -/
theorem segment_ofSource (source : Source) :
    (ofSource source).segment 0 (ofSource source).size =
      source.tokens.filter (!·.kind.isTrivia) := by
  rw [size, segment_concat (Nat.succ_pos _), Nat.succ_sub_one, segment_eq_tokens, get_last,
    (tokens_ofSource source).2, (tokens_ofSource source).1, seen_tokens]

/-- A text of words with one space between has these words in its stream. -/
theorem lays_ofSource {words : List Word} (proper : ∀ word ∈ words, word.Proper) (file : Bytes) :
    (ofSource (.of file (Bytes.join [0x20] (words.map Prod.snd)))).Lays words 0
      (ofSource (.of file (Bytes.join [0x20] (words.map Prod.snd)))).last :=
  lays_of_lexes proper (Source.lexes_tokens (.of file _)) (segment_ofSource _)

end Stream

end JavaFront
