import JavaFront.Proofs.Token.Spacing

/-!
# Operators composed of touching tokens

Nothing stands in the text between tokens that touch, so a run of them spells
the slice that it covers. An operator put together from such a run is spelled by
it, and it is the longest one there: the pieces of a longer one would have been
put together instead.

The lexer makes a token of every `<` and `>`, but two equals signs are a token
of their own. As no composed operator has two of them in a row, the text of a
run that spells an operator tells its tokens.
-/

namespace JavaFront

namespace Lexer

variable {byte : UInt8} {rest : Bytes} {kind : Token.Kind}

/-! ## Operators and their spelling -/

/-- Only the reader of operators gives one. -/
theorem scan_of_isSymbol (isSymbol : (scan byte rest).kind.isSymbol = true) :
    scan byte rest = operator (byte :: rest) := by
  have noWord : ∀ kind ∈ .ident :: Token.Kind.words, ¬kind.isSymbol = true := by decide
  have noNumber : ∀ kind ∈ numberKinds, ¬kind.isSymbol = true := by decide
  have noCharacter : ∀ kind ∈ [Token.Kind.charLiteral, .error], ¬kind.isSymbol = true := by decide
  have noString : ∀ kind ∈ [Token.Kind.stringLiteral, .error], ¬kind.isSymbol = true := by decide
  have read := scan_scans byte rest
  generalize scan byte rest = found at read isSymbol ⊢
  cases read with
  | lineComment | comment | unclosed | blanks | stray => cases isSymbol
  | word => exact absurd isSymbol (noWord _ (word_kind _))
  | number => exact absurd isSymbol (noNumber _ (number_kind _))
  | characterLiteral => exact absurd isSymbol (noCharacter _ (characterLiteral_kind _))
  | stringLiteral => exact absurd isSymbol (noString _ (stringLiteral_kind _))
  | operator => rfl

/-- What is read as an operator is its spelling. -/
theorem operator_text {text : Bytes} (known : (operator text).kind ≠ .error) :
    (operator text).kind ∈ operators ∧
      (operator text).text = Bytes.ofString (operator text).kind.name := by
  simp only [operator] at known ⊢
  cases found : operators.find? fun kind => (Bytes.ofString kind.name).isPrefixOf text with
  | none =>
      rw [found] at known
      exact absurd rfl known
  | some kind =>
      obtain ⟨listed, isPrefix⟩ := operator_found found
      refine ⟨listed, ?_⟩
      rw [List.prefix_iff_eq_take.mp isPrefix, length_ofString]

theorem text_of_isSymbol (isSymbol : (scan byte rest).kind.isSymbol = true) :
    (scan byte rest).text = Bytes.ofString (scan byte rest).kind.name := by
  have read := scan_of_isSymbol isSymbol
  rw [read] at isSymbol ⊢
  refine (operator_text fun isError => ?_).2
  rw [isError] at isSymbol
  cases isSymbol

/-- A piece of operators is spelled by one byte, which makes it an operator. -/
theorem exists_mark_of_isPiece (piece : Stream.isPiece kind = true) :
    ∃ mark, Bytes.ofString kind.name = [mark] ∧ ∀ rest, startsSymbol (mark :: rest) = true := by
  cases kind with
  | less => exact ⟨0x3c, by decide +kernel, fun _ => rfl⟩
  | greater => exact ⟨0x3e, by decide +kernel, fun _ => rfl⟩
  | assign => exact ⟨0x3d, by decide +kernel, fun _ => rfl⟩
  | _ => cases piece

/-- A token that is spelled like a piece of operators is that piece. -/
theorem kind_of_text (piece : Stream.isPiece kind = true)
    (spelled : (scan byte rest).text = Bytes.ofString kind.name) :
    (scan byte rest).kind = kind := by
  have unique : ∀ kind ∈ operators, Stream.isPiece kind = true → ∀ other ∈ operators,
      Bytes.ofString other.name = Bytes.ofString kind.name → other = kind := by
    decide +kernel
  have known : kind ∈ operators := by
    cases kind <;> first | exact absurd piece Bool.false_ne_true | decide
  obtain ⟨mark, nameEq, starts⟩ := exists_mark_of_isPiece piece
  obtain ⟨tail, textEq⟩ := scan_text byte rest
  rw [spelled, nameEq] at textEq
  obtain ⟨rfl, -⟩ := List.cons_eq_cons.mp textEq
  rw [scan_of_startsSymbol (starts rest)] at spelled ⊢
  have proper : (operator (mark :: rest)).kind ≠ .error := by
    simp only [operator]
    cases found : operators.find? fun kind =>
        (Bytes.ofString kind.name).isPrefixOf (mark :: rest) with
    | none =>
        have absent := List.find?_eq_none.mp found kind known
        simp [nameEq] at absent
    | some other =>
        rintro rfl
        exact absurd (operator_found found).1 (by decide)
  obtain ⟨listed, text⟩ := operator_text proper
  exact unique kind known piece _ listed (text.symm.trans spelled)

end Lexer

/-! ## Runs of touching tokens -/

namespace Token

/-- Tokens that touch stand in a row: with something between them, the chain of
all tokens would have to go on behind the first and come back. -/
theorem exists_row {accept : Token → Bool} {tokens row back : List Token}
    (chained : tokens.IsChain fun first second => first.span.stop = second.span.start)
    (ordered : tokens.Pairwise fun first second =>
      first.span.stop.offset ≤ second.span.start.offset)
    (solid : ∀ token ∈ tokens, accept token = false →
      token.span.start.offset < token.span.stop.offset)
    (filtered : tokens.filter accept = row ++ back) (filled : row ≠ [])
    (touch : row.IsChain fun first second =>
      first.span.stop.offset = second.span.start.offset) :
    ∃ front behind, tokens = front ++ (row ++ behind) ∧
      ∀ token ∈ front, ¬ accept token = true := by
  induction row generalizing tokens with
  | nil => exact absurd rfl filled
  | cons first row ih =>
      rw [List.cons_append] at filtered
      obtain ⟨front, rest, rfl, rejected, -, kept⟩ := List.filter_eq_cons_iff.mp filtered
      cases row with
      | nil => exact ⟨front, rest, rfl, rejected⟩
      | cons second row =>
          have suffix : first :: rest <:+ front ++ first :: rest := List.suffix_append front _
          have chainedRest := chained.suffix suffix
          have orderedRest := ordered.sublist suffix.sublist
          have inner : rest.IsChain fun first second => first.span.stop = second.span.start :=
            chainedRest.tail
          obtain ⟨gap, behind, rfl, between⟩ := ih inner orderedRest.of_cons
            (fun token member => solid token (by simp [member])) kept (List.cons_ne_nil _ _)
            touch.tail
          cases gap with
          | nil => exact ⟨front, behind, by simp, rejected⟩
          | cons other gap =>
              have joins := (List.isChain_cons_cons.mp chainedRest).1
              have proper := solid other (by simp)
                (Bool.not_eq_true _ ▸ between other List.mem_cons_self)
              have before := List.rel_of_pairwise_cons orderedRest.of_cons
                (show second ∈ gap ++ (second :: row ++ behind) by simp)
              have touches := (List.isChain_cons_cons.mp touch).1
              rw [joins] at touches
              omega

end Token

namespace Stream

variable {stream : Stream} {index first after count : Nat}

theorem Touches.isChain (touches : stream.Touches first after) :
    (stream.segment first after).IsChain fun first second =>
      first.span.stop.offset = second.span.start.offset := by
  rw [List.isChain_iff_getElem]
  intro ahead inside
  simp only [segment, List.length_map, List.length_range'] at inside
  have adjacent := touches (first + ahead) (by omega) (by omega)
  simp only [Stream.adjacent, Bool.and_eq_true, decide_eq_true_eq] at adjacent
  simpa [segment, Nat.add_assoc] using adjacent.2

/-- Touching tokens of a source stand in a row, without blanks or comments
between them. -/
theorem segment_infix (source : Source) (order : first < after)
    (inside : after ≤ (ofSource source).size) (touches : (ofSource source).Touches first after) :
    ∃ front behind, source.tokens =
      front ++ ((ofSource source).segment first after ++ behind) := by
  have seen := segment_ofSource source
  rw [segment_append _ (Nat.zero_le first) (by omega),
    segment_append _ (Nat.le_of_lt order) inside] at seen
  obtain ⟨others, tokens, split, -, kept⟩ := List.filter_eq_append_iff.mp seen.symm
  have suffix : tokens <:+ source.tokens := split ▸ List.suffix_append others tokens
  have lexed := source.lexes_tokens
  have solid : ∀ token ∈ tokens, (!token.kind.isTrivia) = false →
      token.span.start.offset < token.span.stop.offset := by
    intro token member trivia
    obtain ⟨body, final, whole, rfl, proper⟩ := lexed.exists_body
    have listed := suffix.subset member
    rw [whole, List.mem_append, List.mem_singleton] at listed
    rcases listed with inBody | rfl
    · exact (proper token inBody).2
    · cases trivia
  obtain ⟨front, behind, rfl, -⟩ := Token.exists_row (lexed.isChain.suffix suffix)
    (lexed.pairwise.1.sublist suffix.sublist) solid kept
    (by rw [segment_cons order]; exact List.cons_ne_nil _ _) touches.isChain
  exact ⟨others ++ front, behind, by rw [split, List.append_assoc]⟩

/-- Touching tokens of a source spell the slice that they cover. -/
theorem flatMap_text_segment (source : Source) (order : first < after)
    (inside : after ≤ (ofSource source).size) (touches : (ofSource source).Touches first after) :
    ((ofSource source).segment first after).flatMap Token.text =
      source.slice ((ofSource source).get first).span.start.offset
        ((ofSource source).get (after - 1)).span.stop.offset := by
  obtain ⟨front, behind, split⟩ := segment_infix source order inside touches
  refine (Source.slice_stretch split ?_ ?_).symm
  · rw [segment_cons order, List.head?_cons]
  · rw [segment_concat order, List.getLast?_concat]

theorem fuse_text (stream : Stream) (index count : Nat) (kind : Token.Kind) :
    (stream.fuse index kind count).text =
      (stream.segment index (index + count)).flatMap Token.text := by
  simp [fuse, segment, List.flatMap_def, List.range'_eq_map_range, Function.comp_def]

/-! ## What spells an operator -/

/-- As many tokens from an index on touch, and their texts in a row spell an
operator. -/
structure Spells (stream : Stream) (index count : Nat) (kind : Token.Kind) : Prop where
  touches : stream.Touches index (index + count)
  text_eq : (stream.segment index (index + count)).flatMap Token.text = Bytes.ofString kind.name

theorem exists_scan_get (source : Source) (inside : index < (ofSource source).last) :
    ∃ byte rest, (ofSource source).kind index = (Lexer.scan byte rest).kind ∧
      ((ofSource source).get index).text = (Lexer.scan byte rest).text := by
  have listed := get_mem_tokens inside
  rw [(tokens_ofSource source).1] at listed
  exact source.lexes_tokens.exists_scan (List.mem_of_mem_filter listed)
    ((ofSource_ordered source).kind_ne_eof index inside)

theorem text_of_isPiece (source : Source) (piece : isPiece ((ofSource source).kind index) = true) :
    ((ofSource source).get index).text = Bytes.ofString ((ofSource source).kind index).name := by
  have inside : index < (ofSource source).last := by
    refine (ofSource_ordered source).lt_last fun atEnd => ?_
    rw [atEnd] at piece
    cases piece
  have symbol : ∀ kind, isPiece kind = true → kind.isSymbol = true := by
    intro kind piece
    cases kind <;> first | exact absurd piece Bool.false_ne_true | rfl
  obtain ⟨byte, rest, sameKind, sameText⟩ := exists_scan_get source inside
  rw [sameKind] at piece ⊢
  rw [sameText]
  exact Lexer.text_of_isSymbol (symbol _ piece)

theorem pieces_spell {kind : Token.Kind} (composed : isComposed kind = true) :
    (kind.pieces.flatMap fun piece => Bytes.ofString piece.name) = Bytes.ofString kind.name := by
  cases kind <;> first | exact absurd composed Bool.false_ne_true | decide +kernel

theorem length_pieces {kind : Token.Kind} (composed : isComposed kind = true) :
    (Bytes.ofString kind.name).length = kind.pieces.length ∧ 1 < kind.pieces.length := by
  cases kind <;> first | exact absurd composed Bool.false_ne_true | decide +kernel

/-- The pieces of an operator, side by side, spell it. -/
theorem Runs.spells {source : Source} {kind : Token.Kind} (composed : isComposed kind = true)
    (runs : (ofSource source).Runs index kind.pieces) :
    (ofSource source).Spells index kind.pieces.length kind := by
  refine ⟨runs.touches, ?_⟩
  rw [← pieces_spell composed]
  conv_rhs => rw [← runs.kinds_eq]
  rw [List.flatMap_map]
  refine List.flatMap_congr fun token member => ?_
  have piece : isPiece token.kind = true := by
    refine isPiece_of_composed composed _ ?_
    rw [← runs.kinds_eq]
    exact List.mem_map_of_mem member
  obtain ⟨other, -, -, rfl⟩ := mem_segment member
  exact text_of_isPiece source piece

/-- Tokens that are spelled like pieces of operators are these pieces. Two equals
signs in a row would be one token. -/
theorem kinds_of_spelled {kinds : List Token.Kind} {tokens : List Token}
    (read : ∀ token ∈ tokens, ∃ byte rest, token.kind = (Lexer.scan byte rest).kind ∧
      token.text = (Lexer.scan byte rest).text)
    (pieces : ∀ kind ∈ kinds, isPiece kind = true)
    (single : kinds.IsChain fun kind _ => kind ≠ .assign)
    (spelled : tokens.flatMap Token.text = kinds.flatMap fun kind => Bytes.ofString kind.name) :
    tokens.map Token.kind = kinds := by
  induction kinds generalizing tokens with
  | nil =>
      cases tokens with
      | nil => rfl
      | cons token tokens =>
          obtain ⟨byte, rest, -, sameText⟩ := read token List.mem_cons_self
          rw [List.flatMap_cons, List.flatMap_nil, List.append_eq_nil_iff, sameText] at spelled
          exact absurd spelled.1 (Lexer.scan_ne_nil byte rest)
  | cons kind kinds ih =>
      obtain ⟨piece, others⟩ := List.forall_mem_cons.mp pieces
      obtain ⟨byte, nameEq, starts⟩ := Lexer.exists_mark_of_isPiece piece
      cases tokens with
      | nil => simp [nameEq] at spelled
      | cons token tokens =>
          obtain ⟨first, rest, sameKind, sameText⟩ := read token List.mem_cons_self
          obtain ⟨tail, textEq⟩ := Lexer.scan_text first rest
          rw [List.flatMap_cons, List.flatMap_cons, nameEq, sameText, textEq, List.cons_append,
            List.cons_append, List.nil_append, List.cons_eq_cons] at spelled
          obtain ⟨rfl, spelled⟩ := spelled
          obtain rfl : tail = [] := by
            have mark : kind = .assign ∨ kind ∈ Lexer.delimiters := by
              cases kind <;> first
                | exact absurd piece Bool.false_ne_true
                | exact .inl rfl
                | exact .inr (by decide)
            rcases mark with rfl | delimits
            · cases kinds with
              | nil => exact (List.append_eq_nil_iff.mp spelled).1
              | cons next kinds => exact absurd rfl (List.isChain_cons_cons.mp single).1
            · have alone := congrArg Scan.text (@Lexer.operator_delimiter rest kind delimits)
              rw [nameEq, List.singleton_append, ← Lexer.scan_of_startsSymbol (starts rest),
                textEq] at alone
              exact (List.cons_eq_cons.mp alone).2
          have found := Lexer.kind_of_text piece (textEq.trans nameEq.symm)
          rw [List.map_cons, sameKind, found,
            ih (fun token member => read token (List.mem_cons_of_mem _ member)) others single.tail
              (by simpa using spelled)]

/-- What spells a composed operator are its pieces. -/
theorem Spells.runs {source : Source} {kind : Token.Kind} (composed : isComposed kind = true)
    (inside : index + count ≤ (ofSource source).last)
    (spells : (ofSource source).Spells index count kind) :
    (ofSource source).Runs index kind.pieces ∧ count = kind.pieces.length := by
  have single : kind.pieces.IsChain fun piece _ => piece ≠ .assign := by
    cases kind <;> first | exact absurd composed Bool.false_ne_true | decide
  have kinds := kinds_of_spelled (fun token member => by
      obtain ⟨other, -, before, rfl⟩ := mem_segment member
      exact exists_scan_get source (by omega)) (isPiece_of_composed composed) single
    (spells.text_eq.trans (pieces_spell composed).symm)
  have length : count = kind.pieces.length := by
    have lengths := congrArg List.length kinds
    simpa [segment] using lengths
  subst length
  exact ⟨⟨kinds, spells.touches⟩, rfl⟩

/-! ## The operator at an index -/

theorem operator_touches (stream : Stream) (index : Nat) :
    stream.Touches index (index + (stream.operator index).2) := by
  rcases stream.operator_runs index with single | ⟨-, runs, count⟩
  · rw [single]
    exact fun other low high => absurd high (by omega)
  · rw [count]
    exact runs.touches

/-- A composed operator ends in front of the end token. -/
theorem Ordered.within_of_runs (ordered : stream.Ordered) {kind : Token.Kind}
    (composed : isComposed kind = true) (runs : stream.Runs index kind.pieces) :
    index + kind.pieces.length ≤ stream.last := by
  have several := (length_pieces composed).2
  have found := List.getElem?_eq_getElem (show kind.pieces.length - 1 < kind.pieces.length by omega)
  have notEnd : stream.kind (index + (kind.pieces.length - 1)) ≠ .eof := by
    intro atEnd
    have piece := isPiece_of_composed composed _ (List.mem_of_getElem? found)
    rw [← runs.kind_eq found, atEnd] at piece
    cases piece
  have before := ordered.lt_last notEnd
  omega

/-- Where the pieces of an operator stand side by side, at least as many tokens
are put together. -/
theorem Runs.length_le {kind : Token.Kind} (composed : isComposed kind = true)
    (runs : stream.Runs index kind.pieces) : kind.pieces.length ≤ (stream.operator index).2 := by
  have opens : ∀ piece, kind.pieces[0]? = some piece → stream.kind index = piece :=
    fun piece found => runs.kind_eq found
  have goesOn : ∀ ahead piece, kind.pieces[ahead + 1]? = some piece →
      stream.follows index (ahead + 1) piece = true :=
    fun ahead piece found => runs.follows_eq found
  cases kind with
  | lessEqual =>
      have first := opens .less rfl
      have second := goesOn 0 .assign rfl
      simp only [operator, first, second, if_true]
      repeat' split
      all_goals decide
  | greaterEqual =>
      have first := opens .greater rfl
      have second := goesOn 0 .assign rfl
      simp only [operator, first, second, if_true]
      repeat' split
      all_goals decide
  | shiftLeft =>
      have first := opens .less rfl
      have second := goesOn 0 .less rfl
      simp only [operator, first, second, if_true]
      repeat' split
      all_goals decide
  | shiftRight =>
      have first := opens .greater rfl
      have second := goesOn 0 .greater rfl
      simp only [operator, first, second, if_true]
      repeat' split
      all_goals decide
  | unsignedShiftRight =>
      have first := opens .greater rfl
      have second := goesOn 0 .greater rfl
      have third := goesOn 1 .greater rfl
      simp only [operator, first, second, third, if_true]
      repeat' split
      all_goals decide
  | shiftLeftAssign =>
      have first := opens .less rfl
      have second := goesOn 0 .less rfl
      have third := goesOn 1 .assign rfl
      simp only [operator, first, second, third, if_true]
      decide
  | shiftRightAssign =>
      have first := opens .greater rfl
      have second := goesOn 0 .greater rfl
      have third := goesOn 1 .assign rfl
      simp only [operator, first, second, third, if_true]
      repeat' split
      all_goals decide
  | unsignedShiftRightAssign =>
      have first := opens .greater rfl
      have second := goesOn 0 .greater rfl
      have third := goesOn 1 .greater rfl
      have fourth := goesOn 2 .assign rfl
      simp only [operator, first, second, third, fourth, if_true]
      decide
  | _ => exact absurd composed Bool.false_ne_true

theorem text_of_past (source : Source) (past : (ofSource source).last ≤ index) :
    ((ofSource source).get index).text = [] := by
  rw [get_of_past past, get_last, (tokens_ofSource source).2]
  rfl

/-- The end token adds nothing to what is spelled. -/
theorem Spells.exists_runs {source : Source} {kind : Token.Kind} (composed : isComposed kind = true)
    (spells : (ofSource source).Spells index count kind) :
    (ofSource source).Runs index kind.pieces ∧
      (index + count ≤ (ofSource source).last → count = kind.pieces.length) := by
  by_cases inside : index + count ≤ (ofSource source).last
  · obtain ⟨runs, length⟩ := spells.runs composed inside
    exact ⟨runs, fun _ => length⟩
  · have touches := spells.touches
    have text := spells.text_eq
    have some_text : Bytes.ofString kind.name ≠ [] := by
      have lengths := length_pieces composed
      exact List.ne_nil_of_length_pos (by omega)
    cases count with
    | zero =>
        rw [Nat.add_zero, segment_self] at text
        exact absurd text.symm some_text
    | succ count =>
        have front : (ofSource source).Spells index count kind := by
          refine ⟨fun other low high => touches other low (by omega), ?_⟩
          rw [← text, segment_concat (show index < index + (count + 1) by omega),
            List.flatMap_append, List.flatMap_singleton, text_of_past source (by omega),
            List.append_nil]
          rfl
        have within : index + count ≤ (ofSource source).last := by
          cases count with
          | zero =>
              have noText := front.text_eq
              rw [Nat.add_zero, segment_self] at noText
              exact absurd noText.symm some_text
          | succ count =>
              have adjacent := touches (index + count) (by omega) (by omega)
              simp only [Stream.adjacent, Bool.and_eq_true, decide_eq_true_eq] at adjacent
              omega
        exact ⟨(front.runs composed within).1, fun still => absurd still inside⟩

/-- No composed operator is spelled by more tokens than are put together, and the
end token, which has no text, makes none longer. -/
theorem Spells.longest {source : Source} {kind : Token.Kind} (composed : isComposed kind = true)
    (spells : (ofSource source).Spells index count kind) :
    (index + count ≤ (ofSource source).last → count ≤ ((ofSource source).operator index).2) ∧
      (Bytes.ofString kind.name).length ≤
        ((ofSource source).operatorToken index).text.length := by
  obtain ⟨runs, length⟩ := spells.exists_runs composed
  have several := length_pieces composed
  have covered := runs.length_le composed
  refine ⟨fun inside => (length inside).trans_le covered, ?_⟩
  rcases (ofSource source).operator_runs index with single | ⟨composed, runs, same⟩
  · rw [single] at covered
    omega
  · rw [several.1, operatorToken, fuse_text, same, (runs.spells composed).text_eq,
      (length_pieces composed).1]
    omega

/-- Some tokens of the stream are those of the operator, also past its end. -/
theorem Ordered.exists_within (ordered : stream.Ordered) (index : Nat) :
    ∃ start, start + (stream.operator index).2 ≤ stream.size ∧
      stream.Touches start (start + (stream.operator index).2) ∧
      ∀ ahead < (stream.operator index).2,
        stream.get (index + ahead) = stream.get (start + ahead) := by
  rcases stream.operator_runs index with single | ⟨composed, runs, count⟩
  · rw [single]
    refine ⟨min index stream.last, by simp [size], fun other low high => absurd high (by omega),
      fun ahead before => ?_⟩
    obtain rfl : ahead = 0 := by omega
    rcases Nat.le_total index stream.last with inside | past
    · rw [Nat.min_eq_left inside]
    · rw [Nat.min_eq_right past]
      exact get_of_past past
  · have within := ordered.within_of_runs composed runs
    rw [← count] at within
    exact ⟨index, Nat.le_succ_of_le within, stream.operator_touches index, fun _ _ => rfl⟩

/-- Behind an operator the stream goes on after its tokens; the end token is never
left behind. -/
theorem Ordered.afterOperator_eq (ordered : stream.Ordered) (index : Nat) :
    stream.afterOperator index =
      if stream.kind index = .eof then index else index + (stream.operator index).2 := by
  rw [afterOperator]
  by_cases atEnd : stream.kind index = .eof
  · have single : stream.operator index = (.eof, 1) := by simp [operator, atEnd]
    have past : ¬ index < stream.last := fun inside => ordered.kind_ne_eof index inside atEnd
    simp [single, atEnd, advance, succ, past]
  · rw [if_neg atEnd]
    have inside := ordered.lt_last atEnd
    rcases stream.operator_runs index with single | ⟨composed, runs, count⟩
    · rw [single]
      exact advance_of_lt inside
    · rw [count]
      exact advance_of_lt (ordered.within_of_runs composed runs)

theorem Ordered.operatorToken_span (ordered : stream.Ordered) (index : Nat) :
    (stream.operatorToken index).span = ⟨(stream.get index).span.start,
      (stream.get (index + (stream.operator index).2 - 1)).span.stop⟩ := by
  rcases stream.operator_runs index with single | ⟨composed, runs, count⟩
  · rw [(operatorToken_of_single single).1, single, Nat.add_sub_cancel]
  · have within := ordered.within_of_runs composed runs
    have several := (length_pieces composed).2
    have final : stream.advance index ((stream.operator index).1.pieces.length - 1) =
        index + (stream.operator index).1.pieces.length - 1 := by
      rw [advance_of_lt (by omega)]
      omega
    simp only [operatorToken, fuse, count, final]

/-- The tokens of an operator stand in a row, and the one token made of them has
the text that they cover. -/
theorem operator_row (source : Source) (index : Nat) :
    (ofSource source).segment index (index + ((ofSource source).operator index).2) <:+:
        source.tokens ∧
      ((ofSource source).operatorToken index).text =
        source.slice ((ofSource source).operatorToken index).span.start.offset
          ((ofSource source).operatorToken index).span.stop.offset := by
  have ordered := ofSource_ordered source
  have positive := (ofSource source).operator_count_pos index
  obtain ⟨start, within, touches, same⟩ := ordered.exists_within index
  rw [ordered.operatorToken_span, operatorToken, fuse_text]
  generalize ((ofSource source).operator index).2 = count at positive within touches same ⊢
  have row : (ofSource source).segment index (index + count) =
      (ofSource source).segment start (start + count) := by
    simp only [segment, Nat.add_sub_cancel_left, List.range'_eq_map_range, List.map_map]
    exact List.map_congr_left fun ahead member => same ahead (List.mem_range.mp member)
  have first : (ofSource source).get index = (ofSource source).get start := same 0 positive
  have final : (ofSource source).get (index + count - 1) =
      (ofSource source).get (start + count - 1) := by
    rw [Nat.add_sub_assoc positive, Nat.add_sub_assoc positive]
    exact same (count - 1) (Nat.sub_lt positive Nat.one_pos)
  have order : start < start + count := Nat.lt_add_of_pos_right positive
  obtain ⟨front, behind, split⟩ := segment_infix source order within touches
  rw [row, first, final, flatMap_text_segment source order within touches]
  exact ⟨⟨front, behind, by rw [split, List.append_assoc]⟩, rfl⟩

/-- The operator at an index is composed of touching tokens, without blanks or
comments between them. Several tokens spell it in a row, and no composed operator
is spelled by more of them. It is taken as one token with the text that they cover,
and the stream goes on behind them. -/
theorem operator_ofSource (source : Source) (index : Nat) :
    let stream := ofSource source
    let kind := (stream.operator index).1
    let count := (stream.operator index).2
    let token := stream.operatorToken index
    stream.Touches index (index + count) ∧
      stream.segment index (index + count) <:+: source.tokens ∧
      (count = 1 ∧ kind = stream.kind index ∨ 1 < count ∧ stream.Spells index count kind) ∧
      (∀ other more, isComposed other = true → stream.Spells index more other →
        (index + more ≤ stream.last → more ≤ count) ∧
          (Bytes.ofString other.name).length ≤ token.text.length) ∧
      stream.afterOperator index = (if stream.kind index = .eof then index else index + count) ∧
      token.kind = kind ∧
      token.span = ⟨(stream.get index).span.start, (stream.get (index + count - 1)).span.stop⟩ ∧
      token.text = source.slice token.span.start.offset token.span.stop.offset := by
  intro stream kind count token
  have ordered := ofSource_ordered source
  obtain ⟨row, text⟩ := operator_row source index
  refine ⟨stream.operator_touches index, row, ?_, fun other more composed spells =>
    spells.longest composed, ordered.afterOperator_eq index, rfl, ordered.operatorToken_span index,
    text⟩
  rcases stream.operator_runs index with single | ⟨composed, runs, length⟩
  · exact .inl ⟨congrArg Prod.snd single, congrArg Prod.fst single⟩
  · have spells := runs.spells composed
    have several := (length_pieces composed).2
    rw [← length] at spells several
    exact .inr ⟨several, spells⟩

/-- Two equals signs are no piece, and neither is a `>` behind a blank. -/
example : (ofSource (.of [] (Bytes.ofString ">>== > >="))).operator 0 = (.shiftRight, 2) ∧
    (ofSource (.of [] (Bytes.ofString ">>== > >="))).operator 3 = (.greater, 1) ∧
    (ofSource (.of [] (Bytes.ofString ">>== > >="))).operator 4 = (.greaterEqual, 2) := by
  decide +kernel

end Stream

end JavaFront
