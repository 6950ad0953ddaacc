import JavaFront.Proofs.Token.Locality
import JavaFront.Proofs.Token.Significant

/-!
# Reading a slice of a text

Significant tokens that follow one another in a text are found again when the
slice from the first to the last of them is read on its own. They have to be
proper tokens, and where there are several of them the last must not be a dot.
-/

namespace JavaFront

/-- What a token is, wherever it stands. -/
def Token.shape (token : Token) : Token.Kind × Bytes :=
  (token.kind, token.text)

namespace Lexer

/-- An operator whose text is a dot is a dot. -/
theorem operator_kind_of_dot {rest : Bytes} (isDot : (operator (0x2e :: rest)).text = [0x2e]) :
    (operator (0x2e :: rest)).kind = .dot := by
  have spelled : ∀ kind ∈ operators, Bytes.ofString kind.name = [0x2e] → kind = .dot := by
    decide +kernel
  simp only [operator] at isDot ⊢
  cases found : operators.find? fun kind =>
      (Bytes.ofString kind.name).isPrefixOf (0x2e :: rest) with
  | none =>
      have absent := List.find?_eq_none.mp found .dot (by decide)
      have dot : Bytes.ofString Token.Kind.dot.name = [0x2e] := by decide +kernel
      simp [dot] at absent
  | some kind =>
      simp only [found] at isDot ⊢
      refine spelled kind (List.mem_of_find?_eq_some found) ?_
      have starts := List.find?_some found
      have isPrefix := List.isPrefixOf_iff_prefix.mp starts
      rw [List.prefix_iff_eq_take.mp isPrefix, length_ofString, isDot]

/-- A token whose text is a dot is a dot. -/
theorem scan_kind_of_dot {byte : UInt8} {rest : Bytes}
    (isDot : (scan byte rest).text = [0x2e]) : (scan byte rest).kind = .dot := by
  obtain ⟨tail, textEq⟩ := scan_text byte rest
  rw [isDot] at textEq
  obtain rfl : 0x2e = byte := (List.cons.inj textEq).1
  have read := scan_scans 0x2e rest
  generalize scan 0x2e rest = found at read isDot ⊢
  cases read with
  | lineComment slash | comment slash | unclosed slash => exact absurd slash (by decide)
  | blanks blank => exact absurd blank (by decide)
  | word _ starts => exact absurd rfl (ne_of_wordStart starts (by decide) (by decide))
  | stray wide => exact absurd wide (by decide)
  | number starts =>
      have notDigit : Bytes.isDigit 0x2e = false := by decide
      have digit : Bytes.isDigit (front rest) = true := by simpa [notDigit] using starts
      exact absurd isDot (number_text_ne_dot digit)
  | characterLiteral quote | stringLiteral quote => exact absurd quote (by decide)
  | operator => exact operator_kind_of_dot isDot

end Lexer

namespace Token.Lexes

variable {pos : Pos} {text : Bytes} {tokens front body back : List Token}

/-- The tokens of a text spell it out. -/
theorem flatMap_text (lexed : Lexes pos text tokens) : tokens.flatMap Token.text = text := by
  induction lexed with
  | finish pos => rfl
  | @token pos byte text tokens _ ih =>
      rw [List.flatMap_cons, ih, next_append]

/-- Behind some of its tokens a text goes on with the others. -/
theorem behind (lexed : Lexes pos text (front ++ back)) (goesOn : back ≠ []) :
    ∃ place rest, Lexes place rest back ∧ text = front.flatMap Token.text ++ rest ∧
      place.offset = pos.offset + (front.flatMap Token.text).length := by
  induction front generalizing pos text with
  | nil => exact ⟨pos, text, lexed, rfl, rfl⟩
  | cons token front ih =>
      rw [List.cons_append] at lexed
      generalize others : front ++ back = rest at lexed
      cases lexed with
      | finish =>
          exact absurd (List.append_eq_nil_iff.mp others).2 goesOn
      | @token _ byte text _ later =>
          subst others
          obtain ⟨place, rest, lexed, textEq, offsetEq⟩ := ih later
          refine ⟨place, rest, lexed, ?_, ?_⟩
          · rw [List.flatMap_cons, List.append_assoc, ← textEq, next_append]
          · rw [offsetEq, next_span, Pos.advance_offset, List.flatMap_cons, List.length_append]
            omega

/-- Tokens in front of others are found again without those. No suffix of them
may be a dot alone, which a number in front of it would take. -/
theorem relex (lexed : Lexes pos text (body ++ back)) (goesOn : back ≠ [])
    (proper : ∀ token ∈ body, token.kind ≠ .error)
    (firm : ∀ early late, body = early ++ late → early ≠ [] → late.flatMap Token.text ≠ [0x2e])
    {other : Pos} (again : Lexes other (body.flatMap Token.text) tokens) :
    tokens.map shape = body.map shape ++ [(.eof, [])] := by
  induction body generalizing pos text other tokens with
  | nil =>
      cases again
      rfl
  | cons token body ih =>
      rw [List.cons_append] at lexed
      generalize others : body ++ back = rest at lexed
      cases lexed with
      | finish => exact absurd (List.append_eq_nil_iff.mp others).2 goesOn
      | @token _ byte text _ later =>
          subst others
          have isPrefix : body.flatMap Token.text <+: (next pos (byte :: text)).2 := by
            rw [← later.flatMap_text, List.flatMap_append]
            exact List.prefix_append _ _
          obtain ⟨tail, textEq⟩ := Lexer.scan_text byte text
          have scanned := Lexer.scan_local textEq (proper _ List.mem_cons_self) isPrefix
            (firm [_] body rfl (List.cons_ne_nil _ _))
          have spelled : (next pos (byte :: text)).1.text = byte :: tail := textEq
          rw [List.flatMap_cons, spelled, List.cons_append] at again
          cases again with
          | @token _ _ _ tokens rest =>
              have sameRest : (next other (byte :: (tail ++ body.flatMap Token.text))).2 =
                  body.flatMap Token.text := congrArg Scan.rest scanned
              have sameShape : (next other (byte :: (tail ++ body.flatMap Token.text))).1.shape =
                  (next pos (byte :: text)).1.shape := by
                simp only [shape, next, scanned]
              rw [sameRest] at rest
              have shapes := ih later
                (fun token member => proper token (List.mem_cons_of_mem _ member))
                (fun early late split _ => firm (_ :: early) late (by rw [split]; rfl)
                  (List.cons_ne_nil _ _)) rest
              rw [List.map_cons, List.map_cons, sameShape, shapes]
              rfl

/-- A token in front of the others ends behind its text. -/
theorem head_stop {token : Token} (lexed : Lexes pos text (token :: tokens)) :
    token.span.start = pos ∧ token.span.stop.offset = pos.offset + token.text.length := by
  cases lexed with
  | finish => exact ⟨rfl, rfl⟩
  | token => exact ⟨by rw [next_span], by rw [next_span, Pos.advance_offset]⟩

/-- Every token but the end token has been read somewhere. -/
theorem exists_scan (lexed : Lexes pos text tokens) {token : Token} (member : token ∈ tokens)
    (notEnd : token.kind ≠ .eof) :
    ∃ byte rest, token.kind = (Lexer.scan byte rest).kind ∧
      token.text = (Lexer.scan byte rest).text := by
  induction lexed with
  | finish pos =>
      obtain rfl := List.mem_singleton.mp member
      exact absurd rfl notEnd
  | @token pos byte text tokens _ ih =>
      rcases List.mem_cons.mp member with rfl | later
      · exact ⟨byte, text, rfl, rfl⟩
      · exact ih later

/-- The end token has no text. -/
theorem text_of_eof (lexed : Lexes pos text tokens) {token : Token} (member : token ∈ tokens)
    (atEnd : token.kind = .eof) : token.text = [] := by
  obtain ⟨body, final, rfl, rfl, proper⟩ := lexed.exists_body
  rcases List.mem_append.mp member with inBody | isFinal
  · exact absurd atEnd (proper token inBody).1
  · rw [List.mem_singleton.mp isFinal]
    rfl

end Token.Lexes

/-- Accepted elements that follow one another stand in a stretch of the list
that starts with the first and ends with the last of them. -/
theorem exists_stretch_of_filter {accept : Token → Bool} {tokens before inner behind : List Token}
    (filtered : tokens.filter accept = before ++ (inner ++ behind)) (filled : inner ≠ []) :
    ∃ front body back, tokens = front ++ (body ++ back) ∧ body.filter accept = inner ∧
      body.head? = inner.head? ∧ body.getLast? = inner.getLast? ∧
      (inner.length = 1 → body.length = 1) := by
  obtain ⟨first, others, rfl⟩ := List.exists_cons_of_ne_nil filled
  obtain ⟨front, rest, rfl, -, keptRest⟩ := List.filter_eq_append_iff.mp filtered
  rw [List.cons_append] at keptRest
  obtain ⟨gap, rest, rfl, -, keptFirst, keptRest⟩ := List.filter_eq_cons_iff.mp keptRest
  rcases List.eq_nil_or_concat others with rfl | ⟨middle, last, rfl⟩
  · refine ⟨front ++ gap, [first], rest, by simp, ?_, rfl, rfl, fun _ => rfl⟩
    simp [keptFirst]
  · rw [List.concat_eq_append, List.append_assoc] at keptRest
    obtain ⟨early, late, rfl, keptEarly, keptLate⟩ := List.filter_eq_append_iff.mp keptRest
    obtain ⟨dropped, back, rfl, rejected, keptLast, -⟩ := List.filter_eq_cons_iff.mp keptLate
    refine ⟨front ++ gap, first :: (early ++ (dropped ++ [last])), back, by simp, ?_, rfl, ?_, ?_⟩
    · have none : dropped.filter accept = [] := List.filter_eq_nil_iff.mpr rejected
      simp [keptFirst, keptEarly, none, keptLast]
    · simp [List.getLast?_cons]
    · simp

namespace Source

variable {source : Source} {first after : Nat}

/-- The tokens from one significant token to another, blanks and comments
included. -/
theorem exists_stretch (order : first < after) (inside : after ≤ (Stream.ofSource source).last) :
    ∃ front body back, source.tokens = front ++ (body ++ back) ∧ back ≠ [] ∧
      body.filter Token.isSignificant = (Stream.ofSource source).segment first after ∧
      body.head? = some ((Stream.ofSource source).get first) ∧
      body.getLast? = some ((Stream.ofSource source).get (after - 1)) ∧
      (after = first + 1 → body.length = 1) := by
  have ordered := Stream.ofSource_ordered source
  have tokensEq := (Stream.tokens_ofSource source).1
  generalize Stream.ofSource source = stream at *
  have filtered : source.tokens.filter Token.isSignificant =
      stream.segment 0 first ++
        (stream.segment first after ++ stream.segment after stream.last) := by
    rw [← stream.segment_append (Nat.le_of_lt order) inside,
      ← stream.segment_append (Nat.zero_le first) (by omega), stream.segment_eq_tokens, tokensEq]
  have filled : stream.segment first after ≠ [] := by
    rw [Stream.segment_cons order]
    exact List.cons_ne_nil _ _
  obtain ⟨front, body, back, split, kept, head, last, single⟩ :=
    exists_stretch_of_filter filtered filled
  rw [Stream.segment_cons order] at head
  rw [Stream.segment_concat order] at last
  have lastEq : body.getLast? = some (stream.get (after - 1)) := by simpa using last
  refine ⟨front, body, back, split, ?_, kept, head, lastEq, ?_⟩
  · rintro rfl
    obtain ⟨others, final, whole, rfl, -⟩ := source.lexes_tokens.exists_body
    have same : some (stream.get (after - 1)) =
        some (Token.endAt (Pos.origin.advance source.text [])) := by
      have final := congrArg List.getLast? (split.symm.trans whole)
      simpa [List.getLast?_append, lastEq] using final
    have atEnd := congrArg Token.kind (Option.some.inj same)
    exact ordered.kind_ne_eof (after - 1) (by omega) atEnd
  · rintro rfl
    apply single
    rw [Stream.segment_cons order, Stream.segment_self]
    rfl

/-- The slice that a stretch covers is spelled out by its tokens. -/
theorem slice_stretch {front body back : List Token} {start stop : Token}
    (split : source.tokens = front ++ (body ++ back)) (head : body.head? = some start)
    (last : body.getLast? = some stop) :
    source.slice start.span.start.offset stop.span.stop.offset = body.flatMap Token.text := by
  have lexed := source.lexes_tokens
  rw [split] at lexed
  have startEq : start.span.start.offset = (front.flatMap Token.text).length := by
    obtain ⟨others, rfl⟩ := List.head?_eq_some_iff.mp head
    obtain ⟨place, rest, behind, -, offset⟩ := lexed.behind (by simp)
    rw [behind.head_stop.1, offset]
    simp [Pos.origin]
  have stopEq : stop.span.stop.offset =
      (front.flatMap Token.text ++ body.flatMap Token.text).length := by
    obtain ⟨others, rfl⟩ := List.getLast?_eq_some_iff.mp last
    have again : Token.Lexes Pos.origin source.text ((front ++ others) ++ (stop :: back)) := by
      simpa using lexed
    obtain ⟨place, rest, behind, -, offset⟩ := again.behind (List.cons_ne_nil _ _)
    rw [behind.head_stop.2, offset]
    simp [Pos.origin, Nat.add_assoc]
  have splits : front.flatMap Token.text ++ (body.flatMap Token.text ++ back.flatMap Token.text) =
      source.text := by
    rw [← lexed.flatMap_text, List.flatMap_append, List.flatMap_append]
  rw [startEq, stopEq]
  exact source.slice_eq_of_splits splits

/-- Tokens whose last is no dot do not end with a dot alone. -/
theorem flatMap_text_ne_dot {tokens : List Token} {last : Token}
    (isLast : tokens.getLast? = some last) (some_text : last.text ≠ [])
    (notDot : last.text ≠ [0x2e]) :
    tokens.flatMap Token.text ≠ [0x2e] := by
  obtain ⟨others, rfl⟩ := List.getLast?_eq_some_iff.mp isLast
  intro isDot
  rw [List.flatMap_append, List.flatMap_singleton, List.append_eq_singleton_iff] at isDot
  rcases isDot with ⟨-, same⟩ | ⟨-, none⟩
  · exact notDot same
  · exact some_text none

/-- Reading the slice from one significant token to another finds the
significant tokens in between, unless the slice ends with a dot. -/
theorem significant_slice (order : first < after)
    (inside : after ≤ (Stream.ofSource source).last)
    (regular : ∀ index, (Stream.ofSource source).kind index ≠ .error)
    (firm : first + 1 < after → (Stream.ofSource source).kind (after - 1) ≠ .dot) (file : Bytes) :
    ((of file (source.slice ((Stream.ofSource source).stretch first after).start.offset
      ((Stream.ofSource source).stretch first after).stop.offset)).tokens.filter
        Token.isSignificant).map Token.shape =
      ((Stream.ofSource source).segment first after).map Token.shape := by
  obtain ⟨front, body, back, split, goesOn, kept, head, last, single⟩ :=
    exists_stretch order inside
  have ordered := Stream.ofSource_ordered source
  have lexed := source.lexes_tokens
  rw [split] at lexed
  obtain ⟨place, rest, behind, -, -⟩ := lexed.behind (by simp [goesOn])
  rw [Stream.stretch_start, Stream.stretch_stop_of_lt order, slice_stretch split head last, ← kept]
  generalize Stream.ofSource source = stream at *
  have proper : ∀ token ∈ body, token.kind ≠ .error := by
    intro token member isError
    have seen : token ∈ stream.segment first after := by
      rw [← kept]
      exact List.mem_filter.mpr
        ⟨member, by simp [Token.isSignificant, isError, Token.Kind.isTrivia]⟩
    obtain ⟨index, -, -, rfl⟩ := Stream.mem_segment seen
    exact regular index isError
  have unbroken : ∀ early late, body = early ++ late → early ≠ [] →
      late.flatMap Token.text ≠ [0x2e] := by
    intro early late parts some_early
    rcases List.eq_nil_or_concat late with rfl | ⟨others, final, rfl⟩
    · simp
    · have same : final = stream.get (after - 1) := by simpa [parts] using last
      have notEnd : final.kind ≠ .eof := by
        rw [same]
        exact ordered.kind_ne_eof (after - 1) (by omega)
      obtain ⟨byte, text, kindEq, textEq⟩ :=
        lexed.exists_scan (by simp [parts]) notEnd
      have some_text : final.text ≠ [] := by
        rw [textEq]
        exact Lexer.scan_ne_nil byte text
      apply flatMap_text_ne_dot (by simp) some_text
      intro isDot
      have dotted : stream.kind (after - 1) = .dot := by
        rw [Stream.kind, ← same, kindEq]
        exact Lexer.scan_kind_of_dot (textEq ▸ isDot)
      by_cases several : first + 1 < after
      · exact firm several dotted
      · have one := single (by omega)
        have positive := List.length_pos_iff.mpr some_early
        simp only [parts, List.concat_eq_append, List.length_append, List.length_singleton] at one
        omega
  have shapes := behind.relex goesOn proper unbroken
    (of file (body.flatMap Token.text)).lexes_tokens
  let seen (shape : Token.Kind × Bytes) : Bool := !shape.1.isTrivia && shape.1 != .eof
  have commutes : ∀ tokens : List Token, (tokens.filter Token.isSignificant).map Token.shape =
      (tokens.map Token.shape).filter seen := by
    intro tokens
    rw [List.filter_map]
    rfl
  rw [commutes, commutes, shapes, List.filter_append]
  exact List.append_nil _

end Source

end JavaFront
