import JavaFront.Proofs.Token.Scanning

/-!
# The tokens of a text partition it

The tokens of a source follow one another without a gap from the first byte to
the last, and the end token stands behind them. The lexer counts lines and
columns while it walks over the text; the line index of the source finds the
same places by looking an offset up. Reading one token at a place of its own
therefore gives the token that the whole run found there.
-/

namespace JavaFront

/-! ## Walking and looking up -/

namespace Pos

theorem advance_append (pos : Pos) (first second rest : Bytes) :
    pos.advance (first ++ second) rest =
      (pos.advance first (second ++ rest)).advance second rest := by
  induction first generalizing pos with
  | nil => rfl
  | cons byte first ih =>
      have next : (first ++ second).head?.or rest.head? =
          first.head?.or (second ++ rest).head? := by
        cases first <;> simp
      simp only [List.cons_append, advance]
      rw [next, ih]

@[simp]
theorem advance_offset (pos : Pos) (passed rest : Bytes) :
    (pos.advance passed rest).offset = pos.offset + passed.length := by
  induction passed generalizing pos with
  | nil => rfl
  | cons byte passed ih =>
      have stepOffset : ∀ next?, (pos.step byte next?).offset = pos.offset + 1 := by
        intro next?
        simp only [step]
        split <;> rfl
      simp only [advance, ih, stepOffset, List.length_cons]
      omega

end Pos

theorem lt_of_mem_lineStartsFrom {offset start : Nat} {text : Bytes}
    (member : start ∈ lineStartsFrom offset text) : offset < start := by
  induction text generalizing offset with
  | nil => simp [lineStartsFrom] at member
  | cons byte text ih =>
      simp only [lineStartsFrom] at member
      split at member
      · rcases List.mem_cons.mp member with rfl | later
        · omega
        · have := ih later
          omega
      · have := ih member
        omega

theorem takeWhile_lineStartsFrom_eq_nil (offset : Nat) (text : Bytes) :
    (lineStartsFrom offset text).takeWhile (· ≤ offset) = [] := by
  cases starts : lineStartsFrom offset text with
  | nil => rfl
  | cons start others =>
      have member : start ∈ lineStartsFrom offset text := by
        rw [starts]
        exact List.mem_cons_self
      have later := lt_of_mem_lineStartsFrom member
      rw [List.takeWhile_cons_of_neg (by simpa using later)]

/-- Walking over a stretch of text passes the line starts in it, and the column
counts from the last of them. -/
theorem Pos.advance_eq (pos : Pos) (passed rest : Bytes) :
    pos.advance passed rest =
      let starts := (lineStartsFrom pos.offset (passed ++ rest)).takeWhile
        (· ≤ pos.offset + passed.length)
      ⟨pos.offset + passed.length, pos.line + starts.length,
        match starts.getLast? with
        | some start => pos.offset + passed.length - start + 1
        | none => pos.column + passed.length⟩ := by
  induction passed generalizing pos with
  | nil => simp [advance, takeWhile_lineStartsFrom_eq_nil]
  | cons byte passed ih =>
      have next : passed.head?.or rest.head? = (passed ++ rest).head? := by
        cases passed <;> simp
      have total : pos.offset + 1 + passed.length = pos.offset + (passed.length + 1) := by omega
      simp only [advance, next, List.cons_append, List.length_cons, lineStartsFrom, step]
      split
      · rw [ih]
        rw [List.takeWhile_cons_of_pos (by simp)]
        simp only [total, List.length_cons, List.getLast?_cons]
        cases (List.takeWhile (fun start => decide (start ≤ pos.offset + (passed.length + 1)))
          (lineStartsFrom (pos.offset + 1) (passed ++ rest))).getLast? <;> simp <;> omega
      · rw [ih]
        simp only [total]
        cases (List.takeWhile (fun start => decide (start ≤ pos.offset + (passed.length + 1)))
          (lineStartsFrom (pos.offset + 1) (passed ++ rest))).getLast? <;> simp
        omega

/-- The walk over the front of a text ends where the line index finds its
length. -/
theorem Source.advance_origin_eq_position (source : Source) {passed rest : Bytes}
    (splits : passed ++ rest = source.text) :
    Pos.origin.advance passed rest = source.position passed.length := by
  have inside : source.clamp passed.length = passed.length := by
    simp [clamp, size, ← splits]
  rw [Pos.advance_eq]
  simp only [position, inside, source.starts_eq, lineStarts, ← splits, Pos.origin, Nat.zero_add]
  rw [List.takeWhile_cons_of_pos (by simp)]
  generalize (lineStartsFrom 0 (passed ++ rest)).takeWhile (· ≤ passed.length) = starts
  cases final : starts.getLast? with
  | none => simp [List.getLastD_eq_getLast?, List.getLast?_cons, final, Nat.add_comm]
  | some start => simp [List.getLastD_eq_getLast?, List.getLast?_cons, final, Nat.add_comm]

/-! ## The tokens of a text -/

namespace Token

/-- The end token at a place. -/
def endAt (pos : Pos) : Token :=
  ⟨.eof, .empty pos, []⟩

/-- The tokens that stand in a text from a place on, read one after another
until the text is used up. -/
inductive Lexes : Pos → Bytes → List Token → Prop
  | finish (pos : Pos) : Lexes pos [] [endAt pos]
  | token {pos : Pos} {byte : UInt8} {text : Bytes} {tokens : List Token} :
      Lexes (next pos (byte :: text)).1.span.stop (next pos (byte :: text)).2 tokens →
      Lexes pos (byte :: text) ((next pos (byte :: text)).1 :: tokens)

/-- The token in front of a text is followed by what it leaves. -/
theorem next_append (pos : Pos) (text : Bytes) :
    (next pos text).1.text ++ (next pos text).2 = text := by
  cases text with
  | nil => rfl
  | cons byte text => exact Lexer.scan_splits byte text

/-- The token in front of a text runs from there over its own bytes. -/
theorem next_span (pos : Pos) (text : Bytes) :
    (next pos text).1.span = ⟨pos, pos.advance (next pos text).1.text (next pos text).2⟩ := by
  cases text <;> rfl

theorem next_length_lt (pos : Pos) (byte : UInt8) (text : Bytes) :
    (next pos (byte :: text)).2.length < (byte :: text).length := by
  have splits := congrArg List.length (next_append pos (byte :: text))
  have positive := List.length_pos_iff.mpr (Lexer.scan_ne_nil byte text)
  have sameText : (next pos (byte :: text)).1.text = (Lexer.scan byte text).text := rfl
  rw [List.length_append, sameText] at splits
  omega

/-- Every token but the last one has a byte of its own. -/
theorem Lexes.length_le {pos : Pos} {text : Bytes} {tokens : List Token}
    (lexed : Lexes pos text tokens) : tokens.length ≤ text.length + 1 := by
  induction lexed with
  | finish => exact Nat.le_refl _
  | @token pos byte text tokens _ ih =>
      have shorter := next_length_lt pos byte text
      rw [List.length_cons]
      omega

/-- A budget of one step for each byte is enough to read all tokens. -/
theorem lexes_listFrom {budget : Nat} {pos : Pos} {text : Bytes} (enough : text.length ≤ budget) :
    Lexes pos text (listFrom budget pos text) := by
  induction budget generalizing pos text with
  | zero =>
      cases text with
      | nil => exact .finish pos
      | cons byte text => simp at enough
  | succ budget ih =>
      cases text with
      | nil => exact .finish pos
      | cons byte text =>
          have shorter := next_length_lt pos byte text
          exact .token (ih (by omega))

end Token

/-- The tokens of a source are those that stand in its text. -/
theorem Source.lexes_tokens (source : Source) :
    Token.Lexes .origin source.text source.tokens :=
  Token.lexes_listFrom (Nat.le_refl _)

/-! ## Tokens in their source -/

/-- A token agrees with the source it was read from: its text is the stretch it
covers, its ends are where the line index finds them, and reading one token
where it starts finds it again. -/
structure Token.ReadFrom (source : Source) (token : Token) : Prop where
  text_eq : token.text = source.slice token.span.start.offset token.span.stop.offset
  start_eq : token.span.start = source.position token.span.start.offset
  stop_eq : token.span.stop = source.position token.span.stop.offset
  tokenAt_eq : source.tokenAt token.span.start.offset = (token, token.span.stop.offset)

namespace Source

@[simp]
theorem position_offset (source : Source) {offset : Nat} (inside : offset ≤ source.size) :
    (source.position offset).offset = offset := by
  simp [position, clamp, inside]

/-- Walking on from a place of the text leads to the place of the later
offset. -/
theorem position_advance (source : Source) {before passed rest : Bytes}
    (splits : before ++ (passed ++ rest) = source.text) :
    (source.position before.length).advance passed rest =
      source.position (before ++ passed).length := by
  rw [← source.advance_origin_eq_position splits,
    ← source.advance_origin_eq_position (by rw [List.append_assoc, splits]), Pos.advance_append]

theorem slice_eq_of_splits (source : Source) {before read rest : Bytes}
    (splits : before ++ (read ++ rest) = source.text) :
    source.slice before.length (before ++ read).length = read := by
  simp only [slice, Bytes.slice, Int.toNat_natCast]
  rw [← splits, List.drop_left, List.length_append, Nat.add_sub_cancel_left, List.take_left]

/-- The token at the offset behind a part of the text is the token in front of
what follows. -/
theorem tokenAt_of_splits (source : Source) {before text : Bytes}
    (splits : before ++ text = source.text) :
    (source.tokenAt before.length).1 = (Token.next (source.position before.length) text).1 := by
  have inside : before.length ≤ source.size := by simp [size, ← splits]
  simp only [tokenAt, source.position_offset inside]
  rw [← splits, List.drop_left]

end Source

/-- The token in front of what follows a part of the text agrees with the
source. -/
theorem Token.next_readFrom (source : Source) {before text : Bytes}
    (splits : before ++ text = source.text) :
    (next (source.position before.length) text).1.ReadFrom source := by
  have inside : before.length ≤ source.size := by simp [Source.size, ← splits]
  have found := source.tokenAt_of_splits splits
  have span := next_span (source.position before.length) text
  have parts := next_append (source.position before.length) text
  generalize next (source.position before.length) text = result at found span parts ⊢
  obtain ⟨⟨kind, ⟨start, stop⟩, read⟩, rest⟩ := result
  simp only [Span.mk.injEq] at span parts found
  have cut : before ++ (read ++ rest) = source.text := by rw [parts, splits]
  have within : (before ++ read).length ≤ source.size := by
    simp [Source.size, ← cut]
  rw [source.position_advance cut] at span
  obtain ⟨rfl, rfl⟩ := span
  constructor
  · simp only [source.position_offset inside, source.position_offset within]
    exact (source.slice_eq_of_splits cut).symm
  · simp only [source.position_offset inside]
  · simp only [source.position_offset within]
  · simp only [source.position_offset inside]
    rw [Prod.ext_iff]
    exact ⟨found, by simp only [Source.tokenAt] at found ⊢; rw [found]⟩

theorem Token.Lexes.readFrom {source : Source} {before text : Bytes} {pos : Pos}
    {tokens : List Token} (lexed : Lexes pos text tokens) (splits : before ++ text = source.text)
    (place : pos = source.position before.length) :
    ∀ token ∈ tokens, token.ReadFrom source := by
  induction lexed generalizing before with
  | finish pos =>
      subst place
      intro token member
      obtain rfl := List.mem_singleton.mp member
      exact next_readFrom source splits
  | @token pos byte text tokens _ ih =>
      subst place
      have parts := next_append (source.position before.length) (byte :: text)
      have cut : before ++ ((next (source.position before.length) (byte :: text)).1.text ++
          (next (source.position before.length) (byte :: text)).2) = source.text := by
        rw [parts, splits]
      intro token member
      rcases List.mem_cons.mp member with rfl | later
      · exact next_readFrom source splits
      · refine ih (by rw [List.append_assoc, cut]) ?_ token later
        rw [next_span, source.position_advance cut]

/-! ## The partition -/

namespace Token.Lexes

theorem exists_body {pos : Pos} {text : Bytes} {tokens : List Token}
    (lexed : Lexes pos text tokens) :
    ∃ body final, tokens = body ++ [final] ∧ final = endAt (pos.advance text []) ∧
      ∀ token ∈ body, token.kind ≠ .eof ∧ token.span.start.offset < token.span.stop.offset := by
  induction lexed with
  | finish pos => exact ⟨[], endAt pos, rfl, rfl, by simp⟩
  | @token pos byte text tokens _ ih =>
      obtain ⟨body, final, rfl, rfl, proper⟩ := ih
      refine ⟨(next pos (byte :: text)).1 :: body, _, rfl, ?_, ?_⟩
      · have walked := Pos.advance_append pos (next pos (byte :: text)).1.text
          (next pos (byte :: text)).2 []
        rw [next_append, List.append_nil] at walked
        rw [walked, next_span]
      · intro token member
        rcases List.mem_cons.mp member with rfl | later
        · refine ⟨Lexer.scan_kind_ne_eof byte text, ?_⟩
          have positive := List.length_pos_iff.mpr (Lexer.scan_ne_nil byte text)
          rw [next_span, Pos.advance_offset]
          exact Nat.lt_add_of_pos_right positive
        · exact proper token later

theorem head_start {pos : Pos} {text : Bytes} {tokens : List Token}
    (lexed : Lexes pos text tokens) : tokens.head?.map (·.span.start) = some pos := by
  cases lexed with
  | finish => rfl
  | token => simp [next_span]

theorem isChain {pos : Pos} {text : Bytes} {tokens : List Token}
    (lexed : Lexes pos text tokens) :
    tokens.IsChain fun first second => first.span.stop = second.span.start := by
  induction lexed with
  | finish pos => exact .singleton _
  | @token pos byte text tokens later ih =>
      have start := later.head_start
      cases tokens with
      | nil => simp at start
      | cons second tokens =>
          simp only [List.head?_cons, Option.map_some, Option.some.injEq] at start
          exact .cons_cons start.symm ih

end Token.Lexes

/-- The tokens of a source run from its first byte to its last without a gap.
All are proper but the last, which is the only end token, and each agrees with
the source: its text, its ends, and what reading a single token finds there. -/
theorem Source.tokens_partition (source : Source) :
    (∃ body final, source.tokens = body ++ [final] ∧
      final.kind = .eof ∧ final.span.start.offset = source.size ∧
      final.span.stop.offset = source.size ∧
      ∀ token ∈ body, token.kind ≠ .eof ∧ token.span.start.offset < token.span.stop.offset) ∧
    source.tokens.head?.map (·.span.start.offset) = some 0 ∧
    (source.tokens.IsChain fun first second => first.span.stop = second.span.start) ∧
    ∀ token ∈ source.tokens, token.ReadFrom source := by
  have lexed := source.lexes_tokens
  refine ⟨?_, ?_, lexed.isChain, ?_⟩
  · obtain ⟨body, final, split, rfl, proper⟩ := lexed.exists_body
    have finish : (Pos.origin.advance source.text []).offset = source.size := by
      simp [Pos.origin, size]
    exact ⟨body, _, split, rfl, finish, finish, proper⟩
  · have start := congrArg (Option.map Pos.offset) lexed.head_start
    simpa [Function.comp_def, Pos.origin] using start
  · have splits : [] ++ source.text = source.text := List.nil_append _
    exact lexed.readFrom splits (source.advance_origin_eq_position splits)

end JavaFront
