import JavaFront.Proofs.Token.Partition
import JavaFront.Token.Operator

/-!
# The significant tokens of a text

The stream of a source holds the tokens that are neither blanks nor comments,
in the order of the text, and the end token behind them. They are proper, they
do not overlap, and no index but the last one finds the end token.
-/

namespace JavaFront

/-- A token that the grammar sees, the end token apart. -/
def Token.isSignificant (token : Token) : Bool :=
  !token.kind.isTrivia && token.kind != .eof

/-- Tokens of a text do not overlap. -/
theorem Token.Lexes.pairwise {pos : Pos} {text : Bytes} {tokens : List Token}
    (lexed : Lexes pos text tokens) :
    (tokens.Pairwise fun first second => first.span.stop.offset ≤ second.span.start.offset) ∧
      ∀ token ∈ tokens, pos.offset ≤ token.span.start.offset := by
  induction lexed with
  | finish pos => simp [endAt, Span.empty]
  | @token pos byte text tokens _ ih =>
      have span := next_span pos (byte :: text)
      obtain ⟨ordered, later⟩ := ih
      refine ⟨.cons later ordered, ?_⟩
      intro token member
      rcases List.mem_cons.mp member with rfl | inner
      · simp [span]
      · have behind := later token inner
        rw [span, Pos.advance_offset] at behind
        omega

namespace Stream

/-- The significant tokens of a stream. -/
def tokens (stream : Stream) : List Token :=
  stream.entries.toList.map Entry.token

theorem length_tokens (stream : Stream) : stream.tokens.length = stream.last := by
  simp [tokens, last]

theorem get_of_lt {stream : Stream} {index : Nat} (inside : index < stream.last) :
    stream.tokens[index]? = some (stream.get index) := by
  simp only [last] at inside
  simp [tokens, get, entry, inside]

theorem get_last (stream : Stream) : stream.get stream.last = stream.final.token := by
  simp [get, entry, last]

theorem get_of_past {stream : Stream} {index : Nat} (past : stream.last ≤ index) :
    stream.get index = stream.get stream.last := by
  simp only [last] at past
  simp [get, entry, last, past]

theorem get_mem_tokens {stream : Stream} {index : Nat} (inside : index < stream.last) :
    stream.get index ∈ stream.tokens :=
  List.mem_of_getElem? (get_of_lt inside)

/-! ## Filing -/

/-- Filing keeps the significant tokens in front of the first end token. -/
theorem file_tokens (finish : Pos) (waiting : List Token) (done : Array Entry)
    (body : List Token) (final : Token) (ends : final.kind = .eof)
    (proper : ∀ token ∈ body, token.kind ≠ .eof) :
    (file finish waiting done (body ++ [final])).tokens =
        done.toList.map Entry.token ++ body.filter Token.isSignificant ∧
      (file finish waiting done (body ++ [final])).final.token = final := by
  induction body generalizing waiting done with
  | nil => simp [file, ends, tokens]
  | cons token body ih =>
      have notEnd : token.kind ≠ .eof := proper token List.mem_cons_self
      have rest := fun waiting done =>
        ih waiting done fun other member => proper other (List.mem_cons_of_mem _ member)
      simp only [List.cons_append, file, notEnd, if_false]
      split
      · rename_i blank
        have skipped : token.isSignificant = false := by
          simp [Token.isSignificant, blank, Token.Kind.isTrivia]
        rw [List.filter_cons_of_neg (by simp [skipped])]
        exact rest _ _
      · split
        · rename_i comment
          have skipped : token.isSignificant = false := by
            simp [Token.isSignificant, comment]
          rw [List.filter_cons_of_neg (by simp [skipped])]
          exact rest _ _
        · rename_i seen
          have kept : token.isSignificant = true := by
            simp [Token.isSignificant, seen, notEnd]
          rw [List.filter_cons_of_pos kept]
          simpa using rest [] (done.push ⟨token, waiting.reverse⟩)

/-- The stream of a source holds its significant tokens and ends with its end
token. -/
theorem tokens_ofSource (source : Source) :
    (ofSource source).tokens = source.tokens.filter Token.isSignificant ∧
      (ofSource source).final.token = Token.endAt (Pos.origin.advance source.text []) := by
  obtain ⟨body, final, split, finish, proper⟩ := source.lexes_tokens.exists_body
  have ends : final.kind = .eof := by rw [finish]; rfl
  have dropped : [final].filter Token.isSignificant = [] := by
    simp [Token.isSignificant, ends]
  have filed := file_tokens (source.position source.size) [] #[] body final ends
    fun token member => (proper token member).1
  rw [ofSource, split, List.filter_append, dropped, List.append_nil, filed.2]
  exact ⟨filed.1, finish⟩

/-- A stream has at most one token more than its source has bytes. -/
theorem size_ofSource_le (source : Source) : (ofSource source).size ≤ source.size + 1 := by
  obtain ⟨body, final, split, finish, -⟩ := source.lexes_tokens.exists_body
  have few : (body.filter Token.isSignificant).length ≤ body.length := List.length_filter_le _ _
  have all := source.lexes_tokens.length_le
  have seen := (tokens_ofSource source).1
  have dropped : [final].filter Token.isSignificant = [] := by
    simp [finish, Token.endAt, Token.isSignificant]
  rw [split, List.filter_append, dropped, List.append_nil] at seen
  rw [split, List.length_append, List.length_singleton] at all
  have counted := congrArg List.length seen
  simp only [tokens, List.length_map, Array.length_toList] at counted
  rw [size, last, Source.size]
  omega

/-- Whatever a stream shows is a token of the source. -/
theorem get_mem_source (source : Source) (index : Nat) :
    (ofSource source).get index ∈ source.tokens := by
  obtain ⟨significant, final⟩ := tokens_ofSource source
  rcases Nat.lt_or_ge index (ofSource source).last with inside | past
  · have listed := get_mem_tokens inside
    rw [significant] at listed
    exact (List.mem_filter.mp listed).1
  · obtain ⟨body, last, split, rfl, -⟩ := source.lexes_tokens.exists_body
    rw [get_of_past past, get_last, final, split]
    exact List.mem_append_right _ (List.mem_singleton.mpr rfl)

/-- The lexical errors of a stream are those of its source. -/
theorem lexicalErrors_ofSource (source : Source) :
    (ofSource source).lexicalErrors = source.tokens.filter (·.kind = .error) := by
  have significant := (tokens_ofSource source).1
  simp only [tokens] at significant
  rw [lexicalErrors, significant, List.filter_filter]
  apply List.filter_congr
  intro token _
  by_cases isError : token.kind = .error <;>
    simp [isError, Token.isSignificant, Token.Kind.isTrivia]

/-! ## Order -/

/-- The tokens of a stream are proper and do not overlap, and the end token
stands behind them and nowhere else. -/
structure Ordered (stream : Stream) : Prop where
  kind_last : stream.kind stream.last = .eof
  kind_ne_eof : ∀ index < stream.last, stream.kind index ≠ .eof
  start_lt_stop : ∀ index < stream.last,
    (stream.get index).span.start.offset < (stream.get index).span.stop.offset
  stop_le_start : ∀ index < stream.last,
    (stream.get index).span.stop.offset ≤ (stream.get (index + 1)).span.start.offset
  span_last : (stream.get stream.last).span = .empty (stream.get stream.last).span.start

theorem ofSource_ordered (source : Source) : (ofSource source).Ordered := by
  obtain ⟨sameTokens, sameFinal⟩ := tokens_ofSource source
  obtain ⟨body, final, split, finish, proper⟩ := source.lexes_tokens.exists_body
  have ordered := source.lexes_tokens.pairwise.1
  have significant : ∀ index < (ofSource source).last,
      (ofSource source).get index ∈ body := by
    intro index inside
    have member := get_mem_tokens inside
    rw [sameTokens, List.mem_filter, split, List.mem_append, List.mem_singleton] at member
    obtain ⟨inBody | isFinal, seen⟩ := member
    · exact inBody
    · rw [isFinal, finish] at seen
      simp [Token.isSignificant, Token.endAt] at seen
  refine ⟨?_, fun index inside => (proper _ (significant index inside)).1,
    fun index inside => (proper _ (significant index inside)).2, ?_, ?_⟩
  · rw [kind, get_last, sameFinal]
    rfl
  · intro index inside
    by_cases more : index + 1 < (ofSource source).last
    · have pairs : (ofSource source).tokens.Pairwise fun first second =>
          first.span.stop.offset ≤ second.span.start.offset := by
        rw [sameTokens]
        exact ordered.filter _
      rw [List.pairwise_iff_getElem] at pairs
      have first := List.getElem?_eq_some_iff.mp (get_of_lt inside)
      have second := List.getElem?_eq_some_iff.mp (get_of_lt more)
      obtain ⟨firstInside, firstEq⟩ := first
      obtain ⟨secondInside, secondEq⟩ := second
      have order := pairs index (index + 1) firstInside secondInside (Nat.lt_succ_self _)
      rwa [firstEq, secondEq] at order
    · have isLast : index + 1 = (ofSource source).last := by omega
      rw [isLast, get_last, sameFinal, ← finish]
      rw [split, List.pairwise_append] at ordered
      exact ordered.2.2 _ (significant index inside) _ (List.mem_singleton.mpr rfl)
  · rw [get_last, sameFinal]
    rfl

namespace Ordered

variable {stream : Stream}

theorem lt_last (ordered : stream.Ordered) {index : Nat} (notEnd : stream.kind index ≠ .eof) :
    index < stream.last := by
  by_contra past
  apply notEnd
  rw [kind, get_of_past (Nat.not_lt.mp past)]
  exact ordered.kind_last

theorem eq_last (ordered : stream.Ordered) {index : Nat} (inside : index ≤ stream.last)
    (atEnd : stream.kind index = .eof) : index = stream.last := by
  by_contra before
  exact ordered.kind_ne_eof index (by omega) atEnd

theorem stop_le_start_of_lt (ordered : stream.Ordered) {first second : Nat}
    (before : first < second) (inside : second ≤ stream.last) :
    (stream.get first).span.stop.offset ≤ (stream.get second).span.start.offset := by
  induction before with
  | refl => exact ordered.stop_le_start first (by omega)
  | @step second _ ih =>
      have earlier := ih (by omega)
      have proper := ordered.start_lt_stop second (by omega)
      have next := ordered.stop_le_start second (by omega)
      simp only [Nat.succ_eq_add_one]
      omega

theorem start_le_start (ordered : stream.Ordered) {first second : Nat}
    (before : first ≤ second) (inside : second ≤ stream.last) :
    (stream.get first).span.start.offset ≤ (stream.get second).span.start.offset := by
  rcases Nat.lt_or_eq_of_le before with earlier | rfl
  · have proper := ordered.start_lt_stop first (by omega)
    have apart := ordered.stop_le_start_of_lt earlier inside
    omega
  · exact Nat.le_refl _

theorem stop_le_stop (ordered : stream.Ordered) {first second : Nat}
    (before : first ≤ second) (inside : second < stream.last) :
    (stream.get first).span.stop.offset ≤ (stream.get second).span.stop.offset := by
  rcases Nat.lt_or_eq_of_le before with earlier | rfl
  · have proper := ordered.start_lt_stop second inside
    have apart := ordered.stop_le_start_of_lt earlier (Nat.le_of_lt inside)
    omega
  · exact Nat.le_refl _

/-- Tokens that start at the same place of a stream have the same kind. -/
theorem kind_eq_of_start (ordered : stream.Ordered)
    {first second : Nat} (inside : second < stream.last)
    (same : (stream.get first).span.start.offset = (stream.get second).span.start.offset) :
    stream.kind first = stream.kind second := by
  rcases Nat.lt_trichotomy first second with before | rfl | behind
  · have proper := ordered.start_lt_stop first (by omega)
    have apart := ordered.stop_le_start_of_lt before (Nat.le_of_lt inside)
    omega
  · rfl
  · have proper := ordered.start_lt_stop second inside
    rcases Nat.lt_or_ge stream.last first with past | within
    · have apart := ordered.stop_le_start_of_lt inside (Nat.le_refl _)
      rw [get_of_past (Nat.le_of_lt past)] at same
      omega
    · have apart := ordered.stop_le_start_of_lt behind within
      omega

end Ordered

/-! ## Stretches -/

/-- The stretch of text from the token at one index up to, and not with, the
token at another. -/
def stretch (stream : Stream) (first after : Nat) : Span :=
  ⟨(stream.get first).span.start,
    if first < after then (stream.get (after - 1)).span.stop else (stream.get first).span.start⟩

theorem stretch_start (stream : Stream) (first after : Nat) :
    (stream.stretch first after).start = (stream.get first).span.start :=
  rfl

theorem stretch_stop_of_lt {stream : Stream} {first after : Nat} (proper : first < after) :
    (stream.stretch first after).stop = (stream.get (after - 1)).span.stop :=
  if_pos proper

theorem stretch_self (stream : Stream) (index : Nat) :
    stream.stretch index index = .empty (stream.get index).span.start := by
  simp [stretch, Span.empty]

/-- A token lies inside a stretch if its index does. -/
theorem Ordered.stretch_contains_iff {stream : Stream} (ordered : stream.Ordered)
    {first after index : Nat} (order : first ≤ after) (within : after ≤ stream.last)
    (inside : index < stream.last) :
    (stream.stretch first after).contains (stream.get index).span = true ↔
      first ≤ index ∧ index < after := by
  have proper := ordered.start_lt_stop index inside
  rw [Span.contains, Bool.and_eq_true, decide_eq_true_eq, decide_eq_true_eq, stretch_start]
  constructor
  · rintro ⟨startsBehind, stopsBefore⟩
    constructor
    · by_contra early
      have apart := ordered.stop_le_start_of_lt (Nat.lt_of_not_le early) (by omega)
      omega
    · by_contra late
      rcases Nat.lt_or_eq_of_le order with some | rfl
      · rw [stretch_stop_of_lt some] at stopsBefore
        have before : after - 1 < index := by omega
        have apart := ordered.stop_le_start_of_lt before (Nat.le_of_lt inside)
        omega
      · rw [stretch_self] at stopsBefore
        dsimp only [Span.empty] at stopsBefore
        omega
  · rintro ⟨low, high⟩
    rw [stretch_stop_of_lt (by omega)]
    exact ⟨ordered.start_le_start low (by omega), ordered.stop_le_stop (by omega) (by omega)⟩

/-- A stretch ends in front of the token behind it. -/
theorem Ordered.stretch_stop_le_start {stream : Stream} (ordered : stream.Ordered)
    {first after : Nat} (order : first ≤ after) (within : after ≤ stream.last) :
    (stream.stretch first after).stop.offset ≤ (stream.get after).span.start.offset := by
  rcases Nat.lt_or_eq_of_le order with some | rfl
  · rw [stretch_stop_of_lt some]
    exact ordered.stop_le_start_of_lt (by omega) within
  · rw [stretch_self]
    exact Nat.le_refl _

/-- A stretch that starts in front of an index ends with the token before it or
earlier. -/
theorem Ordered.stretch_stop_le_stop {stream : Stream} (ordered : stream.Ordered)
    {first after pos : Nat} (order : first ≤ after) (before : after ≤ pos) (starts : first < pos)
    (within : pos ≤ stream.last) :
    (stream.stretch first after).stop.offset ≤ (stream.get (pos - 1)).span.stop.offset := by
  rcases Nat.lt_or_eq_of_le order with some | rfl
  · rw [stretch_stop_of_lt some]
    exact ordered.stop_le_stop (by omega) (by omega)
  · rw [stretch_self]
    have later := ordered.start_le_start (show first ≤ pos - 1 by omega) (by omega)
    have proper := ordered.start_lt_stop (pos - 1) (by omega)
    exact Nat.le_trans later (Nat.le_of_lt proper)

/-- A single token is a stretch, the end token an empty one. -/
theorem Ordered.span_eq_stretch {stream : Stream} (ordered : stream.Ordered) {index : Nat}
    (inside : index ≤ stream.last) :
    (stream.get index).span = stream.stretch index (stream.succ index) := by
  rcases Nat.lt_or_eq_of_le inside with before | rfl
  · simp [stretch, succ, before]
  · have stays : stream.succ stream.last = stream.last := by simp [succ]
    rw [stays, stretch_self]
    exact ordered.span_last

/-! ## Segments -/

/-- The tokens from one index up to another. -/
def segment (stream : Stream) (first after : Nat) : List Token :=
  (List.range' first (after - first)).map stream.get

theorem segment_self (stream : Stream) (pos : Nat) : stream.segment pos pos = [] := by
  simp [segment]

theorem segment_cons {stream : Stream} {first after : Nat} (proper : first < after) :
    stream.segment first after = stream.get first :: stream.segment (first + 1) after := by
  have more : after - first = after - (first + 1) + 1 := by omega
  simp [segment, more, List.range'_succ]

theorem segment_append (stream : Stream) {first middle after : Nat} (low : first ≤ middle)
    (high : middle ≤ after) :
    stream.segment first after = stream.segment first middle ++ stream.segment middle after := by
  obtain ⟨front, rfl⟩ := Nat.exists_eq_add_of_le low
  obtain ⟨back, rfl⟩ := Nat.exists_eq_add_of_le high
  simp only [segment, Nat.add_assoc, Nat.add_sub_cancel_left]
  rw [← Nat.add_assoc, Nat.add_sub_cancel_left, ← List.map_append, List.range'_append_1]

theorem segment_concat {stream : Stream} {first after : Nat} (proper : first < after) :
    stream.segment first after = stream.segment first (after - 1) ++ [stream.get (after - 1)] := by
  have last : stream.segment (after - 1) after = [stream.get (after - 1)] := by
    rw [segment_cons (by omega), Nat.sub_add_cancel (by omega), segment_self]
  rw [stream.segment_append (show first ≤ after - 1 by omega) (Nat.sub_le after 1), last]

theorem mem_segment {stream : Stream} {first after : Nat} {token : Token}
    (member : token ∈ stream.segment first after) :
    ∃ index, first ≤ index ∧ index < after ∧ stream.get index = token := by
  obtain ⟨index, inRange, same⟩ := List.mem_map.mp member
  rw [List.mem_range'_1] at inRange
  exact ⟨index, inRange.1, by omega, same⟩

theorem segment_eq_tokens (stream : Stream) : stream.segment 0 stream.last = stream.tokens := by
  apply List.ext_getElem?
  intro index
  by_cases inside : index < stream.last
  · rw [get_of_lt inside]
    simp [segment, inside]
  · have past : stream.tokens.length ≤ index := by
      rw [length_tokens]
      omega
    rw [List.getElem?_eq_none past]
    simp [segment]
    omega

/-- Every significant token has an index. -/
theorem exists_get_of_mem {stream : Stream} {token : Token}
    (member : token ∈ stream.tokens) : ∃ index < stream.last, stream.get index = token := by
  rw [← stream.segment_eq_tokens] at member
  obtain ⟨index, -, inside, same⟩ := mem_segment member
  exact ⟨index, inside, same⟩

/-- The tokens that lie inside a stretch are those between its indexes. -/
theorem Ordered.filter_stretch {stream : Stream} (ordered : stream.Ordered) {first after : Nat}
    (order : first ≤ after) (within : after ≤ stream.last) :
    stream.tokens.filter (fun token => (stream.stretch first after).contains token.span) =
      stream.segment first after := by
  have inside : ∀ index < stream.last,
      (stream.stretch first after).contains (stream.get index).span = true ↔
        first ≤ index ∧ index < after :=
    fun index => ordered.stretch_contains_iff order within
  have outside : ∀ low high, high ≤ first ∨ after ≤ low → high ≤ stream.last →
      (stream.segment low high).filter
        (fun token => (stream.stretch first after).contains token.span) = [] := by
    intro low high apart bound
    apply List.filter_eq_nil_iff.mpr
    intro token member
    obtain ⟨index, lower, upper, rfl⟩ := mem_segment member
    rw [inside index (by omega)]
    omega
  have kept : (stream.segment first after).filter
      (fun token => (stream.stretch first after).contains token.span) =
        stream.segment first after := by
    apply List.filter_eq_self.mpr
    intro token member
    obtain ⟨index, lower, upper, rfl⟩ := mem_segment member
    exact (inside index (by omega)).mpr ⟨lower, upper⟩
  rw [← segment_eq_tokens, stream.segment_append (Nat.zero_le first) (Nat.le_trans order within),
    stream.segment_append order within, List.filter_append, List.filter_append,
    outside 0 first (.inl (Nat.le_refl _)) (Nat.le_trans order within), kept,
    outside after stream.last (.inr (Nat.le_refl _)) (Nat.le_refl _), List.nil_append,
    List.append_nil]

/-! ## Steps -/

theorem succ_of_lt {stream : Stream} {index : Nat} (inside : index < stream.last) :
    stream.succ index = index + 1 := by
  simp [succ, inside]

theorem succ_le_last {stream : Stream} {index : Nat} (inside : index ≤ stream.last) :
    stream.succ index ≤ stream.last := by
  simp only [succ]
  split <;> omega

theorem succ_of_moved {stream : Stream} {index : Nat} (moved : index < stream.succ index) :
    stream.succ index = index + 1 := by
  simp only [succ] at moved ⊢
  split at moved
  · rename_i inside
    exact if_pos inside
  · omega

theorem le_succ (stream : Stream) (index : Nat) : index ≤ stream.succ index := by
  simp only [succ]
  split <;> omega

theorem le_advance (stream : Stream) (index steps : Nat) : index ≤ stream.advance index steps := by
  induction steps generalizing index with
  | zero => exact Nat.le_refl _
  | succ steps ih => exact Nat.le_trans (stream.le_succ index) (ih _)

theorem advance_le_last {stream : Stream} {index : Nat} (steps : Nat)
    (inside : index ≤ stream.last) : stream.advance index steps ≤ stream.last := by
  induction steps generalizing index with
  | zero => exact inside
  | succ steps ih => exact ih (succ_le_last inside)

/-! ## Operators -/

end Stream

/-- The tokens of the text that compose an operator. -/
def Token.Kind.pieces : Token.Kind → List Token.Kind
  | .lessEqual => [.less, .assign]
  | .greaterEqual => [.greater, .assign]
  | .shiftLeft => [.less, .less]
  | .shiftRight => [.greater, .greater]
  | .unsignedShiftRight => [.greater, .greater, .greater]
  | .shiftLeftAssign => [.less, .less, .assign]
  | .shiftRightAssign => [.greater, .greater, .assign]
  | .unsignedShiftRightAssign => [.greater, .greater, .greater, .assign]
  | kind => [kind]

namespace Stream

/-- The tokens that operators are composed of. -/
def isPiece : Token.Kind → Bool
  | .less | .greater | .assign => true
  | _ => false

/-- The operators that are composed of touching tokens. -/
def isComposed : Token.Kind → Bool
  | .lessEqual | .greaterEqual | .shiftLeft | .shiftRight | .unsignedShiftRight
  | .shiftLeftAssign | .shiftRightAssign | .unsignedShiftRightAssign => true
  | _ => false

theorem isPiece_of_composed {kind : Token.Kind} (composed : isComposed kind = true) :
    ∀ piece ∈ kind.pieces, isPiece piece = true := by
  cases kind <;> first | exact absurd composed (by decide) | decide

/-- The tokens from one index up to another touch in the text. -/
def Touches (stream : Stream) (first after : Nat) : Prop :=
  ∀ index, first ≤ index → index + 1 < after → stream.adjacent index = true

/-- Tokens of the given kinds stand side by side from an index on. -/
structure Runs (stream : Stream) (index : Nat) (kinds : List Token.Kind) : Prop where
  kinds_eq : (stream.segment index (index + kinds.length)).map Token.kind = kinds
  touches : stream.Touches index (index + kinds.length)

namespace Runs

variable {stream : Stream} {index : Nat} {kind : Token.Kind} {kinds : List Token.Kind}

theorem single (found : stream.kind index = kind) : stream.Runs index [kind] := by
  refine ⟨?_, fun other low high => ?_⟩
  · rw [List.length_singleton, segment_cons (Nat.lt_succ_self index), segment_self]
    simpa [Stream.kind] using found
  · simp only [List.length_singleton] at high
    omega

/-- A token that touches the ones in front of it makes one more. -/
theorem concat (runs : stream.Runs index kinds) (some_kinds : kinds ≠ [])
    (follows : stream.follows index kinds.length kind = true) :
    stream.Runs index (kinds ++ [kind]) := by
  have positive := List.length_pos_iff.mpr some_kinds
  simp only [Stream.follows, Bool.and_eq_true, decide_eq_true_eq] at follows
  refine ⟨?_, fun other low high => ?_⟩
  · rw [List.length_append, List.length_singleton, segment_concat (by omega), List.map_append,
      ← Nat.add_assoc, Nat.add_sub_cancel, runs.kinds_eq]
    simpa [Stream.kind] using follows.2
  · rw [List.length_append, List.length_singleton] at high
    by_cases before : other + 1 < index + kinds.length
    · exact runs.touches other low before
    · obtain rfl : other = index + kinds.length - 1 := by omega
      exact follows.1

theorem kind_eq (runs : stream.Runs index kinds) {ahead : Nat}
    (found : kinds[ahead]? = some kind) : stream.kind (index + ahead) = kind := by
  obtain ⟨inside, rfl⟩ := List.getElem?_eq_some_iff.mp found
  have same := List.getElem_of_eq runs.kinds_eq.symm inside
  rw [same]
  simp [segment, Stream.kind]

theorem follows_eq (runs : stream.Runs index kinds) {ahead : Nat}
    (found : kinds[ahead + 1]? = some kind) : stream.follows index (ahead + 1) kind = true := by
  have inside := (List.getElem?_eq_some_iff.mp found).1
  simp only [follows, runs.kind_eq found, decide_true, Bool.and_true]
  exact runs.touches _ (by omega) (by omega)

end Runs

/-- An operator is a single token or is composed of pieces side by side. -/
theorem operator_runs (stream : Stream) (index : Nat) :
    stream.operator index = (stream.kind index, 1) ∨
      isComposed (stream.operator index).1 = true ∧
        stream.Runs index (stream.operator index).1.pieces ∧
        (stream.operator index).2 = (stream.operator index).1.pieces.length := by
  unfold operator
  dsimp only
  split
  · rename_i first
    have one : stream.Runs index [.less] := .single first
    split
    · rename_i second
      have two := one.concat (by simp) second
      split
      · rename_i third
        exact .inr ⟨rfl, two.concat (by simp) third, rfl⟩
      · exact .inr ⟨rfl, two, rfl⟩
    · split
      · rename_i second
        exact .inr ⟨rfl, one.concat (by simp) second, rfl⟩
      · exact .inl (by rw [first])
  · rename_i first
    have one : stream.Runs index [.greater] := .single first
    split
    · rename_i second
      have two := one.concat (by simp) second
      split
      · rename_i third
        have three := two.concat (by simp) third
        split
        · rename_i fourth
          exact .inr ⟨rfl, three.concat (by simp) fourth, rfl⟩
        · exact .inr ⟨rfl, three, rfl⟩
      · split
        · rename_i third
          exact .inr ⟨rfl, two.concat (by simp) third, rfl⟩
        · exact .inr ⟨rfl, two, rfl⟩
    · split
      · rename_i second
        exact .inr ⟨rfl, one.concat (by simp) second, rfl⟩
      · exact .inl (by rw [first])
  · exact .inl rfl

/-- As many tokens from an index on are pieces of operators. -/
def Pieces (stream : Stream) (index count : Nat) : Prop :=
  ∀ ahead < count, isPiece (stream.kind (index + ahead)) = true

/-- An operator is a single token or is composed of pieces. -/
theorem operator_cases (stream : Stream) (index : Nat) :
    stream.operator index = (stream.kind index, 1) ∨
      isComposed (stream.operator index).1 = true ∧
        Pieces stream index (stream.operator index).2 := by
  refine (stream.operator_runs index).imp_right ?_
  rintro ⟨composed, runs, count⟩
  refine ⟨composed, fun ahead inside => ?_⟩
  rw [count] at inside
  rw [runs.kind_eq (List.getElem?_eq_getElem inside)]
  exact isPiece_of_composed composed _ (List.getElem_mem inside)

theorem advance_le (stream : Stream) (index steps : Nat) :
    stream.advance index steps ≤ index + steps := by
  induction steps generalizing index with
  | zero => exact Nat.le_refl _
  | succ steps ih =>
      have step : stream.succ index ≤ index + 1 := by
        simp only [succ]
        split <;> omega
      have rest := ih (stream.succ index)
      simp only [advance]
      omega

/-- An operator of one token is that token. -/
theorem operatorToken_of_single {stream : Stream} {index : Nat}
    (single : stream.operator index = (stream.kind index, 1)) :
    stream.operatorToken index = stream.get index ∧
      stream.afterOperator index = stream.succ index := by
  constructor
  · simp [operatorToken, single, fuse, advance, kind]
  · simp [afterOperator, single, advance]

theorem operator_count_pos (stream : Stream) (index : Nat) : 0 < (stream.operator index).2 := by
  unfold operator
  dsimp only
  repeat' split
  all_goals exact Nat.succ_pos _

theorem advance_of_lt {stream : Stream} {index steps : Nat} (inside : index + steps ≤ stream.last) :
    stream.advance index steps = index + steps := by
  induction steps generalizing index with
  | zero => rfl
  | succ steps ih =>
      rw [advance, succ_of_lt (by omega), ih (by omega)]
      omega

/-- An operator covers the tokens it is composed of, and the last of several is
no dot. -/
theorem Ordered.operator_stretch {stream : Stream} (ordered : stream.Ordered) {index : Nat}
    (inside : index ≤ stream.last) :
    (stream.operatorToken index).span = stream.stretch index (stream.afterOperator index) ∧
      (index + 1 < stream.afterOperator index →
        stream.kind (stream.afterOperator index - 1) ≠ .dot) := by
  have positive := stream.operator_count_pos index
  rcases stream.operator_cases index with single | ⟨-, pieces⟩
  · obtain ⟨sameToken, sameAfter⟩ := operatorToken_of_single single
    rw [sameToken, sameAfter]
    refine ⟨ordered.span_eq_stretch inside, ?_⟩
    intro several
    simp only [succ] at several
    split at several <;> omega
  · have lastPiece := pieces ((stream.operator index).2 - 1) (by omega)
    have notEnd : stream.kind (index + ((stream.operator index).2 - 1)) ≠ .eof := by
      intro atEnd
      rw [atEnd] at lastPiece
      cases lastPiece
    have within : index + (stream.operator index).2 ≤ stream.last := by
      have inside := ordered.lt_last notEnd
      omega
    have afterEq : stream.afterOperator index = index + (stream.operator index).2 :=
      advance_of_lt within
    have lastEq : stream.advance index ((stream.operator index).2 - 1) =
        index + (stream.operator index).2 - 1 := by
      rw [advance_of_lt (by omega)]
      omega
    rw [afterEq]
    constructor
    · simp only [operatorToken, fuse, lastEq, stretch]
      rw [if_pos (by omega)]
    · intro _ isDot
      rw [← Nat.add_sub_assoc positive, isDot] at lastPiece
      cases lastPiece

end Stream

end JavaFront
