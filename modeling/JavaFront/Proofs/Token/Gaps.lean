import JavaFront.Proofs.Token.Spacing

/-!
# Words with anything between

Between words there may be blanks and comments, or nothing at all where a word
ends without them. However they are set apart, the words are read back one by
one. That goes for words that are never put together: angle brackets side by
side are so many tokens.
-/

namespace JavaFront

/-! ## Writing words -/

/-- Blanks and comments, or nothing, stand in front of the rest of a text. -/
inductive Lexer.Skips (rest : Bytes) : Bytes → Prop
  | none : Skips rest rest
  | trivia {byte : UInt8} {text : Bytes} :
      (scan byte text).kind.isTrivia = true → Skips rest (scan byte text).rest →
      Skips rest (byte :: text)

/-- A text is made of the words, one behind another, and a tail. What stands
behind a word does not go on with it, if it is an identifier or reserved word. -/
inductive Word.Writes (tail : Bytes) : List Word → Bytes → Prop
  | done : Writes tail [] tail
  | word {word : Word} {words : List Word} {text rest : Bytes} :
      (word.1.isWord = true → Lexer.wordRun 0 text = ([], text)) → Lexer.Skips rest text →
      Writes tail words rest → Writes tail (word :: words) (word.2 ++ text)

/-- Words that the lexer never takes for something else: names, reserved words
and delimiters, and dots with a name behind them. -/
inductive Word.Plain : List Word → Prop
  | nil : Plain []
  | name (name : Name) {words : List Word} : Plain words → Plain ((.ident, name.text) :: words)
  | keyword {kind : Token.Kind} {words : List Word} :
      kind.isKeyword = true → Plain words → Plain (kind.word :: words)
  | delimiter {kind : Token.Kind} {words : List Word} :
      kind ∈ Lexer.delimiters → Plain words → Plain (kind.word :: words)
  | dot (name : Name) {words : List Word} :
      Plain ((.ident, name.text) :: words) →
      Plain (Token.Kind.dot.word :: (.ident, name.text) :: words)

theorem Word.Plain.append {words others : List Word} (plain : Plain words) (rest : Plain others) :
    Plain (words ++ others) := by
  induction plain with
  | nil => exact rest
  | name name _ ih => exact .name name ih
  | keyword isKeyword _ ih => exact .keyword isKeyword ih
  | delimiter delimits _ ih => exact .delimiter delimits ih
  | dot name _ ih => exact .dot name ih

/-! ## Reading words -/

namespace Lexer

variable {byte : UInt8} {rest tail : Bytes}

/-- A dot that no digit follows is an operator. -/
theorem scan_dot (plain : Bytes.isDigit (front rest) = false) :
    scan 0x2e rest = operator (0x2e :: rest) := by
  obtain ⟨noSlash, notBlank, narrow, noWord, noQuote, noString⟩ :=
    plain_of_digit_or_dot (.inr rfl)
  have noDigit : Bytes.isDigit 0x2e = false := by decide
  exact (Scans.operator ⟨fun isSlash => absurd isSlash noSlash, notBlank, narrow, noWord,
    by simp [noDigit, plain], noQuote, noString⟩).eq

/-- Neither a digit nor a dot starts a word, a blank or a comment. -/
theorem front_of_scan (seen : (scan byte rest).kind.isWord = true ∨
    (scan byte rest).kind.isTrivia = true) : Bytes.isDigit byte = false ∧ byte ≠ 0x2e := by
  have noNumber : ∀ kind ∈ numberKinds, ¬(kind.isWord = true ∨ kind.isTrivia = true) := by decide
  have noOperator : ∀ kind ∈ .error :: operators,
      ¬(kind.isWord = true ∨ kind.isTrivia = true) := by
    decide
  rw [← Bool.not_eq_true, ← not_or]
  intro starts
  obtain ⟨noSlash, notBlank, narrow, noWord, noQuote, noString⟩ := plain_of_digit_or_dot starts
  have read := scan_scans byte rest
  generalize scan byte rest = found at read seen
  cases read with
  | lineComment slash | comment slash | unclosed slash => exact noSlash slash
  | blanks blank => exact absurd blank (by simp [notBlank])
  | word _ isStart => exact ne_of_wordStart isStart narrow noWord rfl
  | stray wide => exact UInt8.not_le.mpr narrow wide
  | number => exact noNumber _ (number_kind _) seen
  | characterLiteral quote => exact noQuote quote
  | stringLiteral quote => exact noString quote
  | operator => exact noOperator _ (operator_kind _) seen

/-- Where blanks and comments stand, no digit and no dot does. -/
theorem Skips.front {text : Bytes} (skips : Skips rest text)
    (plain : Bytes.isDigit (front rest) = false ∧ front rest ≠ 0x2e) :
    Bytes.isDigit (Lexer.front text) = false ∧ Lexer.front text ≠ 0x2e := by
  cases skips with
  | none => exact plain
  | trivia trivia _ => exact front_of_scan (.inr trivia)

/-- Any number of blanks may stand between two words. -/
theorem Skips.of_blanks {gap : Bytes} (blank : gap.all isBlank = true)
    (solid : ∀ byte ∈ rest.head?, isBlank byte = false) : Skips rest (gap ++ rest) := by
  cases gap with
  | nil => exact .none
  | cons byte gap =>
      have isBlank := List.all_eq_true.mp blank byte List.mem_cons_self
      have read : blanks (byte :: (gap ++ rest)) = (byte :: gap, rest) := by
        rw [← List.cons_append, blanks, List.span_eq_takeWhile_dropWhile,
          List.takeWhile_append_of_pos (List.all_eq_true.mp blank),
          List.dropWhile_append_of_pos (List.all_eq_true.mp blank)]
        cases rest with
        | nil => simp
        | cons next rest => simp [solid next rfl]
      have scanned : scan byte (gap ++ rest) = ⟨.whitespace, byte :: gap, rest⟩ := by
        rw [(Scans.blanks isBlank).eq, read]
      rw [List.cons_append]
      refine .trivia (by rw [scanned]; rfl) ?_
      rw [scanned]
      exact .none

end Lexer

namespace Word

open Lexer

variable {tail : Bytes} {kind : Token.Kind}

theorem leads_of_keyword (isKeyword : kind.isKeyword = true)
    (ends : wordRun 0 tail = ([], tail)) : kind.word.Leads tail := by
  have alone : ∀ kind ∈ Token.Kind.keywords, Bytes.ofString kind.name ≠ [] ∧
      scan (front (Bytes.ofString kind.name)) (Bytes.ofString kind.name).tail =
        ⟨kind, Bytes.ofString kind.name, []⟩ := by
    decide +kernel
  obtain ⟨nonempty, read⟩ := alone kind (List.contains_iff_mem.mp isKeyword)
  obtain ⟨byte, rest, spelled⟩ := List.exists_cons_of_ne_nil nonempty
  have isWord : kind.isWord = true := by simp [Token.Kind.isWord, isKeyword]
  rw [spelled] at read
  have scanned : scan byte rest = ⟨kind, byte :: rest, []⟩ := read
  refine ⟨byte, rest, spelled, ?_⟩
  rw [scan_word_before isWord scanned ends, Token.Kind.word, spelled]

theorem leads_of_delimiter (delimits : kind ∈ delimiters) : kind.word.Leads tail := by
  have isSymbol : ∀ kind ∈ delimiters, kind.isSymbol = true := by decide
  exact Token.Kind.word_leads (isSymbol kind delimits) (.inr delimits)

theorem dot_leads (plain : Bytes.isDigit (front tail) = false ∧ front tail ≠ 0x2e) :
    Token.Kind.dot.word.Leads tail := by
  have spelled : Bytes.ofString Token.Kind.dot.name = [0x2e] := by decide +kernel
  refine ⟨0x2e, [], spelled, ?_⟩
  have unlike : ∀ other ∈ operators, other ≠ .dot → other ≠ .ellipsis →
      ¬ Bytes.ofString other.name <+: Bytes.ofString Token.Kind.dot.name ∧
        ¬ Bytes.ofString Token.Kind.dot.name <+: Bytes.ofString other.name := by
    decide +kernel
  have ellipsis : Bytes.ofString Token.Kind.ellipsis.name = [0x2e, 0x2e, 0x2e] := by
    decide +kernel
  have read : operator (Bytes.ofString Token.Kind.dot.name ++ tail) =
      ⟨.dot, Bytes.ofString Token.Kind.dot.name, tail⟩ := by
    refine operator_of_unlike (by decide) fun other member differs => ?_
    by_cases longer : other = .ellipsis
    · subst longer
      rw [spelled, ellipsis]
      intro present
      obtain ⟨rest, same⟩ := (List.prefix_cons_inj 0x2e).mp present
      rw [← show [0x2e, 0x2e] ++ rest = tail from same] at plain
      exact plain.2 rfl
    · obtain ⟨notInside, notAround⟩ := unlike other member differs longer
      exact not_prefix_append notInside notAround
  rw [spelled] at read
  rw [List.nil_append, scan_dot plain.1, Token.Kind.word, spelled]
  exact read

/-- Nothing needs to stand behind a delimiter. -/
theorem Writes.delimiter {words : List Word} {text : Bytes} (delimits : kind ∈ delimiters)
    (writes : Writes tail words text) : Writes tail (kind.word :: words) (kind.word.2 ++ text) := by
  have noWord : ∀ kind ∈ delimiters, kind.isWord = false := by decide
  exact .word (fun isWord => absurd isWord (by simp [Token.Kind.word, noWord kind delimits])) .none
    writes

/-- A name starts with neither a digit nor a dot. -/
theorem name_front (name : Name) :
    Bytes.isDigit (front (name.text ++ tail)) = false ∧ front (name.text ++ tail) ≠ 0x2e := by
  have ends : wordRun 0 [] = ([], []) := rfl
  obtain ⟨byte, rest, spelled, scanned⟩ := name.leads ends
  have seen := @front_of_scan byte (rest ++ []) (.inl (by rw [scanned]; rfl))
  rwa [show name.text = byte :: rest from spelled]

end Word

namespace Token.Lexes

variable {pos : Pos} {tokens : List Token} {text rest tail : Bytes}

/-- The grammar does not see blanks and comments. -/
theorem of_skips (skips : Lexer.Skips rest text) (lexed : Lexes pos text tokens) :
    ∃ later place, tokens.filter (!·.kind.isTrivia) = later.filter (!·.kind.isTrivia) ∧
      Lexes place rest later := by
  induction skips generalizing pos tokens with
  | none => exact ⟨tokens, pos, rfl, lexed⟩
  | @trivia byte text trivia _ ih =>
      cases lexed with
      | @token _ _ _ tokens behind =>
          obtain ⟨later, place, seen, lexed⟩ := ih behind
          refine ⟨later, place, ?_, lexed⟩
          rw [List.filter_cons_of_neg (by simp [next, trivia]), seen]

/-- What the grammar sees of the tokens are the words, a token each, and then what
it sees of the tokens of another text. -/
def SeenAs (tokens : List Token) (words : List Word) (tail : Bytes) : Prop :=
  ∃ group later place, tokens.filter (!·.kind.isTrivia) =
      group ++ later.filter (!·.kind.isTrivia) ∧ group.map shape = words ∧
    Lexes place tail later

/-- A word and what separates it from the rest are seen as one token. -/
theorem seenAs_cons {word : Word} {words : List Word} (leads : word.Leads text)
    (seen : word.1.isTrivia = false) (skips : Lexer.Skips rest text)
    (lexed : Lexes pos (word.2 ++ text) tokens)
    (behind : ∀ {pos : Pos} {tokens : List Token}, Lexes pos rest tokens →
      SeenAs tokens words tail) : SeenAs tokens (word :: words) tail := by
  obtain ⟨token, others, _, rfl, rfl, further⟩ := of_leads leads lexed
  obtain ⟨next, _, same, reached⟩ := further.of_skips skips
  obtain ⟨group, later, place, sameNext, rfl, finish⟩ := behind reached
  have kept : (!token.kind.isTrivia) = true := by
    rw [Bool.not_eq_true']
    exact seen
  refine ⟨token :: group, later, place, ?_, rfl, finish⟩
  simp only [List.filter_cons, kept, if_true, same, sameNext, List.cons_append]

/-- However words are set apart, they are read one by one. -/
theorem of_writes {words : List Word} (plain : Word.Plain words)
    (writes : Word.Writes tail words text) (lexed : Lexes pos text tokens) :
    SeenAs tokens words tail := by
  induction plain generalizing text pos tokens with
  | nil =>
      cases writes with
      | done => exact ⟨[], tokens, pos, rfl, rfl, lexed⟩
  | name name _ ih =>
      cases writes with
      | word ends skips others =>
          exact seenAs_cons (name.leads (ends rfl)) rfl skips lexed (ih others)
  | @keyword kind words isKeyword _ ih =>
      cases writes with
      | word ends skips others =>
          have isWord : kind.isWord = true := by simp [Token.Kind.isWord, isKeyword]
          have seen : ∀ kind ∈ Token.Kind.keywords, kind.isTrivia = false := by decide
          exact seenAs_cons (Word.leads_of_keyword isKeyword (ends isWord))
            (seen kind (List.contains_iff_mem.mp isKeyword)) skips lexed (ih others)
  | @delimiter kind words delimits _ ih =>
      cases writes with
      | word ends skips others =>
          have seen : ∀ kind ∈ Lexer.delimiters, kind.isTrivia = false := by decide
          exact seenAs_cons (Word.leads_of_delimiter delimits) (seen kind delimits) skips lexed
            (ih others)
  | dot name _ ih =>
      cases writes with
      | word ends skips others =>
          have next := others
          cases next with
          | word =>
              exact seenAs_cons (Word.dot_leads (skips.front (Word.name_front name))) rfl skips
                lexed (ih others)

end Token.Lexes

/-! ## Words in a stream -/

namespace Stream

/-- The words stand in the stream one behind another, a token each. -/
def Shapes (stream : Stream) : List Word → Nat → Nat → Prop
  | [], index, after => index = after
  | word :: words, index, after => (stream.get index).shape = word ∧ index < stream.last ∧
      stream.Shapes words (index + 1) after

namespace Shapes

variable {stream : Stream} {word : Word} {words : List Word} {index after : Nat}

theorem kind_eq (shapes : stream.Shapes (word :: words) index after) :
    stream.kind index = word.1 :=
  congrArg Prod.fst shapes.1

theorem bare_eq (shapes : stream.Shapes (word :: words) index after) :
    (stream.get index).bare = word.token :=
  show _ = word.token.bare from
    Token.bare_eq (congrArg Prod.fst shapes.1) (congrArg Prod.snd shapes.1)

theorem succ_eq (shapes : stream.Shapes (word :: words) index after) :
    stream.succ index = index + 1 :=
  succ_of_lt shapes.2.1

theorem behind (shapes : stream.Shapes (word :: words) index after) :
    stream.Shapes words (index + 1) after :=
  shapes.2.2

end Shapes

theorem shapes_append {stream : Stream} {words others : List Word} {index after : Nat} :
    stream.Shapes (words ++ others) index after ↔
      ∃ middle, stream.Shapes words index middle ∧ stream.Shapes others middle after := by
  induction words generalizing index with
  | nil => exact ⟨fun shapes => ⟨index, rfl, shapes⟩, fun ⟨_, same, shapes⟩ => same ▸ shapes⟩
  | cons word words ih =>
      constructor
      · rintro ⟨shape, inside, shapes⟩
        obtain ⟨middle, front, back⟩ := ih.mp shapes
        exact ⟨middle, ⟨shape, inside, front⟩, back⟩
      · rintro ⟨middle, ⟨shape, inside, front⟩, back⟩
        exact ⟨shape, inside, ih.mpr ⟨middle, front, back⟩⟩

theorem shapes_of_segment {stream : Stream} {index : Nat} {group others : List Token}
    (seen : stream.segment index stream.size = group ++ others) (goesOn : others ≠ []) :
    stream.Shapes (group.map Token.shape) index (index + group.length) := by
  induction group generalizing index with
  | nil => rfl
  | cons token group ih =>
      obtain ⟨here, behind⟩ := @get_of_segment _ _ [token] _ seen
      have whole := congrArg List.length seen
      have positive := List.length_pos_iff.mpr goesOn
      simp only [segment, List.length_map, List.length_range', List.length_append,
        List.length_cons, size] at whole
      refine ⟨by rw [show stream.get index = token from here 0 token rfl], by omega, ?_⟩
      rw [List.length_cons, Nat.add_comm group.length, ← Nat.add_assoc]
      exact ih behind

/-- Words that a text is made of from a token on stand in the stream of the text
from there on. -/
theorem shapes_ofSource (source : Source) {index : Nat} (inside : index ≤ (ofSource source).last)
    {words : List Word} (plain : Word.Plain words) {tail : Bytes}
    (writes : Word.Writes tail words
      (source.text.drop ((ofSource source).get index).span.start.offset)) :
    (ofSource source).Shapes words index (index + words.length) := by
  have whole := segment_ofSource source
  have low : index < (ofSource source).size := Nat.lt_succ_of_le inside
  rw [(ofSource source).segment_append (Nat.zero_le index) (Nat.le_of_lt low), eq_comm,
    List.filter_eq_append_iff] at whole
  obtain ⟨front, back, split, -, seen⟩ := whole
  have seenHere := seen
  rw [segment_cons low, List.filter_eq_cons_iff] at seenHere
  obtain ⟨skipped, behind, rfl, hidden, visible, -⟩ := seenHere
  have lexed := source.lexes_tokens
  rw [split, ← List.append_assoc] at lexed
  obtain ⟨place, rest, lexed, textEq, offsetEq⟩ := lexed.behind (List.cons_ne_nil _ _)
  have start : ((ofSource source).get index).span.start = place :=
    Option.some.inj lexed.head_start
  have dropped : source.text.drop ((ofSource source).get index).span.start.offset = rest := by
    simp only [start, offsetEq, textEq, Pos.origin, Nat.zero_add, List.drop_left]
  rw [dropped] at writes
  obtain ⟨group, later, _, same, rfl, finish⟩ := lexed.of_writes plain writes
  have hiddenAll : skipped.filter (!·.kind.isTrivia) = [] := List.filter_eq_nil_iff.mpr hidden
  rw [List.filter_append, hiddenAll, List.nil_append, same] at seen
  rw [List.length_map]
  refine shapes_of_segment seen.symm ?_
  exact List.ne_nil_of_mem (List.mem_filter.mpr ⟨finish.endAt_mem, rfl⟩)

end Stream

end JavaFront
