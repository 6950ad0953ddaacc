import JavaFront.Proofs.Grammar.Keeping
import JavaFront.Proofs.Token.Spacing

/-!
# The tokens of formulas

A formula is written with few kinds of tokens, and behind an operand there is
never another one without an operator between. That is what the stream of a
formula keeps of it before anything is parsed.
-/

namespace JavaFront

open Grammar

namespace Token.Kind

/-- What stands between two operands of a formula. -/
def isInfix (kind : Token.Kind) : Bool :=
  kind = .question || kind = .colon || (Precedence.of? kind).isSome || isAssignment kind

/-- The operators and separators of formulas. -/
def isMark (kind : Token.Kind) : Bool :=
  kind = .lparen || kind = .rparen || isPlainSign kind || kind.isInfix

/-- The tokens of formulas and the end token. -/
def isAlgebraic (kind : Token.Kind) : Bool :=
  kind = .ident || kind = .eof || kind.isMark

/-- The tokens that an operand of a formula ends with. -/
def closesOperand (kind : Token.Kind) : Bool :=
  kind = .ident || kind = .rparen

theorem pieces_isSymbol {kind : Token.Kind} (isMark : kind.isMark = true) :
    kind.pieces.all isSymbol = true := by
  revert isMark
  cases kind <;> decide

theorem pieces_isAlgebraic {kind : Token.Kind} (isMark : kind.isMark = true) :
    kind.pieces.all isAlgebraic = true := by
  revert isMark
  cases kind <;> decide

end Token.Kind

/-! ## Words -/

namespace Formula

/-- What holds of all names and marks holds of every word of a formula. -/
theorem forall_words {holds : Word → Prop} (name : ∀ name : Name, holds (.ident, name.text))
    (mark : ∀ kind : Token.Kind, kind.isMark = true → holds kind.word) (formula : Formula) :
    ∀ word ∈ formula.words, holds word := by
  induction formula with
  | name identifier => exact List.forall_mem_singleton.mpr (name identifier)
  | parens inner ih =>
      simp only [words, List.forall_mem_cons, List.forall_mem_append]
      exact ⟨mark .lparen rfl, ih, mark .rparen rfl, List.forall_mem_nil _⟩
  | sign operator operand ih =>
      simp only [words, List.forall_mem_cons]
      exact ⟨mark operator.kind (by simp [Token.Kind.isMark, operator.isSign]), ih⟩
  | binary operator left right leftIh rightIh =>
      simp only [words, List.forall_mem_cons, List.forall_mem_append]
      refine ⟨leftIh, mark operator.kind ?_, rightIh⟩
      simp [Token.Kind.isMark, Token.Kind.isInfix, operator.binds]
  | conditional condition yes no conditionIh yesIh noIh =>
      simp only [words, List.forall_mem_cons, List.forall_mem_append]
      exact ⟨conditionIh, mark .question rfl, yesIh, mark .colon rfl, noIh⟩
  | assignment operator target value targetIh valueIh =>
      simp only [words, List.forall_mem_cons, List.forall_mem_append]
      refine ⟨targetIh, mark operator.kind ?_, valueIh⟩
      simp [Token.Kind.isMark, Token.Kind.isInfix, operator.assigns]

theorem words_proper (formula : Formula) : ∀ word ∈ formula.words, word.Proper :=
  formula.forall_words .name fun _ isMark => .symbol (Token.Kind.pieces_isSymbol isMark)

/-- The kinds of the tokens that a formula is written with. -/
def kinds (formula : Formula) : List Token.Kind :=
  formula.words.flatMap fun word => word.1.pieces

theorem kinds_isAlgebraic (formula : Formula) :
    ∀ kind ∈ formula.kinds, kind.isAlgebraic = true := by
  have each : ∀ word ∈ formula.words, word.1.pieces.all Token.Kind.isAlgebraic = true :=
    formula.forall_words (fun _ => rfl) fun kind => Token.Kind.pieces_isAlgebraic
  intro kind member
  obtain ⟨word, listed, inside⟩ := List.mem_flatMap.mp member
  exact List.all_eq_true.mp (each word listed) kind inside

end Formula

/-! ## Neighbours -/

/-- The second kind of token may stand behind the first one: behind an operand
there is no other operand. -/
def Token.Kind.Adjoins (first second : Token.Kind) : Prop :=
  first.closesOperand = true → startsOperand second = false

namespace Formula

open Token.Kind

variable {front back : List Token.Kind} {kind : Token.Kind}

/-- An operator in front of an operand. -/
theorem isChain_prefixed (opens : kind.closesOperand = false) (chained : back.IsChain Adjoins) :
    (kind :: back).IsChain Adjoins :=
  List.isChain_cons.mpr ⟨fun _ _ closes => absurd closes (by simp [opens]), chained⟩

/-- An operator between two operands. -/
theorem isChain_around (isInfix : kind.isInfix = true) (frontChained : front.IsChain Adjoins)
    (backChained : back.IsChain Adjoins) : (front ++ (kind.pieces ++ back)).IsChain Adjoins := by
  have opens : kind.pieces.all (!·.closesOperand) = true := by
    revert isInfix
    cases kind <;> decide
  have parts : kind.pieces.head?.all (!startsOperand ·) = true := by
    revert isInfix
    cases kind <;> decide
  have behind : (kind.pieces ++ back).IsChain Adjoins := by
    generalize kind.pieces = pieces at opens
    induction pieces with
    | nil => exact backChained
    | cons piece pieces ih =>
        simp only [List.all_cons, Bool.and_eq_true, Bool.not_eq_true'] at opens
        exact isChain_prefixed opens.1 (ih opens.2)
  refine frontChained.append behind fun final _ next isNext _ => ?_
  cases spelled : kind.pieces with
  | nil => cases kind <;> cases spelled
  | cons piece pieces =>
      rw [spelled] at isNext parts
      cases isNext
      simpa using parts

/-- In a formula no operand stands directly behind another one. -/
theorem kinds_isChain (formula : Formula) : formula.kinds.IsChain Adjoins := by
  induction formula with
  | name identifier => exact .singleton _
  | parens inner ih =>
      have closed : (inner.kinds ++ [rparen]).IsChain Adjoins :=
        ih.append (.singleton _) fun _ _ next isNext _ => by
          cases isNext
          rfl
      have spelled : (parens inner).kinds = lparen :: (inner.kinds ++ [rparen]) := by
        simp [kinds, words, word, pieces]
      rw [spelled]
      exact isChain_prefixed rfl closed
  | sign operator operand ih =>
      obtain ⟨kind, isSign⟩ := operator
      have spelled : (sign ⟨kind, isSign⟩ operand).kinds = kind :: operand.kinds := by
        have single : kind.pieces = [kind] := by
          cases kind <;> first | rfl | cases isSign
        simp [kinds, words, word, single]
      rw [spelled]
      refine isChain_prefixed ?_ ih
      cases kind <;> first | rfl | cases isSign
  | binary operator left right leftIh rightIh =>
      have spelled : (binary operator left right).kinds =
          left.kinds ++ (operator.kind.pieces ++ right.kinds) := by
        simp [kinds, words, word]
      rw [spelled]
      exact isChain_around (by simp [isInfix, operator.binds]) leftIh rightIh
  | conditional condition yes no conditionIh yesIh noIh =>
      have spelled : (conditional condition yes no).kinds = condition.kinds ++
          (question.pieces ++ (yes.kinds ++ (colon.pieces ++ no.kinds))) := by
        simp [kinds, words, word]
      rw [spelled]
      exact isChain_around rfl conditionIh (isChain_around rfl yesIh noIh)
  | assignment operator target value targetIh valueIh =>
      have spelled : (assignment operator target value).kinds =
          target.kinds ++ (operator.kind.pieces ++ value.kinds) := by
        simp [kinds, words, word]
      rw [spelled]
      exact isChain_around (by simp [isInfix, operator.assigns]) targetIh valueIh

end Formula

/-! ## Streams -/

namespace Stream

/-- A stream of tokens that formulas are written with, where no operand stands
directly behind another one. -/
structure Algebraic (stream : Stream) : Prop where
  ordered : stream.Ordered
  isAlgebraic : ∀ index, (stream.kind index).isAlgebraic = true
  adjoins : ∀ index, (stream.kind index).Adjoins (stream.kind (index + 1))

variable {stream : Stream}

theorem algebraic_of_lays (ordered : stream.Ordered) {formula : Formula}
    (lays : stream.Lays formula.words 0 stream.last) : stream.Algebraic := by
  have kindsEq : (stream.segment 0 stream.last).map Token.kind = formula.kinds := lays.kinds_eq
  have kindAt : ∀ index < stream.last, formula.kinds[index]? = some (stream.kind index) := by
    intro index inside
    rw [← kindsEq, segment_eq_tokens, List.getElem?_map, get_of_lt inside]
    rfl
  have atEnd : ∀ index, stream.last ≤ index → stream.kind index = .eof := by
    intro index past
    have final : stream.get index = stream.get stream.last := by
      simp only [last] at past ⊢
      simp [get, entry, past]
    rw [kind, final]
    exact ordered.kind_last
  refine ⟨ordered, fun index => ?_, fun index => ?_⟩
  · rcases Nat.lt_or_ge index stream.last with inside | past
    · exact formula.kinds_isAlgebraic _ (List.mem_of_getElem? (kindAt index inside))
    · rw [atEnd index past]
      rfl
  · rcases Nat.lt_or_ge (index + 1) stream.last with inside | past
    · obtain ⟨low, first⟩ := List.getElem?_eq_some_iff.mp (kindAt index (Nat.lt_of_succ_lt inside))
      obtain ⟨high, second⟩ := List.getElem?_eq_some_iff.mp (kindAt (index + 1) inside)
      rw [← first, ← second]
      exact List.isChain_iff_getElem.mp formula.kinds_isChain index high
    · rw [atEnd (index + 1) past]
      exact fun _ => rfl

namespace Algebraic

/-- Other kinds of tokens do not occur. -/
theorem kind_ne (algebraic : stream.Algebraic) (index : Nat) {kind : Token.Kind}
    (foreign : kind.isAlgebraic = false) : stream.kind index ≠ kind := by
  intro found
  have isAlgebraic := algebraic.isAlgebraic index
  rw [found, foreign] at isAlgebraic
  cases isAlgebraic

/-- A look that no token of a formula passes fails. -/
theorem rejects (algebraic : stream.Algebraic) (index : Nat) {accept : Token.Kind → Bool}
    (foreign : (Token.Kind.all.all fun kind => !(kind.isAlgebraic && accept kind)) = true) :
    accept (stream.kind index) = false := by
  have rejected := List.all_eq_true.mp foreign (stream.kind index) (Token.Kind.mem_all _)
  rw [algebraic.isAlgebraic index] at rejected
  simpa using rejected

/-- Behind an operand no other one starts. -/
theorem startsOperand_succ (algebraic : stream.Algebraic) {index : Nat}
    (closes : (stream.kind index).closesOperand = true) :
    startsOperand (stream.kind (stream.succ index)) = false := by
  have inside : index < stream.last := by
    refine algebraic.ordered.lt_last fun atEnd => ?_
    rw [atEnd] at closes
    cases closes
  rw [succ_of_lt inside]
  exact algebraic.adjoins index closes

/-- There are no lexical errors. -/
theorem lexicalErrors_eq (algebraic : stream.Algebraic) : stream.lexicalErrors = [] := by
  refine List.filter_eq_nil_iff.mpr fun token member isError => ?_
  obtain ⟨index, -, same⟩ := exists_get_of_mem member
  refine algebraic.kind_ne index (show Token.Kind.error.isAlgebraic = false from rfl) ?_
  rw [kind, same]
  simpa using isError

end Algebraic

end Stream

end JavaFront
