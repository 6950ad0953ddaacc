import JavaFront.Proofs.Token.Significant

/-!
# Layout

Two streams are alike if they have the same tokens, wherever these stand in
their texts. Of the layout only one thing is left to see: whether `<` and `>`
touch the token behind them, because operators are composed of them. So alike
streams have the same operators.
-/

namespace JavaFront

/-! ## Tokens -/

/-- The kind and the text of a token. -/
def Token.bare (token : Token) : Token :=
  { token with span := .empty .origin }

theorem Token.kind_of_bare {token other : Token} (same : token.bare = other.bare) :
    token.kind = other.kind := by
  simp only [bare, Token.mk.injEq] at same
  exact same.1

theorem Token.text_of_bare {token other : Token} (same : token.bare = other.bare) :
    token.text = other.text := by
  simp only [bare, Token.mk.injEq] at same
  exact same.2.2

theorem Token.bare_eq {token other : Token} (sameKind : token.kind = other.kind)
    (sameText : token.text = other.text) : token.bare = other.bare := by
  simp only [bare, sameKind, sameText]

theorem Token.describe_of_bare {token other : Token} (same : token.bare = other.bare) :
    token.describe = other.describe := by
  simp only [describe, kind_of_bare same, text_of_bare same]

/-! ## Streams -/

namespace Stream

/-- The streams have the same tokens, places apart, and the same `<` and `>`
touch what comes next. -/
structure Alike (first second : Stream) : Prop where
  last_eq : first.last = second.last
  bare_eq : ∀ index, (first.get index).bare = (second.get index).bare
  touch : ∀ index, first.kind index = .less ∨ first.kind index = .greater →
    first.adjacent index = second.adjacent index

namespace Alike

variable {first second : Stream} (alike : first.Alike second)

include alike

theorem kind_eq (index : Nat) : first.kind index = second.kind index :=
  Token.kind_of_bare (alike.bare_eq index)

theorem size_eq : first.size = second.size := by
  rw [size, size, alike.last_eq]

theorem succ_eq (index : Nat) : first.succ index = second.succ index := by
  rw [succ, succ, alike.last_eq]

theorem advance_eq (index steps : Nat) :
    first.advance index steps = second.advance index steps := by
  induction steps generalizing index with
  | zero => rfl
  | succ steps ih =>
      rw [advance, advance, alike.succ_eq]
      exact ih _

theorem follows_eq {index ahead : Nat}
    (bracket : first.kind (index + ahead - 1) = .less ∨ first.kind (index + ahead - 1) = .greater)
    (kind : Token.Kind) : first.follows index ahead kind = second.follows index ahead kind := by
  rw [follows, follows, alike.touch _ bracket, alike.kind_eq]

/-- Operators are composed of the same tokens. -/
theorem operator_eq (index : Nat) : first.operator index = second.operator index := by
  -- a piece is followed by the same kinds if it is a bracket, and only then it is asked
  have next : ∀ ahead piece, first.follows index ahead piece = true →
      first.kind (index + ahead) = piece := by
    intro ahead piece found
    simp only [follows, Bool.and_eq_true, decide_eq_true_eq] at found
    exact found.2
  simp only [operator, ← alike.kind_eq]
  split
  · rename_i less
    have one : ∀ kind, first.follows index 1 kind = second.follows index 1 kind :=
      alike.follows_eq (.inl less)
    by_cases shift : first.follows index 1 .less = true
    · have two : ∀ kind, first.follows index 2 kind = second.follows index 2 kind :=
        alike.follows_eq (.inl (next 1 .less shift))
      simp only [one, two]
    · have noShift : ¬ second.follows index 1 .less = true := by rwa [← one]
      rw [if_neg shift, if_neg noShift, one]
  · rename_i greater
    have one : ∀ kind, first.follows index 1 kind = second.follows index 1 kind :=
      alike.follows_eq (.inr greater)
    by_cases shift : first.follows index 1 .greater = true
    · have two : ∀ kind, first.follows index 2 kind = second.follows index 2 kind :=
        alike.follows_eq (.inr (next 1 .greater shift))
      by_cases unsigned : first.follows index 2 .greater = true
      · have three : ∀ kind, first.follows index 3 kind = second.follows index 3 kind :=
          alike.follows_eq (.inr (next 2 .greater unsigned))
        simp only [one, two, three]
      · have signed : ¬ second.follows index 2 .greater = true := by rwa [← two]
        rw [if_neg unsigned, if_neg signed]
        simp only [one, two]
    · have noShift : ¬ second.follows index 1 .greater = true := by rwa [← one]
      rw [if_neg shift, if_neg noShift, one]
  · rfl

theorem afterOperator_eq (index : Nat) :
    first.afterOperator index = second.afterOperator index := by
  rw [afterOperator, afterOperator, alike.operator_eq, alike.advance_eq]

theorem operatorToken_bare (index : Nat) :
    (first.operatorToken index).bare = (second.operatorToken index).bare := by
  have sameText : ∀ ahead, (first.get (index + ahead)).text = (second.get (index + ahead)).text :=
    fun ahead => Token.text_of_bare (alike.bare_eq _)
  simp only [operatorToken, alike.operator_eq, fuse, sameText]
  exact Token.bare_eq rfl rfl

/-- Alike streams have the same lexical errors, places apart. -/
theorem lexicalErrors_bare :
    first.lexicalErrors.map Token.bare = second.lexicalErrors.map Token.bare := by
  have sameTokens : first.tokens.map Token.bare = second.tokens.map Token.bare := by
    apply List.ext_getElem (by simp only [List.length_map, length_tokens, alike.last_eq])
    intro index inside twinInside
    simp only [List.length_map, length_tokens] at inside twinInside
    apply Option.some.inj
    rw [← List.getElem?_eq_getElem, ← List.getElem?_eq_getElem, List.getElem?_map,
      List.getElem?_map, get_of_lt inside, get_of_lt twinInside, Option.map_some, Option.map_some,
      alike.bare_eq]
  have filtered : ∀ tokens : List Token, (tokens.filter (·.kind = .error)).map Token.bare =
      (tokens.map Token.bare).filter (·.kind = .error) := by
    intro tokens
    rw [List.filter_map]
    rfl
  simp only [lexicalErrors]
  rw [filtered, filtered]
  exact congrArg _ sameTokens

end Alike

/-- Sources have alike streams if their significant tokens have the same kinds
and texts, and `<` and `>` touch the next token in both or in none. -/
theorem alike_ofSource {first second : Source}
    (sameTokens : (ofSource first).tokens.map (fun token => (token.kind, token.text)) =
      (ofSource second).tokens.map fun token => (token.kind, token.text))
    (touch : ∀ index, (ofSource first).kind index = .less ∨ (ofSource first).kind index = .greater →
      (ofSource first).adjacent index = (ofSource second).adjacent index) :
    (ofSource first).Alike (ofSource second) := by
  have sameLast : (ofSource first).last = (ofSource second).last := by
    have lengths := congrArg List.length sameTokens
    rwa [List.length_map, List.length_map, length_tokens, length_tokens] at lengths
  refine ⟨sameLast, fun index => ?_, touch⟩
  by_cases inside : index < (ofSource first).last
  · have entries := congrArg (·[index]?) sameTokens
    simp only [List.getElem?_map, get_of_lt inside, get_of_lt (sameLast ▸ inside), Option.map_some,
      Option.some.injEq, Prod.mk.injEq] at entries
    exact Token.bare_eq entries.1 entries.2
  · have ends : ∀ source : Source, ¬ index < (ofSource source).last →
        ((ofSource source).get index).bare = (Token.endAt .origin).bare := by
      intro source past
      have final : (ofSource source).get index = (ofSource source).final.token := by
        simp only [last] at past
        simp [get, entry, past]
      rw [final, (tokens_ofSource source).2]
      rfl
    rw [ends first inside, ends second (sameLast ▸ inside)]

end Stream

end JavaFront
