import JavaFront.Proofs.Token.Characters
import JavaFront.Text.Blank

/-!
# Words and the white space around them

Words are read off the runes of a text. White space at the ends of a text is of
no consequence for its words, a blank of one byte separates the words in front
of it from those behind it, and asterisks at the start of a text come off its
first word only.
-/

namespace JavaFront.Bytes

/-! ## Runes and their spelling -/

/-- The runes of a text cover it. -/
theorem flatMap_spelledRunes (text : Bytes) : text.spelledRunes.flatMap Prod.snd = text := by
  match text with
  | [] => rfl
  | first :: rest =>
      obtain ⟨more, size⟩ := Nat.exists_eq_add_of_lt (Rune.decode_size_pos first rest)
      rw [Nat.zero_add] at size
      rw [spelledRunes_cons, List.flatMap_cons, flatMap_spelledRunes, size, List.take_succ_cons,
        Nat.add_sub_cancel, List.cons_append, List.take_append_drop]
termination_by text.length

/-- The last runes of a text are what the others leave of it. -/
theorem leaves_of_spelledRunes {text : Bytes} {front back : List (Rune × Bytes)}
    (read : text.spelledRunes = front ++ back) : Leaves text (back.flatMap Prod.snd) := by
  induction front generalizing text with
  | nil =>
      rw [List.nil_append] at read
      rw [← read, flatMap_spelledRunes]
      exact .refl text
  | cons unit front ih =>
      cases text with
      | nil => cases read
      | cons first rest =>
          rw [spelledRunes_cons, List.cons_append, List.cons.injEq] at read
          exact .rune (ih read.2)

/-- The last runes of a text are the runes of their own spelling. -/
theorem spelledRunes_back {text : Bytes} {front back : List (Rune × Bytes)}
    (read : text.spelledRunes = front ++ back) :
    spelledRunes (back.flatMap Prod.snd) = back := by
  induction front generalizing text with
  | nil =>
      rw [List.nil_append] at read
      rw [← read, flatMap_spelledRunes]
  | cons unit front ih =>
      cases text with
      | nil => cases read
      | cons first rest =>
          rw [spelledRunes_cons, List.cons_append, List.cons.injEq] at read
          exact ih read.2

/-- The first runes of a text are the runes of their own spelling. -/
theorem spelledRunes_front {text : Bytes} {front back : List (Rune × Bytes)}
    (read : text.spelledRunes = front ++ back) :
    spelledRunes (front.flatMap Prod.snd) = front := by
  have covered : text = front.flatMap Prod.snd ++ back.flatMap Prod.snd := by
    rw [← List.flatMap_append, ← read, flatMap_spelledRunes]
  have apart := (leaves_of_spelledRunes read).spelledRunes_append covered (List.prefix_refl _)
  rw [← covered, read, spelledRunes_back read] at apart
  exact (List.append_cancel_right apart).symm

/-! ## Words of runes -/

/-- The words that some runes spell. -/
def wordsOf (units : List (Rune × Bytes)) : List Bytes :=
  if (gatherWords units).1.isEmpty then (gatherWords units).2
  else (gatherWords units).1 :: (gatherWords units).2

theorem words_eq (text : Bytes) : text.words = wordsOf text.spelledRunes :=
  rfl

@[simp]
theorem words_nil : words [] = [] :=
  rfl

section Blanks

variable {unit : Rune × Bytes}

theorem gatherWords_blank (blank : unit.1.isBlank = true) (units : List (Rune × Bytes)) :
    gatherWords (unit :: units) = ([], wordsOf units) := by
  simp only [gatherWords, blank, if_true]
  rfl

theorem gatherWords_visible (visible : unit.1.isBlank = false) (units : List (Rune × Bytes)) :
    gatherWords (unit :: units) = (unit.2 ++ (gatherWords units).1, (gatherWords units).2) := by
  simp only [gatherWords, visible, Bool.false_eq_true, if_false]

/-- No word goes on across a blank. -/
theorem gatherWords_append_blank (blank : unit.1.isBlank = true)
    (units others : List (Rune × Bytes)) :
    gatherWords (units ++ unit :: others) =
      ((gatherWords units).1, (gatherWords units).2 ++ wordsOf others) := by
  induction units with
  | nil => exact gatherWords_blank blank others
  | cons first units ih =>
      rw [List.cons_append]
      cases space : first.1.isBlank with
      | true =>
          rw [gatherWords_blank space, gatherWords_blank space]
          by_cases none : (gatherWords units).1.isEmpty <;> simp only [wordsOf, ih, none] <;> rfl
      | false => rw [gatherWords_visible space, gatherWords_visible space, ih]

theorem wordsOf_append_blank (blank : unit.1.isBlank = true) (units others : List (Rune × Bytes)) :
    wordsOf (units ++ unit :: others) = wordsOf units ++ wordsOf others := by
  by_cases none : (gatherWords units).1.isEmpty <;>
    simp only [wordsOf, gatherWords_append_blank blank, none] <;> rfl

theorem wordsOf_blanks_append {blanks : List (Rune × Bytes)}
    (blank : ∀ unit ∈ blanks, unit.1.isBlank = true) (units : List (Rune × Bytes)) :
    wordsOf (blanks ++ units) = wordsOf units := by
  induction blanks with
  | nil => rfl
  | cons first blanks ih =>
      rw [List.forall_mem_cons] at blank
      exact (wordsOf_append_blank blank.1 [] (blanks ++ units)).trans (ih blank.2)

theorem wordsOf_append_blanks {blanks : List (Rune × Bytes)}
    (blank : ∀ unit ∈ blanks, unit.1.isBlank = true) (units : List (Rune × Bytes)) :
    wordsOf (units ++ blanks) = wordsOf units := by
  cases blanks with
  | nil => rw [List.append_nil]
  | cons first blanks =>
      rw [List.forall_mem_cons] at blank
      have none := wordsOf_blanks_append blank.2 []
      rw [List.append_nil] at none
      rw [wordsOf_append_blank blank.1, none]
      exact List.append_nil _

end Blanks

/-! ## Words of texts -/

/-- A blank of one byte separates words. -/
theorem words_append_blank {byte : UInt8} (narrow : byte < 0x80)
    (blank : Rune.isBlank ⟨byte.toNat, 1, true⟩ = true) (front rest : Bytes) :
    (front ++ byte :: rest).words = front.words ++ rest.words := by
  rw [words_eq, spelledRunes_append_narrow narrow]
  exact wordsOf_append_blank blank _ _

/-- A text is its trimmed text between two stretches of white space, and the
trimmed text starts with no white space. -/
theorem exists_blanks (text : Bytes) : ∃ before behind : List (Rune × Bytes),
    (∀ unit ∈ before, unit.1.isBlank = true) ∧ (∀ unit ∈ behind, unit.1.isBlank = true) ∧
      text.spelledRunes = before ++ (text.trimBlanks.spelledRunes ++ behind) ∧
        ∀ unit, text.trimBlanks.spelledRunes.head? = some unit → unit.1.isBlank = false := by
  have opened := List.takeWhile_append_dropWhile (p := (·.1.isBlank)) (l := text.spelledRunes)
  have closed := congrArg List.reverse (List.takeWhile_append_dropWhile (p := (·.1.isBlank))
    (l := (text.spelledRunes.dropWhile (·.1.isBlank)).reverse))
  rw [List.reverse_append, List.reverse_reverse] at closed
  have trimmed : text.trimBlanks.spelledRunes =
      ((text.spelledRunes.dropWhile (·.1.isBlank)).reverse.dropWhile (·.1.isBlank)).reverse :=
    spelledRunes_front ((spelledRunes_back opened.symm).trans closed.symm)
  refine ⟨text.spelledRunes.takeWhile (·.1.isBlank),
    ((text.spelledRunes.dropWhile (·.1.isBlank)).reverse.takeWhile (·.1.isBlank)).reverse,
    fun _ => List.mem_takeWhile_imp, ?_, ?_, ?_⟩
  · intro unit member
    rw [List.mem_reverse] at member
    exact (List.mem_takeWhile_imp member :)
  · rw [trimmed, closed, opened]
  · intro unit first
    rw [trimmed] at first
    have leading : (text.spelledRunes.dropWhile (·.1.isBlank)).head? = some unit := by
      rw [← closed, List.head?_append, first]
      rfl
    simpa [leading] using List.head?_dropWhile_not (·.1.isBlank) text.spelledRunes

/-- White space at the ends of a text is part of no word. -/
@[simp]
theorem words_trimBlanks (text : Bytes) : text.trimBlanks.words = text.words := by
  obtain ⟨before, behind, blanks, others, read, -⟩ := exists_blanks text
  rw [words_eq text, read, wordsOf_blanks_append blanks, wordsOf_append_blanks others]
  rfl

/-- What is visible at the start of a text starts its first word. -/
theorem gatherWords_of_visible {first : UInt8} {rest : Bytes}
    (visible : (Rune.decode first rest).isBlank = false) :
    ∃ word, (gatherWords (spelledRunes (first :: rest))).1 = first :: word := by
  obtain ⟨more, size⟩ := Nat.exists_eq_add_of_lt (Rune.decode_size_pos first rest)
  rw [Nat.zero_add] at size
  rw [spelledRunes_cons, gatherWords_visible visible, size, List.take_succ_cons, List.cons_append]
  exact ⟨_, rfl⟩

/-- A trimmed text is empty or starts with its first word. -/
theorem trimBlanks_cases (text : Bytes) :
    text.trimBlanks = [] ∧ text.words = [] ∨
      ∃ first rest word others, text.trimBlanks = first :: rest ∧
        gatherWords text.trimBlanks.spelledRunes = (first :: word, others) ∧
          text.words = (first :: word) :: others := by
  obtain ⟨-, -, -, -, -, visible⟩ := exists_blanks text
  rw [← words_trimBlanks text]
  cases same : text.trimBlanks with
  | nil => exact .inl ⟨rfl, rfl⟩
  | cons first rest =>
      rw [same, spelledRunes_cons] at visible
      obtain ⟨word, leading⟩ := gatherWords_of_visible (visible _ rfl)
      refine .inr ⟨first, rest, word, (gatherWords (spelledRunes (first :: rest))).2, rfl,
        Prod.ext leading rfl, ?_⟩
      rw [words_eq, wordsOf, leading]
      rfl

/-- The first byte of a trimmed text is that of its first word. -/
theorem head?_trimBlanks (text : Bytes) :
    text.trimBlanks.head? = text.words.head?.bind List.head? := by
  rcases trimBlanks_cases text with ⟨trimmed, none⟩ | ⟨first, rest, word, others, trimmed, -, some⟩
  · rw [trimmed, none]
    rfl
  · rw [trimmed, some]
    rfl

end JavaFront.Bytes
