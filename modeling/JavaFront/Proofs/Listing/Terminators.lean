import JavaFront.Listing.Summary
import JavaFront.Proofs.Text.Blanks
import JavaFront.Proofs.Text.Lines

/-!
# Line ends of documentation comments

A summary depends on a comment only through the words of its lines. A carriage
return in front of a line feed is white space at the end of a line and changes
nothing. A carriage return alone ends no line here: the comment is then one line,
so that the asterisks and block tags of its later lines stay in the text.
-/

namespace JavaFront

/-! ## The words of a line -/

/-- The words of a line without the asterisks that its first word starts with. -/
def unstarred : List Bytes → List Bytes
  | [] => []
  | word :: words =>
    if (word.dropWhile (· = 0x2a)).isEmpty then words else word.dropWhile (· = 0x2a) :: words

/-- The words start a block tag. -/
def startsTag (words : List Bytes) : Bool :=
  words.head?.bind List.head? = some 0x40

theorem isBlockTag_eq (text : Bytes) : isBlockTag text = startsTag text.words := by
  rw [isBlockTag, startsTag, Bytes.head?_trimBlanks]

/-- Asterisks at the start of a text come off its first word. -/
theorem gatherWords_unstarred (text : Bytes) :
    Bytes.gatherWords (Bytes.spelledRunes (text.dropWhile (· = 0x2a))) =
      ((Bytes.gatherWords (Bytes.spelledRunes text)).1.dropWhile (· = 0x2a),
        (Bytes.gatherWords (Bytes.spelledRunes text)).2) := by
  induction text with
  | nil => rfl
  | cons first rest ih =>
      by_cases asterisk : first = 0x2a
      · subst asterisk
        have narrow : (0x2a : UInt8) < 0x80 := by decide
        rw [← List.nil_append (0x2a :: rest), Bytes.spelledRunes_append_narrow narrow]
        exact ih
      · have kept : (first :: rest).dropWhile (· = 0x2a) = first :: rest :=
          List.dropWhile_cons_of_neg (by simpa using asterisk)
        rw [kept]
        refine Prod.ext ?_ rfl
        cases visible : (Rune.decode first rest).isBlank with
        | true =>
            rw [Bytes.spelledRunes_cons, Bytes.gatherWords_blank visible]
            rfl
        | false =>
            obtain ⟨word, leading⟩ := Bytes.gatherWords_of_visible visible
            rw [leading, List.dropWhile_cons_of_neg (by simpa using asterisk)]

/-- What is kept of a line are its words without the leading asterisks. -/
theorem words_commentLine (line : Bytes) : (commentLine line).words = unstarred line.words := by
  rw [commentLine, Bytes.words_eq, Bytes.wordsOf, gatherWords_unstarred]
  rcases Bytes.trimBlanks_cases line with ⟨trimmed, none⟩ | ⟨_, _, word, others, -, read, some⟩
  · rw [trimmed, none]
    rfl
  · rw [read, some]
    rfl

/-- The summary sees a comment as the words of its lines. -/
theorem commentWords_eq (comment : Bytes) :
    commentWords comment =
      ((((commentInside comment).splitOn 0x0a).map fun line => unstarred line.words).takeWhile
        fun words => !startsTag words).flatten := by
  rw [commentWords, ← List.flatMap_id, List.takeWhile_map, List.takeWhile_map, List.flatMap_map,
    List.flatMap_map]
  simp only [Function.comp_def, isBlockTag_eq, words_commentLine, id]

/-! ## Other line ends -/

namespace Bytes

/-- The text with another ending in place of each line feed. -/
def withLineEnds (text ending : Bytes) : Bytes :=
  text.flatMap fun byte => if byte = 0x0a then ending else [byte]

section LineEnds

variable {ending : Bytes}

@[simp]
theorem withLineEnds_nil : withLineEnds [] ending = [] :=
  rfl

theorem withLineEnds_feed (rest : Bytes) :
    withLineEnds (0x0a :: rest) ending = ending ++ withLineEnds rest ending :=
  rfl

theorem withLineEnds_other {byte : UInt8} (other : byte ≠ 0x0a) (rest : Bytes) :
    withLineEnds (byte :: rest) ending = byte :: withLineEnds rest ending := by
  rw [withLineEnds, List.flatMap_cons, if_neg other]
  rfl

theorem withLineEnds_append (text other : Bytes) :
    withLineEnds (text ++ other) ending = withLineEnds text ending ++ withLineEnds other ending :=
  List.flatMap_append

theorem withLineEnds_of_not_mem {text : Bytes} (free : 0x0a ∉ text) :
    withLineEnds text ending = text := by
  induction text with
  | nil => rfl
  | cons byte rest ih =>
      rw [List.mem_cons, not_or] at free
      rw [withLineEnds_other (Ne.symm free.1), ih free.2]

theorem not_mem_withLineEnds (free : 0x0a ∉ ending) (text : Bytes) :
    0x0a ∉ withLineEnds text ending := by
  intro member
  obtain ⟨byte, -, inside⟩ := List.mem_flatMap.mp member
  split at inside
  · exact free inside
  · exact absurd (List.mem_singleton.mp inside).symm ‹_›

theorem reverse_withLineEnds (text : Bytes) :
    (withLineEnds text ending).reverse = withLineEnds text.reverse ending.reverse := by
  rw [withLineEnds, withLineEnds, List.reverse_flatMap]
  congr 1
  funext byte
  by_cases feed : byte = 0x0a <;> simp [feed]

/-- A line end is no part of a beginning that shares no byte with it. -/
theorem isPrefix_withLineEnds {beginning : Bytes} (free : 0x0a ∉ beginning) (filled : ending ≠ [])
    (apart : ∀ byte ∈ ending, byte ∉ beginning) (text : Bytes) :
    beginning <+: withLineEnds text ending ↔ beginning <+: text := by
  induction beginning generalizing text with
  | nil => simp
  | cons first beginning ih =>
      rw [List.mem_cons, not_or] at free
      cases text with
      | nil => simp
      | cons byte rest =>
          by_cases feed : byte = 0x0a
          · subst feed
            obtain ⟨last, more, rfl⟩ := List.exists_cons_of_ne_nil filled
            rw [withLineEnds_feed, List.cons_append, List.cons_prefix_cons, List.cons_prefix_cons]
            exact iff_of_false
              (fun starts => apart last List.mem_cons_self (starts.1 ▸ List.mem_cons_self))
              (fun starts => free.1 starts.1.symm)
          · rw [withLineEnds_other feed, List.cons_prefix_cons, List.cons_prefix_cons,
              ih free.2 fun byte member inside => apart byte member (List.mem_cons_of_mem _ inside)]

theorem after?_withLineEnds {beginning : Bytes} (free : 0x0a ∉ beginning) (filled : ending ≠ [])
    (apart : ∀ byte ∈ ending, byte ∉ beginning) (text : Bytes) :
    after? beginning (withLineEnds text ending) =
      (after? beginning text).map (·.withLineEnds ending) := by
  by_cases starts : beginning <+: text
  · obtain ⟨rest, rfl⟩ := starts
    rw [withLineEnds_append, withLineEnds_of_not_mem free]
    simp [after?]
  · have starts' := mt (isPrefix_withLineEnds free filled apart text).mp starts
    rw [← List.isPrefixOf_iff_prefix] at starts starts'
    rw [after?, after?, if_neg starts, if_neg starts']
    rfl

theorem before?_withLineEnds {closing : Bytes} (free : 0x0a ∉ closing) (filled : ending ≠ [])
    (apart : ∀ byte ∈ ending, byte ∉ closing) (text : Bytes) :
    before? closing (withLineEnds text ending) =
      (before? closing text).map (·.withLineEnds ending) := by
  by_cases stops : closing <:+ text
  · obtain ⟨front, rfl⟩ := stops
    rw [withLineEnds_append, withLineEnds_of_not_mem free]
    simp [before?]
  · have stops' : ¬ closing <:+ withLineEnds text ending := by
      rw [← List.reverse_prefix, reverse_withLineEnds,
        isPrefix_withLineEnds (by simpa using free) (by simpa using filled) (by simpa using apart),
        List.reverse_prefix]
      exact stops
    rw [← List.isSuffixOf_iff_suffix] at stops stops'
    rw [before?, before?, if_neg stops, if_neg stops']
    rfl

end LineEnds

/-- Each line but the last is followed by the carriage return of its ending. -/
theorem splitOn_withLineEnds (text : Bytes) :
    List.Forall₂ (fun returned line => returned = line ∨ returned = line ++ [0x0d])
      ((withLineEnds text [0x0d, 0x0a]).splitOn 0x0a) (text.splitOn 0x0a) := by
  induction text with
  | nil => exact .cons (.inl rfl) .nil
  | cons byte rest ih =>
      by_cases feed : byte = 0x0a
      · subst feed
        exact .cons (.inr rfl) ih
      · rw [withLineEnds_other feed, splitOn, splitOn, if_neg feed, if_neg feed]
        generalize splitOn 0x0a (withLineEnds rest [0x0d, 0x0a]) = returned at ih ⊢
        generalize splitOn 0x0a rest = lines at ih ⊢
        cases ih with
        | nil => exact .cons (.inl rfl) .nil
        | cons same others => exact .cons (same.imp (congrArg _) (congrArg _)) others

/-- The lines of a text with another ending between them. -/
theorem withLineEnds_eq_join (text ending : Bytes) :
    text.withLineEnds ending = join ending (text.splitOn 0x0a) := by
  induction text with
  | nil => rfl
  | cons byte rest ih =>
      obtain ⟨line, lines, same⟩ : ∃ line lines, splitOn 0x0a rest = line :: lines :=
        List.exists_cons_of_ne_nil (splitOn_eq 0x0a rest ▸ List.splitOnP_ne_nil _ _)
      rw [same] at ih
      by_cases feed : byte = 0x0a
      · subst feed
        rw [withLineEnds_feed, ih, splitOn, if_pos rfl, same, join, join,
          List.intercalate_cons_cons]
        rfl
      · rw [withLineEnds_other feed, ih, splitOn, if_neg feed, same]
        cases lines with
        | nil => simp [join]
        | cons second lines => simp only [join, List.intercalate_cons_cons, List.cons_append]

/-- Lines with a blank between them have the words of the lines. -/
theorem words_join {byte : UInt8} (narrow : byte < 0x80)
    (blank : Rune.isBlank ⟨byte.toNat, 1, true⟩ = true) (lines : List Bytes) :
    (join [byte] lines).words = lines.flatMap words := by
  induction lines with
  | nil => rfl
  | cons line lines ih =>
      cases lines with
      | nil => simp [join]
      | cons second lines =>
          rw [join, List.intercalate_cons_cons, List.append_assoc, List.singleton_append,
            words_append_blank narrow blank, ← join, ih]
          rfl

end Bytes

/-- The markers of a comment are found whatever its line ends are. -/
theorem commentInside_withLineEnds {ending : Bytes} (filled : ending ≠ [])
    (plain : ∀ byte ∈ ending, byte ≠ 0x2a ∧ byte ≠ 0x2f) (comment : Bytes) :
    commentInside (comment.withLineEnds ending) = (commentInside comment).withLineEnds ending := by
  have opening : ∀ byte ∈ ending, byte ∉ Bytes.ofString "/**" := by
    intro byte member
    rw [show Bytes.ofString "/**" = [0x2f, 0x2a, 0x2a] by decide]
    simpa using (plain byte member).symm
  have closing : ∀ byte ∈ ending, byte ∉ Bytes.ofString "*/" := by
    intro byte member
    rw [show Bytes.ofString "*/" = [0x2a, 0x2f] by decide]
    simpa using plain byte member
  have getD : ∀ (found : Option Bytes) (text : Bytes),
      (found.map (·.withLineEnds ending)).getD (text.withLineEnds ending) =
        (found.getD text).withLineEnds ending :=
    fun found text => Option.getD_map (·.withLineEnds ending) text found
  simp only [commentInside]
  rw [Bytes.after?_withLineEnds (by decide) filled opening, getD,
    Bytes.before?_withLineEnds (by decide) filled closing, getD]

theorem docSummary_congr {comment other : Bytes}
    (same : commentWords comment = commentWords other) : docSummary comment = docSummary other := by
  simp only [docSummary, same]

/-- A line feed may have a carriage return in front of it. -/
theorem commentWords_returned (comment : Bytes) :
    commentWords (comment.withLineEnds [0x0d, 0x0a]) = commentWords comment := by
  have related := Bytes.splitOn_withLineEnds (commentInside comment)
  rw [commentWords_eq, commentWords_eq, commentInside_withLineEnds (by simp) (by simp)]
  congr 2
  generalize Bytes.splitOn 0x0a ((commentInside comment).withLineEnds [0x0d, 0x0a]) = returned
    at related ⊢
  generalize Bytes.splitOn 0x0a (commentInside comment) = lines at related ⊢
  induction related with
  | nil => rfl
  | @cons _ line _ _ same _ ih =>
      rw [List.map_cons, List.map_cons, ih]
      rcases same with rfl | rfl
      · rfl
      · rw [Bytes.words_append_blank (by decide) (by decide) line, Bytes.words_nil, List.append_nil]

/-- With a blank in place of each line feed the comment is one line. -/
theorem commentWords_joined {byte : UInt8} (narrow : byte < 0x80)
    (blank : Rune.isBlank ⟨byte.toNat, 1, true⟩ = true) (other : byte ≠ 0x0a) (comment : Bytes) :
    commentWords (comment.withLineEnds [byte]) =
      (([unstarred (((commentInside comment).splitOn 0x0a).flatMap Bytes.words)]).takeWhile
        fun words => !startsTag words).flatten := by
  have free : ∀ line ∈ [(commentInside comment).withLineEnds [byte]], 0x0a ∉ line :=
    List.forall_mem_singleton.mpr (Bytes.not_mem_withLineEnds (by simpa using other.symm) _)
  have plain : byte ≠ 0x2a ∧ byte ≠ 0x2f := by
    refine ⟨?_, ?_⟩
    all_goals
      rintro rfl
      exact absurd blank (by decide)
  have single := Bytes.splitOn_join free (by simp)
  rw [Bytes.join, List.intercalate_singleton] at single
  rw [commentWords_eq, commentInside_withLineEnds (by simp) (by simpa using plain), single,
    List.map_singleton, Bytes.withLineEnds_eq_join, Bytes.words_join narrow blank]

/-! ## Comments without asterisks in front of their lines -/

/-- No line behind the first one that is not blank starts with an asterisk or a
block tag. -/
def IsBare (comment : Bytes) : Prop :=
  ∀ line ∈ (((commentInside comment).splitOn 0x0a).dropWhile fun line =>
      line.trimBlanks.isEmpty).tail,
    line.trimBlanks.head? ≠ some 0x2a ∧ isBlockTag line = false

instance (comment : Bytes) : Decidable (IsBare comment) :=
  List.decidableBAll _ _

section Bare

variable {lines : List Bytes}

theorem startsTag_append (words others : List Bytes) :
    startsTag (words ++ others) = if words = [] then startsTag others else startsTag words := by
  cases words <;> rfl

theorem unstarred_words {line : Bytes} (plain : line.trimBlanks.head? ≠ some 0x2a) :
    unstarred line.words = line.words := by
  rcases Bytes.trimBlanks_cases line with ⟨-, none⟩ | ⟨first, _, word, others, trimmed, -, some⟩
  · rw [none]
    rfl
  · have kept : (first :: word).dropWhile (· = 0x2a) = first :: word :=
      List.dropWhile_cons_of_neg (by simpa [trimmed] using plain)
    rw [some, unstarred, kept]
    rfl

/-- Lines without asterisks and block tags at their start are kept whole. -/
theorem startsTag_flatMap_words (bare : ∀ line ∈ lines, isBlockTag line = false) :
    startsTag (lines.flatMap Bytes.words) = false := by
  induction lines with
  | nil => rfl
  | cons line lines ih =>
      rw [List.forall_mem_cons] at bare
      rw [List.flatMap_cons, startsTag_append, ih bare.2, ← isBlockTag_eq, bare.1, ite_self]

theorem takeWhile_words (bare : ∀ line ∈ lines,
      line.trimBlanks.head? ≠ some 0x2a ∧ isBlockTag line = false) :
    ((lines.map fun line => unstarred line.words).takeWhile
      fun words => !startsTag words).flatten = lines.flatMap Bytes.words := by
  have same : lines.map (fun line => unstarred line.words) = lines.map Bytes.words :=
    List.map_congr_left fun line member => unstarred_words (bare line member).1
  have untagged : ∀ words ∈ lines.map Bytes.words, (!startsTag words) = true := by
    intro words member
    obtain ⟨line, inside, rfl⟩ := List.mem_map.mp member
    rw [← isBlockTag_eq, (bare line inside).2]
    rfl
  rw [same, List.takeWhile_eq_self_iff.mpr untagged, List.flatMap_def]

/-- Where only the first line may have asterisks or a tag in front, it does not
matter that it is a line of its own. -/
theorem takeWhile_joined (bare : ∀ line ∈ (lines.dropWhile fun line =>
      line.trimBlanks.isEmpty).tail, line.trimBlanks.head? ≠ some 0x2a ∧ isBlockTag line = false) :
    (([unstarred (lines.flatMap Bytes.words)]).takeWhile fun words => !startsTag words).flatten =
      ((lines.map fun line => unstarred line.words).takeWhile
        fun words => !startsTag words).flatten := by
  induction lines with
  | nil => rfl
  | cons line lines ih =>
      rcases Bytes.trimBlanks_cases line with ⟨blank, none⟩ |
        ⟨first, rest, word, others, trimmed, -, some⟩
      · rw [List.dropWhile_cons_of_pos (by rw [blank]; rfl)] at bare
        rw [List.flatMap_cons, List.map_cons, none, List.nil_append, ih bare]
        rfl
      · rw [List.dropWhile_cons_of_neg (by simp [trimmed]), List.tail_cons] at bare
        have whole : unstarred (line.words ++ lines.flatMap Bytes.words) =
            unstarred line.words ++ lines.flatMap Bytes.words := by
          rw [some, List.cons_append, unstarred, unstarred]
          split <;> rfl
        have tagged : startsTag (unstarred line.words ++ lines.flatMap Bytes.words) =
            startsTag (unstarred line.words) := by
          rw [startsTag_append, startsTag_flatMap_words fun line member => (bare line member).2]
          split
          · rename_i empty
            rw [empty]
            rfl
          · rfl
        rw [List.flatMap_cons, List.map_cons, whole]
        cases tag : startsTag (unstarred line.words) with
        | true => simp [tagged, tag]
        | false => simp [tagged, tag, takeWhile_words bare]

end Bare

/-! ## The summary and the line ends -/

/-- Line feeds with a carriage return in front give the same summary. Carriage
returns alone give the summary that blanks would give; it is the same where no
asterisk and no block tag starts a later line of the comment. -/
theorem docSummary_withLineEnds (comment : Bytes) :
    docSummary (comment.withLineEnds [0x0d, 0x0a]) = docSummary comment ∧
    docSummary (comment.withLineEnds [0x0d]) = docSummary (comment.withLineEnds [0x20]) ∧
    (IsBare comment → docSummary (comment.withLineEnds [0x0d]) = docSummary comment) := by
  have returned := commentWords_joined (by decide : (0x0d : UInt8) < 0x80) (by decide) (by decide)
    comment
  have blanks := commentWords_joined (by decide : (0x20 : UInt8) < 0x80) (by decide) (by decide)
    comment
  refine ⟨docSummary_congr (commentWords_returned comment),
    docSummary_congr (returned.trans blanks.symm), fun bare => docSummary_congr ?_⟩
  rw [returned, commentWords_eq]
  exact takeWhile_joined bare

/-- A comment whose second line has no asterisk. -/
theorem docSummary_withLineEnds_wrapped :
    IsBare "/**\n * Wrapped\n   sentence. More. */" ∧
      docSummary (Bytes.withLineEnds "/**\n * Wrapped\n   sentence. More. */" [0x0d]) =
        docSummary "/**\n * Wrapped\n   sentence. More. */" :=
  ⟨by decide +kernel, (docSummary_withLineEnds _).2.2 (by decide +kernel)⟩

/-- The asterisk in front of a line that a carriage return sets off is taken for
a word of the sentence. -/
theorem not_docSummary_withLineEnds :
    ¬ ∀ comment : Bytes, 0x0d ∉ comment →
      docSummary (comment.withLineEnds [0x0d, 0x0a]) = docSummary comment ∧
        docSummary (comment.withLineEnds [0x0d]) = docSummary comment := by
  intro same
  have starred := (same "/** A\n * B */" (by decide)).2
  exact absurd starred (by decide +kernel)

end JavaFront
