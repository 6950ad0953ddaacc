import JavaFront.Proofs.Token.Significant
import Mathlib.Data.List.Nodup

/-!
# Comments between tokens

A stream files every comment with the significant token behind it. So the
comment that documents what starts at a token is found between that token and
the significant one before it, and no comment documents two tokens.
-/

namespace JavaFront

/-- A token that streams file with the token behind it. -/
def Token.isComment (token : Token) : Bool :=
  token.kind.isTrivia && token.kind != .whitespace

/-- What stands in a text between a significant token and the significant token
before it. -/
def Source.IsGap (source : Source) (gap : List Token) (token : Token) : Prop :=
  token.isSignificant = true ∧ (∀ other ∈ gap, other.kind.isTrivia = true) ∧
    ∃ before after, source.tokens = before ++ gap ++ token :: after ∧
      ∀ last ∈ before.getLast?, last.isSignificant = true

namespace Stream

/-! ## Filing -/

/-- Blanks are dropped, and comments wait for the significant token behind
them. -/
theorem file_trivia (finish : Pos) (waiting : List Token) (done : Array Entry) {token : Token}
    (trivia : token.kind.isTrivia = true) (tokens : List Token) :
    file finish waiting done (token :: tokens) =
      file finish ([token].filter Token.isComment ++ waiting) done tokens := by
  have notEnd : token.kind ≠ .eof := by
    intro isEnd
    simp [isEnd, Token.Kind.isTrivia] at trivia
  by_cases blank : token.kind = .whitespace
  · simp [file, Token.isComment, blank]
  · simp [file, notEnd, trivia, Token.isComment, blank]

theorem file_significant (finish : Pos) (waiting : List Token) (done : Array Entry) {token : Token}
    (significant : token.isSignificant = true) (tokens : List Token) :
    file finish waiting done (token :: tokens) =
      file finish [] (done.push ⟨token, waiting.reverse⟩) tokens := by
  simp only [Token.isSignificant, Bool.and_eq_true, Bool.not_eq_true', bne_iff_ne] at significant
  have notBlank : token.kind ≠ .whitespace := by
    intro blank
    simp [blank, Token.Kind.isTrivia] at significant
  simp [file, significant, notBlank]

theorem trivia_of_not_significant {token : Token} (notEnd : token.kind ≠ .eof)
    (skipped : ¬ token.isSignificant = true) : token.kind.isTrivia = true := by
  simpa [Token.isSignificant, notEnd] using skipped

section Filing

variable (finish : Pos) {final : Token} (ends : final.kind = .eof)

include ends

/-- Filing adds entries behind those that are done, and files all comments. -/
theorem file_comments (waiting : List Token) (done : Array Entry) (body : List Token)
    (proper : ∀ token ∈ body, token.kind ≠ .eof) :
    (∃ more, (file finish waiting done (body ++ [final])).entries.toList = done.toList ++ more) ∧
      (file finish waiting done (body ++ [final])).comments =
        done.toList.flatMap Entry.comments ++ waiting.reverse ++ body.filter Token.isComment := by
  induction body generalizing waiting done with
  | nil => simp [file, ends, comments]
  | cons token body ih =>
      have rest := fun waiting done =>
        ih waiting done fun other member => proper other (List.mem_cons_of_mem _ member)
      have notEnd := proper token List.mem_cons_self
      rw [List.cons_append]
      by_cases significant : token.isSignificant = true
      · rw [file_significant finish waiting done significant]
        obtain ⟨⟨more, same⟩, all⟩ := rest [] (done.push ⟨token, waiting.reverse⟩)
        have plain : token.isComment = false := by
          simp_all [Token.isSignificant, Token.isComment]
        refine ⟨⟨⟨token, waiting.reverse⟩ :: more, by simp [same]⟩, ?_⟩
        simp [all, plain]
      · have trivia := trivia_of_not_significant notEnd significant
        rw [file_trivia finish waiting done trivia]
        obtain ⟨more, all⟩ := rest ([token].filter Token.isComment ++ waiting) done
        refine ⟨more, ?_⟩
        rw [all]
        cases comment : token.isComment <;> simp [comment]

/-- What is filed next is the first entry behind those that are done. -/
theorem file_entry_next (done : Array Entry) (entry : Entry) (body : List Token)
    (proper : ∀ token ∈ body, token.kind ≠ .eof) :
    (file finish [] (done.push entry) (body ++ [final])).entry done.size = entry := by
  obtain ⟨more, same⟩ := (file_comments finish ends [] (done.push entry) body proper).1
  rw [Stream.entry, ← Array.getElem?_toList, same]
  simp

/-- An entry holds a significant token and the comments between it and the one
before. Those that were waiting are filed with the first. -/
theorem file_entry (waiting : List Token) (done : Array Entry) (body : List Token)
    (proper : ∀ token ∈ body, token.kind ≠ .eof) {index : Nat} (low : done.size ≤ index)
    (high : index < (file finish waiting done (body ++ [final])).last) :
    ∃ before gap token after, body = before ++ gap ++ token :: after ∧
      token.isSignificant = true ∧ (∀ other ∈ gap, other.kind.isTrivia = true) ∧
      (∀ last ∈ before.getLast?, last.isSignificant = true) ∧
      (file finish waiting done (body ++ [final])).entry index =
        ⟨token, (if before = [] then waiting.reverse else []) ++ gap.filter Token.isComment⟩ := by
  induction body generalizing waiting done with
  | nil =>
      simp only [List.nil_append, file, ends, if_true, last] at high
      omega
  | cons token body ih =>
      have later : ∀ other ∈ body, other.kind ≠ .eof :=
        fun other member => proper other (List.mem_cons_of_mem _ member)
      have notEnd := proper token List.mem_cons_self
      rw [List.cons_append] at high ⊢
      by_cases significant : token.isSignificant = true
      · rw [file_significant finish waiting done significant] at high ⊢
        rcases Nat.lt_or_eq_of_le low with further | rfl
        · obtain ⟨before, gap, found, after, rfl, isFound, trivia, bounded, same⟩ :=
            ih [] (done.push ⟨token, waiting.reverse⟩) later
              (by rw [Array.size_push]; exact further) high
          refine ⟨token :: before, gap, found, after, rfl, isFound, trivia, ?_, by simpa using same⟩
          cases before with
          | nil => simpa using significant
          | cons other before => rwa [List.getLast?_cons_cons]
        · refine ⟨[], [], token, body, rfl, significant, by simp, by simp, ?_⟩
          simpa using file_entry_next finish ends done ⟨token, waiting.reverse⟩ body later
      · have skipped := trivia_of_not_significant notEnd significant
        rw [file_trivia finish waiting done skipped] at high ⊢
        obtain ⟨before, gap, found, after, rfl, isFound, trivia, bounded, same⟩ :=
          ih _ done later low high
        cases before with
        | nil =>
            refine ⟨[], token :: gap, found, after, rfl, isFound,
              List.forall_mem_cons.mpr ⟨skipped, trivia⟩, by simp, ?_⟩
            rw [same]
            cases comment : token.isComment <;> simp [comment]
        | cons other before =>
            refine ⟨token :: other :: before, gap, found, after, rfl, isFound, trivia, ?_, ?_⟩
            · rwa [List.getLast?_cons_cons]
            · rw [same]
              simp

end Filing

/-! ## Documentation -/

theorem isComment_of_isDoc {token : Token} (isDoc : token.isDoc = true) :
    token.isComment = true := by
  simp only [Token.isDoc, Bool.and_eq_true, decide_eq_true_eq] at isDoc
  simp [Token.isComment, isDoc.1.1, Token.Kind.isTrivia]

/-- The comment that documents a token is the last documentation comment between
it and the significant token before it. -/
theorem docBefore?_ofSource (source : Source) {index : Nat}
    (inside : index < (ofSource source).last) :
    ∃ gap, source.IsGap gap ((ofSource source).get index) ∧
      (ofSource source).docBefore? index = (gap.filter Token.isDoc).getLast? := by
  obtain ⟨body, final, split, finish, proper⟩ := source.lexes_tokens.exists_body
  have ends : final.kind = .eof := by rw [finish]; rfl
  have filed : ofSource source =
      file (source.position source.size) [] #[] (body ++ [final]) := by
    rw [ofSource, split]
  have bound := inside
  rw [filed] at bound
  obtain ⟨before, gap, token, after, whole, significant, trivia, bounded, same⟩ :=
    file_entry (source.position source.size) ends [] #[] body (fun token member =>
      (proper token member).1) (Nat.zero_le index) bound
  rw [← filed] at same
  have found : (ofSource source).get index = token := by rw [get, same]
  have comments : (ofSource source).commentsBefore index = gap.filter Token.isComment := by
    rw [commentsBefore, if_pos (Nat.le_of_lt inside), same]
    simp
  refine ⟨gap, ⟨found ▸ significant, trivia, before, after ++ [final], ?_, bounded⟩, ?_⟩
  · rw [split, whole, found]
    simp
  · rw [docBefore?, comments, ← List.head?_filter, List.filter_reverse, List.head?_reverse,
      List.filter_filter]
    congr 1
    refine List.filter_congr fun other _ => ?_
    cases isDoc : other.isDoc with
    | false => rfl
    | true => simp [isComment_of_isDoc isDoc]

/-- All comments of a stream are different. -/
theorem comments_nodup (source : Source) : (ofSource source).comments.Nodup := by
  obtain ⟨body, final, split, finish, proper⟩ := source.lexes_tokens.exists_body
  have ends : final.kind = .eof := by rw [finish]; rfl
  have ordered := source.lexes_tokens.pairwise.1
  rw [split, List.pairwise_append] at ordered
  have different : body.Nodup := by
    refine List.Pairwise.imp_of_mem ?_ ordered.1
    rintro first second isFirst - behind rfl
    exact absurd behind (Nat.not_le.mpr (proper first isFirst).2)
  have filed := (file_comments (source.position source.size) ends [] #[] body fun token member =>
    (proper token member).1).2
  rw [ofSource, split, filed]
  simp only [List.flatMap_nil, List.reverse_nil, List.nil_append]
  exact different.filter Token.isComment

/-- No comment documents two tokens. -/
theorem docBefore?_ne (source : Source) {first second : Nat} (order : first < second)
    (inside : second < (ofSource source).last) {doc : Token}
    (found : (ofSource source).docBefore? first = some doc) :
    (ofSource source).docBefore? second ≠ some doc := by
  intro again
  have filed : ∀ {index : Nat} (within : index < (ofSource source).entries.size),
      (ofSource source).docBefore? index = some doc →
      doc ∈ (ofSource source).entries.toList[index].comments := by
    intro index within same
    have member := List.mem_of_find?_eq_some same
    rw [List.mem_reverse, commentsBefore,
      if_pos (show index ≤ last _ from Nat.le_of_lt within), Stream.entry,
      Array.getElem?_eq_getElem within] at member
    simpa using member
  have apart := (List.nodup_append.mp (comments_nodup source)).1
  rw [List.nodup_flatMap] at apart
  have disjoint := List.pairwise_iff_getElem.mp apart.2 first second
    (by simpa [last] using Nat.lt_trans order inside) (by simpa [last] using inside) order
  exact disjoint (filed _ found) (filed _ again)

end Stream

end JavaFront
