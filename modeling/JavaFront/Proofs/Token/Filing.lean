import JavaFront.Proofs.Token.Comments
import Mathlib.Data.List.Chain
import Mathlib.Data.List.Sort

/-!
# Where comments are filed

The tokens of a source fall into portions: a token that is no trivia, the end
token among them, with the trivia in front of it. An entry of the stream is such
a portion without its blanks. So every comment is filed once, between the tokens
it stands between; put together by their offsets, the tokens and the comments of
a stream are the tokens of the source without the blanks; and two tokens of the
stream touch if there is no trivia between them.
-/

namespace JavaFront

/-- A token that is no trivia, and the trivia between it and the one before. -/
structure Portion where
  gap : List Token
  token : Token
  trivia : ∀ other ∈ gap, other.kind.isTrivia = true
  seen : token.kind.isTrivia = false

namespace Portion

/-- The tokens of a portion in the order of the text. -/
def tokens (portion : Portion) : List Token :=
  portion.gap ++ [portion.token]

/-- The portion without its blanks. -/
def entry (portion : Portion) : Stream.Entry :=
  ⟨portion.token, portion.gap.filter Token.isComment⟩

theorem filter_seen (portion : Portion) :
    portion.tokens.filter (fun token => !token.kind.isTrivia) = [portion.token] := by
  have none : portion.gap.filter (fun token => !token.kind.isTrivia) = [] :=
    List.filter_eq_nil_iff.mpr fun other member => by simp [portion.trivia other member]
  rw [tokens, List.filter_append, none]
  simp [portion.seen]

theorem filter_comments (portion : Portion) :
    portion.tokens.filter Token.isComment = portion.entry.comments := by
  simp [tokens, entry, Token.isComment, portion.seen]

end Portion

namespace Stream

/-- The entries of a stream with that of the end token. -/
def allEntries (stream : Stream) : List Entry :=
  stream.entries.toList ++ [stream.final]

theorem map_entry_range (stream : Stream) :
    (List.range stream.size).map stream.entry = stream.allEntries := by
  apply List.ext_getElem
  · simp [allEntries, size, last]
  · intro index inside present
    simp only [List.getElem_map, List.getElem_range, allEntries, List.getElem_append, entry]
    split
    · rename_i within
      rw [Array.length_toList] at within
      simp [within]
    · rename_i past
      rw [Array.length_toList] at past
      simp [past]

/-! ## Portions -/

/-- The trivia read since the last portion, the comments of which are waiting, and
the rest of the tokens fall into portions, and they are what is filed. -/
theorem file_portions (finish : Pos) (gap : List Token) (done : Array Entry) (body : List Token)
    (final : Token) (ends : final.kind = .eof)
    (trivia : ∀ other ∈ gap, other.kind.isTrivia = true)
    (proper : ∀ token ∈ body, token.kind ≠ .eof) :
    ∃ portions : List Portion, gap ++ (body ++ [final]) = portions.flatMap Portion.tokens ∧
      (file finish (gap.filter Token.isComment).reverse done (body ++ [final])).allEntries =
        done.toList ++ portions.map Portion.entry := by
  induction body generalizing gap done with
  | nil =>
      refine ⟨[⟨gap, final, trivia, by rw [ends]; rfl⟩], by simp [Portion.tokens], ?_⟩
      simp [file, ends, allEntries, Portion.entry]
  | cons token body ih =>
      obtain ⟨notEnd, others⟩ := List.forall_mem_cons.mp proper
      rw [List.cons_append]
      by_cases significant : token.isSignificant = true
      · have seen : token.kind.isTrivia = false := by
          simp only [Token.isSignificant, Bool.and_eq_true, Bool.not_eq_true'] at significant
          exact significant.1
        obtain ⟨portions, whole, filed⟩ :=
          ih [] (done.push (Portion.entry ⟨gap, token, trivia, seen⟩)) (by simp) others
        refine ⟨⟨gap, token, trivia, seen⟩ :: portions, ?_, ?_⟩
        · rw [List.flatMap_cons, ← whole]
          simp [Portion.tokens]
        · rw [file_significant finish _ done significant, List.reverse_reverse]
          simpa [Portion.entry] using filed
      · have skipped := trivia_of_not_significant notEnd significant
        obtain ⟨portions, whole, filed⟩ := ih (gap ++ [token]) done
          (List.forall_mem_append.mpr ⟨trivia, by simpa using skipped⟩) others
        refine ⟨portions, by rw [← whole]; simp, ?_⟩
        rw [file_trivia finish _ done skipped, ← filed, List.filter_append, List.reverse_append]
        cases comment : token.isComment <;> simp [comment]

/-- The tokens of a source fall into portions, and its stream has an entry for
each of them. -/
theorem exists_portions (source : Source) :
    ∃ portions : List Portion, source.tokens = portions.flatMap Portion.tokens ∧
      (ofSource source).allEntries = portions.map Portion.entry := by
  obtain ⟨body, final, split, finish, proper⟩ := source.lexes_tokens.exists_body
  have ends : final.kind = .eof := by rw [finish]; rfl
  obtain ⟨portions, whole, filed⟩ := file_portions (source.position source.size) [] #[] body final
    ends (by simp) fun token member => (proper token member).1
  refine ⟨portions, by rw [split, ← whole, List.nil_append], ?_⟩
  rw [ofSource, split]
  simpa using filed

section Portions

variable {source : Source} {portions : List Portion}

/-- The tokens in front of a portion, those of the portion and those behind it. -/
theorem tokens_split {index : Nat} (inside : index < portions.length) :
    portions.flatMap Portion.tokens =
      (portions.take index).flatMap Portion.tokens ++
        (portions[index].gap ++
          portions[index].token :: (portions.drop (index + 1)).flatMap Portion.tokens) := by
  conv_lhs => rw [← List.take_append_drop index portions, List.drop_eq_getElem_cons inside]
  rw [List.flatMap_append, List.flatMap_cons, Portion.tokens, List.append_assoc,
    List.singleton_append]

/-- Two neighbouring portions among the others. -/
theorem tokens_split_next {index : Nat} (inside : index + 1 < portions.length) :
    portions.flatMap Portion.tokens =
      ((portions.take index).flatMap Portion.tokens ++ portions[index].gap) ++
        portions[index].token :: (portions[index + 1].gap ++
          portions[index + 1].token :: (portions.drop (index + 2)).flatMap Portion.tokens) := by
  rw [tokens_split (Nat.lt_of_succ_lt inside), List.drop_eq_getElem_cons inside,
    List.flatMap_cons, Portion.tokens, List.append_assoc, List.append_assoc,
    List.singleton_append]

variable (filed : (ofSource source).allEntries = portions.map Portion.entry)

include filed

theorem size_of_filed : (ofSource source).size = portions.length := by
  rw [← List.length_map Portion.entry, ← filed, ← map_entry_range, List.length_map,
    List.length_range]

theorem entry_of_filed {index : Nat} (inside : index < portions.length) :
    (ofSource source).entry index = portions[index].entry := by
  have bound : index < (ofSource source).size := by rwa [size_of_filed filed]
  have listed := congrArg (·[index]?) ((ofSource source).map_entry_range.trans filed)
  simpa [bound, inside] using listed

theorem get_of_filed {index : Nat} (inside : index < portions.length) :
    (ofSource source).get index = portions[index].token := by
  rw [get, entry_of_filed filed inside, Portion.entry]

theorem commentsBefore_of_filed {index : Nat} (inside : index < portions.length) :
    (ofSource source).commentsBefore index = portions[index].gap.filter Token.isComment := by
  have bound : index ≤ (ofSource source).last := by
    have size := size_of_filed filed
    rw [Stream.size] at size
    omega
  rw [commentsBefore, if_pos bound, entry_of_filed filed inside, Portion.entry]

end Portions

/-! ## What is filed where -/

theorem comments_eq_flatMap (stream : Stream) :
    stream.comments = (List.range stream.size).flatMap stream.commentsBefore := by
  have filed : ∀ index ∈ List.range stream.size,
      stream.commentsBefore index = (stream.entry index).comments := by
    intro index member
    rw [commentsBefore, if_pos (Nat.le_of_lt_succ (List.mem_range.mp member))]
  have all := congrArg (List.flatMap Entry.comments) stream.map_entry_range
  rw [List.flatMap_map] at all
  rw [List.flatMap_congr filed, all, allEntries, comments]
  simp

/-- The comments of a stream are those of its source. -/
theorem comments_ofSource (source : Source) :
    (ofSource source).comments = source.tokens.filter Token.isComment := by
  obtain ⟨portions, whole, filed⟩ := exists_portions source
  have all := congrArg (List.flatMap Entry.comments) filed
  simp only [allEntries, List.flatMap_append, List.flatMap_cons, List.flatMap_nil,
    List.append_nil] at all
  rw [comments, all, whole, List.filter_flatMap, List.flatMap_map]
  exact List.flatMap_congr fun portion _ => portion.filter_comments.symm

/-- The tokens of a stream are those of its source that are no trivia. -/
theorem map_get_range (source : Source) :
    (List.range (ofSource source).size).map (ofSource source).get =
      source.tokens.filter fun token => !token.kind.isTrivia := by
  obtain ⟨portions, whole, filed⟩ := exists_portions source
  have all := congrArg (List.map Entry.token) ((ofSource source).map_entry_range.trans filed)
  rw [List.map_map, List.map_map] at all
  rw [whole, List.filter_flatMap]
  refine all.trans ?_
  rw [List.map_eq_flatMap]
  exact List.flatMap_congr fun portion _ => portion.filter_seen.symm

end Stream

/-! ## The order of the text -/

/-- The first of two tokens starts no later than the second one. -/
def Token.startsBy (first second : Token) : Bool :=
  first.span.start.offset ≤ second.span.start.offset

/-- No two tokens of a source start at the same offset. -/
theorem Source.tokens_start_lt (source : Source) :
    source.tokens.Pairwise fun first second =>
      first.span.start.offset < second.span.start.offset := by
  obtain ⟨body, final, split, -, proper⟩ := source.lexes_tokens.exists_body
  have ordered := source.lexes_tokens.pairwise.1
  rw [split, List.pairwise_append] at ordered ⊢
  obtain ⟨inBody, alone, atEnd⟩ := ordered
  refine ⟨inBody.imp_of_mem fun isFirst _ behind => ?_, List.pairwise_singleton _ _,
    fun first isFirst second isSecond => ?_⟩
  · exact Nat.lt_of_lt_of_le (proper _ isFirst).2 behind
  · exact Nat.lt_of_lt_of_le (proper _ isFirst).2 (atEnd first isFirst second isSecond)

theorem Source.start_lt_stop {source : Source} {token : Token} (listed : token ∈ source.tokens)
    (notEnd : token.kind ≠ .eof) : token.span.start.offset < token.span.stop.offset := by
  obtain ⟨body, final, split, finish, proper⟩ := source.lexes_tokens.exists_body
  rw [split, List.mem_append, List.mem_singleton] at listed
  rcases listed with inBody | rfl
  · exact (proper token inBody).2
  · exact absurd (by rw [finish]; rfl) notEnd

/-- Tokens in the order of the text, some of which are taken out, are put together
again by their offsets. -/
theorem Token.merge_filter {tokens : List Token}
    (ordered : tokens.Pairwise fun first second =>
      first.span.start.offset < second.span.start.offset) (chosen : Token → Bool) :
    (tokens.filter chosen).merge (tokens.filter fun token => !chosen token) startsBy = tokens := by
  have sorted : tokens.Pairwise fun first second => startsBy first second = true :=
    ordered.imp fun before => by simpa [startsBy] using Nat.le_of_lt before
  have merged : ((tokens.filter chosen).merge (tokens.filter fun token => !chosen token)
      startsBy).Pairwise fun first second => startsBy first second = true := by
    refine List.pairwise_merge ?_ ?_ _ _ (sorted.filter _) (sorted.filter _)
    · simp only [startsBy, decide_eq_true_eq]
      exact fun _ _ _ => Nat.le_trans
    · simp only [startsBy, Bool.or_eq_true, decide_eq_true_eq]
      exact fun _ _ => Nat.le_total _ _
  have same := (List.merge_perm_append startsBy).trans (List.filter_append_perm chosen tokens)
  refine List.Perm.eq_of_pairwise ?_ merged sorted same
  intro first second isFirst isSecond before behind
  obtain ⟨low, lowInside, rfl⟩ := List.getElem_of_mem (same.mem_iff.mp isFirst)
  obtain ⟨high, highInside, rfl⟩ := List.getElem_of_mem isSecond
  simp only [startsBy, decide_eq_true_eq] at before behind
  rw [List.pairwise_iff_getElem] at ordered
  rcases Nat.lt_trichotomy low high with order | rfl | order
  · exact absurd (ordered low high lowInside highInside order) (Nat.not_lt.mpr behind)
  · rfl
  · exact absurd (ordered high low highInside lowInside order) (Nat.not_lt.mpr before)

namespace Stream

section Portions

variable {source : Source} {portions : List Portion}
  (whole : source.tokens = portions.flatMap Portion.tokens)

include whole

/-- A comment stands between the token it is filed with and the one before. -/
theorem between_of_filed (filed : (ofSource source).allEntries = portions.map Portion.entry)
    {index : Nat} (inside : index < portions.length) {comment : Token}
    (listed : comment ∈ portions[index].gap) :
    (0 < index → ((ofSource source).get (index - 1)).span.stop.offset ≤
        comment.span.start.offset) ∧
      comment.span.stop.offset ≤ ((ofSource source).get index).span.start.offset := by
  have ordered := source.lexes_tokens.pairwise.1
  rw [whole, tokens_split inside, List.pairwise_append, List.pairwise_append] at ordered
  obtain ⟨-, ⟨-, -, behind⟩, before⟩ := ordered
  rw [get_of_filed filed inside]
  refine ⟨fun positive => ?_, behind comment listed _ List.mem_cons_self⟩
  have earlier : index - 1 < portions.length := by omega
  rw [get_of_filed filed earlier]
  refine before _ (List.mem_flatMap.mpr ⟨portions[index - 1], ?_, ?_⟩) comment
    (List.mem_append_left _ listed)
  · exact List.mem_take_iff_getElem.mpr ⟨index - 1, by omega, rfl⟩
  · exact List.mem_append_right _ (List.mem_singleton.mpr rfl)

/-- Neighbours in a stream touch if nothing stands in front of the second one. -/
theorem adjacent_of_filed (filed : (ofSource source).allEntries = portions.map Portion.entry)
    {index : Nat} (inside : index + 1 < portions.length) :
    (ofSource source).adjacent index = true ↔ portions[index + 1].gap = [] := by
  have bound : index < (ofSource source).last := by
    have size := size_of_filed filed
    rw [Stream.size] at size
    omega
  rw [adjacent, decide_eq_true bound, Bool.true_and, decide_eq_true_eq,
    get_of_filed filed (Nat.lt_of_succ_lt inside), get_of_filed filed inside]
  constructor
  · intro touch
    by_contra filled
    obtain ⟨first, rest, starts⟩ := List.exists_cons_of_ne_nil filled
    have listed : first ∈ portions[index + 1].gap := starts ▸ List.mem_cons_self
    have isTrivia := portions[index + 1].trivia first listed
    have notEnd : first.kind ≠ .eof := fun isEnd => by
      rw [isEnd] at isTrivia
      cases isTrivia
    have member : first ∈ source.tokens := by
      rw [whole, tokens_split inside]
      exact List.mem_append_right _ (List.mem_append_left _ listed)
    have proper := Source.start_lt_stop member notEnd
    obtain ⟨behind, before⟩ := between_of_filed whole filed inside listed
    have behindFirst := behind (Nat.succ_pos index)
    rw [Nat.add_sub_cancel, get_of_filed filed (Nat.lt_of_succ_lt inside)] at behindFirst
    rw [get_of_filed filed inside] at before
    omega
  · intro empty
    have chain := source.lexes_tokens.isChain
    rw [whole, tokens_split_next inside, empty, List.nil_append,
      List.isChain_append_cons_cons] at chain
    exact congrArg Pos.offset chain.2.1

end Portions

/-- Every comment of a source is filed once, in the order of the text, between the
tokens of the stream it stands between. Put together by their offsets, the tokens
and the comments of the stream are all tokens of the source but its blanks. What
the source has between neighbours of the stream is trivia, and they touch if
there is none. -/
theorem comments_filed (source : Source) :
    (List.range (ofSource source).size).flatMap (ofSource source).commentsBefore =
        (ofSource source).comments ∧
      (∀ index < (ofSource source).size, ∀ comment ∈ (ofSource source).commentsBefore index,
        (0 < index → ((ofSource source).get (index - 1)).span.stop.offset ≤
          comment.span.start.offset) ∧
        comment.span.stop.offset ≤ ((ofSource source).get index).span.start.offset) ∧
      ((List.range (ofSource source).size).map (ofSource source).get).merge
          (ofSource source).comments Token.startsBy =
        source.tokens.filter (fun token => token.kind != .whitespace) ∧
      ∀ index, index + 1 < (ofSource source).size → ∃ before between after,
        source.tokens = before ++ (ofSource source).get index ::
          (between ++ (ofSource source).get (index + 1) :: after) ∧
        (∀ token ∈ between, token.kind.isTrivia = true) ∧
        (ofSource source).commentsBefore (index + 1) = between.filter Token.isComment ∧
        ((ofSource source).adjacent index = true ↔ between = []) := by
  obtain ⟨portions, whole, filed⟩ := exists_portions source
  rw [size_of_filed filed]
  refine ⟨?_, fun index inside comment listed => ?_, ?_, fun index inside => ?_⟩
  · rw [comments_eq_flatMap, size_of_filed filed]
  · rw [commentsBefore_of_filed filed inside] at listed
    exact between_of_filed whole filed inside (List.mem_filter.mp listed).1
  · have ordered := source.tokens_start_lt.filter fun token => token.kind != .whitespace
    have tokens := map_get_range source
    rw [size_of_filed filed] at tokens
    rw [tokens, comments_ofSource, ← Token.merge_filter ordered fun token => !token.isComment,
      List.filter_filter, List.filter_filter]
    congr 1
    · refine List.filter_congr fun token _ => ?_
      by_cases blank : token.kind = .whitespace
      · simp [Token.isComment, blank, Token.Kind.isTrivia]
      · have shown : (token.kind != .whitespace) = true := bne_iff_ne.mpr blank
        simp [Token.isComment, shown]
    · refine List.filter_congr fun token _ => ?_
      simp [Token.isComment]
  · rw [get_of_filed filed (Nat.lt_of_succ_lt inside), get_of_filed filed inside,
      commentsBefore_of_filed filed inside]
    exact ⟨_, portions[index + 1].gap, _, whole.trans (tokens_split_next inside),
      portions[index + 1].trivia, rfl, adjacent_of_filed whole filed inside⟩

-- The last comment stands in front of the end token.
example : let stream := ofSource (Source.of "" "a/**/> >//")
    (List.range stream.size).map (fun index => (stream.commentsBefore index).length) =
        [0, 1, 0, 1] ∧
      (List.range stream.last).map stream.adjacent = [false, false, false] := by
  decide +kernel

end Stream

end JavaFront
