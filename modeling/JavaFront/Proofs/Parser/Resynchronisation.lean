import JavaFront.Proofs.Parser.Building

/-!
# What resynchronisation skips

A rule that fails at a point of resynchronisation gives its place to an error
node, which spans all that is skipped. Skipping counts braces: it passes whole
groups in braces and stops behind the first semicolon outside of them, so it
never passes the brace that closes what is around. Only a closing brace that
stands right where the rule was tried is skipped, and nothing else with it.
-/

namespace JavaFront

namespace Token

/-- The number of tokens that open a brace. -/
def opens (tokens : List Token) : Nat :=
  tokens.countP (·.kind = .lbrace)

/-- The number of tokens that close a brace. -/
def closes (tokens : List Token) : Nat :=
  tokens.countP (·.kind = .rbrace)

/-- Inside of `depth` braces the tokens never close more braces than have been
opened, a semicolon outside of all braces is the last of them, and all braces
are closed at their end, unless they are `cut` off. -/
structure Encloses (depth : Nat) (cut : Prop) (tokens : List Token) : Prop where
  closes_le : ∀ front, front <+: tokens → closes front ≤ depth + opens front
  ends : ∀ front semicolon, front ++ [semicolon] <+: tokens → semicolon.kind = .semicolon →
    closes front = depth + opens front → front ++ [semicolon] = tokens
  leaves : ¬cut → closes tokens = depth + opens tokens

section Counts

variable {token : Token} {tokens : List Token}

theorem opens_cons_lbrace (opening : token.kind = .lbrace) :
    opens (token :: tokens) = opens tokens + 1 := by
  simp [opens, opening]

theorem opens_cons_of_ne (other : token.kind ≠ .lbrace) :
    opens (token :: tokens) = opens tokens := by
  simp [opens, other]

theorem closes_cons_rbrace (closing : token.kind = .rbrace) :
    closes (token :: tokens) = closes tokens + 1 := by
  simp [closes, closing]

theorem closes_cons_of_ne (other : token.kind ≠ .rbrace) :
    closes (token :: tokens) = closes tokens := by
  simp [closes, other]

end Counts

namespace Encloses

variable {token : Token} {tokens : List Token} {depth inner : Nat} {cut : Prop}

/-- No tokens, outside of all braces or cut off. -/
theorem nil (stays : ¬cut → depth = 0) : Encloses depth cut [] where
  closes_le front leading := by
    rw [List.prefix_nil.mp leading]
    exact Nat.zero_le _
  ends front semicolon leading _ _ := List.prefix_nil.mp leading
  leaves goesOn := (stays goesOn).symm

/-- One more token in front. Behind it there are `inner` braces around, and a
semicolon stands inside of braces or is the only token. -/
theorem cons (encloses : Encloses inner cut tokens)
    (step : ∀ tokens, inner + opens tokens + closes (token :: tokens) =
      depth + opens (token :: tokens) + closes tokens)
    (separates : token.kind = .semicolon → depth = 0 → tokens = []) :
    Encloses depth cut (token :: tokens) where
  closes_le front leading := by
    rcases List.prefix_cons_iff.mp leading with rfl | ⟨rest, rfl, behind⟩
    · exact Nat.zero_le _
    · have := encloses.closes_le rest behind
      have := step rest
      omega
  ends front semicolon leading kind level := by
    cases front with
    | nil =>
        obtain ⟨rfl, -⟩ := List.cons_prefix_cons.mp leading
        have outside : depth = 0 := by
          simp only [closes, opens, List.countP_nil] at level
          omega
        rw [separates kind outside, List.nil_append]
    | cons first rest =>
        obtain ⟨rfl, behind⟩ := List.cons_prefix_cons.mp leading
        have := step rest
        rw [List.cons_append, encloses.ends rest semicolon behind kind (by omega)]
  leaves goesOn := by
    have := encloses.leaves goesOn
    have := step tokens
    omega

theorem lbrace (encloses : Encloses (depth + 1) cut tokens) (opening : token.kind = .lbrace) :
    Encloses depth cut (token :: tokens) := by
  refine encloses.cons (fun tokens => ?_) fun semicolon => ?_
  · rw [opens_cons_lbrace opening, closes_cons_of_ne (by rw [opening]; decide)]
    omega
  · rw [opening] at semicolon
    cases semicolon

theorem rbrace (encloses : Encloses depth cut tokens) (closing : token.kind = .rbrace) :
    Encloses (depth + 1) cut (token :: tokens) := by
  refine encloses.cons (fun tokens => ?_) fun semicolon => ?_
  · rw [opens_cons_of_ne (by rw [closing]; decide), closes_cons_rbrace closing]
    omega
  · rw [closing] at semicolon
    cases semicolon

theorem other (encloses : Encloses depth cut tokens) (notOpening : token.kind ≠ .lbrace)
    (notClosing : token.kind ≠ .rbrace)
    (separates : token.kind = .semicolon → depth = 0 → tokens = []) :
    Encloses depth cut (token :: tokens) := by
  refine encloses.cons (fun tokens => ?_) separates
  rw [opens_cons_of_ne notOpening, closes_cons_of_ne notClosing]

end Encloses

end Token

open Token (opens closes Encloses)

namespace Parser

/-- Skipping passes whole groups in braces, and stops behind the first semicolon
outside of them, or in front of the brace that closes what is around. -/
theorem Setup.resume_encloses {setup : Setup} (ordered : setup.stream.Ordered)
    (start budget depth pos : Nat) (inside : pos ≤ setup.stream.last) (behind : start ≤ pos)
    (enough : setup.stream.size - pos ≤ budget)
    (proper : setup.stream.kind pos = .rbrace → depth = 0 → start < pos) :
    Encloses depth (setup.stream.kind (setup.resume start budget depth pos) = .eof)
      (setup.stream.segment pos (setup.resume start budget depth pos)) := by
  induction budget generalizing depth pos with
  | zero =>
      simp only [Stream.size] at enough
      omega
  | succ budget ih =>
      have stays : ∀ cut : Prop, (¬cut → depth = 0) →
          Encloses depth cut (setup.stream.segment pos pos) := fun cut atRest => by
        rw [Stream.segment_self]
        exact .nil atRest
      by_cases atEnd : setup.stream.kind pos = .eof
      · simp only [resume, atEnd]
        exact stays _ fun goesOn => absurd trivial goesOn
      · have before : pos < setup.stream.last :=
          Nat.lt_of_le_of_ne inside fun same => atEnd (same ▸ ordered.kind_last)
        have later (depth : Nat) := ih depth (pos + 1) before (by omega)
          (by simp only [Stream.size] at enough ⊢; omega) fun _ _ => by omega
        have split (depth : Nat) :=
          @Stream.segment_cons setup.stream _ _ <| Nat.lt_of_succ_le
            (setup.resume_bounds start budget depth (pos + 1) before).1
        have single : setup.stream.segment pos (pos + 1) = [setup.stream.get pos] := by
          rw [Stream.segment_cons (Nat.lt_succ_self pos), Stream.segment_self]
        simp only [resume, Stream.succ_of_lt before]
        split
        · contradiction
        · rename_i opening
          rw [split]
          exact (later (depth + 1)).lbrace opening
        · rename_i closing
          split
          · rename_i outside
            rw [if_neg (Nat.ne_of_gt (proper closing outside))]
            exact stays _ fun _ => outside
          · rename_i around
            obtain ⟨depth, rfl⟩ := Nat.exists_eq_succ_of_ne_zero around
            split
            · rename_i outermost
              rw [single]
              exact (Encloses.nil fun _ => by omega).rbrace closing
            · rw [Nat.succ_sub_one, split]
              exact (later depth).rbrace closing
        · rename_i semicolon
          have notBrace : ∀ kind, kind ≠ .semicolon → setup.stream.kind pos ≠ kind :=
            fun kind differs same => differs (same.symm.trans semicolon)
          split
          · rename_i outside
            rw [single]
            exact (Encloses.nil fun _ => outside).other (notBrace _ (by decide))
              (notBrace _ (by decide)) fun _ _ => rfl
          · rename_i around
            rw [split]
            exact (later depth).other (notBrace _ (by decide)) (notBrace _ (by decide))
              fun _ outside => absurd outside around
        · rename_i notOpening notClosing notSemicolon
          rw [split]
          exact (later depth).other notOpening notClosing fun semicolon =>
            absurd semicolon notSemicolon

/-- A closing brace right at the start is passed alone. -/
theorem Setup.resume_rbrace {setup : Setup} (ordered : setup.stream.Ordered) {pos : Nat}
    (closing : setup.stream.kind pos = .rbrace) :
    setup.resume pos (setup.stream.size - pos) 0 pos = pos + 1 := by
  have before : pos < setup.stream.last := ordered.lt_last (by rw [closing]; decide)
  have rounds : setup.stream.size - pos = setup.stream.last - pos + 1 := by
    simp only [Stream.size]
    omega
  rw [rounds]
  simp only [resume, closing, if_true, Stream.succ_of_lt before]

/-- A rule (the phrase that calls it, by `reads_call`), or any other phrase, that fails
outside of trials, with input left, gives its place to an error node over the tokens
skipped, of which there is at least one.
Either a single closing brace is skipped, or no front of what is skipped closes more
braces than it opens, all braces opened are closed unless the text ends first,
and a semicolon outside of them comes last. -/
theorem Setup.recovered_encloses (source : Source) (options : Options) (phrase : Phrase)
    (state : State) (ahead : (Stream.ofSource source).kind state.pos ≠ .eof)
    (outside : ¬0 < state.speculating)
    (fails : ((Setup.ofSource source options).reads (Setup.ofSource source options).call phrase
      { state with furthest := .none }).parts? = none)
    (goesOn : ((Setup.ofSource source options).reads (Setup.ofSource source options).call phrase
      { state with furthest := .none }).state.fatal = none) :
    let setup := Setup.ofSource source options
    let reply := setup.recovered (setup.reads setup.call phrase) state
    let skipped := setup.stream.segment state.pos reply.state.pos
    state.pos < reply.state.pos ∧
    (∃ node, reply.parts? = some [node] ∧ node.kind = .error ∧
      node.span = setup.stream.stretch state.pos reply.state.pos) ∧
    (skipped.map Token.kind = [.rbrace] ∨
      (∀ front, front <+: skipped → closes front ≤ opens front) ∧
      (setup.stream.kind reply.state.pos ≠ .eof → closes skipped = opens skipped) ∧
      ∀ front semicolon, front ++ [semicolon] <+: skipped → semicolon.kind = .semicolon →
        closes front = opens front → front ++ [semicolon] = skipped) := by
  intro setup reply skipped
  have ordered : setup.stream.Ordered := Stream.ofSource_ordered source
  have before : state.pos < setup.stream.last := ordered.lt_last ahead
  obtain ⟨after, failed⟩ : ∃ after, setup.reads setup.call phrase
      { state with furthest := .none } = ⟨none, after⟩ := ⟨_, congrArg (Reply.mk · _) fails⟩
  have notTrying : ¬0 < after.speculating := by
    have keeps : Keeps (setup.reads setup.call phrase) :=
      setup.keeps_reads (setup.keeps_callWith setup.budget) phrase
    have kept := (keeps { state with furthest := .none }).speculating_eq
    rw [failed] at kept
    rwa [kept]
  have running : after.fatal = none :=
    (congrArg (fun reply : Reply => reply.state.fatal) failed).symm.trans goesOn
  have found : reply = ⟨some [(setup.skipped state after).1], (setup.skipped state after).2⟩ :=
    setup.recovered_of_failed failed notTrying running
  have pos : reply.state.pos =
      setup.resume state.pos (setup.stream.size - state.pos) 0 state.pos :=
    congrArg (fun reply : Reply => reply.state.pos) found
  refine ⟨pos ▸ Setup.lt_resume ordered before,
    ⟨_, congrArg Reply.parts? found, rfl, ?_⟩, ?_⟩
  · rw [found]
    exact (Setup.skip_skips ordered (Nat.le_of_lt before) _ _).span
  · by_cases closing : setup.stream.kind state.pos = .rbrace
    · left
      simp only [skipped, pos, Setup.resume_rbrace ordered closing,
        Stream.segment_cons (Nat.lt_succ_self state.pos), Stream.segment_self]
      exact congrArg (fun kind => [kind]) closing
    · right
      have encloses := setup.resume_encloses ordered state.pos (setup.stream.size - state.pos) 0
        state.pos (Nat.le_of_lt before) (Nat.le_refl _) (Nat.le_refl _)
        fun found => absurd found closing
      rw [← pos] at encloses
      simp only [skipped]
      refine ⟨fun front leading => ?_, fun goesOn => ?_,
        fun front semicolon leading kind level => ?_⟩
      · have := encloses.closes_le front leading
        omega
      · have := encloses.leaves goesOn
        omega
      · exact encloses.ends front semicolon leading kind (by omega)

/-- Where a member cannot be read, the block behind it is skipped with it, and
the brace that closes the class is not. -/
theorem Setup.recovered_encloses_member :
    let setup := Setup.ofSource (.of [] "= 1 { ; } \x7d") {}
    let state : State := {}
    let member := setup.reads setup.call (.call .member)
    let skipped := setup.stream.segment state.pos (setup.recovered member state).state.pos
    (setup.stream.kind state.pos ≠ .eof ∧ ¬0 < state.speculating ∧
      (member { state with furthest := .none }).parts? = none ∧
      (member { state with furthest := .none }).state.fatal = none) ∧
    skipped.map Token.kind = [.assign, .intLiteral, .lbrace, .semicolon, .rbrace] ∧
    ∀ front, front <+: skipped → closes front ≤ opens front := by
  intro setup state member skipped
  have ahead : setup.stream.kind state.pos ≠ .eof := by decide +kernel
  have fails : (member { state with furthest := .none }).parts? = none := by decide +kernel
  have running : (member { state with furthest := .none }).state.fatal = none := by
    decide +kernel
  have kinds : skipped.map Token.kind = [.assign, .intLiteral, .lbrace, .semicolon, .rbrace] := by
    decide +kernel
  have outside : ¬0 < state.speculating := Int.lt_irrefl 0
  refine ⟨⟨ahead, outside, fails, running⟩, kinds, ?_⟩
  clear_value state
  obtain ⟨-, -, single | ⟨encloses, -, -⟩⟩ :=
    recovered_encloses (.of [] "= 1 { ; } \x7d") {} (.call .member) state ahead outside fails
      running
  · exact absurd (kinds.symm.trans single) (by decide)
  · exact encloses

end Parser

end JavaFront
