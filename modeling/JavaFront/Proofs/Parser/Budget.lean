import JavaFront.Proofs.Parser.Reading

/-!
# The budget of a parse

A rule needs one round of ranks for every token ahead of it and the ranks up to
its own: before it has read a token it calls rules of lower rank only, and
behind a token there is room for another round. The budget of a parse is more
than that, so it is never used up.
-/

namespace JavaFront

namespace Phrase

/-- The rank of any rule is below the number of ranks. -/
theorem leads_ranks (phrase : Phrase) : phrase.leads Rule.ranks := by
  induction phrase with
  | call rule | recover rule => simp [leads, rule.rank_lt_ranks]
  | trial rule yes no yesIh noIh => simp [leads, rule.rank_lt_ranks, yesIh, noIh]
  | _ => simp [leads, *]

end Phrase

namespace Parser

/-- The nesting of calls that a rule needs from an index on: one round of ranks
for every token ahead and the ranks up to its own. -/
def need (stream : Stream) (rule : Rule) (pos : Nat) : Nat :=
  Rule.ranks * (stream.last - pos) + rule.rank + 1

/-- The budget is enough for the calls that a phrase makes from an index on. -/
def Ready (stream : Stream) (budget : Nat) (phrase : Phrase) (pos : Nat) : Prop :=
  ∃ limit, phrase.leads limit ∧ Rule.ranks * (stream.last - pos) + limit ≤ budget

namespace Ready

variable {stream : Stream} {budget : Nat} {phrase : Phrase} {pos : Nat}

theorem of_body {rule : Rule} (enough : need stream rule pos ≤ budget + 1) :
    Ready stream budget rule.body pos :=
  ⟨rule.rank, rule.body_leads, Nat.le_of_succ_le_succ enough⟩

/-- Behind a token there is room for one more round of ranks. -/
theorem of_lt {after : Nat} (other : Phrase) (ready : Ready stream budget phrase pos)
    (moved : pos < after) (inside : after ≤ stream.last) : Ready stream budget other after := by
  obtain ⟨limit, -, enough⟩ := ready
  refine ⟨Rule.ranks, other.leads_ranks, ?_⟩
  have fewer : stream.last - after + 1 ≤ stream.last - pos := by omega
  calc Rule.ranks * (stream.last - after) + Rule.ranks
      = Rule.ranks * (stream.last - after + 1) := (Nat.mul_succ _ _).symm
    _ ≤ Rule.ranks * (stream.last - pos) := Nat.mul_le_mul_left _ fewer
    _ ≤ budget := by omega

theorem need_le {rule : Rule} (ready : Ready stream budget (.call rule) pos) :
    need stream rule pos ≤ budget := by
  obtain ⟨limit, leads, enough⟩ := ready
  have below : rule.rank < limit := by simpa [Phrase.leads] using leads
  simp only [need]
  omega

/-- A phrase in front of which nothing is read is ready where the whole is. -/
theorem mono {inner : Phrase} (ready : Ready stream budget phrase pos)
    (leads : ∀ limit, phrase.leads limit → inner.leads limit) : Ready stream budget inner pos := by
  obtain ⟨limit, whole, enough⟩ := ready
  exact ⟨limit, leads limit whole, enough⟩

theorem seq_first {first second : Phrase} (ready : Ready stream budget (.seq first second) pos) :
    Ready stream budget first pos :=
  ready.mono fun limit leads => by
    simp only [Phrase.leads, Bool.and_eq_true] at leads
    exact leads.1

theorem seq_second {first second : Phrase} {middle : Nat}
    (ready : Ready stream budget (.seq first second) pos)
    (moves : Moves stream first.consumes pos middle) : Ready stream budget second middle := by
  rcases Nat.lt_or_eq_of_le moves.le with moved | rfl
  · exact ready.of_lt second moved moves.inside
  · refine ready.mono fun limit leads => ?_
    simp only [Phrase.leads, Bool.and_eq_true, Bool.or_eq_true] at leads
    rcases leads.2 with consumes | later
    · exact absurd (moves.lt consumes) (Nat.lt_irrefl pos)
    · exact later

theorem branches {look : Look} {yes no : Phrase}
    (ready : Ready stream budget (.branch look yes no) pos) :
    Ready stream budget yes pos ∧ Ready stream budget no pos :=
  ⟨ready.mono fun _ leads => (Bool.and_eq_true_iff.mp leads).1,
    ready.mono fun _ leads => (Bool.and_eq_true_iff.mp leads).2⟩

theorem trials {rule : Rule} {yes no : Phrase}
    (ready : Ready stream budget (.trial rule yes no) pos) :
    need stream rule pos ≤ budget ∧ Ready stream budget yes pos ∧ Ready stream budget no pos := by
  have parts : ∀ limit, (Phrase.trial rule yes no).leads limit →
      (Phrase.call rule).leads limit ∧ yes.leads limit ∧ no.leads limit := by
    intro limit leads
    simp only [Phrase.leads, Bool.and_eq_true] at leads ⊢
    exact ⟨leads.1.1, leads.1.2, leads.2⟩
  exact ⟨(ready.mono fun limit leads => (parts limit leads).1).need_le,
    ready.mono fun limit leads => (parts limit leads).2.1,
    ready.mono fun limit leads => (parts limit leads).2.2⟩

end Ready

/-- The budget of a parse is enough for any call at its start. -/
theorem Setup.need_le_budget (setup : Setup) (rule : Rule) (pos : Nat) :
    need setup.stream rule pos ≤ setup.budget := by
  have below := rule.rank_lt_ranks
  have rules : Rule.all.length = 82 := by decide
  simp only [need, budget, rules, Stream.size, Rule.ranks] at *
  omega

end Parser

end JavaFront
