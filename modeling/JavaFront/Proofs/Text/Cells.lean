import JavaFront.Proofs.Token.Characters
import JavaFront.Text.Cluster

/-!
# Terminal cells of texts put together

The cells of a text are counted cluster by cluster. Two texts side by side take
the cells of both unless a cluster goes on from the first into the second. A
printable character of one byte never changes what its neighbours take, also
where marks of the text behind it join it.
-/

namespace JavaFront

namespace Cluster

/-- The state in front of a text. -/
def start : Progress :=
  ⟨.control, false, .none, .control, 0⟩

/-- The state behind a rune. -/
def Progress.after (progress : Progress) (rune : Rune) : Progress :=
  let role := Role.of rune.code
  let joins := progress.joins role
  { last := role
    oddRegional := role = .regional && !(progress.last = .regional && progress.oddRegional)
    chain := progress.chain.next role
    first := if joins then progress.first else role
    cells := if joins then progress.widen rune.code role else Cluster.cells rune.code role }

variable {progress other : Progress} {rune : Rune} {runes rest : List Rune}

theorem cellsFrom_cons (progress : Progress) (rune : Rune) (runes : List Rune) :
    cellsFrom progress (rune :: runes) =
      (if progress.joins (Role.of rune.code) then 0 else progress.cells) +
        cellsFrom (progress.after rune) runes :=
  rfl

theorem after_first (progress : Progress) (rune : Rune) :
    (progress.after rune).first =
      if progress.joins (Role.of rune.code) then progress.first else Role.of rune.code :=
  rfl

theorem after_cells (progress : Progress) (rune : Rune) :
    (progress.after rune).cells =
      if progress.joins (Role.of rune.code) then progress.widen rune.code (Role.of rune.code)
      else Cluster.cells rune.code (Role.of rune.code) :=
  rfl

@[simp]
theorem start_joins (role : Role) : start.joins role = false := by
  cases role <;> rfl

/-- What a code point is joined to matters for its cells only behind a pictograph,
a regional letter or a leading letter of a syllable. -/
def Role.adds : Role → Bool
  | .pictograph | .regional | .leading => false
  | _ => true

theorem widen_of_adds (adds : progress.first.adds = true) (code : Nat) (role : Role) :
    progress.widen code role = progress.cells + Cluster.cells code role := by
  rw [Progress.widen, if_neg, if_neg]
  all_goals
    intro isFirst
    revert adds isFirst
    cases progress.first <;> decide

/-! ## Where a cluster ends -/

/-- What every state of reading keeps: behind a code point that isolates there is no
sequence of pictographs, and a code point that joins everything behind it stands
at the start of its cluster. -/
structure Progress.Sound (progress : Progress) : Prop where
  isolated : progress.last.isolates = true → progress.chain = .none
  prepended : progress.last = .prepended → progress.first = .prepended

theorem sound_start : start.Sound :=
  ⟨fun _ => rfl, nofun⟩

/-- A code point that is no mark is joined only to one that joins everything. -/
theorem joins_plain {role : Role} (plain : role = .prepended ∨ role = .other)
    (joins : progress.joins role = true) : progress.last = .prepended := by
  revert joins
  simp only [Progress.joins]
  rcases plain with rfl | rfl <;> cases progress.last <;> simp [Role.isolates]

theorem Progress.Sound.after (sound : progress.Sound) (rune : Rune) :
    (progress.after rune).Sound := by
  refine ⟨fun isolates => ?_, fun last => ?_⟩
  · revert isolates
    simp only [Progress.after]
    cases Role.of rune.code <;> cases progress.chain <;> decide
  · simp only [Progress.after] at last ⊢
    rw [last]
    split
    · rename_i joins
      exact sound.prepended (joins_plain (.inl rfl) joins)
    · rfl

/-- Extenders and joiners join all that does not isolate. -/
theorem joins_mark {role : Role} (mark : role = .extender ∨ role = .joiner) :
    progress.joins role = !progress.last.isolates := by
  simp only [Progress.joins]
  rcases mark with rfl | rfl <;> cases progress.last <;> rfl

/-- Only extenders and joiners go on with a sequence of pictographs. -/
theorem next_eq_or_mark (chain : Chain) (role : Role) :
    chain.next role = Chain.none.next role ∨ role = .extender ∨ role = .joiner := by
  cases role <;> cases chain <;> decide

/-- Behind the end of a cluster reading goes on as at the start of a text. -/
theorem after_of_not_joins (sound : progress.Sound)
    (apart : progress.joins (Role.of rune.code) = false) :
    progress.after rune = start.after rune := by
  have chain : progress.chain.next (Role.of rune.code) = Chain.none.next (Role.of rune.code) := by
    rcases next_eq_or_mark progress.chain (Role.of rune.code) with same | mark
    · exact same
    · rw [joins_mark mark, Bool.not_eq_false'] at apart
      rw [sound.isolated apart]
  have oddRegional : (Role.of rune.code = .regional &&
      !(progress.last = .regional && progress.oddRegional)) =
        (Role.of rune.code = .regional : Bool) := by
    by_cases flag : Role.of rune.code = .regional ∧ progress.last = .regional
    · have even : progress.oddRegional = false := by
        simpa [Progress.joins, flag, Role.isolates] using apart
      simp [flag, even]
    · by_cases regional : Role.of rune.code = .regional <;> simp_all
  simp only [Progress.after, start_joins, apart, chain, oddRegional]
  simp [start]

/-- Texts take the cells of both where no cluster goes on from one to the other. -/
theorem cellsFrom_append (sound : progress.Sound)
    (apart : ∀ next, rest.head? = some next →
      (runes.foldl Progress.after progress).joins (Role.of next.code) = false) :
    cellsFrom progress (runes ++ rest) = cellsFrom progress runes + cellsFrom start rest := by
  induction runes generalizing progress with
  | nil =>
      cases rest with
      | nil => rfl
      | cons next rest =>
          have ends : progress.joins (Role.of next.code) = false := apart next rfl
          rw [List.nil_append, cellsFrom_cons, cellsFrom_cons, ends, start_joins,
            after_of_not_joins sound ends]
          simp [cellsFrom, start]
  | cons rune runes ih =>
      rw [List.cons_append, cellsFrom_cons, cellsFrom_cons, ih (sound.after rune) apart]
      omega

/-! ## Characters that add up -/

/-- The states differ only in what was read of a cluster that adds up. -/
structure Progress.Alike (progress other : Progress) : Prop where
  last : progress.last = other.last
  oddRegional : progress.oddRegional = other.oddRegional
  chain : progress.chain = other.chain
  adds : progress.first.adds = true
  addsOther : other.first.adds = true

theorem cellsFrom_alike (alike : progress.Alike other) (runes : List Rune) :
    cellsFrom progress runes + other.cells = cellsFrom other runes + progress.cells := by
  induction runes generalizing progress other with
  | nil => exact Nat.add_comm _ _
  | cons rune runes ih =>
      obtain ⟨last, oddRegional, chain, adds, addsOther⟩ := alike
      have joins : other.joins (Role.of rune.code) = progress.joins (Role.of rune.code) := by
        simp only [Progress.joins, last, oddRegional, chain]
      rw [cellsFrom_cons, cellsFrom_cons, joins]
      by_cases joined : progress.joins (Role.of rune.code) = true
      · have behind : (progress.after rune).Alike (other.after rune) := by
          constructor <;>
            simp only [Progress.after, joins, joined, last, oddRegional, chain, if_true]
          exacts [adds, addsOther]
        have later := ih behind
        simp only [Progress.after, joins, joined, if_true, widen_of_adds adds,
          widen_of_adds addsOther] at later ⊢
        omega
      · have same : other.after rune = progress.after rune := by
          simp only [Progress.after, joins, joined, last, oddRegional, chain]
          rfl
        rw [same, if_neg joined, if_neg joined]
        omega

theorem role_of_printable {code : Nat} (printable : 0x20 ≤ code ∧ code < 0x7f) :
    Role.of code = .other := by
  simp [Role.of, printable]

theorem cells_of_printable {code : Nat} (printable : 0x20 ≤ code ∧ code < 0x7f) :
    cells code .other = 1 := by
  have above : ∀ range ∈ wide, 0x1100 ≤ range.1 := by decide +kernel
  have notWide : wide.has code = false := by
    rw [Ranges.has, List.any_eq_false]
    intro range member inside
    have low := above range member
    simp only [Bool.and_eq_true, decide_eq_true_eq] at inside
    omega
  simp only [cells, notWide, Bool.false_eq_true, if_false]
  rw [if_neg (by omega), if_neg (by omega)]

section Printable

variable (printable : 0x20 ≤ rune.code ∧ rune.code < 0x7f)
include printable

theorem after_printable :
    start.after rune = ⟨.other, false, .none, .other, 1⟩ := by
  simp only [Progress.after, role_of_printable printable, start_joins,
    cells_of_printable printable]
  rfl

/-- Marks that join a printable character take the cells that they take alone. -/
theorem cellsFrom_after_printable (rest : List Rune) :
    cellsFrom (start.after rune) rest = 1 + cellsFrom start rest := by
  have behind := after_printable printable
  cases rest with
  | nil => rw [behind]; rfl
  | cons next rest =>
      rw [cellsFrom_cons, cellsFrom_cons, start_joins]
      cases joined : (start.after rune).joins (Role.of next.code) with
      | true =>
          have adds : (Role.of next.code).adds = true := by
            revert joined
            rw [behind]
            cases Role.of next.code <;> decide
          have alike : ((start.after rune).after next).Alike (start.after next) := by
            refine ⟨rfl, ?_, ?_, ?_, ?_⟩
            · rw [behind]; rfl
            · rw [behind]; rfl
            · rw [after_first, joined, behind]; rfl
            · rwa [after_first, start_joins]
          have later := cellsFrom_alike alike rest
          rw [after_cells, after_cells, joined, start_joins, if_pos rfl, if_neg nofun,
            widen_of_adds (by rw [behind]; rfl), behind] at later
          rw [behind, if_pos rfl, if_neg nofun]
          simp only [start] at later ⊢
          omega
      | false =>
          rw [after_of_not_joins (sound_start.after rune) joined, behind]
          simp [start]

theorem cellsFrom_cons_printable (sound : progress.Sound) (rest : List Rune) :
    cellsFrom progress (rune :: rest) = progress.cells + 1 + cellsFrom start rest := by
  have alone := cellsFrom_after_printable printable rest
  rw [cellsFrom_cons]
  cases joined : progress.joins (Role.of rune.code) with
  | true =>
      -- Only a code point that joins everything is joined to a printable character.
      have last : progress.last = .prepended :=
        joins_plain (.inr (role_of_printable printable)) joined
      have first := sound.prepended last
      have alike : (progress.after rune).Alike (start.after rune) := by
        refine ⟨rfl, ?_, ?_, ?_, ?_⟩
        · simp [Progress.after, role_of_printable printable]
        · simp only [Progress.after, role_of_printable printable]
          cases progress.chain <;> rfl
        · rw [after_first, joined, first]; rfl
        · rw [after_printable printable]; rfl
      have one : (start.after rune).cells = 1 := by rw [after_printable printable]
      have later := cellsFrom_alike alike rest
      rw [one, after_cells, joined, if_pos rfl, widen_of_adds (by rw [first]; rfl),
        role_of_printable printable, cells_of_printable printable] at later
      rw [if_pos rfl]
      omega
  | false =>
      rw [after_of_not_joins sound joined, alone, if_neg nofun]
      omega

theorem cellsFrom_printable (sound : progress.Sound) (rest : List Rune) :
    cellsFrom progress (runes ++ rune :: rest) =
      cellsFrom progress runes + 1 + cellsFrom start rest := by
  induction runes generalizing progress with
  | nil => exact cellsFrom_cons_printable printable sound rest
  | cons first runes ih =>
      rw [List.cons_append, cellsFrom_cons, cellsFrom_cons, ih (sound.after first)]
      omega

end Printable

end Cluster

namespace Bytes

/-- Texts take the cells of both where neither a character nor a cluster goes on
from one to the other. -/
theorem width_append {front rest : Bytes} (leaves : Leaves (front ++ rest) rest)
    (apart : ∀ next, rest.runes.head? = some next →
      (front.runes.foldl Cluster.Progress.after Cluster.start).joins
        (Cluster.Role.of next.code) = false) :
    (front ++ rest).width = front.width + rest.width := by
  rw [width, runes_eq, leaves.spelledRunes_append rfl (List.prefix_refl _), List.map_append]
  exact Cluster.cellsFrom_append Cluster.sound_start apart

/-- A function that counts the cells of texts in a terminal: the empty text takes
none, and a printable character of one byte takes one of its own between what is
on both sides of it. -/
structure IsMeasure (width : Bytes → Nat) : Prop where
  empty : width [] = 0
  printable : ∀ byte : UInt8, 0x20 ≤ byte ∧ byte < 0x7f → ∀ front rest : Bytes,
    width (front ++ byte :: rest) = width front + 1 + width rest

theorem isMeasure_width : IsMeasure width where
  empty := rfl
  printable byte printable front rest := by
    rw [UInt8.le_iff_toNat_le, UInt8.lt_iff_toNat_lt] at printable
    have narrow : byte < 0x80 := UInt8.lt_iff_toNat_lt.mpr (Nat.lt_trans printable.2 (by decide))
    have inside : 0x20 ≤ (⟨byte.toNat, 1, true⟩ : Rune).code ∧
        (⟨byte.toNat, 1, true⟩ : Rune).code < 0x7f := printable
    rw [width, runes_eq, spelledRunes_append_narrow narrow, List.map_append, List.map_cons]
    exact Cluster.cellsFrom_printable inside Cluster.sound_start _

/-- The characters that take one byte and one cell. -/
def IsPrintable (text : Bytes) : Prop :=
  ∀ byte ∈ text, 0x20 ≤ byte ∧ byte < 0x7f

theorem IsPrintable.replicate (count : Nat) {byte : UInt8} (printable : 0x20 ≤ byte ∧ byte < 0x7f) :
    IsPrintable (List.replicate count byte) :=
  fun _ member => List.eq_of_mem_replicate member ▸ printable

namespace IsMeasure

variable {width : Bytes → Nat} {text : Bytes} (measure : IsMeasure width)
  (printable : text.IsPrintable)
include measure printable

theorem width_printable_append (rest : Bytes) :
    width (text ++ rest) = text.length + width rest := by
  induction text with
  | nil => exact (Nat.zero_add _).symm
  | cons byte text ih =>
      have first := measure.printable byte (printable byte List.mem_cons_self) [] (text ++ rest)
      rw [List.nil_append, ih (List.forall_mem_cons.mp printable).2, measure.empty] at first
      rw [List.cons_append, first, List.length_cons]
      omega

theorem width_printable : width text = text.length := by
  simpa [measure.empty] using measure.width_printable_append printable []

/-- Printable characters keep apart what is on both sides of them. -/
theorem width_between (filled : text ≠ []) (front rest : Bytes) :
    width (front ++ (text ++ rest)) = width front + text.length + width rest := by
  cases text with
  | nil => exact absurd rfl filled
  | cons byte text =>
      have others : IsPrintable text := (List.forall_mem_cons.mp printable).2
      rw [List.cons_append, measure.printable byte (printable byte List.mem_cons_self),
        measure.width_printable_append others, List.length_cons]
      omega

end IsMeasure

end Bytes

end JavaFront
