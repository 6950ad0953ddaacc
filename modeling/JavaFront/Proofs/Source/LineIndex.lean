import JavaFront.Proofs.Token.Partition
import Mathlib.Data.List.Basic
import Mathlib.Data.Prod.Lex

/-!
# The line index of a source

A text falls into lines in one way: each but the last is ended by a line feed,
by a carriage return, or by the two in a row, and holds neither of them. The
lines of a source are these, and the position of an offset counts the endings in
front of it and the bytes from the start of its line. Later offsets therefore
have later positions.
-/

namespace JavaFront

/-- A line of a text and what ends it. Nothing ends the last one. -/
structure Line where
  text : Bytes
  ending : Bytes
deriving DecidableEq, Repr

/-- The bytes a line takes. -/
def Line.spelling (line : Line) : Bytes :=
  line.text ++ line.ending

namespace Bytes

/-- What can end a line. -/
def lineEndings : List Bytes :=
  [[0x0a], [0x0d, 0x0a], [0x0d]]

/-- Nothing in the text ends a line. -/
def OnLine (text : Bytes) : Prop :=
  ∀ byte ∈ text, Source.isLineEnd byte = false

namespace OnLine

variable {byte : UInt8} {text other : Bytes}

theorem nil : OnLine [] :=
  fun _ member => absurd member List.not_mem_nil

theorem append (first : text.OnLine) (second : other.OnLine) : (text ++ other).OnLine :=
  List.forall_mem_append.mpr ⟨first, second⟩

theorem cons (first : Source.isLineEnd byte = false) (others : text.OnLine) :
    OnLine (byte :: text) :=
  List.forall_mem_cons.mpr ⟨first, others⟩

end OnLine

/-- The text falls into lines. A carriage return ends one alone only where no
line feed follows it. -/
inductive HasLines : Bytes → List Line → Prop
  | last {text : Bytes} (plain : text.OnLine) : HasLines text [⟨text, []⟩]
  | line {text ending rest : Bytes} {lines : List Line} (plain : text.OnLine)
      (ends : ending ∈ lineEndings) (whole : ending = [0x0d] → rest.head? ≠ some 0x0a)
      (others : HasLines rest lines) :
      HasLines (text ++ (ending ++ rest)) (⟨text, ending⟩ :: lines)

/-- An ending of a line ends at the offset: a line feed stands in front of it,
or a carriage return that no line feed follows. -/
def endsLine (text : Bytes) : (offset : Nat) → Bool
  | 0 => false
  | last + 1 =>
    text[last]? = some 0x0a || (text[last]? = some 0x0d && text[last + 1]? != some 0x0a)

/-- The offset at which a line starts, given the lines of the text. Lines are
counted from zero here. -/
def startOf (lines : List Line) (index : Nat) : Nat :=
  ((lines.take index).flatMap Line.spelling).length

/-! ## Texts and their lines -/

namespace HasLines

variable {text : Bytes} {lines : List Line}

theorem ne_nil (cut : text.HasLines lines) : lines ≠ [] := by
  cases cut <;> exact List.cons_ne_nil _ _

/-- The lines of a text spell it. -/
theorem flatMap_spelling (cut : text.HasLines lines) : lines.flatMap Line.spelling = text := by
  induction cut with
  | last => simp [Line.spelling]
  | line _ _ _ _ ih => simp [Line.spelling, ih]

/-- A byte that ends no line, in front of a text. -/
theorem cons (cut : text.HasLines lines) {byte : UInt8} (plain : Source.isLineEnd byte = false) :
    ∃ lines, HasLines (byte :: text) lines := by
  cases cut with
  | last rest => exact ⟨_, .last (.cons plain rest)⟩
  | line rest ends whole others => exact ⟨_, .line (.cons plain rest) ends whole others⟩

/-- An empty line in front of a text. -/
theorem blank (cut : text.HasLines lines) {ending : Bytes} (ends : ending ∈ lineEndings)
    (whole : ending = [0x0d] → text.head? ≠ some 0x0a) :
    (ending ++ text).HasLines (⟨[], ending⟩ :: lines) :=
  .line .nil ends whole cut

end HasLines

/-- Every text falls into lines. -/
theorem exists_lines : (text : Bytes) → ∃ lines, text.HasLines lines
  | [] => ⟨_, .last .nil⟩
  | [byte] => by
      by_cases ends : [byte] ∈ lineEndings
      · exact ⟨_, HasLines.blank (.last .nil) ends (by simp)⟩
      · refine HasLines.cons (.last .nil) ?_
        simpa [lineEndings, Source.isLineEnd] using ends
  | first :: second :: rest => by
      obtain ⟨lines, cut⟩ := exists_lines (second :: rest)
      by_cases pair : [first, second] ∈ lineEndings
      · obtain ⟨others, behind⟩ := exists_lines rest
        exact ⟨_, behind.blank pair (by simp)⟩
      · by_cases ends : [first] ∈ lineEndings
        · refine ⟨_, cut.blank ends ?_⟩
          intro isReturn isFeed
          simp_all [lineEndings]
        · refine cut.cons ?_
          simpa [lineEndings, Source.isLineEnd] using ends

theorem isLineEnd_of_mem_lineEndings {ending : Bytes} (ends : ending ∈ lineEndings) :
    ∀ byte ∈ ending, Source.isLineEnd byte = true := by
  simp only [lineEndings, List.mem_cons, List.not_mem_nil, or_false] at ends
  rcases ends with rfl | rfl | rfl <;> simp [Source.isLineEnd]

/-- What ends a line is taken off, and nothing of the line. -/
theorem trimEnd_spelling {text ending : Bytes} (plain : text.OnLine)
    (ends : ∀ byte ∈ ending, Source.isLineEnd byte = true) :
    trimEnd Source.isLineEnd (text ++ ending) = text := by
  have kept : text.reverse.dropWhile Source.isLineEnd = text.reverse := by
    cases back : text.reverse with
    | nil => rfl
    | cons last others =>
        have member : last ∈ text := by
          rw [← List.mem_reverse, back]
          exact List.mem_cons_self
        rw [List.dropWhile_cons_of_neg (by simp [plain last member])]
  rw [trimEnd, List.reverse_append, List.dropWhile_append_of_pos (by simpa using ends), kept,
    List.reverse_reverse]

end Bytes

/-! ## The starts of lines -/

section Starts

variable {text : Bytes} {lines : List Line}

open Bytes

theorem lineStartsFrom_append {offset : Nat} {rest : Bytes} (plain : text.OnLine) :
    lineStartsFrom offset (text ++ rest) = lineStartsFrom (offset + text.length) rest := by
  induction text generalizing offset with
  | nil => rfl
  | cons byte text ih =>
      obtain ⟨first, others⟩ := List.forall_mem_cons.mp plain
      simp only [Source.isLineEnd, Bool.or_eq_false_iff, decide_eq_false_iff_not] at first
      rw [List.cons_append, lineStartsFrom, if_neg (by simp [first]), ih others, List.length_cons]
      congr 1
      omega

theorem lineStartsFrom_ending {offset : Nat} {ending rest : Bytes} (ends : ending ∈ lineEndings)
    (whole : ending = [0x0d] → rest.head? ≠ some 0x0a) :
    lineStartsFrom offset (ending ++ rest) =
      (offset + ending.length) :: lineStartsFrom (offset + ending.length) rest := by
  simp only [lineEndings, List.mem_cons, List.not_mem_nil, or_false] at ends
  rcases ends with rfl | rfl | rfl
  · simp [lineStartsFrom]
  · simp [lineStartsFrom]
  · simp [lineStartsFrom, whole rfl]

/-- The index holds where each line starts. -/
theorem Bytes.HasLines.starts_eq (cut : text.HasLines lines) (offset : Nat) :
    offset :: lineStartsFrom offset text =
      (List.range lines.length).map fun index => offset + startOf lines index := by
  induction cut generalizing offset with
  | @last text plain =>
      have none : lineStartsFrom offset (text ++ []) = _ := lineStartsFrom_append plain
      rw [List.append_nil] at none
      simp [none, lineStartsFrom, startOf]
  | @line text ending rest lines plain ends whole others ih =>
      rw [lineStartsFrom_append plain, lineStartsFrom_ending ends whole, ih, List.length_cons,
        List.range_succ_eq_map, List.map_cons, List.map_map]
      congr 1
      refine List.map_congr_left fun index _ => ?_
      simp [startOf, Line.spelling]
      omega

theorem endsLine_cons_one (byte : UInt8) (text : Bytes) :
    endsLine (byte :: text) 1 = (byte = 0x0a || (byte = 0x0d && text.head? != some 0x0a)) := by
  simp [endsLine, List.head?_eq_getElem?]

theorem countP_endsLine_cons (byte : UInt8) (text : Bytes) (offset : Nat) :
    (List.range (offset + 2)).countP (endsLine (byte :: text)) =
      (List.range (offset + 1)).countP (endsLine text) +
        if endsLine (byte :: text) 1 then 1 else 0 := by
  have shifted : endsLine (byte :: text) ∘ Nat.succ ∘ Nat.succ = endsLine text ∘ Nat.succ := rfl
  simp only [List.range_succ_eq_map, List.countP_cons, List.countP_map, List.map_cons,
    List.map_map, endsLine_cons_one, shifted]
  simp [endsLine]

/-- A walk of `offset` bytes passes as many line starts as endings of lines. -/
theorem length_takeWhile_lineStartsFrom (before offset : Nat) (text : Bytes) :
    ((lineStartsFrom before text).takeWhile (· ≤ before + offset)).length =
      (List.range (offset + 1)).countP (endsLine text) := by
  induction text generalizing before offset with
  | nil =>
      symm
      rw [lineStartsFrom, List.takeWhile_nil, List.length_nil, List.countP_eq_zero]
      rintro (_ | last) - <;> simp [endsLine]
  | cons byte text ih =>
      cases offset with
      | zero => simp [takeWhile_lineStartsFrom_eq_nil, endsLine, List.range_succ]
      | succ offset =>
          have passed := ih (before + 1) offset
          rw [Nat.add_assoc, Nat.add_comm 1] at passed
          rw [countP_endsLine_cons, endsLine_cons_one, ← passed, lineStartsFrom]
          split
          · rw [List.takeWhile_cons_of_pos (by simp), List.length_cons]
          · rfl

theorem startOf_succ {index : Nat} (inside : index < lines.length) :
    startOf lines (index + 1) = startOf lines index + lines[index].spelling.length := by
  rw [startOf, List.take_add_one, List.getElem?_eq_getElem inside, startOf, List.flatMap_append,
    List.length_append]
  simp only [Option.toList_some, List.flatMap_singleton]

/-- What stands from the start of a line on. -/
theorem Bytes.HasLines.drop_startOf (cut : text.HasLines lines) (index : Nat) :
    text.drop (startOf lines index) = (lines.drop index).flatMap Line.spelling := by
  have parts : (lines.take index).flatMap Line.spelling ++
      (lines.drop index).flatMap Line.spelling = text := by
    rw [← List.flatMap_append, List.take_append_drop, cut.flatMap_spelling]
  rw [startOf, ← parts, List.drop_left]

/-- Lines hold no byte that ends one, and what ends them is nothing else. -/
theorem Bytes.HasLines.parts (cut : text.HasLines lines) :
    ∀ line ∈ lines,
      line.text.OnLine ∧ ∀ byte ∈ line.ending, Source.isLineEnd byte = true := by
  induction cut with
  | last plain => simpa using plain
  | line plain ends _ _ ih =>
      exact List.forall_mem_cons.mpr ⟨⟨plain, isLineEnd_of_mem_lineEndings ends⟩, ih⟩

/-- Only the last line has no ending. -/
theorem Bytes.HasLines.ending_cases (cut : text.HasLines lines) {index : Nat}
    (inside : index < lines.length) :
    index + 1 = lines.length ∧ lines[index].ending = [] ∨
      index + 1 < lines.length ∧ lines[index].ending ∈ lineEndings := by
  induction cut generalizing index with
  | last =>
      obtain rfl : index = 0 := by simpa using inside
      exact .inl ⟨rfl, rfl⟩
  | line _ ends _ others ih =>
      have filled := List.length_pos_iff.mpr others.ne_nil
      cases index with
      | zero => exact .inr ⟨by rw [List.length_cons]; omega, ends⟩
      | succ index =>
          simp only [List.length_cons, Nat.add_lt_add_iff_right] at inside
          simpa using ih inside

theorem Bytes.HasLines.trimEnd_eq (cut : text.HasLines lines) {line : Line}
    (member : line ∈ lines) : trimEnd Source.isLineEnd line.spelling = line.text :=
  trimEnd_spelling (cut.parts line member).1 (cut.parts line member).2

end Starts

/-! ## The lines and positions of a source -/

namespace Source

open Bytes

variable {source : Source} {lines : List Line}

theorem starts_of_lines (cut : source.text.HasLines lines) :
    source.starts = (List.range lines.length).map (startOf lines) := by
  have starts := cut.starts_eq 0
  simp only [Nat.zero_add] at starts
  rw [source.starts_eq, lineStarts, starts]

theorem lineCount_of_lines (cut : source.text.HasLines lines) :
    source.lineCount = lines.length := by
  simp [lineCount, starts_of_lines cut]

theorem line_of_lines (cut : source.text.HasLines lines) {index : Nat}
    (inside : index < lines.length) : source.line (index + 1) = lines[index].text := by
  have number : ((index : Int) + 1).toNat - 1 = index := by omega
  have rest := cut.drop_startOf index
  have trimmed := cut.trimEnd_eq (List.getElem_mem inside)
  rw [List.drop_eq_getElem_cons inside, List.flatMap_cons] at rest
  rw [line, if_neg (by omega), number, starts_of_lines cut, ← List.map_drop,
    List.range_eq_range', List.drop_range']
  rcases Nat.lt_or_ge (index + 1) lines.length with goesOn | isLast
  · obtain ⟨others, split⟩ : ∃ others, lines.length - index = others + 2 :=
      ⟨lines.length - index - 2, by omega⟩
    simp only [split, List.range'_succ, List.map_cons, Nat.zero_add, Nat.mul_one]
    rw [Bytes.slice, rest, startOf_succ inside, Nat.add_sub_cancel_left, List.take_left, trimmed]
  · have single : lines.length - index = 1 := by omega
    have behind : lines.drop (index + 1) = [] := List.drop_eq_nil_of_le isLast
    simp only [single, List.range'_succ, List.range'_zero, List.map_cons, List.map_nil,
      Nat.zero_add, Nat.mul_one]
    rw [rest, behind, List.flatMap_nil, List.append_nil, trimmed]

/-- A line of the text is a line of the source, or there is none of its number. -/
theorem line_cases (cut : source.text.HasLines lines) (number : Int) :
    source.line number = [] ∨
      ∃ index, ∃ inside : index < lines.length, number = index + 1 ∧
        source.line number = lines[index].text := by
  by_cases positive : number < 1
  · exact .inl (if_pos positive)
  obtain ⟨index, rfl⟩ : ∃ index : Nat, number = index + 1 := ⟨(number - 1).toNat, by omega⟩
  by_cases inside : index < lines.length
  · exact .inr ⟨index, inside, rfl, line_of_lines cut inside⟩
  · have behind : source.starts.drop (((index : Int) + 1).toNat - 1) = [] := by
      apply List.drop_eq_nil_of_le
      rw [← lineCount, lineCount_of_lines cut]
      omega
    left
    rw [line, if_neg positive, behind]

theorem clamp_eq {offset : Nat} (inside : offset ≤ source.size) : source.clamp offset = offset := by
  simp [clamp, inside]

/-- The line of an offset is found by counting the endings in front of it. -/
theorem position_line {offset : Nat} (inside : offset ≤ source.size) :
    (source.position offset).line =
      (List.range (offset + 1)).countP source.text.endsLine + 1 := by
  have passed := length_takeWhile_lineStartsFrom 0 offset source.text
  rw [Nat.zero_add] at passed
  simp only [position, clamp_eq inside, source.starts_eq, lineStarts]
  rw [List.takeWhile_cons_of_pos (by simp), List.length_cons, passed]

/-- Every line in front of an offset takes at least one byte. -/
theorem position_line_le_offset {offset : Nat} (inside : offset ≤ source.size) :
    (source.position offset).line ≤ offset + 1 := by
  have few := List.countP_le_length (p := source.text.endsLine ∘ Nat.succ) (l := List.range offset)
  rw [List.length_range] at few
  rw [position_line inside, List.range_succ_eq_map, List.countP_cons, List.countP_map]
  exact Nat.add_le_add_right few 1

/-- The line starts up to an offset: those of the lines up to its own. -/
theorem passed_eq (cut : source.text.HasLines lines) {offset : Nat}
    (inside : offset ≤ source.size) :
    source.starts.takeWhile (· ≤ offset) =
      (List.range (source.position offset).line).map (startOf lines) := by
  have isPrefix := List.takeWhile_prefix (l := source.starts) (· ≤ offset)
  have few := isPrefix.length_le
  rw [starts_of_lines cut, List.length_map, List.length_range] at few
  have lineEq : (source.position offset).line =
      (source.starts.takeWhile (· ≤ offset)).length := by
    simp only [position, clamp_eq inside]
  rw [lineEq]
  conv_lhs => rw [List.prefix_iff_eq_take.mp isPrefix]
  rw [starts_of_lines cut, ← List.map_take, List.take_range, Nat.min_eq_left few]

/-- An offset is found again from the start of its line and its column. -/
theorem startOf_add_column (cut : source.text.HasLines lines) {offset : Nat}
    (inside : offset ≤ source.size) :
    startOf lines ((source.position offset).line - 1) + (source.position offset).column =
      offset + 1 := by
  have passed := passed_eq cut inside
  obtain ⟨index, lineEq⟩ : ∃ index, (source.position offset).line = index + 1 :=
    ⟨_, position_line inside⟩
  rw [lineEq, List.range_succ, List.map_append, List.map_singleton] at passed
  have begun : startOf lines index ≤ offset := by
    have reached := List.all_takeWhile (l := source.starts) (p := (· ≤ offset))
    rw [passed, List.all_append, Bool.and_eq_true] at reached
    simpa using reached.2
  have columnEq : (source.position offset).column = offset - startOf lines index + 1 := by
    simp only [position, clamp_eq inside]
    rw [passed, List.getLastD_concat]
  rw [lineEq, columnEq, Nat.add_sub_cancel]
  omega

/-- The line of an offset is one of the lines, and the next one starts behind the
offset. -/
theorem position_line_le (cut : source.text.HasLines lines) {offset : Nat}
    (inside : offset ≤ source.size) :
    (source.position offset).line ≤ lines.length ∧
      ((source.position offset).line < lines.length →
        offset < startOf lines (source.position offset).line) := by
  have passed := passed_eq cut inside
  generalize (source.position offset).line = number at passed ⊢
  have parts := List.takeWhile_append_dropWhile (l := source.starts) (p := (· ≤ offset))
  rw [passed, starts_of_lines cut] at parts
  have few := congrArg List.length parts
  simp only [List.length_append, List.length_map, List.length_range] at few
  refine ⟨by omega, fun goesOn => ?_⟩
  have behind := congrArg (·[number]?) parts
  rw [List.getElem?_append_right (by simp)] at behind
  simp only [List.length_map, List.length_range, Nat.sub_self, List.getElem?_map,
    List.getElem?_range goesOn, Option.map_some, ← List.head?_eq_getElem?] at behind
  have stops :=
    List.head?_dropWhile_not (· ≤ offset) ((List.range lines.length).map (startOf lines))
  rw [behind] at stops
  simpa using stops

theorem position_line_mono {first second : Nat} (order : first ≤ second)
    (inside : second ≤ source.size) :
    (source.position first).line ≤ (source.position second).line := by
  rw [position_line (Nat.le_trans order inside), position_line inside]
  have sublist : (List.range (first + 1)).Sublist (List.range (second + 1)) :=
    List.range_sublist.mpr (by omega)
  exact Nat.add_le_add_right sublist.countP_le 1

/-- Later offsets have later positions. -/
theorem position_strictMono {first second : Nat} (order : first < second)
    (inside : second ≤ source.size) :
    toLex ((source.position first).line, (source.position first).column) <
      toLex ((source.position second).line, (source.position second).column) := by
  obtain ⟨lines, cut⟩ := exists_lines source.text
  have before : first ≤ source.size := by omega
  have firstEq := startOf_add_column cut before
  have secondEq := startOf_add_column cut inside
  rw [Prod.Lex.toLex_lt_toLex]
  rcases Nat.lt_or_eq_of_le (position_line_mono (Nat.le_of_lt order) inside) with earlier | same
  · exact .inl earlier
  · refine .inr ⟨same, ?_⟩
    dsimp only at same ⊢
    rw [same] at firstEq
    omega

/-- The lines of a source, each with its ending, make up its text, and none of
them holds a byte that ends lines. The position of an offset tells how many
endings of lines end in front of it, and where it stands from the start of its
line; later offsets have later positions. -/
theorem lines_exact (source : Source) :
    ∃ lines : List Line, source.text.HasLines lines ∧
      lines.flatMap Line.spelling = source.text ∧
      lines.map Line.text =
        (List.range source.lineCount).map (fun index : Nat => source.line (index + 1)) ∧
      (∀ number, (source.line number).OnLine) ∧
      ∀ offset ≤ source.size,
        let place := source.position offset
        place.line = (List.range (offset + 1)).countP source.text.endsLine + 1 ∧
        startOf lines (place.line - 1) + place.column = offset + 1 ∧
        ∀ later ≤ source.size, offset < later →
          toLex (place.line, place.column) <
            toLex ((source.position later).line, (source.position later).column) := by
  obtain ⟨lines, cut⟩ := exists_lines source.text
  refine ⟨lines, cut, cut.flatMap_spelling, ?_, ?_, ?_⟩
  · apply List.ext_getElem (by simp [lineCount_of_lines cut])
    intro index inside _
    rw [List.length_map] at inside
    simp [line_of_lines cut inside]
  · intro number
    rcases line_cases cut number with none | ⟨index, inside, -, same⟩
    · rw [none]
      exact .nil
    · rw [same]
      exact (cut.parts _ (List.getElem_mem inside)).1
  · intro offset inside
    exact ⟨position_line inside, startOf_add_column cut inside,
      fun later within order => position_strictMono order within⟩

end Source

end JavaFront
