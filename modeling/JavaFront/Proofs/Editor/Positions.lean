import JavaFront.Editor
import JavaFront.Proofs.Parser.Records
import JavaFront.Proofs.Source.LineIndex
import JavaFront.Proofs.Token.Characters
import Mathlib.Algebra.GroupWithZero.Nat

/-!
# Positions lead back to their offsets

An editor counts the UTF-16 units from the start of a line, the source counts
bytes. Where a token starts or ends no character is cut, so the units in front
of it are those of whole characters: walking over the line until they are used
up leads back to the offset. Later offsets have no earlier positions, and what
is sent for a diagnostic is a range inside the document.

Only the numbers themselves are cut when they are sent, to words. Nothing is
lost in a text whose bytes a word can count.
-/

namespace JavaFront

namespace Editor.Position

/-- Positions in the order in which they stand in a text. -/
instance : LE Position :=
  ⟨fun first second => toLex (first.line, first.character) ≤ toLex (second.line, second.character)⟩

theorem le_iff {first second : Position} :
    first ≤ second ↔
      first.line < second.line ∨ first.line = second.line ∧ first.character ≤ second.character :=
  Prod.Lex.toLex_le_toLex

/-- A position with its numbers cut to words. -/
def toWords (position : Position) : Position :=
  ⟨position.line % wordLimit, position.character % wordLimit⟩

end Editor.Position

/-! ## Counting units -/

namespace Rune

/-- A character takes no more units than bytes. -/
theorem units16_le_size (first : UInt8) (rest : Bytes) :
    (decode first rest).units16 ≤ (decode first rest).size := by
  cases proper : (decode first rest).wellFormed with
  | false =>
      rw [(decode_of_malformed proper).1]
      decide
  | true =>
      rcases wellFormed_cases proper with ⟨bound, same⟩ | ⟨second, tail, -, bound, -, same⟩ |
        ⟨second, third, tail, -, bound, -, -, -, same⟩ |
        ⟨second, third, fourth, tail, -, bound, -, -, -, -, same⟩
      all_goals
        rw [same, units16]
        split <;> dsimp only at * <;> omega

theorem units16_pos (rune : Rune) : 0 < rune.units16 := by
  rw [units16]
  split <;> decide

end Rune

namespace Bytes

/-- Walks over runes until the units are used up, and tells how many bytes that
takes. There is no answer where a rune takes more units than are left, or the
runes come to an end. -/
def walk16? : (units : Nat) → List (Rune × Bytes) → Option Nat
  | 0, _ => some 0
  | _ + 1, [] => none
  | units + 1, (rune, spelling) :: runes =>
    if rune.units16 ≤ units + 1 then
      (walk16? (units + 1 - rune.units16) runes).map (spelling.length + ·)
    else none

theorem units16_eq_sum (text : Bytes) :
    text.units16 = (text.spelledRunes.map fun rune => rune.1.units16).sum := by
  rw [units16, runes_eq, List.foldl_map, List.sum_eq_foldl, List.foldl_map]

theorem units16_cons (first : UInt8) (rest : Bytes) :
    units16 (first :: rest) = (Rune.decode first rest).units16 +
      units16 (rest.drop ((Rune.decode first rest).size - 1)) := by
  rw [units16_eq_sum, spelledRunes_cons, List.map_cons, List.sum_cons, ← units16_eq_sum]

theorem units16_append {text other : Bytes}
    (apart : spelledRunes (text ++ other) = text.spelledRunes ++ other.spelledRunes) :
    units16 (text ++ other) = text.units16 + other.units16 := by
  rw [units16_eq_sum, apart, List.map_append, List.sum_append, ← units16_eq_sum, ← units16_eq_sum]

theorem units16_le_length (text : Bytes) : text.units16 ≤ text.length := by
  match text with
  | [] => exact Nat.le_refl 0
  | first :: rest =>
      have units := Rune.units16_le_size first rest
      have size := Rune.decode_size_le first rest
      have others := units16_le_length (rest.drop ((Rune.decode first rest).size - 1))
      rw [List.length_drop] at others
      rw [units16_cons, List.length_cons]
      omega
termination_by text.length

/-- Walking over the runes of a text uses up its units. -/
theorem walk16?_units16 (text : Bytes) (runes : List (Rune × Bytes)) :
    walk16? text.units16 (text.spelledRunes ++ runes) = some text.length := by
  match text with
  | [] => cases runes <;> rfl
  | first :: rest =>
      have some_units := Rune.units16_pos (Rune.decode first rest)
      have some_bytes := Rune.decode_size_pos first rest
      have size := Rune.decode_size_le first rest
      have others := walk16?_units16 (rest.drop ((Rune.decode first rest).size - 1)) runes
      obtain ⟨units, more⟩ : ∃ units, units16 (first :: rest) = units + 1 :=
        Nat.exists_eq_add_one.mpr (by rw [units16_cons]; omega)
      rw [more, spelledRunes_cons, List.cons_append, walk16?, ← more, units16_cons,
        if_pos (Nat.le_add_right _ _), Nat.add_sub_cancel_left, others, Option.map_some,
        List.length_take, List.length_drop, List.length_cons]
      congr 1
      omega
termination_by text.length

/-- A line starts where no character is cut. -/
theorem HasLines.leaves_startOf {text : Bytes} {lines : List Line} (cut : text.HasLines lines)
    {index : Nat} (inside : index < lines.length) :
    text.Leaves (text.drop (startOf lines index)) := by
  induction cut generalizing index with
  | last =>
      obtain rfl : index = 0 := by simpa using inside
      exact .refl _
  | @line text ending rest lines plain ends _ _ ih =>
      cases index with
      | zero => exact .refl _
      | succ index =>
          rw [List.length_cons, Nat.add_lt_add_iff_right] at inside
          have start : startOf (⟨text, ending⟩ :: lines) (index + 1) =
              (text ++ ending).length + startOf lines index := by
            simp [startOf, Line.spelling, Nat.add_assoc]
          have narrow : ∀ ending ∈ lineEndings, ending ≠ [] ∧ ending.all (· < 0x80) = true := by
            decide
          have behind : CutAtNarrow ending rest :=
            IsNarrow.cutAtNarrow (by simpa [IsNarrow] using (narrow ending ends).2)
              (narrow ending ends).1 rest
          rw [← List.append_assoc, start, List.drop_length_add_append]
          exact (Leaves.of_cutAtNarrow (behind.append text)).trans (ih inside)

end Bytes

/-! ## Places in a line -/

namespace Source

open Bytes

/-- The offset stands between a carriage return and a line feed, which end a line
together. -/
def InsideEnding (source : Source) (offset : Nat) : Prop :=
  ∃ last, offset = last + 1 ∧ source.text[last]? = some 0x0d ∧ source.text[offset]? = some 0x0a

variable {source : Source} {offset : Nat}

theorem IsBoundary.inside (boundary : source.IsBoundary offset) : offset ≤ source.size := by
  obtain ⟨token, listed, here⟩ := boundary
  have splits : [] ++ source.text = source.text := List.nil_append _
  have read := source.lexes_tokens.readFrom splits (source.advance_origin_eq_position splits)
    token listed
  have clamped : ∀ place : Pos, place = source.position place.offset →
      place.offset ≤ source.size := by
    intro place same
    rw [same]
    exact Nat.min_le_right _ _
  rcases here with rfl | rfl
  · exact clamped _ read.start_eq
  · exact clamped _ read.stop_eq

/-- An offset stands in a line, or between the two bytes that end it. The line is
known by its number, counted from zero, and by where it starts. -/
structure StandsIn (source : Source) (offset index start : Nat) (line rest : Bytes) : Prop where
  number : (source.position offset).line = index + 1
  column : start + (source.position offset).column = offset + 1
  listed : index < source.lineCount
  starts : source.starts[index]? = some start
  line_eq : source.line (index + 1) = line
  leaves : source.text.Leaves (source.text.drop start)
  spelled : source.text.drop start = line ++ rest
  past : start + line.length < offset → source.InsideEnding offset

/-- Behind the last byte of a line and in front of the next one there is only the
place inside of an ending of two bytes. -/
theorem insideEnding_of_past {lines : List Line} (cut : source.text.HasLines lines) {index : Nat}
    (present : index < lines.length) (inside : offset ≤ source.size)
    (before : index + 1 < lines.length → offset < startOf lines (index + 1))
    (past : startOf lines index + lines[index].text.length < offset) :
    source.InsideEnding offset := by
  have spelled := cut.drop_startOf index
  rw [List.drop_eq_getElem_cons present, List.flatMap_cons, Line.spelling, List.append_assoc]
    at spelled
  have behind : ∀ position, source.text[startOf lines index + position]? =
      (lines[index].text ++ (lines[index].ending ++
        (lines.drop (index + 1)).flatMap Line.spelling))[position]? := by
    intro position
    rw [← spelled, List.getElem?_drop]
  rcases cut.ending_cases present with ⟨isLast, none⟩ | ⟨goesOn, ends⟩
  · have nothing : lines.drop (index + 1) = [] := List.drop_eq_nil_of_le (Nat.le_of_eq isLast.symm)
    have length := congrArg List.length spelled
    rw [none, nothing, List.length_drop] at length
    simp only [List.flatMap_nil, List.append_nil] at length
    rw [size] at inside
    omega
  · have bound := before goesOn
    rw [startOf_succ present, Line.spelling, List.length_append] at bound
    have long : 1 < lines[index].ending.length := by omega
    have only : ∀ ending ∈ lineEndings, 1 < ending.length → ending = [0x0d, 0x0a] := by decide
    have pair := only _ ends long
    rw [pair, List.length_cons, List.length_singleton] at bound
    obtain rfl : offset = startOf lines index + (lines[index].text.length + 1) := by omega
    refine ⟨startOf lines index + lines[index].text.length, rfl, ?_, ?_⟩
    · rw [behind, pair, List.getElem?_append_right (Nat.le_refl _), Nat.sub_self]
      rfl
    · rw [behind, pair, List.getElem?_append_right (Nat.le_add_right _ _),
        Nat.add_sub_cancel_left]
      rfl

theorem exists_standsIn (source : Source) (inside : offset ≤ source.size) :
    ∃ index start line rest, source.StandsIn offset index start line rest := by
  obtain ⟨lines, cut⟩ := exists_lines source.text
  have column := startOf_add_column cut inside
  obtain ⟨bound, before⟩ := position_line_le cut inside
  obtain ⟨index, number⟩ : ∃ index, (source.position offset).line = index + 1 :=
    ⟨_, position_line inside⟩
  rw [number, Nat.add_sub_cancel] at column
  rw [number] at bound before
  have present : index < lines.length := bound
  have spelled := cut.drop_startOf index
  rw [List.drop_eq_getElem_cons present, List.flatMap_cons, Line.spelling, List.append_assoc]
    at spelled
  exact ⟨index, startOf lines index, lines[index].text, _, {
    number
    column
    listed := by rwa [lineCount_of_lines cut]
    starts := by simp [starts_of_lines cut, present]
    line_eq := line_of_lines cut present
    leaves := cut.leaves_startOf present
    spelled
    past := insideEnding_of_past cut present inside before }⟩

/-- The place of an offset as an editor counts, before its numbers are cut to
words. -/
def unitPosition (source : Source) (offset : Nat) : Editor.Position :=
  let place := source.position offset
  { line := place.line - 1
    character := units16 ((source.line place.line).take (place.column - 1)) }

/-- The offset at which an editor's position stands: from the start of its line on
the runes of the line are walked over until the units are used up. -/
def offsetAt? (source : Source) (position : Editor.Position) : Option Nat :=
  source.starts[position.line]?.bind fun start =>
    (walk16? position.character (source.line (position.line + 1)).spelledRunes).map (start + ·)

/-- The position is one in the source: its line is there and has as many units. -/
def HasPosition (source : Source) (position : Editor.Position) : Prop :=
  position.line < source.lineCount ∧
    position.character ≤ units16 (source.line (position.line + 1))

namespace StandsIn

variable {index start : Nat} {line rest : Bytes}

theorem start_le (stands : source.StandsIn offset index start line rest) : start ≤ offset := by
  have column := stands.column
  have positive : 0 < (source.position offset).column := Nat.succ_pos _
  omega

theorem unitPosition_eq (stands : source.StandsIn offset index start line rest) :
    source.unitPosition offset = ⟨index, units16 (line.take (offset - start))⟩ := by
  have column := stands.column
  have number : ((index + 1 : Nat) : Int) = index + 1 := rfl
  rw [unitPosition, stands.number, number, stands.line_eq]
  congr 3
  omega

/-- Where a token starts or ends in a line the runes of the line fall into those in
front of it and those behind it. -/
theorem spelledRunes_take (stands : source.StandsIn offset index start line rest)
    (boundary : source.IsBoundary offset) (more : Nat) :
    spelledRunes (line.take (offset - start + more)) =
      spelledRunes (line.take (offset - start)) ++
        spelledRunes ((line.drop (offset - start)).take more) := by
  rcases Nat.lt_or_ge line.length (offset - start) with past | inside
  · rw [List.take_of_length_le (by omega), List.take_of_length_le (by omega),
      List.drop_eq_nil_of_le (by omega), List.take_nil, spelledRunes_nil, List.append_nil]
  · have order := stands.start_le
    have behind : source.text.drop offset = line.drop (offset - start) ++ rest := by
      obtain ⟨passed, rfl⟩ := Nat.exists_eq_add_of_le order
      rw [← List.drop_drop, stands.spelled, Nat.add_sub_cancel_left,
        List.drop_append_of_le_length (by omega)]
    have leaves := stands.leaves.linear boundary.leaves (by simp only [List.length_drop]; omega)
    rw [behind, stands.spelled] at leaves
    rw [List.take_add]
    refine leaves.spelledRunes_append ?_ ((List.take_prefix _ _).trans (List.prefix_append _ _))
    rw [← List.append_assoc, List.take_append_drop]

/-- The units of a line in front of the end of a token, and of more of the line. -/
theorem units16_take (stands : source.StandsIn offset index start line rest)
    (boundary : source.IsBoundary offset) (more : Nat) :
    units16 (line.take (offset - start)) ≤ units16 (line.take (offset - start + more)) := by
  have apart := stands.spelledRunes_take boundary more
  rw [List.take_add] at apart ⊢
  rw [units16_append apart]
  exact Nat.le_add_right _ _

end StandsIn

/-- The position of an offset leads back to it. -/
theorem offsetAt?_unitPosition (boundary : source.IsBoundary offset)
    (proper : ¬ source.InsideEnding offset) :
    source.offsetAt? (source.unitPosition offset) = some offset := by
  obtain ⟨index, start, line, rest, stands⟩ := source.exists_standsIn boundary.inside
  have order := stands.start_le
  have inside : offset ≤ start + line.length := Nat.not_lt.mp fun past => proper (stands.past past)
  have runes := stands.spelledRunes_take boundary line.length
  rw [List.take_of_length_le (by omega)] at runes
  rw [stands.unitPosition_eq, offsetAt?, stands.starts, Option.bind_some, stands.line_eq, runes,
    walk16?_units16, Option.map_some, List.length_take]
  congr 1
  omega

-- The smile takes four bytes and two units.
example : (Source.of "" "x😀;").unitPosition 5 = ⟨0, 3⟩ ∧
    (Source.of "" "x😀;").offsetAt? ⟨0, 3⟩ = some 5 := by
  decide +kernel

/-- Later offsets have no earlier positions. -/
theorem unitPosition_le {later : Nat} (boundary : source.IsBoundary offset)
    (order : offset ≤ later) (inside : later ≤ source.size) :
    source.unitPosition offset ≤ source.unitPosition later := by
  obtain ⟨index, start, line, rest, stands⟩ := source.exists_standsIn boundary.inside
  obtain ⟨other, otherStart, otherLine, _, otherStands⟩ := source.exists_standsIn inside
  have lines := position_line_mono order inside
  rw [stands.number, otherStands.number] at lines
  rw [stands.unitPosition_eq, otherStands.unitPosition_eq, Editor.Position.le_iff]
  rcases Nat.lt_or_eq_of_le (Nat.le_of_succ_le_succ lines) with earlier | rfl
  · exact .inl earlier
  · obtain rfl : otherStart = start := by
      rw [← Option.some.injEq, ← otherStands.starts, stands.starts]
    obtain rfl : line = otherLine := stands.line_eq.symm.trans otherStands.line_eq
    have begun := stands.start_le
    obtain ⟨more, split⟩ : ∃ more, later - otherStart = offset - otherStart + more :=
      ⟨later - offset, by omega⟩
    exact .inr ⟨rfl, split ▸ stands.units16_take boundary more⟩

theorem hasPosition_unitPosition (boundary : source.IsBoundary offset) :
    source.HasPosition (source.unitPosition offset) := by
  obtain ⟨index, start, line, rest, stands⟩ := source.exists_standsIn boundary.inside
  have units := stands.units16_take boundary line.length
  have whole : line.take (offset - start + line.length) = line :=
    List.take_of_length_le (Nat.le_add_left _ _)
  rw [whole, ← stands.line_eq] at units
  rw [stands.unitPosition_eq, stands.line_eq.symm]
  exact ⟨stands.listed, units⟩

/-! ## What is sent -/

/-- The position is sent for an exact one: its numbers are cut to words, and are the
exact ones if a word can count the bytes of the source. -/
def Sends (source : Source) (exact sent : Editor.Position) : Prop :=
  sent = exact.toWords ∧ (source.size < Editor.wordLimit → sent = exact)

theorem toWords_of_lt {position : Editor.Position} (line : position.line < Editor.wordLimit)
    (character : position.character < Editor.wordLimit) : position.toWords = position := by
  rw [Editor.Position.toWords, Nat.mod_eq_of_lt line, Nat.mod_eq_of_lt character]

theorem sends_editorPosition (source : Source) (inside : offset ≤ source.size) :
    source.Sends (source.unitPosition offset)
      (source.editorPosition (source.position offset).toPlace) := by
  obtain ⟨index, start, line, rest, stands⟩ := source.exists_standsIn inside
  have same : source.editorPosition (source.position offset).toPlace =
      (source.unitPosition offset).toWords := by
    have column : ((source.position offset).column : Int) - 1 =
        ((source.position offset).column - 1 : Nat) := by
      have := stands.start_le
      have := stands.column
      omega
    have number : ((source.position offset).line : Int) - 1 =
        ((source.position offset).line - 1 : Nat) := by
      have := stands.number
      omega
    simp only [editorPosition, Pos.toPlace, column, number, Int.toNat_natCast, unitPosition,
      Editor.Position.toWords]
  refine ⟨same, fun short => same.trans (toWords_of_lt ?_ ?_)⟩
  · have few := position_line_le_offset inside
    rw [unitPosition]
    dsimp only
    omega
  · rw [stands.unitPosition_eq]
    have units := units16_le_length (line.take (offset - start))
    have whole := congrArg List.length stands.spelled
    rw [List.length_drop, List.length_append] at whole
    rw [List.length_take] at units
    rw [size] at short
    dsimp only
    omega

/-- The places of a diagnostic are those of two offsets at which tokens start or
end, the first of them no later than the second. -/
theorem parse_boundaries (source : Source) (entry : Entry) (options : Options) :
    ∀ diagnostic ∈ (source.parse entry options).diagnostics, ∃ start stop,
      source.IsBoundary start ∧ source.IsBoundary stop ∧ start ≤ stop ∧
      diagnostic.start = (source.position start).toPlace ∧
      diagnostic.stop = (source.position stop).toPlace := by
  intro diagnostic member
  have splits : [] ++ source.text = source.text := List.nil_append _
  have lexed := source.lexes_tokens
  have read := lexed.readFrom splits (source.advance_origin_eq_position splits)
  rcases source.parse_covers entry options diagnostic member with
    ⟨token, listed, start, stop⟩ | ⟨start, stop⟩
  · obtain ⟨-, order, -⟩ := lexed.leaves token listed
    refine ⟨_, _, ⟨token, listed, .inl rfl⟩, ⟨token, listed, .inr rfl⟩, order, ?_, ?_⟩
    · rw [start, ← (read token listed).start_eq]
    · rw [stop, ← (read token listed).stop_eq]
  · obtain ⟨first, isFirst, begins⟩ := Option.map_eq_some_iff.mp lexed.head_start
    have listed := List.mem_of_head? isFirst
    have origin : Pos.origin.toPlace = (source.position (0 : Nat)).toPlace :=
      congrArg Pos.toPlace (source.advance_origin_eq_position splits)
    have boundary : source.IsBoundary 0 := ⟨first, listed, .inl (by rw [begins]; rfl)⟩
    exact ⟨0, 0, boundary, boundary, Nat.le_refl 0, start.trans origin, stop.trans origin⟩

/-- The position of an offset at which a token starts or ends leads back to it,
unless it stands inside of what ends a line, and later ones have no earlier
positions. What is sent for a diagnostic of a parse is the range between the
positions of the offsets at which it starts and stops, both in the source. What
is sent are the exact positions, with their numbers cut to words. -/
theorem editorPosition_returns (source : Source) :
    (∀ offset, source.IsBoundary offset →
      source.Sends (source.unitPosition offset)
        (source.editorPosition (source.position offset).toPlace) ∧
      (¬ source.InsideEnding offset →
        source.offsetAt? (source.unitPosition offset) = some offset) ∧
      ∀ later, source.IsBoundary later → offset ≤ later →
        source.unitPosition offset ≤ source.unitPosition later) ∧
    ∀ entry options, ∀ diagnostic ∈ (source.parse entry options).diagnostics,
      ∀ start stop, start = diagnostic.start.offset.toNat → stop = diagnostic.stop.offset.toNat →
        source.IsBoundary start ∧ source.IsBoundary stop ∧
        source.Sends (source.unitPosition start) (Editor.Marker.of source diagnostic).start ∧
        source.Sends (source.unitPosition stop) (Editor.Marker.of source diagnostic).stop ∧
        source.unitPosition start ≤ source.unitPosition stop ∧
        source.HasPosition (source.unitPosition start) ∧
        source.HasPosition (source.unitPosition stop) := by
  refine ⟨fun offset boundary => ⟨source.sends_editorPosition boundary.inside,
    offsetAt?_unitPosition boundary, fun later behind order =>
      unitPosition_le boundary order behind.inside⟩, ?_⟩
  rintro entry options diagnostic member _ _ rfl rfl
  obtain ⟨start, stop, first, last, order, startEq, stopEq⟩ :=
    source.parse_boundaries entry options diagnostic member
  have startOffset : diagnostic.start.offset = start := by
    simp [startEq, Pos.toPlace, position_offset _ first.inside]
  have stopOffset : diagnostic.stop.offset = stop := by
    simp [stopEq, Pos.toPlace, position_offset _ last.inside]
  have kept : ¬ diagnostic.stop.offset < diagnostic.start.offset := by omega
  rw [startOffset, stopOffset, Int.toNat_natCast, Int.toNat_natCast]
  refine ⟨first, last, ?_, ?_, unitPosition_le first order last.inside,
    hasPosition_unitPosition first, hasPosition_unitPosition last⟩
  · rw [Editor.Marker.of, startEq]
    exact source.sends_editorPosition first.inside
  · rw [Editor.Marker.of, if_neg kept, stopEq]
    exact source.sends_editorPosition last.inside

end Source

end JavaFront
