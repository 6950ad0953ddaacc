import JavaFront.Diagnostic.Excerpt
import JavaFront.Proofs.Editor.Positions
import JavaFront.Proofs.Text.Cells
import JavaFront.Proofs.Text.Lines
import Mathlib.Data.List.DropRight

/-!
# The caret stands under the offending byte

A line is shown with blanks up to the next tab stop in place of each tab. It is
put together from three pieces, each expanded from the column the one in front
of it reached, so that the tab stops are those of the whole line wherever it is
cut. The column reached is always the number of cells of what is shown so far,
and the marker is laid out by the columns at the two cuts.

Of the function that counts cells no more is used than that it is a measure of
texts. Widths add up where a line is cut unless a cluster of characters goes on
across the cut; then the shown text is as wide as its clusters, not as its
pieces.
-/

namespace JavaFront

namespace Excerpt

/-! ## Lines as they are shown -/

/-- A stretch of a line that starts at a column, what is shown of it and the column
where that ends: blanks stand for each tab, at least one and no more than to the
next tab stop. -/
inductive Shows (width : Bytes → Nat) : Nat → Bytes → Bytes → Nat → Prop
  | piece {column : Nat} {piece : Bytes} (free : 0x09 ∉ piece) :
      Shows width column piece piece (column + width piece)
  | tab {column pad reached : Nat} {piece rest shown : Bytes} (free : 0x09 ∉ piece)
      (filled : 0 < pad) (near : pad ≤ tabWidth) (stop : tabWidth ∣ column + width piece + pad) :
      Shows width (column + width piece + pad) rest shown reached →
      Shows width column (piece ++ 0x09 :: rest) (piece ++ (List.replicate pad 0x20 ++ shown))
        reached

/-- The part of a text up to its first tab. -/
def firstPiece (text : Bytes) : Bytes :=
  text.takeWhile (· ≠ 0x09)

/-- The part of a text behind its last tab. -/
def lastPiece (text : Bytes) : Bytes :=
  text.rtakeWhile (· ≠ 0x09)

/-- Where the texts meet, the cells of both add up. -/
def Abut (width : Bytes → Nat) (front back : Bytes) : Prop :=
  width (lastPiece front ++ firstPiece back) = width (lastPiece front) + width (firstPiece back)

instance (width : Bytes → Nat) (front back : Bytes) : Decidable (Abut width front back) :=
  inferInstanceAs (Decidable (_ = _))

/-- Where neither a character nor a cluster goes on from one text to the other, they
abut. -/
theorem abut_of_apart {front back : Bytes}
    (leaves : Bytes.Leaves (lastPiece front ++ firstPiece back) (firstPiece back))
    (apart : ∀ next, (firstPiece back).runes.head? = some next →
      ((lastPiece front).runes.foldl Cluster.Progress.after Cluster.start).joins
        (Cluster.Role.of next.code) = false) : Abut Bytes.width front back :=
  Bytes.width_append leaves apart

variable {width : Bytes → Nat}

section Pieces

variable {piece rest : Bytes}

theorem firstPiece_of_free (free : 0x09 ∉ piece) : firstPiece piece = piece := by
  rw [firstPiece, List.takeWhile_eq_self_iff]
  exact fun byte member => by simpa using ne_of_mem_of_not_mem member free

theorem lastPiece_of_free (free : 0x09 ∉ piece) : lastPiece piece = piece := by
  rw [lastPiece, List.rtakeWhile_eq_self_iff]
  exact fun byte member => by simpa using ne_of_mem_of_not_mem member free

theorem firstPiece_tab (free : 0x09 ∉ piece) (rest : Bytes) :
    firstPiece (piece ++ 0x09 :: rest) = piece := by
  have plain : ∀ byte ∈ piece, decide (byte ≠ 0x09) = true :=
    fun byte member => by simpa using ne_of_mem_of_not_mem member free
  rw [firstPiece, List.takeWhile_append_of_pos plain]
  simp

theorem lastPiece_tab (piece rest : Bytes) :
    lastPiece (piece ++ 0x09 :: rest) = lastPiece rest := by
  induction rest using List.reverseRecOn with
  | nil => simp [lastPiece]
  | append_singleton rest byte ih =>
      rw [lastPiece, lastPiece] at ih
      rw [← List.cons_append, ← List.append_assoc, lastPiece, lastPiece, List.rtakeWhile_concat,
        List.rtakeWhile_concat, ih]

end Pieces

namespace Shows

variable {column reached : Nat} {line shown : Bytes}

/-- The column reached is that of the cells of what is shown. -/
theorem reached_eq (measure : Bytes.IsMeasure width)
    (shows : Shows width column line shown reached) : reached = column + width shown := by
  induction shows with
  | piece => rfl
  | tab _ filled _ _ _ ih =>
      rw [ih, measure.width_between (.replicate _ (by decide)) (by simpa using filled.ne'),
        List.length_replicate]
      omega

/-- Stretches that abut are shown one after the other. -/
theorem append {front back other : Bytes} {middle : Nat}
    (first : Shows width column front shown middle)
    (second : Shows width middle back other reached) (abut : Abut width front back) :
    Shows width column (front ++ back) (shown ++ other) reached := by
  induction first with
  | piece free =>
      rw [Abut, lastPiece_of_free free] at abut
      cases second with
      | piece others =>
          rw [firstPiece_of_free others] at abut
          rw [Nat.add_assoc, ← abut]
          exact .piece (List.not_mem_append free others)
      | tab others filled near stop behind =>
          rw [firstPiece_tab others] at abut
          rw [Nat.add_assoc _ _ (width _), ← abut] at stop behind
          rw [← List.append_assoc, ← List.append_assoc]
          exact .tab (List.not_mem_append free others) filled near stop behind
  | tab free filled near stop _ ih =>
      rw [Abut, lastPiece_tab] at abut
      rw [List.append_assoc, List.append_assoc, List.append_assoc]
      exact .tab free filled near stop (ih second abut)

end Shows

/-! ## Expansion -/

/-- There is one way to show a stretch of a line. -/
theorem Shows.eq_expandTabs {column reached : Nat} {line shown : Bytes}
    (shows : Shows width column line shown reached) :
    expandTabs width column line = (shown, reached) := by
  induction shows with
  | piece free =>
      rw [expandTabs, Bytes.splitOn_eq, List.splitOn_eq_singleton free]
      rfl
  | @tab column pad _ piece rest _ free filled near stop _ ih =>
      have next : pad = tabWidth - (column + width piece) % tabWidth := by
        simp only [tabWidth] at near stop ⊢
        omega
      rw [expandTabs] at ih
      rw [expandTabs, Bytes.splitOn_eq, List.splitOn_append_cons_self_of_not_mem free,
        ← Bytes.splitOn_eq, expandPieces]
      · simp only [← next, ih, List.append_assoc]
      · exact Bytes.splitOn_eq 0x09 rest ▸ List.splitOnP_ne_nil _ _

/-- Every stretch of a line can be shown from any column on. -/
theorem exists_shows (width : Bytes → Nat) (column : Nat) (line : Bytes) :
    ∃ shown reached, Shows width column line shown reached := by
  by_cases tabbed : 0x09 ∈ line
  · obtain ⟨piece, rest, same, free⟩ := List.eq_append_cons_of_mem tabbed
    have shorter : rest.length < line.length := by
      rw [same, List.length_append, List.length_cons]
      omega
    obtain ⟨shown, reached, behind⟩ := exists_shows width
      (column + width piece + (tabWidth - (column + width piece) % tabWidth)) rest
    rw [same]
    refine ⟨_, reached, .tab free ?_ ?_ ?_ behind⟩
    all_goals
      simp only [tabWidth]
      omega
  · exact ⟨line, _, .piece tabbed⟩
termination_by line.length
decreasing_by exact shorter

/-- Expansion shows a stretch of a line, and nothing else does. -/
theorem shows_iff {column reached : Nat} {line shown : Bytes} :
    Shows width column line shown reached ↔ expandTabs width column line = (shown, reached) := by
  refine ⟨Shows.eq_expandTabs, fun same => ?_⟩
  obtain ⟨other, stop, shows⟩ := exists_shows width column line
  rw [shows.eq_expandTabs, Prod.mk.injEq] at same
  rwa [← same.1, ← same.2]

/-! ## The three parts of a line -/

/-- The number of bytes of a line in front of the caret, for a column counted from
one. -/
def caretAt (line : Bytes) (column : Int) : Nat :=
  min (column - 1).toNat line.length

/-- The number of bytes of a line up to where the tildes end. -/
def markEnd (line : Bytes) (column length : Int) : Int :=
  min (caretAt line column + length) line.length

/-- With at least one byte to mark, the cuts stand in the line and in order. -/
theorem caretAt_le_markEnd (line : Bytes) (column : Int) {length : Int} (positive : 1 ≤ length) :
    (caretAt line column : Int) ≤ markEnd line column length ∧
      markEnd line column length ≤ line.length := by
  simp only [markEnd, caretAt]
  omega

section Parts

variable {line first marked final : Bytes} {column length : Int} {before reached whole : Nat}

/-- What is shown of a line and the marker under it, from its three parts. -/
theorem ofLine_eq (leads : Shows width 0 (line.take (caretAt line column)) first before)
    (marks : Shows width before
      (line.slice (caretAt line column) (markEnd line column length).toNat) marked reached)
    (ends : Shows width reached (line.drop (markEnd line column length).toNat) final whole) :
    ofLine line column length width =
      (first ++ marked ++ final,
        List.replicate before 0x20 ++ [0x5e] ++ List.replicate (reached - before - 1) 0x7e) := by
  rw [shows_iff] at leads marks ends
  simp only [caretAt, markEnd] at leads marks ends
  simp only [ofLine, leads, marks, ends]

end Parts

/-- A marker is as wide as it is long. -/
theorem width_marker (measure : Bytes.IsMeasure width) (before tildes : Nat) :
    width (List.replicate before 0x20 ++ 0x5e :: List.replicate tildes 0x7e) =
      before + 1 + tildes := by
  rw [measure.printable 0x5e (by decide), measure.width_printable (.replicate before (by decide)),
    measure.width_printable (.replicate tildes (by decide)), List.length_replicate,
    List.length_replicate]

/-- An excerpt of a line whose first `place` bytes stand in front of the caret: the text
shows the whole line, which can be shown in no other way, and the marker is a
caret behind as many blanks as what is shown of those bytes takes cells, with
tildes up to the end of the text at most. -/
structure Aligned (width : Bytes → Nat) (line : Bytes) (place : Nat) (text marker : Bytes) :
    Prop where
  shows : Shows width 0 line text (width text)
  only : ∀ shown reached, Shows width 0 line shown reached → shown = text
  under : ∃ before tildes, Shows width 0 (line.take place) before (width before) ∧
    before <+: text ∧
    marker = List.replicate (width before) 0x20 ++ 0x5e :: List.replicate tildes 0x7e ∧
    width marker ≤ max (width before + 1) (width text)

/-- Where the three parts of a line abut the excerpt is aligned. -/
theorem ofLine_aligned (measure : Bytes.IsMeasure width) {line : Bytes} {column length : Int}
    (positive : 1 ≤ length)
    (caret : Abut width (line.take (caretAt line column))
      (line.slice (caretAt line column) (markEnd line column length).toNat))
    (mark : Abut width (line.take (markEnd line column length).toNat)
      (line.drop (markEnd line column length).toNat)) :
    Aligned width line (caretAt line column) (ofLine line column length width).1
      (ofLine line column length width).2 := by
  obtain ⟨first, before, leads⟩ := exists_shows width 0 (line.take (caretAt line column))
  obtain ⟨marked, reached, marks⟩ := exists_shows width before
    (line.slice (caretAt line column) (markEnd line column length).toNat)
  obtain ⟨final, whole, ends⟩ :=
    exists_shows width reached (line.drop (markEnd line column length).toNat)
  have cut : line.take (caretAt line column) ++
      line.slice (caretAt line column) (markEnd line column length).toNat =
        line.take (markEnd line column length).toNat := by
    have order := caretAt_le_markEnd line column positive
    rw [Bytes.slice, ← List.take_add]
    congr 1
    omega
  have all := (cut ▸ leads.append marks caret).append ends mark
  rw [List.take_append_drop] at all
  -- Every column that is counted is the number of cells shown so far.
  have beforeEq := leads.reached_eq measure
  have reachedEq := marks.reached_eq measure
  have endsEq := ends.reached_eq measure
  have wholeEq := all.reached_eq measure
  rw [Nat.zero_add] at beforeEq wholeEq
  subst beforeEq
  rw [ofLine_eq leads marks ends]
  refine ⟨wholeEq ▸ all, fun shown other shows => ?_, first, reached - width first - 1, leads, ?_,
    ?_, ?_⟩
  · exact congrArg Prod.fst ((shows_iff.mp shows).symm.trans (shows_iff.mp all))
  · rw [List.append_assoc]
    exact List.prefix_append _ _
  · simp
  · dsimp only
    rw [List.append_assoc, List.singleton_append, width_marker measure]
    omega

example :
    ofLine "\tx = \u65e5\u672c;" 6 6 =
      (Bytes.ofString "    x = \u65e5\u672c;", Bytes.ofString "        ^~~~") := by
  decide +kernel

end Excerpt

/-! ## Diagnostics of a parse -/

theorem Diagnostic.one_le_underline (diagnostic : Diagnostic) (line : Bytes) :
    1 ≤ diagnostic.underline line :=
  le_max_right _ _

namespace Source

open Excerpt

/-- With its own source a diagnostic of a parse is always shown with an excerpt, of
the line on which it starts: its line is there and the caret stands in front of
what the text holds from its offset on. -/
theorem parse_shown (width : Bytes → Nat) (source : Source) (entry : Entry) (options : Options)
    {diagnostic : Diagnostic} (member : diagnostic ∈ (source.parse entry options).diagnostics)
    {sources : Bytes → Option Source} (known : sources diagnostic.file = some source) :
    ∃ line, line = source.line diagnostic.start.line ∧
      (1 ≤ diagnostic.start.line ∧ diagnostic.start.line ≤ source.lineCount) ∧
      line.drop (caretAt line diagnostic.start.column) <+:
        source.text.drop diagnostic.start.offset.toNat ∧
      diagnostic.render sources width =
        diagnostic.line ++ [0x0a] ++
          List.replicate 4 0x20 ++
            (ofLine line diagnostic.start.column (diagnostic.underline line) width).1 ++ [0x0a] ++
          List.replicate 4 0x20 ++
            (ofLine line diagnostic.start.column (diagnostic.underline line) width).2 ++
              [0x0a] := by
  obtain ⟨offset, -, boundary, -, -, here, -⟩ :=
    source.parse_boundaries entry options diagnostic member
  obtain ⟨index, start, line, rest, stands⟩ := source.exists_standsIn boundary.inside
  have number : diagnostic.start.line = (index + 1 : Nat) := by
    rw [here, Pos.toPlace, stands.number]
  have place : (diagnostic.start.column - 1).toNat = offset - start := by
    have column := stands.column
    rw [here]
    simp only [Pos.toPlace]
    omega
  have listed := stands.listed
  have present : ¬ (diagnostic.start.line < 1 || source.lineCount < diagnostic.start.line) := by
    simp [number]
    omega
  have lineEq : line = source.line diagnostic.start.line := by
    rw [number]
    exact stands.line_eq.symm
  refine ⟨line, lineEq, by omega, ?_, ?_⟩
  · have offsetEq : diagnostic.start.offset.toNat = offset := by
      rw [here]
      simp [Pos.toPlace, source.position_offset boundary.inside]
    rw [offsetEq, caretAt, place]
    rcases Nat.lt_or_ge line.length (offset - start) with past | inside
    · rw [Nat.min_eq_right (Nat.le_of_lt past), List.drop_length]
      exact List.nil_prefix
    · obtain ⟨passed, rfl⟩ := Nat.exists_eq_add_of_le stands.start_le
      rw [Nat.add_sub_cancel_left] at inside
      rw [Nat.add_sub_cancel_left, Nat.min_eq_left inside, ← List.drop_drop, stands.spelled,
        List.drop_append_of_le_length inside]
      exact List.prefix_append _ _
  · simp only [Diagnostic.render, known, if_neg present, ← lineEq]

/-- What is shown of a line does not depend on where the caret stands, and the caret
stands under the byte it is about: behind as many blanks as what is in front of
that byte takes cells. Columns and lengths are those that 64 bits hold. A
diagnostic of a parse is shown in this way with at least one byte marked, and
the line is cut inside of it. -/
theorem excerpt_aligned (width : Bytes → Nat) :
    (Bytes.IsMeasure width → ∀ (line : Bytes) (column length : Int),
      -2 ^ 63 < column → 1 ≤ length → column + length < 2 ^ 63 →
      Abut width (line.take (caretAt line column))
        (line.slice (caretAt line column) (markEnd line column length).toNat) →
      Abut width (line.take (markEnd line column length).toNat)
        (line.drop (markEnd line column length).toNat) →
      Aligned width line (caretAt line column) (ofLine line column length width).1
        (ofLine line column length width).2) ∧
    ∀ (source : Source) (entry : Entry) (options : Options),
      ∀ diagnostic ∈ (source.parse entry options).diagnostics,
        ∀ sources : Bytes → Option Source, sources diagnostic.file = some source →
          ∃ line length, line = source.line diagnostic.start.line ∧
            length = diagnostic.underline line ∧ 1 ≤ length ∧
            (caretAt line diagnostic.start.column : Int) ≤
              markEnd line diagnostic.start.column length ∧
            markEnd line diagnostic.start.column length ≤ line.length ∧
            (1 ≤ diagnostic.start.line ∧ diagnostic.start.line ≤ source.lineCount) ∧
            line.drop (caretAt line diagnostic.start.column) <+:
              source.text.drop diagnostic.start.offset.toNat ∧
            diagnostic.render sources width =
              diagnostic.line ++ [0x0a] ++
                List.replicate 4 0x20 ++
                  (ofLine line diagnostic.start.column length width).1 ++ [0x0a] ++
                List.replicate 4 0x20 ++
                  (ofLine line diagnostic.start.column length width).2 ++ [0x0a] := by
  refine ⟨fun measure line column length _ positive _ caret mark =>
    ofLine_aligned measure positive caret mark, ?_⟩
  intro source entry options diagnostic member sources known
  obtain ⟨line, lineEq, present, ahead, shown⟩ :=
    source.parse_shown width entry options member known
  have positive := diagnostic.one_le_underline line
  have cuts := caretAt_le_markEnd line diagnostic.start.column positive
  exact ⟨line, diagnostic.underline line, lineEq, rfl, positive, cuts.1, cuts.2, present, ahead,
    shown⟩

/-- A caret behind a tab and under wide characters, and the excerpt of a missing
expression. -/
theorem excerpt_aligned_wide :
    Aligned Bytes.width "\tx = \u65e5\u672c;" 5 (ofLine "\tx = \u65e5\u672c;" 6 6).1
      (ofLine "\tx = \u65e5\u672c;" 6 6).2 ∧
    ∃ diagnostic, ((of [] "\n\tx = ;\n").parse .statement).diagnostics = [diagnostic] ∧
      ∃ line length, line = Bytes.ofString "\tx = ;" ∧ 1 ≤ length ∧
        diagnostic.render (fun _ => some (of [] "\n\tx = ;\n")) =
          diagnostic.line ++ [0x0a] ++
            List.replicate 4 0x20 ++ (ofLine line diagnostic.start.column length).1 ++ [0x0a] ++
            List.replicate 4 0x20 ++ (ofLine line diagnostic.start.column length).2 ++ [0x0a] := by
  constructor
  · exact (excerpt_aligned Bytes.width).1 Bytes.isMeasure_width "\tx = \u65e5\u672c;" 6 6
      (by decide) (by decide) (by decide) (by decide +kernel) (by decide +kernel)
  · have one : ((of [] "\n\tx = ;\n").parse .statement).diagnostics.map
        (fun diagnostic => (of [] "\n\tx = ;\n").line diagnostic.start.line) =
          [Bytes.ofString "\tx = ;"] := by
      decide +kernel
    obtain ⟨diagnostic, single, lineEq⟩ := List.map_eq_singleton_iff.mp one
    obtain ⟨line, length, same, -, positive, -, -, -, -, shown⟩ :=
      (excerpt_aligned Bytes.width).2 (of [] "\n\tx = ;\n") .statement {} diagnostic
        (single ▸ List.mem_singleton_self _) (fun _ => some (of [] "\n\tx = ;\n")) rfl
    exact ⟨diagnostic, single, line, length, same.trans lineEq, positive, shown⟩

end Source

end JavaFront
