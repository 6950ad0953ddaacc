import JavaFront.Proofs.Listing.JsonRecords

/-!
# The layout of JSON texts

A value may also be written without any blanks. The layout on lines is what an
indenter makes of that text, which goes through it byte by byte and knows only
whether it is in a string and how many brackets are open. It breaks the line
behind commas and at brackets that have something between them, and puts a blank
behind colons.

Whatever strings a tree carries, its text holds no character that means
something to a web page, and no control character except for its line breaks.
-/

namespace JavaFront.Listing.Json

/-! ## Values without blanks -/

mutual

/-- A value without blanks. -/
def compact : Json → Bytes
  | .text value => string value
  | .number value => Bytes.ofInt value
  | .list [] => [0x5b, 0x5d]
  | .list (item :: items) => [0x5b] ++ compact item ++ compactItems items ++ [0x5d]
  | .object [] => [0x7b, 0x7d]
  | .object ((key, value) :: members) =>
    [0x7b] ++ string (Bytes.ofString key) ++ [0x3a] ++ compact value ++ compactMembers members ++
      [0x7d]

/-- The further elements of a list, each behind a comma. -/
def compactItems : List Json → Bytes
  | [] => []
  | item :: items => [0x2c] ++ compact item ++ compactItems items

/-- The further members of an object, each behind a comma. -/
def compactMembers : List (String × Json) → Bytes
  | [] => []
  | (key, value) :: members =>
    [0x2c] ++ string (Bytes.ofString key) ++ [0x3a] ++ compact value ++ compactMembers members

end

namespace Indenter

/-- Whether an indenter is between strings, in one, or in one behind a
backslash. -/
inductive Mode where
  | outside | quoted | escaped

/-- What an indenter makes of a mark outside of strings, and the depth behind it. -/
def lay (depth : Nat) (mark : UInt8) : Bytes × Nat :=
  if mark = 0x2c then (mark :: newline depth, depth)
  else if mark = 0x3a then ([mark, 0x20], depth)
  else if mark = 0x7d || mark = 0x5d then (newline (depth - 1) ++ [mark], depth - 1)
  else ([mark], depth)

/-- A text laid out on lines. Behind a bracket that opens, the line is broken
once it is seen that the bracket does not close at once; until then `opened` is
set. -/
def run : (mode : Mode) → (opened : Bool) → (depth : Nat) → Bytes → Bytes
  | _, _, _, [] => []
  | .escaped, opened, depth, byte :: rest => byte :: run .quoted opened depth rest
  | .quoted, opened, depth, byte :: rest =>
    byte :: run (if byte = 0x22 then .outside else if byte = 0x5c then .escaped else .quoted)
      opened depth rest
  | .outside, opened, depth, byte :: rest =>
    if Reader.isBlank byte then run .outside opened depth rest
    else if opened && (byte = 0x7d || byte = 0x5d) then byte :: run .outside false depth rest
    else
      let start := if opened then depth + 1 else depth
      let front := if opened then newline start else []
      let (laid, depth) := lay start byte
      front ++ laid ++
        run (if byte = 0x22 then .quoted else .outside) (byte = 0x7b || byte = 0x5b) depth rest

end Indenter

open Indenter in
/-- A text without blanks laid out on lines. -/
def indent (text : Bytes) : Bytes :=
  run .outside false 0 text

namespace Indenter

open Reader

/-- Bytes that mean nothing to an indenter outside of strings. -/
def IsPlain (byte : UInt8) : Prop :=
  Reader.isBlank byte = false ∧ byte ∉ [0x2c, 0x3a, 0x7b, 0x7d, 0x5b, 0x5d, 0x22]

instance (byte : UInt8) : Decidable (IsPlain byte) :=
  inferInstanceAs (Decidable (_ ∧ _))

theorem run_plain {front : Bytes} (plain : ∀ byte ∈ front, IsPlain byte) (depth : Nat)
    (rest : Bytes) :
    run .outside false depth (front ++ rest) = front ++ run .outside false depth rest := by
  induction front with
  | nil => rfl
  | cons byte front ih =>
      rw [List.forall_mem_cons] at plain
      obtain ⟨⟨noBlank, noMark⟩, others⟩ := plain
      simp only [List.mem_cons, List.not_mem_nil, or_false, not_or] at noMark
      simp [run, lay, noBlank, noMark, ih others]

/-- Bytes that do not end a string. -/
theorem run_quoted {front : Bytes} (plain : ∀ byte ∈ front, byte ≠ 0x22 ∧ byte ≠ 0x5c)
    (opened : Bool) (depth : Nat) (rest : Bytes) :
    run .quoted opened depth (front ++ rest) = front ++ run .quoted opened depth rest := by
  induction front with
  | nil => rfl
  | cons byte front ih =>
      rw [List.forall_mem_cons] at plain
      simp [run, plain.1, ih plain.2]

theorem isHexDigit_of_mem_hex {width n : Nat} {byte : UInt8} (member : byte ∈ Bytes.hex width n) :
    Bytes.isHexDigit byte = true := by
  induction width generalizing n with
  | zero => cases member
  | succ width ih =>
      rcases List.mem_append.mp member with front | last
      · exact ih front
      · rw [List.mem_singleton.mp last]
        exact (hexValue_hexDigit (Nat.mod_lt n (by decide))).1

/-- No spelling of a character ends the string. -/
theorem run_escapeCode {code : Nat} (proper : code.isValidChar) (opened : Bool) (depth : Nat)
    (rest : Bytes) :
    run .quoted opened depth (escapeCode code ++ rest) =
      escapeCode code ++ run .quoted opened depth rest := by
  rcases escapeCode_cases code with ⟨letter, byte, found, spelling, escape⟩ |
    ⟨small, escape⟩ | ⟨visible, plain, escape⟩
  · rw [escape]
    rfl
  · have digits : ∀ byte ∈ Bytes.hex 4 code, byte ≠ 0x22 ∧ byte ≠ 0x5c := by
      intro byte member
      have digit := isHexDigit_of_mem_hex member
      constructor <;> rintro rfl <;> cases digit
    have behind := run_quoted digits opened depth rest
    rw [escape]
    change 0x5c :: 0x75 :: run .quoted opened depth (Bytes.hex 4 code ++ rest) = _
    rw [behind]
    rfl
  · have bytes : ∀ byte ∈ Rune.encode code, byte ≠ 0x22 ∧ byte ≠ 0x5c := by
      simp only [List.mem_cons, not_or] at plain
      intro byte member
      have range := Rune.mem_encode proper byte member
      simp only [ne_eq, ← UInt8.toNat_inj, UInt8.reduceToNat]
      omega
    rw [escape, run_quoted bytes]

theorem run_string {value : Bytes} (valid : value.isValid) (depth : Nat) (rest : Bytes) :
    run .outside false depth (string value ++ rest) =
      string value ++ run .outside false depth rest := by
  obtain ⟨codes, proper, rfl⟩ := Bytes.exists_codes value valid
  clear valid
  have body : run .quoted false depth (codes.flatMap escapeCode ++ (0x22 :: rest)) =
      codes.flatMap escapeCode ++ (0x22 :: run .outside false depth rest) := by
    induction codes with
    | nil => rfl
    | cons code codes ih =>
        rw [List.forall_mem_cons] at proper
        rw [List.flatMap_cons, List.append_assoc, run_escapeCode proper.1, ih proper.2,
          List.append_assoc]
  rw [string_ofCodes proper, List.append_assoc, List.append_assoc]
  change 0x22 :: run .quoted false depth (codes.flatMap escapeCode ++ (0x22 :: rest)) = _
  rw [body]
  simp

theorem run_ofInt (n : Int) (depth : Nat) (rest : Bytes) :
    run .outside false depth (Bytes.ofInt n ++ rest) =
      Bytes.ofInt n ++ run .outside false depth rest := by
  refine run_plain (fun byte member => ?_) depth rest
  rcases Bytes.mem_ofInt n byte member with rfl | digit
  · decide
  · simp only [IsPlain, isBlank, List.mem_cons, List.not_mem_nil, or_false, not_or,
      Bool.or_eq_false_iff, decide_eq_false_iff_not, ← UInt8.toNat_inj, UInt8.reduceToNat]
    simp [Bytes.isDigit, UInt8.le_iff_toNat_le] at digit
    omega

/-- Behind a bracket that opens, the line is broken in front of what stands
between it and the bracket that closes. -/
theorem run_opened (first : UInt8) (proper : isBlank first = false)
    (noClose : first ≠ 0x7d ∧ first ≠ 0x5d) (depth : Nat) (rest : Bytes) :
    run .outside true depth (first :: rest) =
      newline (depth + 1) ++ run .outside false (depth + 1) (first :: rest) := by
  simp [run, proper, noClose]

/-- A value is laid out wherever it stands. -/
def Lays (json : Json) : Prop :=
  ∀ depth rest, run .outside false depth (json.compact ++ rest) =
    json.render depth ++ run .outside false depth rest

theorem run_compactItems {items : List Json} (each : ∀ json ∈ items, Lays json) (depth : Nat)
    (rest : Bytes) :
    run .outside false (depth + 1) (compactItems items ++ 0x5d :: rest) =
      renderItems depth items ++ (newline depth ++ 0x5d :: run .outside false depth rest) := by
  induction items with
  | nil => simp [compactItems, renderItems, run, lay, isBlank]
  | cons item items ih =>
      rw [List.forall_mem_cons] at each
      have first := each.1 (depth + 1) (compactItems items ++ 0x5d :: rest)
      rw [ih each.2] at first
      simp [compactItems, renderItems, run, lay, isBlank, first]

/-- No value begins with a bracket that closes. -/
theorem compact_eq_cons (json : Json) : ∃ first tail, json.compact = first :: tail ∧
    isBlank first = false ∧ first ≠ 0x7d ∧ first ≠ 0x5d := by
  match json with
  | .text _ | .list [] | .list (_ :: _) | .object [] | .object ((_, _) :: _) =>
      rw [compact]
      exact ⟨_, _, rfl, rfl, by decide, by decide⟩
  | .number value =>
      obtain ⟨first, tail, spelling, proper, other⟩ := ofInt_eq_cons value
      exact ⟨first, tail, by rw [compact, spelling], proper, other 0x7d (by decide) rfl,
        other 0x5d (by decide) rfl⟩

theorem lays_list {items : List Json} (each : ∀ json ∈ items, Lays json) : Lays (.list items) := by
  intro depth rest
  cases items with
  | nil => simp [compact, render, run, lay, isBlank]
  | cons item items =>
      rw [List.forall_mem_cons] at each
      obtain ⟨first, tail, spelling, proper, noClose⟩ := compact_eq_cons item
      have opened := run_opened first proper noClose depth
        (tail ++ (compactItems items ++ 0x5d :: rest))
      have front := each.1 (depth + 1) (compactItems items ++ 0x5d :: rest)
      rw [run_compactItems each.2] at front
      rw [← List.cons_append, ← spelling, front] at opened
      simp [compact, render, run, lay, isBlank, opened]

/-- A member behind its comma or brace. -/
theorem run_member (key : String) {value : Json} (lays : Lays value) (depth : Nat)
    (rest : Bytes) :
    run .outside false depth
        (string (Bytes.ofString key) ++ (0x3a :: (value.compact ++ rest))) =
      string (Bytes.ofString key) ++ (0x3a :: 0x20 :: (value.render depth ++
        run .outside false depth rest)) := by
  rw [run_string (Bytes.isValid_ofString key)]
  simp [run, lay, isBlank, lays depth rest]

theorem run_compactMembers {members : List (String × Json)}
    (each : ∀ member ∈ members, Lays member.2) (depth : Nat) (rest : Bytes) :
    run .outside false (depth + 1) (compactMembers members ++ 0x7d :: rest) =
      renderMembers depth members ++
        (newline depth ++ 0x7d :: run .outside false depth rest) := by
  induction members with
  | nil => simp [compactMembers, renderMembers, run, lay, isBlank]
  | cons member members ih =>
      obtain ⟨key, value⟩ := member
      rw [List.forall_mem_cons] at each
      have first := run_member key each.1 (depth + 1) (compactMembers members ++ 0x7d :: rest)
      rw [ih each.2] at first
      simp [compactMembers, renderMembers, run, lay, isBlank, first]

theorem lays_object {members : List (String × Json)} (each : ∀ member ∈ members, Lays member.2) :
    Lays (.object members) := by
  intro depth rest
  cases members with
  | nil => simp [compact, render, run, lay, isBlank]
  | cons member members =>
      obtain ⟨key, value⟩ := member
      rw [List.forall_mem_cons] at each
      have front := run_member key each.1 (depth + 1) (compactMembers members ++ 0x7d :: rest)
      rw [run_compactMembers each.2] at front
      have opened := run_opened 0x22 rfl (by decide) depth
        (((Bytes.ofString key).spelledRunes.flatMap fun unit => escapeRune unit.1 unit.2) ++
          [0x22] ++ (0x3a :: (value.compact ++ (compactMembers members ++ 0x7d :: rest))))
      have spelling : ∀ rest, 0x22 :: (((Bytes.ofString key).spelledRunes.flatMap
          fun unit => escapeRune unit.1 unit.2) ++ [0x22] ++ rest) =
            string (Bytes.ofString key) ++ rest := by
        intro rest
        simp [string]
      rw [spelling, front] at opened
      simp [compact, render, run, lay, isBlank, opened]

mutual

/-- Every value is laid out as it is written on lines. -/
theorem lays : (json : Json) → json.Valid → Lays json
  | .text _, valid => fun depth rest => run_string valid depth rest
  | .number value, _ => fun depth rest => run_ofInt value depth rest
  | .list items, valid => lays_list (lays_items items valid)
  | .object members, valid => lays_object (lays_members members valid)

theorem lays_items : (items : List Json) → AllValid items → ∀ json ∈ items, Lays json
  | [], _ => fun _ member => absurd member List.not_mem_nil
  | item :: items, valid => List.forall_mem_cons.mpr ⟨lays item valid.1, lays_items items valid.2⟩

theorem lays_members : (members : List (String × Json)) → MembersValid members →
    ∀ member ∈ members, Lays member.2
  | [], _ => fun _ member => absurd member List.not_mem_nil
  | (_, value) :: members, valid => List.forall_mem_cons.mpr
      ⟨lays value valid.1, lays_members members valid.2⟩

end

end Indenter

/-- The layout on lines is the indented text without blanks. -/
theorem render_eq_indent {json : Json} (valid : json.Valid) :
    json.render 0 = indent json.compact := by
  have laid := Indenter.lays json valid 0 []
  simpa [indent, Indenter.run] using laid.symm

/-! ## Texts inside of web pages -/

/-- A code point that may stand in a text without meaning anything to a web page
or a script. -/
def Harmless (code : Nat) : Prop :=
  code.isValidChar ∧ (0x20 ≤ code ∨ code = 0x0a) ∧
    code ∉ [0x3c, 0x3e, 0x26, 0x2028, 0x2029]

instance (code : Nat) : Decidable (Harmless code) :=
  inferInstanceAs (Decidable (_ ∧ _))

/-- The text is made of harmless characters. -/
def Tame (text : Bytes) : Prop :=
  ∃ codes : List Nat, (∀ code ∈ codes, Harmless code) ∧ text = Bytes.ofCodes codes

namespace Tame

theorem nil : Tame [] :=
  ⟨[], by simp, rfl⟩

theorem append {text other : Bytes} (first : Tame text) (second : Tame other) :
    Tame (text ++ other) := by
  obtain ⟨codes, harmless, rfl⟩ := first
  obtain ⟨others, alsoHarmless, rfl⟩ := second
  exact ⟨codes ++ others, List.forall_mem_append.mpr ⟨harmless, alsoHarmless⟩, by simp⟩

/-- One-byte characters are their own code points. -/
theorem of_bytes {text : Bytes} (harmless : ∀ byte ∈ text, byte < 0x80 ∧ Harmless byte.toNat) :
    Tame text := by
  refine ⟨text.map UInt8.toNat, ?_, ?_⟩
  · intro code member
    obtain ⟨byte, inside, rfl⟩ := List.mem_map.mp member
    exact (harmless byte inside).2
  · induction text with
    | nil => rfl
    | cons byte text ih =>
        rw [List.forall_mem_cons] at harmless
        have single : Rune.encode byte.toNat = [byte] := by
          have small : byte.toNat < 0x80 := UInt8.lt_iff_toNat_lt.mp harmless.1.1
          rw [Rune.encode, if_pos small]
          simp
        rw [List.map_cons, Bytes.ofCodes_cons, single, ← ih harmless.2]
        rfl

theorem of_marks {text : Bytes}
    (harmless : text.all (fun byte => byte < 0x80 && Harmless byte.toNat) = true) : Tame text := by
  refine of_bytes fun byte member => ?_
  have checked := List.all_eq_true.mp harmless byte member
  rwa [Bool.and_eq_true, decide_eq_true_eq, decide_eq_true_eq] at checked

/-- The text is tame as a sequence of runes. -/
theorem runes {text : Bytes} (tame : Tame text) :
    ∀ rune ∈ text.runes, rune.wellFormed ∧ Harmless rune.code := by
  obtain ⟨codes, harmless, rfl⟩ := tame
  have read := Bytes.spelledRunes_ofCodes (fun code member => (harmless code member).1) []
  rw [List.append_nil, Bytes.spelledRunes_nil, List.append_nil] at read
  intro rune member
  rw [Bytes.runes_eq, read, List.map_map] at member
  obtain ⟨code, inside, rfl⟩ := List.mem_map.mp member
  exact ⟨rfl, harmless code inside⟩

theorem harmless_of_isHexDigit {byte : UInt8} (digit : Bytes.isHexDigit byte = true) :
    byte < 0x80 ∧ Harmless byte.toNat := by
  simp only [Bytes.isHexDigit, Bytes.isDigit, Bool.or_eq_true, Bool.and_eq_true,
    decide_eq_true_eq, UInt8.le_iff_toNat_le, UInt8.reduceToNat] at digit
  simp only [UInt8.lt_iff_toNat_lt, UInt8.reduceToNat, Harmless, Nat.isValidChar, List.mem_cons,
    List.not_mem_nil, or_false, not_or]
  omega

open Reader

theorem escapeCode {code : Nat} (proper : code.isValidChar) : Tame (escapeCode code) := by
  rcases escapeCode_cases code with ⟨letter, byte, found, -, escape⟩ | ⟨-, escape⟩ |
    ⟨visible, plain, escape⟩
  · have known : (letterEscapes.map Prod.fst).all
        (fun letter => letter < 0x80 && Harmless letter.toNat) = true := by decide
    obtain ⟨front, behind, same, -⟩ := List.lookup_eq_some_iff.mp found
    have letterKnown := List.all_eq_true.mp known letter (by rw [same]; simp)
    rw [escape]
    exact append (of_marks (by decide) : Tame [0x5c])
      (of_marks (by rw [List.all_cons, letterKnown, List.all_nil, Bool.and_self]))
  · rw [escape]
    refine append (of_marks (by decide)) (of_bytes fun byte member => ?_)
    exact harmless_of_isHexDigit (Indenter.isHexDigit_of_mem_hex member)
  · have bare : code ∉ [0x3c, 0x3e, 0x26, 0x2028, 0x2029] := by
      simp only [List.mem_cons, List.not_mem_nil, or_false, not_or] at plain ⊢
      exact plain.2.2
    rw [escape]
    exact ⟨[code], by simpa using ⟨proper, .inl visible, bare⟩, by simp⟩

theorem string {value : Bytes} (valid : value.isValid) : Tame (string value) := by
  obtain ⟨codes, proper, rfl⟩ := Bytes.exists_codes value valid
  clear valid
  have body : Tame (codes.flatMap Reader.escapeCode) := by
    induction codes with
    | nil => exact nil
    | cons code codes ih =>
        rw [List.forall_mem_cons] at proper
        exact append (escapeCode proper.1) (ih proper.2)
  rw [string_ofCodes proper]
  exact append (append (of_marks (by decide)) body) (of_marks (by decide))

theorem newline (depth : Nat) : Tame (newline depth) := by
  refine of_bytes fun byte member => ?_
  rcases List.mem_cons.mp member with rfl | member
  · decide
  · rw [List.eq_of_mem_replicate member]
    decide

theorem ofInt (n : Int) : Tame (Bytes.ofInt n) := by
  refine of_bytes fun byte member => ?_
  rcases Bytes.mem_ofInt n byte member with rfl | digit
  · decide
  · exact harmless_of_isHexDigit (by rw [Bytes.isHexDigit, digit, Bool.true_or, Bool.true_or])

/-- A member of an object, with the blanks around it. -/
theorem member (key : String) {value : Bytes} (tame : Tame value) (depth : Nat) :
    Tame (Json.newline depth ++ Json.string (Bytes.ofString key) ++ [0x3a, 0x20] ++ value) :=
  (((newline depth).append (string (Bytes.isValid_ofString key))).append
    (of_marks (by decide))).append tame

mutual

/-- A written value is tame. -/
theorem render : (json : Json) → json.Valid → (depth : Nat) → Tame (json.render depth)
  | .text _, valid, _ => string valid
  | .number value, _, _ => ofInt value
  | .list [], _, _ => (of_marks (by decide) : Tame [0x5b, 0x5d])
  | .list (item :: items), valid, depth => by
      have first := (newline (depth + 1)).append (render item valid.1 (depth + 1))
      have others := renderItems items valid.2 depth
      have opens : Tame [0x5b] := of_marks (by decide)
      have closes := (newline depth).append (of_marks (by decide) : Tame [0x5d])
      simpa [Json.render] using ((opens.append first).append others).append closes
  | .object [], _, _ => (of_marks (by decide) : Tame [0x7b, 0x7d])
  | .object ((key, value) :: members), valid, depth => by
      have first := member key (render value valid.1 (depth + 1)) (depth + 1)
      have others := renderMembers members valid.2 depth
      have opens : Tame [0x7b] := of_marks (by decide)
      have closes := (newline depth).append (of_marks (by decide) : Tame [0x7d])
      simpa [Json.render] using ((opens.append first).append others).append closes

theorem renderItems : (items : List Json) → AllValid items → (depth : Nat) →
    Tame (renderItems depth items)
  | [], _, _ => nil
  | item :: items, valid, depth => by
      have first := (newline (depth + 1)).append (render item valid.1 (depth + 1))
      have others := renderItems items valid.2 depth
      have comma : Tame [0x2c] := of_marks (by decide)
      simpa [Json.renderItems] using (comma.append first).append others

theorem renderMembers : (members : List (String × Json)) → MembersValid members → (depth : Nat) →
    Tame (renderMembers depth members)
  | [], _, _ => nil
  | (key, value) :: members, valid, depth => by
      have first := member key (render value valid.1 (depth + 1)) (depth + 1)
      have others := renderMembers members valid.2 depth
      have comma : Tame [0x2c] := of_marks (by decide)
      simpa [Json.renderMembers] using (comma.append first).append others

end

end Tame

/-- The text of a tree is read back as the record of the tree. It is the text
without blanks, indented and ended by a line break, and no character in it means
anything to a web page. -/
theorem document_carries_tree {tree : Node} (legible : Legible tree) :
    (read? (document (some tree))).bind Record.ofValue? = some (Record.of tree) ∧
      document (some tree) = indent (ofNode tree).compact ++ [0x0a] ∧
      ∀ rune ∈ (document (some tree)).runes, rune.wellFormed ∧ Harmless rune.code := by
  have valid := valid_ofNode tree legible
  have line : Tame [0x0a] := Tame.of_marks (by decide)
  refine ⟨read?_document legible, ?_, ((Tame.render _ valid 0).append line).runes⟩
  rw [document, render_eq_indent valid]

/-- A class with a comment in front, and an error in its body that names what
was expected there. -/
theorem document_carries_class_with_error :
    let mark : Token := ⟨.semicolon, ⟨⟨18, 1, 19⟩, ⟨19, 1, 20⟩⟩, ";"⟩
    let error : Node :=
      { kind := .error, span := mark.span, token := some mark,
        fault := some ⟨"expected <name>", ["identifier"], mark⟩ }
    let tree : Node :=
      { kind := .classDecl, span := ⟨⟨18, 1, 19⟩, ⟨19, 1, 20⟩⟩, children := [error],
        doc := some ⟨.comment, ⟨⟨0, 1, 1⟩, ⟨17, 1, 18⟩⟩, "/** \"A\" & B. */"⟩ }
    Legible tree ∧
      (read? (document (some tree))).bind Record.ofValue? = some (Record.of tree) ∧
      document (some tree) = indent (ofNode tree).compact ++ [0x0a] ∧
      ∀ rune ∈ (document (some tree)).runes, rune.wellFormed ∧ Harmless rune.code := by
  intro mark error tree
  have legible : Legible tree := by
    have root : LegibleNode tree := ⟨by decide, by decide, by simp [tree], by simp [tree]⟩
    have inside : LegibleNode error := by
      refine ⟨by decide, by decide, ?_, ?_⟩ <;> rintro fault ⟨⟩ <;> decide
    simpa [Legible, Node.nodes_eq, tree, error] using ⟨root, inside⟩
  exact ⟨legible, document_carries_tree legible⟩

end JavaFront.Listing.Json
