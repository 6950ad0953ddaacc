import JavaFront.Proofs.Listing.JsonReader
import JavaFront.Proofs.Text.Decimal
import JavaFront.Proofs.Text.Runes
import Mathlib.Tactic.FinCases

/-!
# Written values are read back

What a reader of JSON finds where a value is written is the value itself,
whatever the depth at which it is written and whatever stands behind it. A
string is read character by character, so the main fact is that no spelling of a
character can be taken for another or for the quote that closes the string.
-/

namespace JavaFront.Listing.Json

namespace Reader

/-! ## Blanks and marks -/

theorem behind?_blank {blank : UInt8} (isBlank : isBlank blank) (mark : UInt8) (text : Bytes) :
    behind? mark (blank :: text) = behind? mark text := by
  rw [behind?, List.dropWhile_cons_of_pos isBlank, behind?]

theorem behind?_mark {mark : UInt8} (proper : isBlank mark = false) (text : Bytes) :
    behind? mark (mark :: text) = some text := by
  simp [behind?, proper]

theorem behind?_other {mark byte : UInt8} (proper : isBlank byte = false) (other : byte ≠ mark)
    (text : Bytes) : behind? mark (byte :: text) = none := by
  simp [behind?, proper, other]

theorem dropWhile_newline (depth : Nat) (text : Bytes) :
    (newline depth ++ text).dropWhile isBlank = text.dropWhile isBlank := by
  have blank : ∀ byte ∈ newline depth, isBlank byte = true := by
    intro byte member
    rcases List.mem_cons.mp member with rfl | member
    · rfl
    · rw [List.eq_of_mem_replicate member]
      rfl
  rw [List.dropWhile_append_of_pos blank]

theorem behind?_newline (mark : UInt8) (depth : Nat) (text : Bytes) :
    behind? mark (newline depth ++ text) = behind? mark text := by
  rw [behind?, dropWhile_newline, behind?]

/-! ## Strings are read back -/

theorem hexValue_hexDigit {n : Nat} (small : n < 16) :
    Bytes.isHexDigit (Bytes.hexDigit n) = true ∧ Bytes.hexValue (Bytes.hexDigit n) = n := by
  interval_cases n <;> exact ⟨rfl, rfl⟩

theorem codeUnit?_hex {code : Nat} (small : code < 0x10000) (rest : Bytes) :
    codeUnit? (Bytes.hex 4 code ++ rest) = some (code, rest) := by
  have digit := fun n : Nat => hexValue_hexDigit (Nat.mod_lt n (show 0 < 16 by decide))
  simp only [Bytes.hex, List.nil_append, List.cons_append, codeUnit?, List.all_cons, List.all_nil,
    digit, Bool.and_true, if_true, List.foldl_cons, List.foldl_nil]
  congr 2
  omega

/-- An escape by number is read as the code point it was made for. -/
theorem character?_codeEscape {code : Nat} (proper : code.isValidChar) (small : code < 0x10000)
    (rest : Bytes) : character? (codeEscape code ++ rest) = some (Rune.encode code, rest) := by
  have read : codePoint? (Bytes.hex 4 code ++ rest) = some (code, rest) := by
    unfold Nat.isValidChar at proper
    rw [codePoint?, codeUnit?_hex small]
    simp only [Option.bind_eq_bind, Option.bind_some]
    rw [if_neg (by omega), if_neg (by omega)]
  change character? (0x5c :: 0x75 :: (Bytes.hex 4 code ++ rest)) = _
  simp [character?, escape?, read]

/-- A character that needs no escape is read as it stands. -/
theorem character?_encode {code : Nat} (proper : code.isValidChar) (visible : 0x20 ≤ code)
    (noQuote : code ≠ 0x22) (noBackslash : code ≠ 0x5c) (rest : Bytes) :
    character? (Rune.encode code ++ rest) = some (Rune.encode code, rest) := by
  obtain ⟨first, tail, spelling, read⟩ := Rune.decode_encode proper
  have lead := Rune.mem_encode proper first (spelling ▸ List.mem_cons_self)
  have notBackslash : first ≠ 0x5c := by
    simp only [ne_eq, ← UInt8.toNat_inj, UInt8.reduceToNat]
    omega
  have notQuote : ¬ (first < 0x20 || first = 0x22) = true := by
    simp only [Bool.or_eq_true, decide_eq_true_eq, UInt8.lt_iff_toNat_lt, ← UInt8.toNat_inj,
      UInt8.reduceToNat]
    omega
  rw [spelling, List.cons_append, character?, if_neg notBackslash, if_neg notQuote, read]
  simp

/-- The spelling of a character in a string. -/
def escapeCode (code : Nat) : Bytes :=
  escapeRune (Bytes.unitOf code).1 (Bytes.unitOf code).2

/-- A character stands in a string as an escape by letter, as an escape by
number, or as it is. -/
theorem escapeCode_cases (code : Nat) :
    (∃ letter byte, letterEscapes.lookup letter = some byte ∧ Rune.encode code = [byte] ∧
      escapeCode code = [0x5c, letter]) ∨
    (code < 0x10000 ∧ escapeCode code = codeEscape code) ∨
    (0x20 ≤ code ∧ code ∉ [0x22, 0x5c, 0x3c, 0x3e, 0x26, 0x2028, 0x2029] ∧
      escapeCode code = Rune.encode code) := by
  by_cases named : code ∈ [0x22, 0x5c, 0x08, 0x0c, 0x0a, 0x0d, 0x09]
  · left
    fin_cases named
    exacts [⟨0x22, 0x22, rfl, rfl, rfl⟩, ⟨0x5c, 0x5c, rfl, rfl, rfl⟩, ⟨0x62, 0x08, rfl, rfl, rfl⟩,
      ⟨0x66, 0x0c, rfl, rfl, rfl⟩, ⟨0x6e, 0x0a, rfl, rfl, rfl⟩, ⟨0x72, 0x0d, rfl, rfl, rfl⟩,
      ⟨0x74, 0x09, rfl, rfl, rfl⟩]
  · have spelling : escapeCode code =
        if code < 0x20 || code = 0x3c || code = 0x3e || code = 0x26 || code = 0x2028 ||
          code = 0x2029 then codeEscape code
        else Rune.encode code := by
      simp only [List.mem_cons, List.not_mem_nil, or_false, not_or] at named
      simp only [escapeCode, escapeRune, Bytes.unitOf, Bool.not_true, Bool.false_eq_true, if_false]
      split
      case h_8 => rfl
      all_goals omega
    right
    rw [spelling]
    simp only [List.mem_cons, List.not_mem_nil, or_false, not_or] at named ⊢
    split
    case isTrue special =>
      simp at special
      exact .inl ⟨by omega, rfl⟩
    case isFalse plain =>
      simp at plain
      exact .inr ⟨by omega, by omega, rfl⟩

theorem character?_escapeCode {code : Nat} (proper : code.isValidChar) (rest : Bytes) :
    character? (escapeCode code ++ rest) = some (Rune.encode code, rest) := by
  rcases escapeCode_cases code with ⟨letter, byte, found, spelling, escape⟩ | ⟨small, escape⟩ |
    ⟨visible, plain, escape⟩
  · have known : letter ≠ 0x75 := by
      rintro rfl
      cases found
    rw [escape, spelling]
    simp [character?, escape?, known, found]
  · rw [escape, character?_codeEscape proper small]
  · simp only [List.mem_cons, not_or] at plain
    rw [escape, character?_encode proper visible plain.1 plain.2.1]

theorem head?_escapeCode {code : Nat} (proper : code.isValidChar) (rest : Bytes) :
    (escapeCode code ++ rest).head? ≠ some 0x22 := by
  have read := character?_escapeCode proper rest
  intro quote
  cases spelling : escapeCode code ++ rest with
  | nil => simp [spelling] at quote
  | cons first tail =>
      simp only [spelling, List.head?_cons, Option.some.injEq] at quote
      simp [spelling, quote, character?] at read

theorem string_ofCodes {codes : List Nat} (proper : ∀ code ∈ codes, code.isValidChar) :
    string (Bytes.ofCodes codes) = [0x22] ++ codes.flatMap escapeCode ++ [0x22] := by
  have read := Bytes.spelledRunes_ofCodes proper []
  rw [List.append_nil, Bytes.spelledRunes_nil, List.append_nil] at read
  rw [string, read, List.flatMap_map]
  rfl

/-- The characters of a string are read up to the quote behind them. -/
theorem characters?_escaped {codes : List Nat} (proper : ∀ code ∈ codes, code.isValidChar)
    (rest : Bytes) {budget : Nat} (enough : codes.length < budget) :
    characters? budget (codes.flatMap escapeCode ++ 0x22 :: rest) =
      some (Bytes.ofCodes codes, rest) := by
  induction codes generalizing budget with
  | nil =>
      cases budget with
      | zero => cases enough
      | succ budget => rfl
  | cons code codes ih =>
      rw [List.forall_mem_cons] at proper
      cases budget with
      | zero => cases enough
      | succ budget =>
          rw [List.flatMap_cons, List.append_assoc, characters?,
            if_neg (head?_escapeCode proper.1 _), character?_escapeCode proper.1]
          simp only [Option.bind_eq_bind, Option.bind_some]
          rw [ih proper.2 (Nat.lt_of_succ_lt_succ enough)]
          rfl

theorem length_le_length_escaped {codes : List Nat} (proper : ∀ code ∈ codes, code.isValidChar) :
    codes.length ≤ (codes.flatMap escapeCode).length := by
  induction codes with
  | nil => exact Nat.le_refl _
  | cons code codes ih =>
      rw [List.forall_mem_cons] at proper
      have some : escapeCode code ≠ [] := by
        intro empty
        have read := character?_escapeCode proper.1 []
        rw [empty] at read
        cases read
      have := List.length_pos_iff.mpr some
      have := ih proper.2
      simp only [List.length_cons, List.flatMap_cons, List.length_append]
      omega

/-- A string is a quote and what the characters of the text are read from. -/
theorem exists_body {value : Bytes} (valid : value.isValid) :
    ∃ body, string value = 0x22 :: body ∧ ∀ rest budget, body.length ≤ budget →
      characters? budget (body ++ rest) = some (value, rest) := by
  obtain ⟨codes, proper, rfl⟩ := Bytes.exists_codes value valid
  refine ⟨codes.flatMap escapeCode ++ [0x22], ?_, fun rest budget enough => ?_⟩
  · rw [string_ofCodes proper, List.append_assoc]
    rfl
  rw [List.append_assoc]
  refine characters?_escaped proper rest ?_
  have := length_le_length_escaped proper
  rw [List.length_append, List.length_singleton] at enough
  omega

/-! ## Numbers are read back -/

/-- What may stand behind a value that is written on lines of its own. -/
def Stops (rest : Bytes) : Prop :=
  ∀ byte ∈ rest.head?, byte = 0x2c ∨ byte = 0x0a

theorem span_ofNat (n : Nat) {rest : Bytes} (stops : Stops rest) :
    (Bytes.ofNat n ++ rest).span Bytes.isDigit = (Bytes.ofNat n, rest) := by
  have digits := Bytes.isDigit_of_mem_ofNat n
  have stop : rest.takeWhile Bytes.isDigit = [] ∧ rest.dropWhile Bytes.isDigit = rest := by
    cases rest with
    | nil => exact ⟨rfl, rfl⟩
    | cons byte rest =>
        rcases stops byte rfl with rfl | rfl <;> exact ⟨rfl, rfl⟩
  rw [List.span_eq_takeWhile_dropWhile, List.takeWhile_append_of_pos digits,
    List.dropWhile_append_of_pos digits, stop.1, stop.2, List.append_nil]

theorem magnitude?_ofNat (n : Nat) {rest : Bytes} (stops : Stops rest) :
    magnitude? (Bytes.ofNat n ++ rest) = some ((n, 0), rest) := by
  have noZero : ¬ ((Bytes.ofNat n).isEmpty ||
      ((Bytes.ofNat n).head? = some 0x30 && 1 < (Bytes.ofNat n).length)) = true := by
    rw [Bool.or_eq_true, List.isEmpty_iff, Bool.and_eq_true, decide_eq_true_eq, decide_eq_true_eq]
    rintro (empty | ⟨zero, several⟩)
    · exact Bytes.ofNat_ne_nil n empty
    · by_cases isZero : n = 0
      · subst isZero
        exact absurd several (by decide)
      · exact Bytes.head?_ofNat_ne_zero isZero zero
  have noFraction : fraction? rest = some ([], rest) := by
    cases rest with
    | nil => rfl
    | cons byte rest => rcases stops byte rfl with rfl | rfl <;> rfl
  have noExponent : exponent? rest = some (0, rest) := by
    cases rest with
    | nil => rfl
    | cons byte rest => rcases stops byte rfl with rfl | rfl <;> rfl
  rw [magnitude?, span_ofNat n stops]
  dsimp only
  rw [if_neg noZero, noFraction]
  simp [noExponent, Bytes.decimalValue_ofNat]

theorem number?_ofInt (n : Int) {rest : Bytes} (stops : Stops rest) :
    number? (Bytes.ofInt n ++ rest) = some (.number n 0, rest) := by
  cases n with
  | ofNat n =>
      have read := magnitude?_ofNat n stops
      have digits := Bytes.isDigit_of_mem_ofNat n
      cases spelling : Bytes.ofNat n with
      | nil => exact absurd spelling (Bytes.ofNat_ne_nil n)
      | cons first tail =>
          have notMinus : first ≠ 0x2d := by
            rintro rfl
            exact absurd (digits 0x2d (spelling ▸ List.mem_cons_self)) (by decide)
          rw [Bytes.ofInt, spelling, List.cons_append, number?, if_neg notMinus,
            ← List.cons_append, ← spelling, read]
          rfl
  | negSucc n =>
      rw [Bytes.ofInt, List.cons_append, number?, if_pos rfl, magnitude?_ofNat (n + 1) stops]
      rfl

/-- A number begins with a digit or a minus sign, so with no blank and no other
mark. -/
theorem ofInt_eq_cons (n : Int) : ∃ first tail, Bytes.ofInt n = first :: tail ∧
    isBlank first = false ∧ ∀ byte, byte ≠ 0x2d → Bytes.isDigit byte = false → first ≠ byte := by
  have some : Bytes.ofInt n ≠ [] := by
    cases n with
    | ofNat n => exact Bytes.ofNat_ne_nil n
    | negSucc n => exact List.cons_ne_nil _ _
  obtain ⟨first, tail, spelling⟩ := List.exists_cons_of_ne_nil some
  have starts := Bytes.mem_ofInt n first (spelling ▸ List.mem_cons_self)
  have other : ∀ byte, byte ≠ 0x2d → Bytes.isDigit byte = false → first ≠ byte := by
    rintro byte notMinus noDigit rfl
    rcases starts with minus | digit
    · exact notMinus minus
    · rw [noDigit] at digit
      cases digit
  refine ⟨first, tail, spelling, ?_, other⟩
  simp [isBlank, other 0x20, other 0x09, other 0x0a, other 0x0d, Bytes.isDigit]

theorem after?_other {beginning : Bytes} (mark : UInt8) {first : UInt8}
    (head : beginning.head? = some mark) (other : first ≠ mark) (rest : Bytes) :
    Bytes.after? beginning (first :: rest) = none := by
  cases beginning with
  | nil => cases head
  | cons byte beginning =>
      cases head
      simp [Bytes.after?, List.isPrefixOf, other.symm]

theorem value?_ofInt (n : Int) {rest : Bytes} (stops : Stops rest) (budget : Nat) :
    value? (budget + 1) (Bytes.ofInt n ++ rest) = some (.number n 0, rest) := by
  have read := number?_ofInt n stops
  obtain ⟨first, tail, spelling, proper, other⟩ := ofInt_eq_cons n
  rw [spelling, List.cons_append] at read ⊢
  rw [value?, behind?_other proper (other 0x22 (by decide) rfl),
    behind?_other proper (other 0x5b (by decide) rfl),
    behind?_other proper (other 0x7b (by decide) rfl)]
  simp only [List.dropWhile_cons, proper, Bool.false_eq_true, if_false, plain?]
  rw [after?_other 0x6e (by decide) (other _ (by decide) rfl),
    after?_other 0x74 (by decide) (other _ (by decide) rfl),
    after?_other 0x66 (by decide) (other _ (by decide) rfl)]
  exact read

/-! ## Values are read back -/

theorem value?_blank {blank : UInt8} (proper : isBlank blank) (budget : Nat) (text : Bytes) :
    value? budget (blank :: text) = value? budget text := by
  cases budget with
  | zero => rw [value?, value?]
  | succ budget =>
      rw [value?, value?, behind?_blank proper, behind?_blank proper, behind?_blank proper,
        List.dropWhile_cons_of_pos proper]

theorem value?_newline (depth budget : Nat) (text : Bytes) :
    value? budget (newline depth ++ text) = value? budget text := by
  cases budget with
  | zero => rw [value?, value?]
  | succ budget =>
      rw [value?, value?, behind?_newline, behind?_newline, behind?_newline, dropWhile_newline]

theorem value?_string {text : Bytes} (valid : text.isValid) (rest : Bytes) {budget : Nat}
    (enough : (string text).length ≤ budget) :
    value? (budget + 1) (string text ++ rest) = some (.text text, rest) := by
  obtain ⟨body, spelling, read⟩ := exists_body valid
  rw [spelling, List.length_cons] at enough
  rw [spelling, List.cons_append, value?, behind?_mark rfl]
  simp [read rest budget (Nat.le_of_succ_le enough)]

end Reader

/-! ## What a written value is read as -/

mutual

/-- All texts in a value are well formed. -/
def Valid : Json → Prop
  | .text value => value.isValid
  | .number _ => True
  | .list items => AllValid items
  | .object members => MembersValid members

/-- All texts in some values are well formed. -/
def AllValid : List Json → Prop
  | [] => True
  | item :: items => Valid item ∧ AllValid items

/-- All texts in the members of an object are well formed. -/
def MembersValid : List (String × Json) → Prop
  | [] => True
  | (_, value) :: members => Valid value ∧ MembersValid members

end

mutual

/-- The value that is read where a value is written. -/
def spelled : Json → Value
  | .text value => .text value
  | .number value => .number value 0
  | .list items => .list (spelledItems items)
  | .object members => .object (spelledMembers members)

/-- The values that are read where some values are written. -/
def spelledItems : List Json → List Value
  | [] => []
  | item :: items => spelled item :: spelledItems items

/-- The members that are read where the members of an object are written. -/
def spelledMembers : List (String × Json) → List (Bytes × Value)
  | [] => []
  | (key, value) :: members => (Bytes.ofString key, spelled value) :: spelledMembers members

end

namespace Reader

/-- A value is read back wherever it is written. -/
def ReadBack (json : Json) : Prop :=
  ∀ depth rest budget, Stops rest → (json.render depth ++ rest).length < budget →
    value? budget (json.render depth ++ rest) = some (json.spelled, rest)

theorem stops_comma (rest : Bytes) : Stops (0x2c :: rest) := by
  rintro byte ⟨⟩
  exact .inl rfl

theorem stops_newline (depth : Nat) (rest : Bytes) : Stops (newline depth ++ rest) := by
  rintro byte ⟨⟩
  exact .inr rfl

theorem stops_renderItems (depth : Nat) (items : List Json) (rest : Bytes) :
    Stops (renderItems depth items ++ (newline depth ++ rest)) := by
  cases items with
  | nil => exact stops_newline depth rest
  | cons item items => exact stops_comma _

theorem stops_renderMembers (depth : Nat) (members : List (String × Json)) (rest : Bytes) :
    Stops (renderMembers depth members ++ (newline depth ++ rest)) := by
  cases members with
  | nil => exact stops_newline depth rest
  | cons member members => exact stops_comma _

theorem length_lt_of_newline {depth budget : Nat} {text : Bytes}
    (enough : (newline depth ++ text).length < budget + 1) : text.length < budget := by
  rw [List.length_append, newline, List.length_cons] at enough
  omega

/-- The elements of a list are read back if each is. -/
theorem items?_render {item : Json} {items : List Json} (first : ReadBack item)
    (others : ∀ json ∈ items, ReadBack json) {depth budget : Nat} {rest : Bytes}
    (enough : (newline (depth + 1) ++ (item.render (depth + 1) ++ (renderItems depth items ++
      (newline depth ++ 0x5d :: rest)))).length < budget) :
    items? budget (newline (depth + 1) ++ (item.render (depth + 1) ++ (renderItems depth items ++
      (newline depth ++ 0x5d :: rest)))) = some (spelledItems (item :: items), rest) := by
  induction items generalizing item budget with
  | nil =>
      cases budget with
      | zero => cases enough
      | succ budget =>
          have short := length_lt_of_newline enough
          rw [items?, value?_newline, first _ _ _ (stops_renderItems _ _ _) short]
          simp only [renderItems, List.nil_append, Option.bind_eq_bind, Option.bind_some]
          rw [behind?_newline, behind?_newline, behind?_other rfl (by decide), behind?_mark rfl]
          rfl
  | cons next items ih =>
      rw [List.forall_mem_cons] at others
      cases budget with
      | zero => cases enough
      | succ budget =>
          have short := length_lt_of_newline enough
          rw [items?, value?_newline, first _ _ _ (stops_renderItems _ _ _) short]
          simp only [renderItems, List.cons_append, List.nil_append, List.append_assoc,
            Option.bind_eq_bind, Option.bind_some]
          rw [behind?_mark rfl]
          simp only [renderItems, List.cons_append, List.nil_append, List.append_assoc,
            List.length_append, List.length_cons] at short ⊢
          rw [ih others.1 others.2 (by simp only [List.length_append, List.length_cons]; omega)]
          rfl

/-- The first member of an object is read, and then what stands behind it. -/
theorem members?_member (key : String) {value : Json} (first : ReadBack value) {rest : Bytes}
    (stops : Stops rest) {depth budget : Nat}
    (enough : (newline depth ++ (string (Bytes.ofString key) ++ (0x3a :: 0x20 ::
      (value.render depth ++ rest)))).length < budget + 1) :
    members? (budget + 1) (newline depth ++ (string (Bytes.ofString key) ++ (0x3a :: 0x20 ::
      (value.render depth ++ rest)))) =
        if let some rest := behind? 0x2c rest then
          (members? budget rest).map fun (members, rest) =>
            ((Bytes.ofString key, value.spelled) :: members, rest)
        else (behind? 0x7d rest).map fun rest =>
          ([(Bytes.ofString key, value.spelled)], rest) := by
  obtain ⟨body, spelling, read⟩ := exists_body (Bytes.isValid_ofString key)
  have short := length_lt_of_newline enough
  simp only [spelling, List.length_append, List.length_cons] at short
  have valueRead := first depth rest budget stops (by rw [List.length_append]; omega)
  rw [members?, behind?_newline, spelling, List.cons_append, behind?_mark rfl]
  simp only [Option.bind_eq_bind, Option.bind_some]
  rw [read _ budget (by omega)]
  simp only [Option.bind_some]
  rw [behind?_mark rfl]
  simp only [Option.bind_some]
  rw [value?_blank rfl, valueRead]
  rfl

/-- The members of an object are read back if their values are. -/
theorem members?_render {key : String} {value : Json} {members : List (String × Json)}
    (first : ReadBack value) (others : ∀ member ∈ members, ReadBack member.2) {depth budget : Nat}
    {rest : Bytes}
    (enough : (newline (depth + 1) ++ (string (Bytes.ofString key) ++ (0x3a :: 0x20 ::
      (value.render (depth + 1) ++ (renderMembers depth members ++
        (newline depth ++ 0x7d :: rest)))))).length < budget) :
    members? budget (newline (depth + 1) ++ (string (Bytes.ofString key) ++ (0x3a :: 0x20 ::
      (value.render (depth + 1) ++ (renderMembers depth members ++
        (newline depth ++ 0x7d :: rest)))))) =
      some (spelledMembers ((key, value) :: members), rest) := by
  induction members generalizing key value budget with
  | nil =>
      cases budget with
      | zero => cases enough
      | succ budget =>
          rw [members?_member key first (stops_renderMembers _ _ _) enough]
          simp only [renderMembers, List.nil_append]
          rw [behind?_newline, behind?_newline, behind?_other rfl (by decide), behind?_mark rfl]
          rfl
  | cons next members ih =>
      rw [List.forall_mem_cons] at others
      cases budget with
      | zero => cases enough
      | succ budget =>
          have short := length_lt_of_newline enough
          rw [members?_member key first (stops_renderMembers _ _ _) enough]
          simp only [renderMembers, List.cons_append, List.nil_append, List.append_assoc,
            List.length_append, List.length_cons] at short ⊢
          rw [behind?_mark rfl]
          simp only
          rw [ih others.1 others.2 (by simp only [List.length_append, List.length_cons]; omega)]
          rfl

theorem readBack_text {value : Bytes} (valid : value.isValid) : ReadBack (.text value) := by
  intro depth rest budget stops enough
  rw [render] at enough ⊢
  cases budget with
  | zero => cases enough
  | succ budget =>
      rw [List.length_append] at enough
      exact value?_string valid rest (by omega)

theorem readBack_number (value : Int) : ReadBack (.number value) := by
  intro depth rest budget stops enough
  cases budget with
  | zero => cases enough
  | succ budget => exact value?_ofInt value stops budget

/-- No value begins with the bracket that closes a list. -/
theorem behind?_close (json : Json) (depth : Nat) (rest : Bytes) :
    behind? 0x5d (json.render depth ++ rest) = none := by
  match json with
  | .text _ | .list [] | .list (_ :: _) | .object [] | .object ((_, _) :: _) =>
      rw [render]
      exact behind?_other rfl (by decide) _
  | .number value =>
      obtain ⟨first, tail, spelling, proper, other⟩ := ofInt_eq_cons value
      rw [render, spelling, List.cons_append]
      exact behind?_other proper (other 0x5d (by decide) rfl) _

theorem readBack_list {items : List Json} (each : ∀ json ∈ items, ReadBack json) :
    ReadBack (.list items) := by
  intro depth rest budget stops enough
  cases budget with
  | zero => cases enough
  | succ budget =>
      cases items with
      | nil =>
          rw [render, List.cons_append, value?, behind?_other rfl (by decide), behind?_mark rfl]
          simp only [List.cons_append, List.nil_append]
          rw [behind?_mark rfl]
          rfl
      | cons item items =>
          rw [List.forall_mem_cons] at each
          simp only [render, List.append_assoc, List.cons_append, List.nil_append,
            List.length_cons] at enough ⊢
          have read := items?_render each.1 each.2 (Nat.lt_of_succ_lt_succ enough)
          rw [value?, behind?_other rfl (by decide), behind?_mark rfl]
          simp only [behind?_newline, behind?_close, read]
          rfl

theorem readBack_object {members : List (String × Json)}
    (each : ∀ member ∈ members, ReadBack member.2) : ReadBack (.object members) := by
  intro depth rest budget stops enough
  cases budget with
  | zero => cases enough
  | succ budget =>
      cases members with
      | nil =>
          rw [render, List.cons_append, value?, behind?_other rfl (by decide),
            behind?_other rfl (by decide), behind?_mark rfl]
          simp only [List.cons_append, List.nil_append]
          rw [behind?_mark rfl]
          rfl
      | cons member members =>
          obtain ⟨key, value⟩ := member
          rw [List.forall_mem_cons] at each
          simp only [render, List.append_assoc, List.cons_append, List.nil_append,
            List.length_cons] at enough ⊢
          have read := members?_render each.1 each.2 (Nat.lt_of_succ_lt_succ enough)
          have notEmpty : ∀ rest, behind? 0x7d (string (Bytes.ofString key) ++ rest) = none :=
            fun _ => behind?_other rfl (by decide) _
          rw [value?, behind?_other rfl (by decide), behind?_other rfl (by decide),
            behind?_mark rfl]
          simp only [behind?_newline, notEmpty, read]
          rfl

mutual

/-- Every value is read back. -/
theorem readBack : (json : Json) → json.Valid → ReadBack json
  | .text _, valid => readBack_text valid
  | .number value, _ => readBack_number value
  | .list items, valid => readBack_list (readBack_items items valid)
  | .object members, valid => readBack_object (readBack_members members valid)

theorem readBack_items : (items : List Json) → AllValid items → ∀ json ∈ items, ReadBack json
  | [], _ => fun _ member => absurd member List.not_mem_nil
  | item :: items, valid => List.forall_mem_cons.mpr
      ⟨readBack item valid.1, readBack_items items valid.2⟩

theorem readBack_members : (members : List (String × Json)) → MembersValid members →
    ∀ member ∈ members, ReadBack member.2
  | [], _ => fun _ member => absurd member List.not_mem_nil
  | (_, value) :: members, valid => List.forall_mem_cons.mpr
      ⟨readBack value valid.1, readBack_members members valid.2⟩

end

end Reader

open Reader in
/-- A written value on a line of its own is read as that value. -/
theorem read?_render {json : Json} (valid : json.Valid) :
    read? (json.render 0 ++ [0x0a]) = some json.spelled := by
  rw [read?, readBack json valid 0 [0x0a] _ (stops_newline 0 []) (Nat.lt_succ_self _)]
  rfl

end JavaFront.Listing.Json
