import Mathlib.Computability.Language
import JavaFront.Proofs.Token.Slices

/-!
# The grammar of numbers

What numbers look like is given by a language for each kind, built from digits,
points, exponents and suffixes. The lexer reads exactly these languages: every
number it finds is in the language of its kind, and every word of a language,
read on its own, is one token of that kind.
-/

namespace JavaFront

/-! ## Languages -/

namespace Numeral

/-- One of two bytes, mostly a letter in its two spellings. -/
def either (small capital : UInt8) : Language UInt8 :=
  {[small], [capital]}

/-- A digit, and digits and underscores behind it. -/
def digits : Language UInt8 :=
  {text | ∃ first rest, text = first :: rest ∧ Bytes.isDigit first = true ∧
    ∀ byte ∈ rest, Bytes.isDigit byte = true ∨ byte = 0x5f}

/-- Digits of some base and underscores, with at least one digit. -/
def runs (accept : UInt8 → Bool) : Language UInt8 :=
  {text | (∀ byte ∈ text, accept byte = true ∨ byte = 0x5f) ∧ ∃ byte ∈ text, accept byte = true}

/-- An exponent: its mark, a sign or none, and digits. -/
def exponent (small capital : UInt8) : Language UInt8 :=
  either small capital * (either 0x2b 0x2d + 1) * digits

/-- Whole numbers in base ten, sixteen and two. -/
def integer : Language UInt8 :=
  digits + {[0x30]} * either 0x78 0x58 * runs Bytes.isHexDigit +
    {[0x30]} * either 0x62 0x42 * runs Lexer.isBinaryDigit

/-- Decimal digits with a point among them, in front or behind. -/
def pointed : Language UInt8 :=
  digits * {[0x2e]} * (digits + 1) + {[0x2e]} * digits

/-- Decimal digits with or without a point and an exponent. -/
def fraction : Language UInt8 :=
  (pointed + digits) * (exponent 0x65 0x45 + 1)

/-- The fractions that have a point or an exponent. -/
def marked : Language UInt8 :=
  pointed * (exponent 0x65 0x45 + 1) + digits * exponent 0x65 0x45

/-- Hexadecimal digits with or without a point, at least one digit in all. -/
def mantissa : Language UInt8 :=
  {text | ∃ whole decimals, (text = whole ++ decimals ∨ text = whole ++ 0x2e :: decimals) ∧
    whole ++ decimals ∈ runs Bytes.isHexDigit}

/-- Hexadecimal digits and a binary exponent. -/
def hexFraction : Language UInt8 :=
  {[0x30]} * either 0x78 0x58 * mantissa * exponent 0x70 0x50

/-- The literals of each kind of number. -/
def literals : Token.Kind → Language UInt8
  | .intLiteral => integer
  | .longLiteral => integer * either 0x6c 0x4c
  | .floatLiteral => (fraction + hexFraction) * either 0x66 0x46
  | .doubleLiteral => (fraction + hexFraction) * either 0x64 0x44 + marked + hexFraction
  | _ => 0

/-- The kinds of numbers. -/
def kinds : List Token.Kind :=
  [.intLiteral, .longLiteral, .floatLiteral, .doubleLiteral]

section Membership

variable {small capital : UInt8} {text : Bytes}

theorem exists_of_either (spelled : text ∈ either small capital) :
    ∃ byte, text = [byte] ∧ (byte = small ∨ byte = capital) := by
  rcases spelled with rfl | rfl
  · exact ⟨small, rfl, .inl rfl⟩
  · exact ⟨capital, rfl, .inr rfl⟩

theorem single_mem_either {byte : UInt8} (spelled : byte = small ∨ byte = capital) :
    [byte] ∈ either small capital :=
  spelled.imp (congrArg fun byte => [byte]) (congrArg fun byte => [byte])

theorem inside_of_digits (isDigits : text ∈ digits) :
    ∀ byte ∈ text, Bytes.isDigit byte = true ∨ byte = 0x5f := by
  obtain ⟨first, rest, rfl, digit, inside⟩ := isDigits
  exact List.forall_mem_cons.mpr ⟨.inl digit, inside⟩

/-- A fraction has a point or an exponent, or consists of digits. -/
theorem fraction_eq : fraction = marked + digits := by
  simp only [fraction, marked, add_mul, mul_add, mul_one]
  ac_rfl

end Membership

end Numeral

namespace Lexer

open Numeral

variable {accept : UInt8 → Bool} {small capital : UInt8} {text tail run power : Bytes}

/-! ## Runs and exponents -/

/-- No run of digits goes on with this text. -/
def Stops (accept : UInt8 → Bool) (text : Bytes) : Prop :=
  accept (front text) = false ∧ front text ≠ 0x5f

theorem digitRun_exact (inside : ∀ byte ∈ run, accept byte = true ∨ byte = 0x5f)
    (stops : Stops accept tail) : digitRun accept (run ++ tail) = (run, tail) := by
  induction run with
  | nil =>
      cases tail with
      | nil => rfl
      | cons byte tail =>
          obtain ⟨notDigit, notUnderscore⟩ := stops
          have notAccepted : (accept byte || decide (byte = 0x5f)) = false := by
            simpa using ⟨notDigit, notUnderscore⟩
          simp [digitRun, List.span_eq_takeWhile_dropWhile, notAccepted]
  | cons byte run ih =>
      obtain ⟨first, others⟩ := List.forall_mem_cons.mp inside
      have accepted : (accept byte || decide (byte = 0x5f)) = true := by simpa using first
      have behind := ih others
      simp only [digitRun, List.span_eq_takeWhile_dropWhile, Prod.mk.injEq] at behind ⊢
      simp [accepted, behind]

theorem digitRun_inside (accept : UInt8 → Bool) (text : Bytes) :
    ∀ byte ∈ (digitRun accept text).1, accept byte = true ∨ byte = 0x5f := by
  intro byte member
  simp only [digitRun, List.span_eq_takeWhile_dropWhile] at member
  simpa using List.mem_takeWhile_imp member

/-- Digits that start with a digit. -/
theorem digitRun_sound (digit : Bytes.isDigit (front text) = true) :
    (digitRun Bytes.isDigit text).1 ∈ digits := by
  cases text with
  | nil => cases digit
  | cons first rest =>
      have starts : Bytes.isDigit first = true := digit
      have inside := digitRun_inside Bytes.isDigit (first :: rest)
      have splits := digitRun_append Bytes.isDigit (first :: rest)
      have some_read : (digitRun Bytes.isDigit (first :: rest)).1 ≠ [] := digitRun_ne_nil starts
      obtain ⟨head, others, found⟩ := List.exists_cons_of_ne_nil some_read
      rw [found] at inside splits ⊢
      obtain ⟨rfl, -⟩ := List.cons_eq_cons.mp splits
      exact ⟨head, others, rfl, digit, (List.forall_mem_cons.mp inside).2⟩

theorem exists_mark (isPower : power ∈ Numeral.exponent small capital) :
    ∃ mark more, power = mark :: more ∧ (mark = small ∨ mark = capital) := by
  obtain ⟨_, ⟨_, spelled, signed, -, rfl⟩, run, -, rfl⟩ := isPower
  obtain ⟨mark, rfl, isMark⟩ := exists_of_either spelled
  exact ⟨mark, signed ++ run, rfl, isMark⟩

theorem startsWith_exponent_append (isPower : power ∈ Numeral.exponent small capital)
    (tail : Bytes) : startsWith small capital (power ++ tail) = true := by
  obtain ⟨mark, more, rfl, isMark⟩ := exists_mark isPower
  simpa [startsWith, front] using isMark

theorem exponent_exact (isPower : power ∈ Numeral.exponent small capital)
    (stops : Stops Bytes.isDigit tail) : exponent (power ++ tail) = (true, power, tail) := by
  obtain ⟨_, ⟨_, spelled, signed, isSigned, rfl⟩, run, isDigits, rfl⟩ := isPower
  obtain ⟨mark, rfl, -⟩ := exists_of_either spelled
  have signs : sign (signed ++ (run ++ tail)) = (signed, run ++ tail) := by
    rcases isSigned with (rfl | rfl) | rfl
    · rfl
    · rfl
    · obtain ⟨first, rest, rfl, digit, -⟩ := isDigits
      have plain : ∀ byte ∈ ([0x2b, 0x2d] : Bytes), Bytes.isDigit byte = false := by
        simp [Bytes.isDigit]
      have noSign : ¬(first = 0x2b ∨ first = 0x2d) := fun signs => by
        simp [plain first (by simpa using signs)] at digit
      simp [sign, noSign]
  have starts : Bytes.isDigit (front (run ++ tail)) = true := by
    obtain ⟨first, rest, rfl, digit, -⟩ := isDigits
    exact digit
  have runs := digitRun_exact (inside_of_digits isDigits) stops
  simp [exponent, signs, starts, runs]

theorem exponent_sound (proper : small ≠ 0 ∧ capital ≠ 0)
    (starts : startsWith small capital text = true) (complete : (exponent text).1 = true) :
    (exponent text).2.1 ∈ Numeral.exponent small capital := by
  obtain ⟨mark, text, rfl, isMark⟩ := startsWith_cases proper starts
  have digit : Bytes.isDigit (front (sign text).2) = true := by
    by_contra none
    simp [exponent, none] at complete
  have signs : (sign text).1 ∈ either 0x2b 0x2d + 1 := by
    cases text with
    | nil => exact .inr rfl
    | cons byte text =>
        simp only [sign]
        split
        · rename_i signs
          simp only [Bool.or_eq_true, decide_eq_true_eq] at signs
          exact .inl (single_mem_either signs)
        · exact .inr rfl
  simp only [exponent, List.drop_succ_cons, List.drop_zero, digit, if_true, List.take_succ_cons,
    List.take_zero]
  exact ⟨_, ⟨_, single_mem_either isMark, _, signs, rfl⟩, _, digitRun_sound digit, rfl⟩

/-! ## Decimal numbers -/

/-- What may stand behind a decimal fraction: a suffix, or nothing. -/
def suffixes : Bytes :=
  [0x00, 0x66, 0x46, 0x64, 0x44]

/-- What may stand behind the digits and the point of a decimal fraction: an
exponent mark, a suffix, or nothing. -/
def closers : Bytes :=
  0x65 :: 0x45 :: suffixes

theorem stops_of_closer (closes : front tail ∈ closers) : Stops Bytes.isDigit tail := by
  have stops : ∀ byte ∈ closers, Bytes.isDigit byte = false ∧ byte ≠ 0x5f := by
    simp [closers, suffixes, Bytes.isDigit]
  exact stops _ closes

theorem closes_exponent (isPower : power ∈ Numeral.exponent 0x65 0x45) (tail : Bytes) :
    front (power ++ tail) ∈ closers := by
  obtain ⟨mark, more, rfl, rfl | rfl⟩ := exists_mark isPower <;> simp [front, closers]

/-- No exponent starts with a suffix. -/
theorem startsWith_exponent_of_suffix (ends : front tail ∈ suffixes) :
    startsWith 0x65 0x45 tail = false := by
  have other : ∀ byte ∈ suffixes, (byte = 0x65 || byte = 0x45) = false := by simp [suffixes]
  exact other _ ends

/-- The parts of a decimal number in front of its exponent and its suffix, as
they are read. -/
structure Parts (whole decimals tail : Bytes) : Prop where
  whole_eq : digitRun Bytes.isDigit (whole ++ (decimals ++ tail)) = (whole, decimals ++ tail)
  decimals_eq : fraction (decimals ++ tail) = (decimals, tail)

theorem fraction_exact {decimals : Bytes} (isDecimals : decimals ∈ digits + 1)
    (closes : front tail ∈ closers) :
    fraction (0x2e :: decimals ++ tail) = (0x2e :: decimals, tail) := by
  rw [List.cons_append, fraction_cons]
  have taken : front (decimals ++ tail) ≠ 0x2e ∧
      isFractionStop (front (decimals ++ tail)) = false := by
    rcases isDecimals with ⟨first, rest, rfl, digit, -⟩ | rfl
    · refine ⟨fun same => ?_, isFractionStop_of_isDigit digit⟩
      have same : first = 0x2e := same
      subst same
      cases digit
    · have goesOn : ∀ byte ∈ closers, byte ≠ 0x2e ∧ isFractionStop byte = false := by
        simp [closers, suffixes, isFractionStop, Bytes.isLetter]
      exact goesOn _ closes
  have inside : ∀ byte ∈ decimals, Bytes.isDigit byte = true ∨ byte = 0x5f := by
    rcases isDecimals with isDigits | rfl
    · exact inside_of_digits isDigits
    · exact fun _ member => absurd member List.not_mem_nil
  rw [if_pos (by simp [taken]), digitRun_exact inside (stops_of_closer closes)]

theorem parts_of_pointed (isPointed : text ∈ pointed) (closes : front tail ∈ closers) :
    ∃ whole decimals, text = whole ++ decimals ∧ decimals ≠ [] ∧ Parts whole decimals tail := by
  have atPoint : Bytes.isDigit 0x2e = false ∧ (0x2e : UInt8) ≠ 0x5f := by decide
  have stops (decimals : Bytes) : Stops Bytes.isDigit (0x2e :: decimals ++ tail) := atPoint
  rcases isPointed with ⟨_, ⟨whole, isDigits, _, rfl, rfl⟩, decimals, isDecimals, rfl⟩ |
    ⟨_, rfl, decimals, isDecimals, rfl⟩
  · exact ⟨whole, 0x2e :: decimals, by simp, List.cons_ne_nil _ _,
      digitRun_exact (inside_of_digits isDigits) (stops decimals), fraction_exact isDecimals closes⟩
  · exact ⟨[], 0x2e :: decimals, rfl, List.cons_ne_nil _ _,
      digitRun_exact (fun _ member => absurd member List.not_mem_nil) (stops decimals),
      fraction_exact (.inl isDecimals) closes⟩

theorem parts_of_digits (isDigits : text ∈ digits) (stops : Stops Bytes.isDigit tail)
    (noPoint : front tail ≠ 0x2e) : Parts text [] tail :=
  ⟨digitRun_exact (inside_of_digits isDigits) stops, by simp [fraction, noPoint]⟩

theorem Parts.decimal_eq {whole decimals : Bytes} (parts : Parts whole decimals tail)
    (noPower : startsWith 0x65 0x45 tail = false) :
    decimal (whole ++ (decimals ++ tail)) =
      decimalSuffix (!decimals.isEmpty) (whole ++ decimals) tail := by
  simp [decimal, parts.whole_eq, parts.decimals_eq, noPower]

theorem Parts.decimal_power {whole decimals : Bytes} (parts : Parts whole decimals (power ++ tail))
    (isPower : power ∈ Numeral.exponent 0x65 0x45) (stops : Stops Bytes.isDigit tail) :
    decimal (whole ++ (decimals ++ (power ++ tail))) =
      decimalSuffix true (whole ++ decimals ++ power) tail := by
  simp [decimal, parts.whole_eq, parts.decimals_eq, startsWith_exponent_append isPower,
    exponent_exact isPower stops]

/-- Digits are read as such in front of anything but a point or an exponent. -/
theorem decimal_digits (isDigits : text ∈ digits) (stops : Stops Bytes.isDigit tail)
    (noPoint : front tail ≠ 0x2e) (noPower : startsWith 0x65 0x45 tail = false) :
    decimal (text ++ tail) = decimalSuffix false text tail := by
  have whole := (parts_of_digits isDigits stops noPoint).decimal_eq noPower
  rwa [List.append_nil] at whole

/-- A point or an exponent makes a number fractional. -/
theorem decimal_marked (isMarked : text ∈ marked) (ends : front tail ∈ suffixes) :
    decimal (text ++ tail) = decimalSuffix true text tail := by
  have closes : front tail ∈ closers := List.mem_cons_of_mem _ (List.mem_cons_of_mem _ ends)
  have stops := stops_of_closer closes
  have noPower := startsWith_exponent_of_suffix ends
  rcases isMarked with ⟨body, isPointed, power, isPower | rfl, rfl⟩ |
    ⟨body, isDigits, power, isPower, rfl⟩
  · obtain ⟨whole, decimals, rfl, -, parts⟩ :=
      parts_of_pointed isPointed (closes_exponent isPower tail)
    simpa using parts.decimal_power isPower stops
  · obtain ⟨whole, decimals, rfl, some_read, parts⟩ := parts_of_pointed isPointed closes
    simpa [List.isEmpty_eq_false_iff.mpr some_read] using parts.decimal_eq noPower
  · have closesDigits := closes_exponent isPower tail
    have noPoint : ∀ byte ∈ closers, byte ≠ 0x2e := by simp [closers, suffixes]
    simpa using (parts_of_digits isDigits (stops_of_closer closesDigits)
      (noPoint _ closesDigits)).decimal_power isPower stops

/-- What is read of a point and the digits behind it. -/
theorem fraction_sound (text : Bytes) : (fraction text).1 = [] ∨
    ∃ decimals ∈ digits + 1, (fraction text).1 = 0x2e :: decimals := by
  simp only [fraction]
  split
  · rename_i taken
    simp only [Bool.and_eq_true, decide_eq_true_eq, bne_iff_ne, Bool.not_eq_true'] at taken
    refine .inr ⟨_, ?_, rfl⟩
    by_cases digit : Bytes.isDigit (front (text.drop 1)) = true
    · exact .inl (digitRun_sound digit)
    · have notUnderscore : front (text.drop 1) ≠ 0x5f := by
        intro same
        rw [same] at taken
        exact absurd taken.2 (by decide)
      have stops : Stops Bytes.isDigit (text.drop 1) :=
        ⟨Bool.not_eq_true _ ▸ digit, notUnderscore⟩
      have none_read : digitRun Bytes.isDigit (text.drop 1) = ([], text.drop 1) :=
        digitRun_exact (fun _ member => absurd member List.not_mem_nil) stops
      rw [none_read]
      exact .inr rfl
  · exact .inl rfl

/-- A text at which a number is read: it starts with a digit, or with a point
and a digit. -/
def StartsNumber (text : Bytes) : Prop :=
  Bytes.isDigit (front text) = true ∨
    front text = 0x2e ∧ Bytes.isDigit (front (text.drop 1)) = true

/-- The digits and the point that are read of a decimal number. -/
theorem parts_sound (starts : StartsNumber text) :
    (fraction (digitRun Bytes.isDigit text).2).1 = [] ∧ (digitRun Bytes.isDigit text).1 ∈ digits ∨
      (fraction (digitRun Bytes.isDigit text).2).1 ≠ [] ∧
        (digitRun Bytes.isDigit text).1 ++ (fraction (digitRun Bytes.isDigit text).2).1 ∈ pointed := by
  rcases starts with digit | ⟨point, digit⟩
  · have whole := digitRun_sound digit
    rcases fraction_sound (digitRun Bytes.isDigit text).2 with none | ⟨decimals, isDecimals, same⟩
    · exact .inl ⟨none, whole⟩
    · rw [same]
      exact .inr ⟨List.cons_ne_nil _ _, .inl ⟨_, ⟨_, whole, _, rfl, rfl⟩, _, isDecimals,
        List.append_assoc _ [0x2e] decimals⟩⟩
  · have stops : Stops Bytes.isDigit text := by
      rw [Stops, point]
      decide
    have none_read : digitRun Bytes.isDigit text = ([], text) :=
      digitRun_exact (fun _ member => absurd member List.not_mem_nil) stops
    have goesOn := isFractionStop_of_isDigit digit
    have notPoint : front (text.drop 1) ≠ 0x2e := by
      intro same
      rw [same] at digit
      cases digit
    have read : (fraction text).1 = 0x2e :: (digitRun Bytes.isDigit (text.drop 1)).1 := by
      rw [fraction, if_pos (by simp only [point, goesOn, bne_iff_ne.mpr notPoint]; rfl)]
    rw [none_read, read]
    exact .inr ⟨List.cons_ne_nil _ _, .inr ⟨_, rfl, _, digitRun_sound digit, rfl⟩⟩

theorem suffix_sound (proper : small ≠ 0 ∧ capital ≠ 0)
    (starts : startsWith small capital text = true) : text.take 1 ∈ either small capital := by
  obtain ⟨byte, tail, rfl, rfl | rfl⟩ := startsWith_cases proper starts
  · exact .inl rfl
  · exact .inr rfl

/-- A decimal number and its suffix are in the language of its kind. -/
theorem decimalSuffix_sound {fractional : Bool} {read : Bytes}
    (isRead : if fractional then read ∈ marked else read ∈ digits) (text : Bytes) :
    (decimalSuffix fractional read text).text ∈
      literals (decimalSuffix fractional read text).kind := by
  have isFraction : read ∈ Numeral.fraction := by
    rw [fraction_eq]
    cases fractional with
    | true => exact .inl isRead
    | false => exact .inr isRead
  simp only [decimalSuffix]
  split
  · rename_i suffix
    exact Language.append_mem_mul (.inl isFraction) (suffix_sound (by decide) suffix)
  · split
    · rename_i suffix
      exact .inl (.inl
        (Language.append_mem_mul (.inl isFraction) (suffix_sound (by decide) suffix)))
    · split
      · rename_i suffix
        simp only [Bool.and_eq_true, Bool.not_eq_true'] at suffix
        rw [suffix.2] at isRead
        exact Language.append_mem_mul (.inl (.inl isRead)) (suffix_sound (by decide) suffix.1)
      · cases fractional with
        | true => exact .inl (.inr isRead)
        | false => exact .inl (.inl isRead)

theorem decimal_sound (starts : StartsNumber text) (proper : (decimal text).kind ≠ .error) :
    (decimal text).text ∈ literals (decimal text).kind := by
  have parts := parts_sound starts
  simp only [decimal] at proper ⊢
  split at proper
  · rename_i power
    split at proper
    · rename_i complete
      have isPower := exponent_sound (by decide) power complete
      rw [if_pos power, if_pos complete]
      refine decimalSuffix_sound ?_ _
      rcases parts with ⟨none, isDigits⟩ | ⟨-, isPointed⟩
      · rw [none, List.append_nil]
        exact .inr (Language.append_mem_mul isDigits isPower)
      · exact .inl (Language.append_mem_mul isPointed (.inl isPower))
    · exact absurd rfl proper
  · rename_i noPower
    rw [if_neg noPower]
    refine decimalSuffix_sound ?_ _
    rcases parts with ⟨none, isDigits⟩ | ⟨some_read, isPointed⟩
    · simpa [none] using isDigits
    · rw [List.isEmpty_eq_false_iff.mpr some_read]
      exact .inl ⟨_, isPointed, [], .inr rfl, List.append_nil _⟩

/-! ## Hexadecimal and binary numbers -/

theorem hexFraction_sound (text : Bytes) : (hexFraction text).1 = [] ∨
    ∃ decimals, (hexFraction text).1 = 0x2e :: decimals ∧
      ∀ byte ∈ decimals, Bytes.isHexDigit byte = true ∨ byte = 0x5f := by
  simp only [hexFraction]
  split
  · exact .inr ⟨_, rfl, digitRun_inside _ _⟩
  · exact .inl rfl

/-- A run with something else than underscores in it. -/
theorem runs_of_hasDigit (inside : ∀ byte ∈ run, accept byte = true ∨ byte = 0x5f)
    (some_digit : hasDigit run = true) : run ∈ runs accept := by
  obtain ⟨byte, member, notUnderscore⟩ := List.any_eq_true.mp some_digit
  exact ⟨inside, byte, member, (inside byte member).resolve_right (bne_iff_ne.mp notUnderscore)⟩

theorem hasDigit_of_runs (proper : accept 0x5f = false) (isRun : run ∈ runs accept) :
    hasDigit run = true := by
  obtain ⟨-, byte, member, accepted⟩ := isRun
  refine List.any_eq_true.mpr ⟨byte, member, bne_iff_ne.mpr ?_⟩
  rintro rfl
  rw [proper] at accepted
  cases accepted

/-- What is read of hexadecimal digits and a point, with a digit among them. -/
theorem mantissa_sound {whole decimals : Bytes}
    (insideWhole : ∀ byte ∈ whole, Bytes.isHexDigit byte = true ∨ byte = 0x5f)
    (isDecimals : decimals = [] ∨ ∃ behind, decimals = 0x2e :: behind ∧
      ∀ byte ∈ behind, Bytes.isHexDigit byte = true ∨ byte = 0x5f)
    (some_digit : (hasDigit whole || hasDigit (decimals.drop 1)) = true) :
    whole ++ decimals ∈ mantissa := by
  have digit : hasDigit (whole ++ decimals.drop 1) = true := by
    rwa [hasDigit, List.any_append]
  rcases isDecimals with rfl | ⟨behind, rfl, insideBehind⟩
  · exact ⟨whole, [], .inl rfl, runs_of_hasDigit (by simpa using insideWhole) digit⟩
  · refine ⟨whole, behind, .inr rfl, runs_of_hasDigit ?_ digit⟩
    intro byte member
    exact (List.mem_append.mp member).elim (insideWhole byte) (insideBehind byte)

/-- The parts of a hexadecimal number in front of its exponent and its suffix
have a digit. -/
theorem hasDigit_of_hexadecimal {mark : UInt8}
    (proper : (hexadecimal (0x30 :: mark :: text)).kind ≠ .error) :
    (hasDigit (digitRun Bytes.isHexDigit text).1 || hasDigit
      ((hexFraction (digitRun Bytes.isHexDigit text).2).1.drop 1)) = true := by
  by_contra none
  refine proper ?_
  simp only [hexadecimal, List.drop_succ_cons, List.drop_zero, if_neg none]
  repeat' split
  all_goals rfl

theorem hexadecimal_sound {mark : UInt8} (isMark : mark = 0x78 ∨ mark = 0x58)
    (proper : (hexadecimal (0x30 :: mark :: text)).kind ≠ .error) :
    (hexadecimal (0x30 :: mark :: text)).text ∈
      literals (hexadecimal (0x30 :: mark :: text)).kind := by
  have some_digit := hasDigit_of_hexadecimal proper
  have inside := digitRun_inside Bytes.isHexDigit text
  have isDecimals := hexFraction_sound (digitRun Bytes.isHexDigit text).2
  have isMantissa := mantissa_sound inside isDecimals some_digit
  have base : [0x30, mark] ∈ ({[0x30]} * either 0x78 0x58 : Language UInt8) :=
    ⟨[0x30], rfl, [mark], single_mem_either isMark, rfl⟩
  have leading := Language.append_mem_mul base isMantissa
  rw [← List.append_assoc] at leading
  simp only [hexadecimal, List.drop_succ_cons, List.drop_zero, List.take_succ_cons, List.take_zero,
    if_pos some_digit] at proper ⊢
  split at proper
  · rename_i power
    rw [if_pos power]
    split at proper
    · exact absurd rfl proper
    · rename_i complete
      rw [if_neg complete]
      have isPower := exponent_sound (by decide) power (by simpa using complete)
      have isFraction : _ ∈ Numeral.hexFraction := Language.append_mem_mul leading isPower
      split
      · rename_i suffix
        exact Language.append_mem_mul (.inr isFraction) (suffix_sound (by decide) suffix)
      · split
        · rename_i suffix
          exact .inl (.inl
            (Language.append_mem_mul (.inr isFraction) (suffix_sound (by decide) suffix)))
        · exact .inr isFraction
  · rename_i noPower
    rw [if_neg noPower]
    split at proper
    · exact absurd rfl proper
    · rename_i noPoint
      have none : (hexFraction (digitRun Bytes.isHexDigit text).2).1 = [] := by simpa using noPoint
      rw [none] at some_digit ⊢
      have isRun := runs_of_hasDigit inside (by simpa [hasDigit] using some_digit)
      have isInteger : _ ∈ integer := .inl (.inr (Language.append_mem_mul base isRun))
      rw [if_neg (by simp), List.append_nil]
      split
      · rename_i suffix
        exact Language.append_mem_mul isInteger (suffix_sound (by decide) suffix)
      · exact isInteger

theorem binary_sound {mark : UInt8} (isMark : mark = 0x62 ∨ mark = 0x42)
    (proper : (binary (0x30 :: mark :: text)).kind ≠ .error) :
    (binary (0x30 :: mark :: text)).text ∈ literals (binary (0x30 :: mark :: text)).kind := by
  have some_digit : hasDigit (digitRun isBinaryDigit text).1 = true := by
    by_contra none
    refine proper ?_
    simp only [binary, List.drop_succ_cons, List.drop_zero, if_neg none]
    split <;> rfl
  have isRun := runs_of_hasDigit (digitRun_inside isBinaryDigit text) some_digit
  have base : [0x30, mark] ∈ ({[0x30]} * either 0x62 0x42 : Language UInt8) :=
    ⟨[0x30], rfl, [mark], single_mem_either isMark, rfl⟩
  have isInteger : _ ∈ integer := .inr (Language.append_mem_mul base isRun)
  simp only [binary, List.drop_succ_cons, List.drop_zero, List.take_succ_cons, List.take_zero,
    if_pos some_digit]
  split
  · rename_i suffix
    exact Language.append_mem_mul isInteger (suffix_sound (by decide) suffix)
  · exact isInteger

/-- Hexadecimal digits and a point are read as such in front of an exponent. -/
theorem mantissa_exact (isMantissa : text ∈ mantissa) (stops : Stops Bytes.isHexDigit tail)
    (noPoint : front tail ≠ 0x2e) :
    ∃ whole decimals, text = whole ++ decimals ∧
      digitRun Bytes.isHexDigit (whole ++ (decimals ++ tail)) = (whole, decimals ++ tail) ∧
      hexFraction (decimals ++ tail) = (decimals, tail) ∧
      (hasDigit whole || hasDigit (decimals.drop 1)) = true := by
  obtain ⟨whole, decimals, isText, isRun⟩ := isMantissa
  have some_digit := hasDigit_of_runs (by decide) isRun
  rcases isText with rfl | rfl
  · exact ⟨whole ++ decimals, [], by simp, digitRun_exact isRun.1 stops,
      by simp [hexFraction, noPoint], by simpa [hasDigit] using some_digit⟩
  · have insideWhole := fun byte member => isRun.1 byte (List.mem_append_left decimals member)
    have insideDecimals := fun byte member => isRun.1 byte (List.mem_append_right whole member)
    have atPoint : Bytes.isHexDigit 0x2e = false ∧ (0x2e : UInt8) ≠ 0x5f := by decide
    refine ⟨whole, 0x2e :: decimals, rfl, digitRun_exact insideWhole atPoint, ?_, ?_⟩
    · have behind := digitRun_exact insideDecimals stops
      simp only [hexFraction, List.cons_append, List.drop_succ_cons, List.drop_zero, behind]
      rfl
    · rwa [hasDigit, List.any_append] at some_digit

/-- A hexadecimal number with an exponent. -/
theorem hexadecimal_power {mark : UInt8} (isMantissa : text ∈ mantissa)
    (isPower : power ∈ Numeral.exponent 0x70 0x50) (stops : Stops Bytes.isDigit tail) :
    hexadecimal (0x30 :: mark :: (text ++ (power ++ tail))) =
      if startsWith 0x66 0x46 tail then
        ⟨.floatLiteral, 0x30 :: mark :: (text ++ (power ++ tail.take 1)), tail.drop 1⟩
      else if startsWith 0x64 0x44 tail then
        ⟨.doubleLiteral, 0x30 :: mark :: (text ++ (power ++ tail.take 1)), tail.drop 1⟩
      else ⟨.doubleLiteral, 0x30 :: mark :: (text ++ power), tail⟩ := by
  have starts := startsWith_exponent_append isPower tail
  have complete := exponent_exact isPower stops
  have behind : Stops Bytes.isHexDigit (power ++ tail) ∧ front (power ++ tail) ≠ 0x2e := by
    obtain ⟨first, more, rfl, isFirst⟩ := exists_mark isPower
    have ends : ∀ byte ∈ ([0x70, 0x50] : Bytes),
        (Bytes.isHexDigit byte = false ∧ byte ≠ 0x5f) ∧ byte ≠ 0x2e := by
      simp [Bytes.isHexDigit, Bytes.isDigit]
    exact ends first (by simpa using isFirst)
  obtain ⟨whole, decimals, rfl, wholeEq, decimalsEq, some_digit⟩ :=
    mantissa_exact isMantissa behind.1 behind.2
  simp only [hexadecimal, List.drop_succ_cons, List.drop_zero, List.take_succ_cons, List.take_zero,
    List.append_assoc, wholeEq, decimalsEq, some_digit, starts, complete, if_true,
    Bool.not_true, Bool.false_eq_true, if_false, List.cons_append, List.nil_append]

/-- A hexadecimal number without a point and an exponent. -/
theorem hexadecimal_run {mark : UInt8} (isRun : run ∈ runs Bytes.isHexDigit)
    (ends : tail = [] ∨ tail ∈ either 0x6c 0x4c) :
    hexadecimal (0x30 :: mark :: (run ++ tail)) =
      if tail = [] then ⟨.intLiteral, 0x30 :: mark :: run, []⟩
      else ⟨.longLiteral, 0x30 :: mark :: (run ++ tail), []⟩ := by
  have some_digit := hasDigit_of_runs (by decide) isRun
  have stops : Stops Bytes.isHexDigit tail := by
    rcases ends with rfl | rfl | rfl <;> exact ⟨by decide, by decide⟩
  have read := digitRun_exact isRun.1 stops
  simp only [hexadecimal, List.drop_succ_cons, List.drop_zero, read]
  rcases ends with rfl | rfl | rfl
  all_goals simp [hexFraction, front, startsWith, some_digit]

/-- A binary number. -/
theorem binary_run {mark : UInt8} (isRun : run ∈ runs isBinaryDigit)
    (ends : tail = [] ∨ tail ∈ either 0x6c 0x4c) :
    binary (0x30 :: mark :: (run ++ tail)) =
      if tail = [] then ⟨.intLiteral, 0x30 :: mark :: run, []⟩
      else ⟨.longLiteral, 0x30 :: mark :: (run ++ tail), []⟩ := by
  have some_digit := hasDigit_of_runs (by decide) isRun
  have stops : Stops isBinaryDigit tail := by
    rcases ends with rfl | rfl | rfl <;> exact ⟨by decide, by decide⟩
  have read := digitRun_exact isRun.1 stops
  simp only [binary, List.drop_succ_cons, List.drop_zero, read]
  rcases ends with rfl | rfl | rfl
  all_goals simp [front, startsWith, some_digit]

/-! ## Numbers -/

/-- A zero and one of two marks in front of a text. -/
theorem exists_of_base (proper : small ≠ 0 ∧ capital ≠ 0)
    (based : (front text = 0x30 && startsWith small capital (text.drop 1)) = true) :
    ∃ mark rest, text = 0x30 :: mark :: rest ∧ (mark = small ∨ mark = capital) := by
  obtain ⟨isZero, starts⟩ := Bool.and_eq_true_iff.mp based
  obtain ⟨mark, rest, behind, isMark⟩ := startsWith_cases proper starts
  cases text with
  | nil => cases behind
  | cons first others =>
      have isZero : first = 0x30 := of_decide_eq_true isZero
      have behind : others = mark :: rest := behind
      exact ⟨mark, rest, by rw [isZero, behind], isMark⟩

theorem number_sound (starts : StartsNumber text) (proper : (number text).kind ≠ .error) :
    (number text).text ∈ literals (number text).kind := by
  simp only [number] at proper ⊢
  split at proper
  · rename_i hex
    rw [if_pos hex]
    obtain ⟨mark, rest, rfl, isMark⟩ := exists_of_base (by decide) hex
    exact hexadecimal_sound isMark proper
  · rename_i notHex
    rw [if_neg notHex]
    split at proper
    · rename_i bin
      rw [if_pos bin]
      obtain ⟨mark, rest, rfl, isMark⟩ := exists_of_base (by decide) bin
      exact binary_sound isMark proper
    · rename_i notBinary
      rw [if_neg notBinary]
      exact decimal_sound starts proper

theorem number_hexadecimal {mark : UInt8} (isMark : mark = 0x78 ∨ mark = 0x58) :
    number (0x30 :: mark :: text) = hexadecimal (0x30 :: mark :: text) := by
  rcases isMark with rfl | rfl <;> rfl

theorem number_binary {mark : UInt8} (isMark : mark = 0x62 ∨ mark = 0x42) :
    number (0x30 :: mark :: text) = binary (0x30 :: mark :: text) := by
  rcases isMark with rfl | rfl <;> rfl

/-- Digits are not taken for a base, whatever but a mark of a base follows. -/
theorem number_digits (isDigits : text ∈ digits)
    (noBase : front tail ∉ ([0x78, 0x58, 0x62, 0x42] : Bytes)) :
    number (text ++ tail) = decimal (text ++ tail) := by
  obtain ⟨first, rest, rfl, -, inside⟩ := isDigits
  have second : front (rest ++ tail) ∉ ([0x78, 0x58, 0x62, 0x42] : Bytes) := by
    cases rest with
    | nil => exact noBase
    | cons byte rest =>
        have marks : ∀ mark ∈ ([0x78, 0x58, 0x62, 0x42] : Bytes),
            Bytes.isDigit mark = false ∧ mark ≠ 0x5f := by
          simp [Bytes.isDigit]
        intro member
        obtain ⟨notDigit, notUnderscore⟩ := marks _ member
        rcases (List.forall_mem_cons.mp inside).1 with digit | underscore
        · exact Bool.false_ne_true (notDigit.symm.trans digit)
        · exact notUnderscore underscore
  simp only [List.mem_cons, List.not_mem_nil, or_false, not_or] at second
  simp [number_cons, startsWith, second]

/-- Numbers with a point are not taken for a base. -/
theorem number_pointed (isPointed : text ∈ pointed) (tail : Bytes) :
    number (text ++ tail) = decimal (text ++ tail) := by
  rcases isPointed with ⟨_, ⟨whole, isDigits, _, rfl, rfl⟩, decimals, -, rfl⟩ |
    ⟨_, rfl, decimals, -, rfl⟩
  · have noBase : front (0x2e :: (decimals ++ tail)) ∉ ([0x78, 0x58, 0x62, 0x42] : Bytes) := by
      show (0x2e : UInt8) ∉ ([0x78, 0x58, 0x62, 0x42] : Bytes)
      decide
    simpa using number_digits isDigits noBase
  · rfl

theorem number_marked (isMarked : text ∈ marked) (tail : Bytes) :
    number (text ++ tail) = decimal (text ++ tail) := by
  rcases isMarked with ⟨body, isPointed, power, -, rfl⟩ | ⟨body, isDigits, power, isPower, rfl⟩
  · simpa using number_pointed isPointed (power ++ tail)
  · have noBase : front (power ++ tail) ∉ ([0x78, 0x58, 0x62, 0x42] : Bytes) := by
      have other : ∀ byte ∈ closers, byte ∉ ([0x78, 0x58, 0x62, 0x42] : Bytes) := by
        simp [closers, suffixes]
      exact other _ (closes_exponent isPower tail)
    simpa using number_digits isDigits noBase

/-- A whole number, with or without the suffix of long ones, is read as a whole. -/
theorem number_integer (isInteger : text ∈ integer) (ends : tail = [] ∨ tail ∈ either 0x6c 0x4c) :
    number (text ++ tail) =
      if tail = [] then ⟨.intLiteral, text, []⟩ else ⟨.longLiteral, text ++ tail, []⟩ := by
  rcases isInteger with
    (isDigits | ⟨_, ⟨_, rfl, _, spelled, rfl⟩, run, isRun, rfl⟩) |
      ⟨_, ⟨_, rfl, _, spelled, rfl⟩, run, isRun, rfl⟩
  · have proper : Stops Bytes.isDigit tail ∧ front tail ≠ 0x2e ∧
        startsWith 0x65 0x45 tail = false ∧ front tail ∉ ([0x78, 0x58, 0x62, 0x42] : Bytes) := by
      rcases ends with rfl | rfl | rfl <;>
        exact ⟨⟨by decide, by decide⟩, by decide, by decide, by decide⟩
    rw [number_digits isDigits proper.2.2.2,
      decimal_digits isDigits proper.1 proper.2.1 proper.2.2.1]
    rcases ends with rfl | rfl | rfl <;> rfl
  · obtain ⟨mark, rfl, isMark⟩ := exists_of_either spelled
    exact (number_hexadecimal isMark).trans (hexadecimal_run isRun ends)
  · obtain ⟨mark, rfl, isMark⟩ := exists_of_either spelled
    exact (number_binary isMark).trans (binary_run isRun ends)

/-- What a fraction is read as is up to its suffix. -/
theorem number_fraction (isFraction : text ∈ Numeral.fraction) (ends : front tail ∈ suffixes) :
    ∃ fractional, number (text ++ tail) = decimalSuffix fractional text tail := by
  rw [fraction_eq] at isFraction
  rcases isFraction with isMarked | isDigits
  · exact ⟨true, (number_marked isMarked tail).trans (decimal_marked isMarked ends)⟩
  · have closes : front tail ∈ closers := List.mem_cons_of_mem _ (List.mem_cons_of_mem _ ends)
    have plain : ∀ byte ∈ suffixes, byte ∉ ([0x78, 0x58, 0x62, 0x42] : Bytes) ∧ byte ≠ 0x2e := by
      simp [suffixes]
    exact ⟨false, (number_digits isDigits (plain _ ends).1).trans (decimal_digits isDigits
      (stops_of_closer closes) (plain _ ends).2 (startsWith_exponent_of_suffix ends))⟩

theorem number_hexFraction (isFraction : text ∈ Numeral.hexFraction)
    (ends : front tail ∈ suffixes) : number (text ++ tail) =
      if startsWith 0x66 0x46 tail then ⟨.floatLiteral, text ++ tail.take 1, tail.drop 1⟩
      else if startsWith 0x64 0x44 tail then ⟨.doubleLiteral, text ++ tail.take 1, tail.drop 1⟩
      else ⟨.doubleLiteral, text, tail⟩ := by
  obtain ⟨_, ⟨_, ⟨_, rfl, _, spelled, rfl⟩, digits, isMantissa, rfl⟩, power, isPower, rfl⟩ :=
    isFraction
  obtain ⟨mark, rfl, isMark⟩ := exists_of_either spelled
  have stops : Stops Bytes.isDigit tail := by
    have plain : ∀ byte ∈ suffixes, Bytes.isDigit byte = false ∧ byte ≠ 0x5f := by
      simp [suffixes, Bytes.isDigit]
    exact plain _ ends
  simpa using (number_hexadecimal isMark).trans (hexadecimal_power isMantissa isPower stops)

/-- The suffix of a fraction decides its kind. -/
theorem number_suffix {letter : UInt8} {kind : Token.Kind}
    (isFraction : text ∈ Numeral.fraction + Numeral.hexFraction)
    (decides : (letter = 0x66 ∨ letter = 0x46) ∧ kind = .floatLiteral ∨
      (letter = 0x64 ∨ letter = 0x44) ∧ kind = .doubleLiteral) :
    number (text ++ [letter]) = ⟨kind, text ++ [letter], []⟩ := by
  have ends : front [letter] ∈ suffixes := by
    rcases decides with ⟨rfl | rfl, -⟩ | ⟨rfl | rfl, -⟩ <;> decide
  rcases isFraction with isFraction | isFraction
  · obtain ⟨fractional, read⟩ := number_fraction isFraction ends
    rw [read]
    rcases decides with ⟨rfl | rfl, rfl⟩ | ⟨rfl | rfl, rfl⟩ <;> rfl
  · rw [number_hexFraction isFraction ends]
    rcases decides with ⟨rfl | rfl, rfl⟩ | ⟨rfl | rfl, rfl⟩ <;> rfl

/-- A literal is read as a whole, as one of its kind. -/
theorem number_complete {kind : Token.Kind} (isLiteral : text ∈ literals kind) :
    number text = ⟨kind, text, []⟩ := by
  have atEnd : front ([] : Bytes) ∈ suffixes := List.mem_cons_self
  unfold literals at isLiteral
  split at isLiteral
  · simpa using number_integer isLiteral (.inl rfl)
  · obtain ⟨text, isInteger, suffix, spelled, rfl⟩ := isLiteral
    obtain ⟨letter, rfl, -⟩ := exists_of_either spelled
    simpa using number_integer isInteger (.inr spelled)
  · obtain ⟨text, isFraction, suffix, spelled, rfl⟩ := isLiteral
    obtain ⟨letter, rfl, isLetter⟩ := exists_of_either spelled
    exact number_suffix isFraction (.inl ⟨isLetter, rfl⟩)
  · rcases isLiteral with (⟨text, isFraction, suffix, spelled, rfl⟩ | isMarked) | isFraction
    · obtain ⟨letter, rfl, isLetter⟩ := exists_of_either spelled
      exact number_suffix isFraction (.inr ⟨isLetter, rfl⟩)
    · have read := (number_marked isMarked []).trans (decimal_marked isMarked atEnd)
      rwa [List.append_nil] at read
    · have read := number_hexFraction isFraction atEnd
      rwa [List.append_nil] at read
  · exact absurd isLiteral (Language.notMem_zero _)

/-! ## Where numbers start -/

/-- All words of the language start a number, whatever follows them. -/
def Starts (language : Language UInt8) : Prop :=
  ∀ word ∈ language, ∀ tail, StartsNumber (word ++ tail)

namespace Starts

variable {first second : Language UInt8}

theorem add (left : Starts first) (right : Starts second) : Starts (first + second) :=
  fun word member => member.elim (left word) (right word)

theorem mul (left : Starts first) (other : Language UInt8) : Starts (first * other) := by
  rintro _ ⟨word, member, behind, -, rfl⟩ tail
  have starts := left word member (behind ++ tail)
  rwa [← List.append_assoc] at starts

theorem digits : Starts Numeral.digits := by
  rintro _ ⟨first, rest, rfl, digit, -⟩ tail
  exact .inl digit

theorem zero : Starts {[0x30]} := by
  rintro _ rfl tail
  exact .inl rfl

theorem pointed : Starts Numeral.pointed := by
  refine ((digits.mul _).mul _).add ?_
  rintro _ ⟨_, rfl, _, ⟨first, rest, rfl, digit, -⟩, rfl⟩ tail
  exact .inr ⟨rfl, digit⟩

theorem fraction : Starts Numeral.fraction :=
  (pointed.add digits).mul _

theorem hexFraction : Starts Numeral.hexFraction :=
  ((zero.mul _).mul _).mul _

theorem integer : Starts Numeral.integer :=
  (digits.add ((zero.mul _).mul _)).add ((zero.mul _).mul _)

theorem marked : Starts Numeral.marked :=
  (pointed.mul _).add (digits.mul _)

theorem literals (kind : Token.Kind) : Starts (Numeral.literals kind) := by
  unfold Numeral.literals
  split
  · exact integer
  · exact integer.mul _
  · exact (fraction.add hexFraction).mul _
  · exact (((fraction.add hexFraction).mul _).add marked).add hexFraction
  · exact fun _ absent => absurd absent (Language.notMem_zero _)

end Starts

theorem startsNumber_cons {byte : UInt8} {rest : Bytes} : StartsNumber (byte :: rest) ↔
    (Bytes.isDigit byte || (byte = 0x2e && Bytes.isDigit (front rest))) = true := by
  simp [StartsNumber, front]

/-- What starts a number starts nothing else. -/
theorem scan_of_startsNumber {byte : UInt8} {rest : Bytes} (starts : StartsNumber (byte :: rest)) :
    scan byte rest = number (byte :: rest) :=
  (Scans.number (startsNumber_cons.mp starts)).eq

/-- Only what starts a number is read as one. -/
theorem startsNumber_of_scan {byte : UInt8} {rest : Bytes}
    (isNumber : (scan byte rest).kind ∈ Numeral.kinds) : StartsNumber (byte :: rest) := by
  have noWord : ∀ kind ∈ .ident :: Token.Kind.words, kind ∉ Numeral.kinds := by decide
  have noCharacter : ∀ kind ∈ [.charLiteral, .error], kind ∉ Numeral.kinds := by decide
  have noString : ∀ kind ∈ [.stringLiteral, .error], kind ∉ Numeral.kinds := by decide
  have noOperator : ∀ kind ∈ .error :: operators, kind ∉ Numeral.kinds := by decide
  have read := scan_scans byte rest
  generalize scan byte rest = found at read isNumber
  cases read with
  | lineComment | comment | unclosed | blanks | stray => simp [Numeral.kinds] at isNumber
  | word => exact absurd isNumber (noWord _ (word_kind _))
  | number starts => exact startsNumber_cons.mpr starts
  | characterLiteral => exact absurd isNumber (noCharacter _ (characterLiteral_kind _))
  | stringLiteral => exact absurd isNumber (noString _ (stringLiteral_kind _))
  | operator => exact absurd isNumber (noOperator _ (operator_kind _))

end Lexer

/-- Every number of a source is in the language of its kind, and every literal
of a kind, read on its own, is one token of that kind. -/
theorem Source.numerals :
    (∀ (source : Source) (token : Token), token ∈ source.tokens → token.kind ∈ Numeral.kinds →
      token.text ∈ Numeral.literals token.kind) ∧
    ∀ (file : Bytes) (kind : Token.Kind) (text : Bytes), text ∈ Numeral.literals kind →
      (of file text).tokens.map Token.shape = [(kind, text), (.eof, [])] := by
  constructor
  · intro source token member isNumber
    have notEnd : token.kind ≠ .eof := by
      intro isEnd
      rw [isEnd] at isNumber
      exact absurd isNumber (by decide)
    obtain ⟨byte, rest, sameKind, sameText⟩ := source.lexes_tokens.exists_scan member notEnd
    rw [sameKind] at isNumber
    have starts := Lexer.startsNumber_of_scan isNumber
    have read := Lexer.scan_of_startsNumber starts
    rw [read] at sameKind sameText isNumber
    rw [sameKind, sameText]
    refine Lexer.number_sound starts fun isError => ?_
    rw [isError] at isNumber
    exact absurd isNumber (by decide)
  · intro file kind text isLiteral
    have starts := Lexer.Starts.literals kind text isLiteral []
    rw [List.append_nil] at starts
    obtain ⟨byte, rest, rfl⟩ : ∃ byte rest, text = byte :: rest := by
      cases text with
      | nil => rcases starts with digit | ⟨point, -⟩ <;> contradiction
      | cons byte rest => exact ⟨byte, rest, rfl⟩
    have read := (Lexer.scan_of_startsNumber starts).trans (Lexer.number_complete isLiteral)
    have lexed : Token.Lexes .origin (byte :: rest) (of file (byte :: rest)).tokens :=
      (of file (byte :: rest)).lexes_tokens
    generalize (of file (byte :: rest)).tokens = tokens at lexed
    cases lexed with
    | @token _ _ _ tokens behind =>
        have noRest : (Token.next .origin (byte :: rest)).2 = [] := congrArg Scan.rest read
        rw [noRest] at behind
        cases behind
        simp only [List.map_cons, List.map_nil, Token.shape, Token.next, read]
        rfl

/-- A hexadecimal number with a point, an exponent and a suffix. -/
theorem Source.numerals_hexFraction :
    Bytes.ofString "0x1_f.8p-3F" ∈ Numeral.literals .floatLiteral ∧
    (of [] (Bytes.ofString "0x1_f.8p-3F")).tokens.map Token.shape =
      [(.floatLiteral, Bytes.ofString "0x1_f.8p-3F"), (.eof, [])] := by
  have isMantissa : Bytes.ofString "1_f.8" ∈ Numeral.mantissa :=
    ⟨Bytes.ofString "1_f", Bytes.ofString "8", .inr (by decide +kernel), by decide +kernel, 0x31,
      by decide +kernel⟩
  have isPower : Bytes.ofString "p-3" ∈ Numeral.exponent 0x70 0x50 :=
    ⟨[0x70, 0x2d], ⟨[0x70], .inl rfl, [0x2d], .inl (.inr rfl), rfl⟩, [0x33],
      ⟨0x33, [], rfl, by decide +kernel, by decide +kernel⟩, by decide +kernel⟩
  have isLiteral : Bytes.ofString "0x1_f.8p-3F" ∈ Numeral.literals .floatLiteral :=
    ⟨Bytes.ofString "0x1_f.8p-3", .inr ⟨Bytes.ofString "0x1_f.8",
      ⟨[0x30, 0x78], ⟨[0x30], rfl, [0x78], .inl rfl, rfl⟩, _, isMantissa, by decide⟩, _, isPower,
      by decide⟩, [0x46], .inr rfl, by decide⟩
  exact ⟨isLiteral, numerals.2 [] _ _ isLiteral⟩

end JavaFront
