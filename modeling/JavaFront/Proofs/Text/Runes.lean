import JavaFront.Proofs.Token.Locality
import JavaFront.Text.Utf8

/-!
# Texts of well-formed characters

Encoding and reading of characters undo each other. A text in which every byte
belongs to a character is therefore the encoding of its code points one after
another, and the runes of such a text do not depend on what follows it.
-/

namespace JavaFront

namespace Rune

theorem toNat_toUInt8 {n : Nat} (small : n < 256) : n.toUInt8.toNat = n := by
  rw [Nat.toUInt8, UInt8.toNat_ofNat']
  omega

theorem toUInt8_lt {n : Nat} {bound : UInt8} (small : n < 256) :
    n.toUInt8 < bound ↔ n < bound.toNat := by
  rw [UInt8.lt_iff_toNat_lt, toNat_toUInt8 small]

theorem toUInt8_le {n : Nat} {bound : UInt8} (small : n < 256) :
    n.toUInt8 ≤ bound ↔ n ≤ bound.toNat := by
  rw [UInt8.le_iff_toNat_le, toNat_toUInt8 small]

theorem le_toUInt8 {n : Nat} {bound : UInt8} (small : n < 256) :
    bound ≤ n.toUInt8 ↔ bound.toNat ≤ n := by
  rw [UInt8.le_iff_toNat_le, toNat_toUInt8 small]

theorem toUInt8_eq {n : Nat} {byte : UInt8} (small : n < 256) :
    n.toUInt8 = byte ↔ n = byte.toNat := by
  rw [← UInt8.toNat_inj, toNat_toUInt8 small]

theorem continuation?_toUInt8 {low high : UInt8} {n : Nat} (above : low.toNat ≤ 0x80 + n)
    (below : 0x80 + n ≤ high.toNat) (small : n < 64) :
    continuation? low high (0x80 + n).toUInt8 = some n := by
  rw [continuation?, if_pos, toNat_toUInt8 (by omega)]
  · congr 1
    omega
  · rw [Bool.and_eq_true, decide_eq_true_eq, decide_eq_true_eq, le_toUInt8 (by omega),
      toUInt8_le (by omega)]
    exact ⟨above, below⟩

/-- What is read where a code point is encoded, whatever follows. -/
theorem decode_encode {code : Nat} (proper : code.isValidChar) :
    ∃ first tail, encode code = first :: tail ∧
      ∀ rest, decode first (tail ++ rest) = ⟨code, tail.length + 1, true⟩ := by
  unfold Nat.isValidChar at proper
  unfold encode
  split_ifs with one two three
  · refine ⟨_, _, rfl, fun rest => ?_⟩
    simp [decode, toUInt8_lt (show code < 256 by omega), toNat_toUInt8 (show code < 256 by omega),
      one]
  · refine ⟨_, _, rfl, fun rest => ?_⟩
    have small : 0xc0 + code / 64 < 256 := by omega
    have last : continuation? 0x80 0xbf (0x80 + code % 64).toUInt8 = some (code % 64) :=
      continuation?_toUInt8 (by simp) (by simp; omega) (by omega)
    simp only [decode, toUInt8_lt small, toUInt8_le small, le_toUInt8 small, toNat_toUInt8 small,
      List.cons_append, List.nil_append, last, UInt8.reduceToNat]
    rw [if_neg (by omega), if_pos (by simp; omega)]
    simp
    omega
  · refine ⟨_, _, rfl, fun rest => ?_⟩
    have small : 0xe0 + code / 4096 < 256 := by omega
    have middle : continuation? (if (0xe0 + code / 4096).toUInt8 = 0xe0 then 0xa0 else 0x80)
        (if (0xe0 + code / 4096).toUInt8 = 0xed then 0x9f else 0xbf)
        (0x80 + code / 64 % 64).toUInt8 = some (code / 64 % 64) := by
      apply continuation?_toUInt8 _ _ (by omega)
      all_goals
        split_ifs with edge <;> rw [toUInt8_eq small] at edge <;> simp at edge ⊢ <;> omega
    have last : continuation? 0x80 0xbf (0x80 + code % 64).toUInt8 = some (code % 64) :=
      continuation?_toUInt8 (by simp) (by simp; omega) (by omega)
    simp only [decode, toUInt8_lt small, toUInt8_le small, le_toUInt8 small, toNat_toUInt8 small,
      List.cons_append, List.nil_append, middle, last, UInt8.reduceToNat]
    rw [if_neg (by omega), if_neg (by simp; omega), if_pos (by simp; omega)]
    simp
    omega
  · refine ⟨_, _, rfl, fun rest => ?_⟩
    have small : 0xf0 + code / 262144 < 256 := by omega
    have upper : continuation? (if (0xf0 + code / 262144).toUInt8 = 0xf0 then 0x90 else 0x80)
        (if (0xf0 + code / 262144).toUInt8 = 0xf4 then 0x8f else 0xbf)
        (0x80 + code / 4096 % 64).toUInt8 = some (code / 4096 % 64) := by
      apply continuation?_toUInt8 _ _ (by omega)
      all_goals
        split_ifs with edge <;> rw [toUInt8_eq small] at edge <;> simp at edge ⊢ <;> omega
    have middle : continuation? 0x80 0xbf (0x80 + code / 64 % 64).toUInt8 = some (code / 64 % 64) :=
      continuation?_toUInt8 (by simp) (by simp; omega) (by omega)
    have last : continuation? 0x80 0xbf (0x80 + code % 64).toUInt8 = some (code % 64) :=
      continuation?_toUInt8 (by simp) (by simp; omega) (by omega)
    simp only [decode, toUInt8_lt small, toUInt8_le small, le_toUInt8 small, toNat_toUInt8 small,
      List.cons_append, List.nil_append, upper, middle, last, UInt8.reduceToNat]
    rw [if_neg (by omega), if_neg (by simp; omega), if_neg (by simp; omega),
      if_pos (by simp; omega)]
    simp
    omega

theorem continuation?_eq_some {low high byte : UInt8} {n : Nat} :
    continuation? low high byte = some n ↔
      (low.toNat ≤ byte.toNat ∧ byte.toNat ≤ high.toNat) ∧ byte.toNat % 64 = n := by
  rw [continuation?, Option.ite_none_right_eq_some, Bool.and_eq_true, decide_eq_true_eq,
    decide_eq_true_eq, UInt8.le_iff_toNat_le, UInt8.le_iff_toNat_le, Option.some.injEq]

/-- The byte behind a lead byte at either end of its range has less room. -/
theorem room_of_edges {first lowest highest : UInt8} {n : Nat} {low low' high high' : UInt8}
    (room : (if first = lowest then low' else low).toNat ≤ n ∧
      n ≤ (if first = highest then high' else high).toNat)
    (above : low.toNat ≤ low'.toNat) (below : high'.toNat ≤ high.toNat) :
    (low.toNat ≤ n ∧ n ≤ high.toNat) ∧
      (first.toNat = lowest.toNat → low'.toNat ≤ n) ∧
      (first.toNat = highest.toNat → n ≤ high'.toNat) := by
  split_ifs at room with atLow atHigh atHigh <;> rw [← UInt8.toNat_inj] at atLow atHigh <;> omega

/-- The four forms of a well-formed character. -/
theorem wellFormed_cases {first : UInt8} {rest : Bytes} (proper : (decode first rest).wellFormed) :
    (first.toNat < 0x80 ∧ decode first rest = ⟨first.toNat, 1, true⟩) ∨
    (∃ second tail, rest = second :: tail ∧
      (0xc2 ≤ first.toNat ∧ first.toNat ≤ 0xdf) ∧
      (0x80 ≤ second.toNat ∧ second.toNat ≤ 0xbf) ∧
      decode first rest = ⟨first.toNat % 32 * 64 + second.toNat % 64, 2, true⟩) ∨
    (∃ second third tail, rest = second :: third :: tail ∧
      (0xe0 ≤ first.toNat ∧ first.toNat ≤ 0xef) ∧
      (0x80 ≤ second.toNat ∧ second.toNat ≤ 0xbf) ∧
      ((first.toNat = 0xe0 → 0xa0 ≤ second.toNat) ∧ (first.toNat = 0xed → second.toNat ≤ 0x9f)) ∧
      (0x80 ≤ third.toNat ∧ third.toNat ≤ 0xbf) ∧
      decode first rest =
        ⟨(first.toNat % 16 * 64 + second.toNat % 64) * 64 + third.toNat % 64, 3, true⟩) ∨
    (∃ second third fourth tail, rest = second :: third :: fourth :: tail ∧
      (0xf0 ≤ first.toNat ∧ first.toNat ≤ 0xf4) ∧
      (0x80 ≤ second.toNat ∧ second.toNat ≤ 0xbf) ∧
      ((first.toNat = 0xf0 → 0x90 ≤ second.toNat) ∧ (first.toNat = 0xf4 → second.toNat ≤ 0x8f)) ∧
      (0x80 ≤ third.toNat ∧ third.toNat ≤ 0xbf) ∧ (0x80 ≤ fourth.toNat ∧ fourth.toNat ≤ 0xbf) ∧
      decode first rest =
        ⟨((first.toNat % 8 * 64 + second.toNat % 64) * 64 + third.toNat % 64) * 64 +
          fourth.toNat % 64, 4, true⟩) := by
  simp only [decode, malformed] at proper ⊢
  by_cases one : first < 0x80
  · exact .inl ⟨by simpa [UInt8.lt_iff_toNat_lt] using one, by rw [if_pos one]⟩
  rw [if_neg one] at proper ⊢
  by_cases two : (0xc2 ≤ first && first ≤ 0xdf) = true
  · rw [if_pos two] at proper ⊢
    rcases rest with _ | ⟨second, rest⟩
    · cases proper
    cases next : continuation? 0x80 0xbf second with
    | none => simp [next] at proper
    | some low =>
        obtain ⟨range, rfl⟩ := continuation?_eq_some.mp next
        simp [UInt8.le_iff_toNat_le] at two
        exact .inr (.inl ⟨second, rest, rfl, two, range, by simp only [next]⟩)
  rw [if_neg two] at proper ⊢
  by_cases three : (0xe0 ≤ first && first ≤ 0xef) = true
  · rw [if_pos three] at proper ⊢
    rcases rest with _ | ⟨second, _ | ⟨third, rest⟩⟩
    · cases proper
    · cases proper
    dsimp only at proper ⊢
    split at proper
    case h_2 => cases proper
    case h_1 middle last nextMiddle nextLast =>
      obtain ⟨range, rfl⟩ := continuation?_eq_some.mp nextMiddle
      obtain ⟨lastRange, rfl⟩ := continuation?_eq_some.mp nextLast
      simp [UInt8.le_iff_toNat_le] at three
      obtain ⟨range, edges⟩ := room_of_edges range (by decide) (by decide)
      exact .inr (.inr (.inl ⟨second, third, rest, rfl, three, range, edges, lastRange, rfl⟩))
  rw [if_neg three] at proper ⊢
  by_cases four : (0xf0 ≤ first && first ≤ 0xf4) = true
  · rw [if_pos four] at proper ⊢
    rcases rest with _ | ⟨second, _ | ⟨third, _ | ⟨fourth, rest⟩⟩⟩
    · cases proper
    · cases proper
    · cases proper
    dsimp only at proper ⊢
    split at proper
    case h_2 => cases proper
    case h_1 upper middle last nextUpper nextMiddle nextLast =>
      obtain ⟨range, rfl⟩ := continuation?_eq_some.mp nextUpper
      obtain ⟨middleRange, rfl⟩ := continuation?_eq_some.mp nextMiddle
      obtain ⟨lastRange, rfl⟩ := continuation?_eq_some.mp nextLast
      simp [UInt8.le_iff_toNat_le] at four
      obtain ⟨range, edges⟩ := room_of_edges range (by decide) (by decide)
      exact .inr (.inr (.inr
        ⟨second, third, fourth, rest, rfl, four, range, edges, middleRange, lastRange, rfl⟩))
  rw [if_neg four] at proper
  cases proper

/-- A character is spelled as its code point is encoded. -/
theorem encode_decode {first : UInt8} {rest : Bytes} (proper : (decode first rest).wellFormed) :
    (decode first rest).code.isValidChar ∧
      encode (decode first rest).code = (first :: rest).take (decode first rest).size := by
  rcases wellFormed_cases proper with ⟨range, same⟩ | ⟨second, tail, rfl, range, secondRange, same⟩ |
    ⟨second, third, tail, rfl, range, secondRange, edges, thirdRange, same⟩ |
    ⟨second, third, fourth, tail, rfl, range, secondRange, edges, thirdRange, fourthRange, same⟩
  all_goals
    rw [same]
    simp only [encode, Nat.isValidChar, List.take_succ_cons, List.take_zero]
  · rw [if_pos range]
    simp
    omega
  · rw [if_neg (by omega), if_pos (by omega)]
    simp only [List.cons.injEq, and_true]
    rw [toUInt8_eq (by omega), toUInt8_eq (by omega)]
    omega
  · rw [if_neg (by omega), if_neg (by omega), if_pos (by omega)]
    simp only [List.cons.injEq, and_true]
    rw [toUInt8_eq (by omega), toUInt8_eq (by omega), toUInt8_eq (by omega)]
    omega
  · rw [if_neg (by omega), if_neg (by omega), if_neg (by omega)]
    simp only [List.cons.injEq, and_true]
    rw [toUInt8_eq (by omega), toUInt8_eq (by omega), toUInt8_eq (by omega),
      toUInt8_eq (by omega)]
    omega

/-- A byte that starts no character is not one that is a character of its own. -/
theorem decode_of_malformed {first : UInt8} {rest : Bytes}
    (broken : (decode first rest).wellFormed = false) :
    decode first rest = malformed ∧ 0x80 ≤ first := by
  have wide : ¬ first < 0x80 := by
    intro narrow
    rw [decode_of_lt rest narrow] at broken
    cases broken
  refine ⟨?_, by simpa using wide⟩
  revert broken
  simp only [decode, if_neg wide]
  repeat' split
  all_goals simp

/-- A character of several bytes has no byte that is a character of its own. -/
theorem mem_encode {code : Nat} (proper : code.isValidChar) :
    ∀ byte ∈ encode code, code < 0x80 ∧ byte.toNat = code ∨ 0x80 ≤ code ∧ 0x80 ≤ byte.toNat := by
  unfold Nat.isValidChar at proper
  unfold encode
  split_ifs with one two three
  · intro byte member
    rw [List.mem_singleton.mp member, toNat_toUInt8 (by omega)]
    exact .inl ⟨one, rfl⟩
  all_goals
    simp only [List.forall_mem_cons, List.not_mem_nil, false_implies, implies_true, and_true]
    repeat' apply And.intro
  all_goals
    rw [toNat_toUInt8 (by omega)]
    omega

theorem encode_char (char : Char) : encode char.toNat = String.utf8EncodeChar char := by
  have bound : char.toNat < 0x110000 := by
    rcases char.valid with below | ⟨-, below⟩
    · exact Nat.lt_trans below (by decide)
    · exact below
  simp only [encode, String.utf8EncodeChar, Char.toNat_val, Nat.toUInt8]
  split_ifs <;> first | omega | rfl | simp only [List.cons.injEq, and_true]
  all_goals
    refine ⟨congrArg UInt8.ofNat ?_, ?_⟩
    · omega
    · simp only [Nat.add_comm, and_self]

end Rune

namespace Bytes

/-- The text of some code points. -/
def ofCodes (codes : List Nat) : Bytes :=
  codes.flatMap Rune.encode

@[simp]
theorem ofCodes_nil : ofCodes [] = [] :=
  rfl

@[simp]
theorem ofCodes_cons (code : Nat) (codes : List Nat) :
    ofCodes (code :: codes) = Rune.encode code ++ ofCodes codes :=
  rfl

@[simp]
theorem ofCodes_append (codes others : List Nat) :
    ofCodes (codes ++ others) = ofCodes codes ++ ofCodes others :=
  List.flatMap_append

/-! ## The runes of a text -/

theorem runesAfter_eq_drop (skipped : Nat) (text : Bytes) :
    runesAfter skipped text = spelledRunes (text.drop skipped) := by
  induction text generalizing skipped with
  | nil => rw [List.drop_nil]; rfl
  | cons byte text ih =>
      cases skipped with
      | zero => rfl
      | succ skipped => exact ih skipped

@[simp]
theorem spelledRunes_nil : spelledRunes [] = [] :=
  rfl

/-- The first rune of a text, and then the runes behind it. -/
theorem spelledRunes_cons (first : UInt8) (rest : Bytes) :
    spelledRunes (first :: rest) =
      (Rune.decode first rest, (first :: rest).take (Rune.decode first rest).size) ::
        spelledRunes (rest.drop ((Rune.decode first rest).size - 1)) := by
  rw [← runesAfter_eq_drop]
  rfl

/-- The rune of a code point, with its spelling. -/
def unitOf (code : Nat) : Rune × Bytes :=
  (⟨code, (Rune.encode code).length, true⟩, Rune.encode code)

theorem spelledRunes_encode {code : Nat} (proper : code.isValidChar) (rest : Bytes) :
    spelledRunes (Rune.encode code ++ rest) = unitOf code :: spelledRunes rest := by
  obtain ⟨first, tail, spelling, read⟩ := Rune.decode_encode proper
  rw [unitOf, spelling, List.cons_append, spelledRunes_cons, read]
  simp

/-- The runes of well-formed characters, whatever follows them. -/
theorem spelledRunes_ofCodes {codes : List Nat} (proper : ∀ code ∈ codes, code.isValidChar)
    (rest : Bytes) :
    spelledRunes (ofCodes codes ++ rest) = codes.map unitOf ++ spelledRunes rest := by
  induction codes with
  | nil => rfl
  | cons code codes ih =>
      rw [List.forall_mem_cons] at proper
      rw [ofCodes_cons, List.append_assoc, spelledRunes_encode proper.1, ih proper.2]
      rfl

theorem runes_eq (text : Bytes) : text.runes = text.spelledRunes.map Prod.fst :=
  rfl

/-- A text of characters only is the text of its code points. -/
theorem exists_codes : (text : Bytes) → text.isValid →
    ∃ codes : List Nat, (∀ code ∈ codes, code.isValidChar) ∧ text = ofCodes codes
  | [], _ => ⟨[], by simp⟩
  | first :: rest, valid => by
      rw [isValid, runes_eq, spelledRunes_cons, List.map_cons, List.all_cons,
        Bool.and_eq_true] at valid
      obtain ⟨proper, spelling⟩ := Rune.encode_decode valid.1
      have behind : isValid (rest.drop ((Rune.decode first rest).size - 1)) := valid.2
      obtain ⟨codes, others, same⟩ := exists_codes _ behind
      refine ⟨(Rune.decode first rest).code :: codes, List.forall_mem_cons.mpr ⟨proper, others⟩, ?_⟩
      have some := Rune.decode_size_pos first rest
      rw [ofCodes_cons, spelling, ← same, List.take_cons some, List.cons_append,
        List.take_append_drop]
termination_by text => text.length

theorem isValid_ofCodes {codes : List Nat} (proper : ∀ code ∈ codes, code.isValidChar) :
    (ofCodes codes).isValid := by
  have read := spelledRunes_ofCodes proper []
  rw [List.append_nil, spelledRunes_nil, List.append_nil] at read
  simp [isValid, runes_eq, read, unitOf]

/-- The bytes of a character string are the text of its characters. -/
theorem ofString_eq_ofCodes (text : String) :
    ofString text = ofCodes (text.toList.map Char.toNat) := by
  rw [ofString, String.toUTF8, ← String.utf8Encode_toList, List.utf8Encode,
    List.toList_data_toByteArray, ofCodes, List.flatMap_map]
  congr 1
  funext char
  exact (Rune.encode_char char).symm

/-- Character strings have well-formed bytes only. -/
theorem isValid_ofString (text : String) : (ofString text).isValid := by
  rw [ofString_eq_ofCodes]
  refine isValid_ofCodes fun code member => ?_
  obtain ⟨char, -, rfl⟩ := List.mem_map.mp member
  exact char.valid

end Bytes

end JavaFront
