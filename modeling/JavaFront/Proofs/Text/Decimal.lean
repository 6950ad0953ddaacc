import JavaFront.Text.Number
import Mathlib.Data.List.Basic
import Mathlib.Tactic.IntervalCases

/-!
# Decimal digits

The digits of a natural number are never none, begin with a zero only for zero
itself, and spell the number they are the digits of.
-/

namespace JavaFront.Bytes

theorem ofNat_of_lt {n : Nat} (small : n < 10) : ofNat n = [(0x30 + n).toUInt8] := by
  rw [ofNat, Nat.toDigits_of_lt_base small]
  interval_cases n <;> rfl

/-- The last digit stands behind the digits of the tenth part. -/
theorem ofNat_of_le {n : Nat} (large : 10 ≤ n) :
    ofNat n = ofNat (n / 10) ++ ofNat (n % 10) := by
  have digit : n % 10 < 10 := Nat.mod_lt _ (by decide)
  rw [ofNat, Nat.toDigits_of_base_le (by decide) large, List.map_append, ofNat, ofNat,
    Nat.toDigits_of_lt_base digit, List.map_singleton]

theorem ofNat_ne_nil (n : Nat) : ofNat n ≠ [] := by
  rcases Nat.lt_or_ge n 10 with small | large
  · rw [ofNat_of_lt small]
    exact List.cons_ne_nil _ _
  · rw [ofNat_of_le large, ofNat_of_lt (Nat.mod_lt _ (by decide))]
    simp

theorem isDigit_of_lt {n : Nat} (small : n < 10) : isDigit (0x30 + n).toUInt8 = true := by
  interval_cases n <;> rfl

theorem isDigit_of_mem_ofNat (n : Nat) : ∀ byte ∈ ofNat n, isDigit byte = true := by
  induction n using Nat.strongRecOn with
  | ind n ih =>
      rcases Nat.lt_or_ge n 10 with small | large
      · rw [ofNat_of_lt small, List.forall_mem_singleton]
        exact isDigit_of_lt small
      · have digit : n % 10 < 10 := Nat.mod_lt _ (by decide)
        rw [ofNat_of_le large, ofNat_of_lt digit, List.forall_mem_append, List.forall_mem_singleton]
        exact ⟨ih (n / 10) (by omega), isDigit_of_lt digit⟩

/-- An integer is written with digits and a minus sign. -/
theorem mem_ofInt (n : Int) : ∀ byte ∈ ofInt n, byte = 0x2d ∨ isDigit byte = true := by
  intro byte member
  cases n with
  | ofNat n => exact .inr (isDigit_of_mem_ofNat n byte member)
  | negSucc n =>
      rcases List.mem_cons.mp member with minus | digit
      · exact .inl minus
      · exact .inr (isDigit_of_mem_ofNat (n + 1) byte digit)

/-- Zero is the only number that is written with a zero in front. -/
theorem head?_ofNat_ne_zero {n : Nat} (positive : n ≠ 0) : (ofNat n).head? ≠ some 0x30 := by
  induction n using Nat.strongRecOn with
  | ind n ih =>
      rcases Nat.lt_or_ge n 10 with small | large
      · rw [ofNat_of_lt small]
        interval_cases n <;> simp_all
      · rw [ofNat_of_le large, List.head?_append_of_ne_nil _ (ofNat_ne_nil _)]
        exact ih (n / 10) (by omega) (by omega)

theorem decimalValue_append_digit (digits : Bytes) {n : Nat} (small : n < 10) :
    decimalValue (digits ++ ofNat n) = decimalValue digits * 10 + n := by
  rw [ofNat_of_lt small, decimalValue, List.foldl_append, ← decimalValue]
  simp only [List.foldl_cons, List.foldl_nil, Nat.add_right_inj]
  interval_cases n <;> rfl

/-- The digits of a number spell it. -/
theorem decimalValue_ofNat (n : Nat) : decimalValue (ofNat n) = n := by
  induction n using Nat.strongRecOn with
  | ind n ih =>
      rcases Nat.lt_or_ge n 10 with small | large
      · rw [← List.nil_append (ofNat n), decimalValue_append_digit [] small]
        simp [decimalValue]
      · rw [ofNat_of_le large, decimalValue_append_digit _ (Nat.mod_lt _ (by decide)),
          ih (n / 10) (by omega)]
        omega

end JavaFront.Bytes
