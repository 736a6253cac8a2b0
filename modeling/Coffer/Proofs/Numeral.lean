import Coffer.Language.Reading.Expression
import Coffer.Proofs.Result

namespace Coffer

/-! # Numerals read back

A whole number is read back from its digits, and a fraction from the digits on both sides
of its point. Within their bounds, whole numbers read back as literals and as counts.
-/

variable {digits text : List Char} {number start limit : Nat}

theorem isDigit_digitsOf : ∀ digit ∈ digitsOf number, Text.isDigit digit = true :=
  fun _ member => Nat.isDigit_of_mem_toDigits (by decide) (by decide) member

theorem digitsOf_ne_nil : digitsOf number ≠ [] :=
  Nat.toDigits_ne_nil

namespace Numeral

theorem digitsValue_digitsOf : digitsValue (digitsOf number) = number :=
  Nat.ofDigitChars_ten_toDigits

theorem le_ofDigitChars : start ≤ Nat.ofDigitChars 10 digits start := by
  induction digits generalizing start with
  | nil => exact Nat.le_refl _
  | cons digit others ih =>
      rw [Nat.ofDigitChars_cons]
      exact Nat.le_trans (by omega) ih

/-- Digits are read while the number they make stays within the limit. -/
theorem boundedDigits_eq {beyond : IntegerFault}
    (all : ∀ digit ∈ digits, Text.isDigit digit = true)
    (fits : Nat.ofDigitChars 10 digits start ≤ limit) :
    boundedDigits limit beyond start digits = .ok (Nat.ofDigitChars 10 digits start) := by
  induction digits generalizing start with
  | nil => rfl
  | cons digit others ih =>
      obtain ⟨first, all⟩ := List.forall_mem_cons.mp all
      rw [Nat.ofDigitChars_cons] at fits ⊢
      have next : ¬ limit < 10 * start + (digit.toNat - 48) :=
        Nat.not_lt.mpr (Nat.le_trans le_ofDigitChars fits)
      rw [boundedDigits, first, Bool.not_true, if_neg Bool.false_ne_true, if_neg next]
      exact ih all fits

theorem boundedDigits_digitsOf {beyond : IntegerFault} (fits : number ≤ limit) :
    boundedDigits limit beyond 0 (digitsOf number) = .ok number := by
  have value : Nat.ofDigitChars 10 (digitsOf number) 0 = number := digitsValue_digitsOf
  rw [boundedDigits_eq isDigit_digitsOf (value.symm ▸ fits), value]

/-- Digits have no sign before them. -/
theorem splitSign_digits (nonempty : digits ≠ [])
    (all : ∀ digit ∈ digits, Text.isDigit digit = true) :
    splitSign (digits ++ text) = (false, digits ++ text) := by
  obtain ⟨digit, others, rfl⟩ := List.exists_cons_of_ne_nil nonempty
  have first := all digit List.mem_cons_self
  rw [List.cons_append, splitSign]
  · intro more same
    cases same
    cases first
  · intro more same
    cases same
    cases first

theorem splitSign_digitsOf : splitSign (digitsOf number) = (false, digitsOf number) := by
  simpa using @splitSign_digits (digitsOf number) [] digitsOf_ne_nil isDigit_digitsOf

theorem isEmpty_digitsOf : (digitsOf number).isEmpty = false := by
  simpa using digitsOf_ne_nil

theorem integer_digitsOf {low high : Int} (fits : number ≤ high.toNat) :
    integer low high (digitsOf number) = .ok number := by
  simp only [integer, splitSign_digitsOf, isEmpty_digitsOf, boundedDigits_digitsOf fits,
    Bool.false_eq_true, if_false, Bool.not_false, if_true]
  rfl

theorem integer_negative {low high : Int} (below : low < 0) (fits : number ≤ (-low).toNat) :
    integer low high ('-' :: digitsOf number) = .ok (-(number : Int)) := by
  have signed : splitSign ('-' :: digitsOf number) = (true, digitsOf number) := rfl
  simp only [integer, signed, isEmpty_digitsOf, boundedDigits_digitsOf fits, List.isEmpty_cons,
    Bool.false_eq_true, if_false, Bool.not_true, if_neg (Int.not_le.mpr below)]
  rfl

/-- A whole number of 64 bits is read back from its sign and digits. -/
theorem int64_digitsOf (number : Int64) :
    int64 (if number.toInt < 0 then '-' :: digitsOf number.toInt.natAbs
      else digitsOf number.toInt.natAbs) = .ok number := by
  have low : -Nat.pow 2 63 ≤ number.toInt := number.le_toInt
  have high : number.toInt < Nat.pow 2 63 := number.toInt_lt
  have whole : Int64.ofInt number.toInt = number := number.ofInt_toInt
  rw [int64]
  split
  · rename_i negative
    have value : -(number.toInt.natAbs : Int) = number.toInt := by omega
    rw [integer_negative (by decide) (by omega), value, Except.map, whole]
  · rename_i nonnegative
    have value : (number.toInt.natAbs : Int) = number.toInt := by omega
    rw [integer_digitsOf (by omega), value, Except.map, whole]

theorem natural64_digitsOf (fits : number < Nat.pow 2 64) :
    natural64 (digitsOf number) = .ok number := by
  rw [natural64, integer_digitsOf (by omega)]
  rfl

theorem boundedDigits_le {beyond : IntegerFault} (within : start ≤ limit)
    (read : boundedDigits limit beyond start text = .ok number) : number ≤ limit := by
  induction text generalizing start with
  | nil =>
      cases read
      exact within
  | cons digit others ih =>
      simp only [boundedDigits] at read
      split at read
      · cases read
      · split at read
        · cases read
        · exact ih (by omega) read

theorem natural64_lt (read : natural64 text = .ok number) : number < Nat.pow 2 64 := by
  simp only [natural64, integer, map_eq_ok_iff] at read
  obtain ⟨whole, read, rfl⟩ := read
  split at read
  · cases read
  · split at read
    · cases read
    · split at read
      · obtain ⟨size, bounded, rfl⟩ := map_eq_ok_iff.mp read
        have least := boundedDigits_le (Nat.zero_le _) bounded
        have bound : ((Nat.pow 2 64 : Int) - 1).toNat < Nat.pow 2 64 := by decide
        exact Nat.lt_of_le_of_lt least bound
      · simp at read

end Numeral

namespace Language

theorem numberLiteral_integer (number : Int64) :
    numberLiteral (decide (number.toInt < 0)) (String.ofList (digitsOf number.toInt.natAbs)) =
      .ok (.integer number) := by
  have whole : (digitsOf number.toInt.natAbs).all Text.isDigit = true :=
    List.all_eq_true.mpr isDigit_digitsOf
  have read := Numeral.int64_digitsOf number
  simp only [numberLiteral, String.toList_ofList, whole, decide_eq_true_eq, if_true, read]

end Language

end Coffer
