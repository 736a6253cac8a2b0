import Mathlib.Data.Nat.Log
import Coffer.Proofs.Rounding
import Coffer.Value.Basic

namespace Coffer

/-! # Integers as reals

Rounding keeps integers in their order, though it may make different ones equal, and the text of an
integer is read as the real that the integer rounds to.
-/

variable {numerator other denominator : Nat}

theorem roundHalfEven_mono (below : numerator ≤ other) :
    roundHalfEven numerator denominator ≤ roundHalfEven other denominator := by
  by_cases same : numerator / denominator = other / denominator
  · have rest : numerator % denominator ≤ other % denominator := by
      have first := Nat.div_add_mod numerator denominator
      have second := Nat.div_add_mod other denominator
      rw [same] at first
      omega
    simp only [roundHalfEven, same]
    repeat' split
    all_goals omega
  · have less : numerator / denominator < other / denominator :=
      Nat.lt_of_le_of_ne (Nat.div_le_div_right below) same
    calc roundHalfEven numerator denominator ≤ numerator / denominator + 1 := roundHalfEven_le
      _ ≤ other / denominator := less
      _ ≤ roundHalfEven other denominator := div_le_roundHalfEven

namespace Binary64

theorem nearestMagnitude_mono (below : numerator ≤ other) :
    nearestMagnitude numerator 1 ≤ nearestMagnitude other 1 := by
  simp only [nearestMagnitude, Nat.div_one, Nat.one_mul]
  have logs : Nat.log2 numerator ≤ Nat.log2 other := by
    rw [Nat.log2_eq_log_two, Nat.log2_eq_log_two]
    exact Nat.log_mono_right below
  have power (shift : Nat) : 0 < Nat.pow 2 shift := Nat.two_pow_pos shift
  refine min_le_min_right _ ?_
  by_cases same : Nat.log2 numerator - 52 = Nat.log2 other - 52
  · rw [same]
    exact Nat.add_le_add_left (roundHalfEven_mono below) _
  · -- A greater shift is at least one binade more, which rounding up cannot make up for.
    have high : numerator / Nat.pow 2 (Nat.log2 numerator - 52) < 2 ^ 53 := by
      refine Nat.div_lt_of_lt_mul (Nat.lt_of_lt_of_le Nat.lt_log2_self ?_)
      rw [Nat.pow_eq, ← Nat.pow_add]
      exact Nat.pow_le_pow_right (by decide) (by omega)
    have low : 2 ^ 52 ≤ other / Nat.pow 2 (Nat.log2 other - 52) := by
      refine (Nat.le_div_iff_mul_le (power _)).mpr ?_
      have nonzero : other ≠ 0 := by
        intro zero
        rw [zero, Nat.log2_zero] at same logs
        omega
      calc 2 ^ 52 * Nat.pow 2 (Nat.log2 other - 52) = 2 ^ (52 + (Nat.log2 other - 52)) :=
            (Nat.pow_add 2 52 _).symm
        _ = 2 ^ Nat.log2 other := by
            congr 1
            omega
        _ ≤ other := Nat.log2_self_le nonzero
    have most := @roundHalfEven_le numerator (Nat.pow 2 (Nat.log2 numerator - 52))
    have least := @div_le_roundHalfEven other (Nat.pow 2 (Nat.log2 other - 52))
    have shifted : (Nat.log2 numerator - 52 + 1) * binade ≤ (Nat.log2 other - 52) * binade :=
      Nat.mul_le_mul_right _ (by omega)
    rw [Nat.add_mul] at shifted
    rw [binade_eq] at shifted ⊢
    omega

theorem nearestMagnitude_lt_sign : nearestMagnitude numerator denominator < Nat.pow 2 63 :=
  Nat.lt_of_le_of_lt (Nat.min_le_right _ _) (by decide)

theorem magnitude_ofInt {number : Int} :
    (ofInt number).magnitude = nearestMagnitude (number.natAbs * quantaPerUnit) 1 := by
  rw [ofInt, nearest, magnitude_ofMagnitude nearestMagnitude_lt_sign]

theorem rank_ofInt (number : Int) :
    (ofInt number).rank =
      if number < 0 then -(nearestMagnitude (number.natAbs * quantaPerUnit) 1 : Int)
      else nearestMagnitude (number.natAbs * quantaPerUnit) 1 := by
  rw [rank, magnitude_ofInt, ofInt, nearest, negative_ofMagnitude nearestMagnitude_lt_sign]
  simp

theorem rank_ofInt_mono {first second : Int} (below : first ≤ second) :
    (ofInt first).rank ≤ (ofInt second).rank := by
  rw [rank_ofInt, rank_ofInt]
  split
  · split
    · have larger : second.natAbs * quantaPerUnit ≤ first.natAbs * quantaPerUnit :=
        Nat.mul_le_mul_right _ (by omega)
      have := nearestMagnitude_mono larger
      omega
    · omega
  · rw [if_neg (by omega)]
    have larger : first.natAbs * quantaPerUnit ≤ second.natAbs * quantaPerUnit :=
      Nat.mul_le_mul_right _ (by omega)
    exact Int.ofNat_le.mpr (nearestMagnitude_mono larger)

theorem nearestMagnitude_lt {whole : Nat} (small : whole ≤ Nat.pow 2 63) :
    nearestMagnitude (whole * quantaPerUnit) 1 < infiniteMagnitude := by
  by_cases zero : whole = 0
  · subst zero
    rw [Nat.zero_mul, nearestMagnitude_small (by decide)]
    decide
  · obtain ⟨places, form, same⟩ := exists_places
    have power : 0 < 2 ^ places := Nat.two_pow_pos _
    have some : whole * 2 ^ places ≠ 0 := Nat.mul_ne_zero zero (Nat.ne_of_gt power)
    have below : whole * 2 ^ places < 2 ^ (64 + places) := by
      rw [Nat.pow_add]
      exact Nat.mul_lt_mul_of_pos_right (Nat.lt_of_le_of_lt small (by decide)) power
    have leading : Nat.log2 (whole * 2 ^ places) < 64 + places := (Nat.log2_lt some).mpr below
    have above : whole * 2 ^ places < 2 ^ (Nat.log2 (whole * 2 ^ places) + 1) := Nat.lt_log2_self
    rw [nearestMagnitude, form, Nat.div_one, Nat.one_mul]
    generalize Nat.log2 (whole * 2 ^ places) = log at leading above
    generalize whole * 2 ^ places = numerator at above
    have quotient : numerator / Nat.pow 2 (log - 52) < 2 ^ 53 := by
      refine Nat.div_lt_of_lt_mul (Nat.lt_of_lt_of_le above ?_)
      rw [Nat.pow_eq, ← Nat.pow_add]
      exact Nat.pow_le_pow_right (by decide) (by omega)
    have rounded := @roundHalfEven_le numerator (Nat.pow 2 (log - 52))
    have shifted : (log - 52) * binade ≤ 1086 * binade := Nat.mul_le_mul_right _ (by omega)
    have top : infiniteMagnitude = 1086 * binade + 961 * binade := rfl
    have room : 2 ^ 53 + 1 < 961 * binade := by decide
    refine Nat.lt_of_le_of_lt (Nat.min_le_left _ _) ?_
    rw [top]
    exact Nat.add_lt_add_of_le_of_lt shifted (by omega)

theorem ofInt_finite {number : Int64} : (ofInt number.toInt).isFinite = true := by
  have least := number.le_toInt
  have most := number.toInt_lt
  have finite := @nearestMagnitude_lt number.toInt.natAbs (show _ ≤ 9223372036854775808 by omega)
  rw [isFinite, magnitude_ofInt]
  exact decide_eq_true finite

theorem not_isNan_of_isFinite {x : Binary64} (finite : x.isFinite = true) : x.isNan = false := by
  simp only [isFinite, isNan, decide_eq_true_eq, decide_eq_false_iff_not] at finite ⊢
  omega

end Binary64

/-! ## The text of an integer -/

namespace Numeral

variable {digits : List Char}

theorem unsigned?_whole {negative : Bool} (nonempty : digits ≠ [])
    (all : ∀ digit ∈ digits, Text.isDigit digit = true) :
    unsigned? negative digits = some ⟨negative, digitsValue digits, 0⟩ := by
  have stops : Stops Text.isDigit [] := nofun
  have taken : digits.takeWhile Text.isDigit = digits := by
    simpa using takeWhile_run all stops
  have dropped : digits.dropWhile Text.isDigit = [] := by
    simpa using dropWhile_run all stops
  have some : digits.isEmpty = false := by simpa using nonempty
  simp [unsigned?, taken, dropped, some, splitFraction, exponent?]

theorem real?_whole {negative : Bool} (nonempty : digits ≠ [])
    (all : ∀ digit ∈ digits, Text.isDigit digit = true) :
    real? (if negative then '-' :: digits else digits) =
      some (.nearest negative (digitsValue digits * Binary64.quantaPerUnit) 1) := by
  have signed : splitSign (if negative then '-' :: digits else digits) = (negative, digits) := by
    cases negative with
    | false => simpa using @splitSign_digits digits [] nonempty all
    | true => rfl
  obtain ⟨digit, more, form⟩ := List.exists_cons_of_ne_nil nonempty
  have noWord (first : Char) (word : List Char) (letter : Text.isDigit first = false) :
      spells digits (first :: word) = false := by
    rw [form]
    exact spells_digits (all digit (form ▸ List.mem_cons_self)) letter
  have noInf : spells digits "inf".toList = false := noWord 'i' _ rfl
  have noInfinity : spells digits "infinity".toList = false := noWord 'i' _ rfl
  have noNan : spells digits "nan".toList = false := noWord 'n' _ rfl
  simp only [real?, signed, noInf, noInfinity, noNan, Bool.or_self, Bool.false_eq_true, if_false,
    unsigned?_whole nonempty all, Option.map_some, toBinary64_eq, Scaled.magnitude,
    Binary64.nearest]
  simp

end Numeral

/-- The text of an integer spells the real that the integer rounds to. -/
theorem Value.realOfText?_integerText (number : Int64) :
    realOfText? (integerText number.toInt) = some (.ofInt number.toInt) := by
  have text : (integerText number.toInt).toList =
      if decide (number.toInt < 0) then '-' :: digitsOf number.toInt.natAbs
      else digitsOf number.toInt.natAbs := by
    rw [integerText, String.toList_ofList]
    simp
  have plain : ∀ character ∈ (integerText number.toInt).toList,
      Text.isBlank character = false := by
    have digit : ∀ character ∈ digitsOf number.toInt.natAbs, Text.isBlank character = false :=
      fun character member => Text.isBlank_of_isDigit (isDigit_digitsOf character member)
    rw [text]
    split
    · exact List.forall_mem_cons.mpr ⟨by decide, digit⟩
    · exact digit
  rw [realOfText?, Text.trimmed_of_not_isBlank plain, text,
    Numeral.real?_whole digitsOf_ne_nil isDigit_digitsOf, Numeral.digitsValue_digitsOf]
  exact Option.filter_some_pos Binary64.ofInt_finite

end Coffer
