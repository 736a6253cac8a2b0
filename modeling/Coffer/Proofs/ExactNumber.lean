import Mathlib.Algebra.Order.Field.Basic
import Mathlib.Tactic.FieldSimp
import Mathlib.Tactic.Linarith
import Mathlib.Tactic.NormNum
import Coffer.Proofs.SpelledNumber

namespace Coffer

/-! # Numbers without rounding

What reals and numerals stand for as rationals. A rational that fits 53 binary digits is a
real, and only such a one is, so a numeral stands for the real that it rounds to just when it fits.
-/

/-- The rational that a finite real is. -/
def Binary64.exact (x : Binary64) : ℚ :=
  (x.signedQuanta : ℚ) / (quantaPerUnit : ℚ)

/-- The rational that digits and a power of ten stand for. -/
def Scaled.exact (scaled : Scaled) : ℚ :=
  scaled.digits * (10 : ℚ) ^ scaled.exponent

/-- The rational that a numeral stands for, before it is rounded. -/
def Numeral.Decimal.exact (numeral : Decimal) : ℚ :=
  (if numeral.negative then -1 else 1) * Scaled.exact ⟨numeral.digits, numeral.exponent⟩

/-- Whether a rational has 53 binary digits at places that a double has. -/
def Fits (number : ℚ) : Prop :=
  ∃ digits place : Int, digits.natAbs < 2 ^ 53 ∧ -1074 ≤ place ∧ place ≤ 971 ∧
    number = digits * (2 : ℚ) ^ place

namespace Binary64

variable {x y : Binary64} {magnitude digits exponent bits : Nat}

theorem quantaPerUnit_pos : (0 : ℚ) < (quantaPerUnit : ℚ) :=
  Nat.cast_pos.mpr (by decide +kernel)

theorem two_zpow : (2 : ℚ) ^ ((exponent : ℤ) - 1074) = 2 ^ exponent / (quantaPerUnit : ℚ) := by
  obtain ⟨places, form, same⟩ := exists_places
  rw [zpow_sub₀ (by norm_num), zpow_natCast, form, Nat.cast_pow, ← zpow_natCast, same]
  rfl

/-- Any number of quanta within the last binade that has 53 binary digits is that of a magnitude. -/
theorem exists_quantaOfMagnitude (short : digits < 2 ^ 53) (last : bits ≤ 2098)
    (bounded : digits * 2 ^ exponent < 2 ^ bits) :
    ∃ magnitude, magnitude < infiniteMagnitude ∧
      quantaOfMagnitude magnitude = digits * 2 ^ exponent := by
  by_cases small : digits * 2 ^ exponent < binade
  · refine ⟨digits * 2 ^ exponent, ?_, by rw [quantaOfMagnitude, if_pos small]⟩
    have room : binade < infiniteMagnitude := by decide
    omega
  have some : digits * 2 ^ exponent ≠ 0 := by
    have positive : 0 < binade := by decide
    omega
  have nonzero : digits ≠ 0 := fun zero => some (by rw [zero, Nat.zero_mul])
  have leading : Nat.log2 (digits * 2 ^ exponent) = Nat.log2 digits + exponent := by
    have low := Nat.mul_le_mul_right (2 ^ exponent) (Nat.log2_self_le nonzero)
    have high := Nat.mul_lt_mul_of_pos_right (@Nat.lt_log2_self digits) (Nat.two_pow_pos exponent)
    rw [← Nat.pow_add] at low high
    refine (Nat.log2_eq_iff some).mpr ⟨low, ?_⟩
    rwa [Nat.add_right_comm]
  have below : Nat.log2 digits < 53 := (Nat.log2_lt nonzero).mpr short
  have least : 52 ≤ Nat.log2 digits + exponent := by
    rw [← leading]
    exact (Nat.le_log2 some).mpr (Nat.not_lt.mp small)
  have most : Nat.log2 digits + exponent < 2098 := by
    rw [← leading]
    exact Nat.lt_of_lt_of_le ((Nat.log2_lt some).mpr bounded) last
  -- The leading digit decides how far the last of 53 digits is shifted, and zeros fill up to there.
  obtain ⟨shift, form⟩ : ∃ shift, Nat.log2 digits + exponent = 52 + shift :=
    ⟨Nat.log2 digits + exponent - 52, by omega⟩
  obtain ⟨widen, rfl⟩ : ∃ widen, exponent = widen + shift := ⟨exponent - shift, by omega⟩
  have place : Nat.log2 digits + widen = 52 := by omega
  have low : binade ≤ digits * 2 ^ widen := by
    rw [binade_eq, ← place, Nat.pow_add]
    exact Nat.mul_le_mul_right _ (Nat.log2_self_le nonzero)
  have high : digits * 2 ^ widen < 2 * binade := by
    rw [binade_eq, ← Nat.pow_succ', ← place, ← Nat.add_one, Nat.add_right_comm, Nat.pow_add]
    exact Nat.mul_lt_mul_of_pos_right Nat.lt_log2_self (Nat.two_pow_pos widen)
  obtain ⟨fraction, split⟩ := Nat.exists_eq_add_of_le low
  refine ⟨(shift + 1) * binade + fraction, ?_, ?_⟩
  · have top : infiniteMagnitude = 2046 * binade + binade := rfl
    have shifted : (shift + 1) * binade ≤ 2046 * binade := Nat.mul_le_mul_right _ (by omega)
    omega
  · rw [quantaOfMagnitude_normal (by omega), ← split, Nat.mul_assoc, ← Nat.pow_add]

/-- The quanta of a finite real have 53 binary digits. -/
theorem quantaOfMagnitude_short (finite : magnitude < infiniteMagnitude) :
    ∃ digits exponent, digits < 2 ^ 53 ∧ exponent ≤ 2045 ∧
      quantaOfMagnitude magnitude = digits * 2 ^ exponent := by
  by_cases small : magnitude < binade
  · refine ⟨magnitude, 0, ?_, by omega, ?_⟩
    · rw [binade_eq] at small
      omega
    · rw [quantaOfMagnitude, if_pos small, Nat.pow_zero, Nat.mul_one]
  · have fraction : magnitude % binade < binade := Nat.mod_lt _ (by decide)
    have place : magnitude / binade < 2047 := Nat.div_lt_of_lt_mul (by rwa [Nat.mul_comm])
    rw [binade_eq] at fraction
    refine ⟨binade + magnitude % binade, magnitude / binade - 1, ?_, by omega, ?_⟩
    · rw [binade_eq]
      omega
    · rw [quantaOfMagnitude, if_neg small]
      rfl

/-- A real of rank zero is one of the two zeros, and others have a rank of their own. -/
theorem eq_of_rank_eq (same : x.rank = y.rank) : x = y ∨ x.magnitude = 0 ∧ y.magnitude = 0 := by
  have rebuilt : x.negative = y.negative → x.magnitude = y.magnitude → x = y := by
    intro sign size
    rw [← @ofMagnitude_self x, ← @ofMagnitude_self y, sign, size]
  simp only [rank] at same
  cases first : x.negative <;> cases second : y.negative <;> simp only [first, second] at same
  · exact .inl (rebuilt (first.trans second.symm) (by simpa using same))
  · exact .inr (by simp at same; omega)
  · exact .inr (by simp at same; omega)
  · exact .inl (rebuilt (first.trans second.symm) (by simpa using same))

theorem exact_eq : x.exact =
    (if x.negative then -1 else 1) * ((x.quanta : ℚ) / (quantaPerUnit : ℚ)) := by
  rw [exact, signedQuanta]
  split
  · rw [Int.cast_neg, Int.cast_natCast, neg_div, neg_one_mul]
  · rw [Int.cast_natCast, one_mul]

theorem abs_exact : |x.exact| = (x.quanta : ℚ) / (quantaPerUnit : ℚ) := by
  have nonneg : 0 ≤ (x.quanta : ℚ) / (quantaPerUnit : ℚ) :=
    div_nonneg (Nat.cast_nonneg _) quantaPerUnit_pos.le
  rw [exact_eq, abs_mul, abs_of_nonneg nonneg]
  split
  · rw [abs_neg, abs_one, one_mul]
  · rw [abs_one, one_mul]

/-- Reals of one rank are one number, the two zeros among them. -/
theorem exact_eq_of_rank_eq (same : x.rank = y.rank) : x.exact = y.exact := by
  have zeroQuanta {z : Binary64} (zero : z.magnitude = 0) : z.exact = 0 := by
    have none : quantaOfMagnitude 0 = 0 := rfl
    rw [exact_eq, quanta, zero, none, Nat.cast_zero, zero_div, mul_zero]
  rcases eq_of_rank_eq same with rfl | ⟨first, second⟩
  · rfl
  · rw [zeroQuanta first, zeroQuanta second]

theorem fits_exact (finite : x.isFinite = true) : Fits x.exact := by
  obtain ⟨digits, exponent, short, last, form⟩ :=
    quantaOfMagnitude_short (lt_infiniteMagnitude finite)
  refine ⟨if x.negative then -digits else digits, exponent - 1074, ?_, by omega, by omega, ?_⟩
  · split <;> omega
  · rw [exact_eq, quanta, form, two_zpow]
    push_cast
    split <;> ring

end Binary64

theorem cast_eq_sign_mul (number : Int) :
    (number : ℚ) = (if number < 0 then -1 else 1) * (number.natAbs : ℚ) := by
  split
  · rw [Nat.cast_natAbs, abs_of_neg ‹_›]
    push_cast
    ring
  · rw [Nat.cast_natAbs, abs_of_nonneg (by omega), one_mul]

/-- A rational that fits is a finite real. -/
theorem Fits.exists_real {number : ℚ} (fits : Fits number) :
    ∃ x : Binary64, x.isFinite = true ∧ x.exact = number := by
  obtain ⟨digits, place, short, least, most, rfl⟩ := fits
  obtain ⟨exponent, rfl⟩ : ∃ exponent : Nat, place = exponent - 1074 :=
    ⟨(place + 1074).toNat, by omega⟩
  have bounded : digits.natAbs * 2 ^ exponent < 2 ^ (53 + exponent) := by
    rw [Nat.pow_add]
    exact Nat.mul_lt_mul_of_pos_right short (Nat.two_pow_pos exponent)
  obtain ⟨magnitude, finite, quanta⟩ :=
    Binary64.exists_quantaOfMagnitude short (by omega) bounded
  have room : Binary64.infiniteMagnitude < Nat.pow 2 63 := by decide
  have within := Nat.lt_trans finite room
  refine ⟨.ofMagnitude (decide (digits < 0)) magnitude, ?_, ?_⟩
  · rw [Binary64.isFinite, Binary64.magnitude_ofMagnitude within]
    exact decide_eq_true finite
  · rw [Binary64.exact_eq, Binary64.quanta, Binary64.magnitude_ofMagnitude within,
      Binary64.negative_ofMagnitude within, quanta, Binary64.two_zpow, cast_eq_sign_mul digits]
    push_cast
    simp only [decide_eq_true_eq]
    ring

/-! ## Numerals -/

theorem ten_zpow (exponent : Int) :
    (10 : ℚ) ^ exponent = (10 : ℚ) ^ exponent.toNat / (10 : ℚ) ^ (-exponent).toNat := by
  rw [← zpow_natCast, ← zpow_natCast, ← zpow_sub₀ (by norm_num)]
  congr 1
  omega

namespace Scaled

variable {scaled : Scaled} {x : Binary64}

/-- Digits that are exactly the size of a real round to it. -/
theorem magnitude_of_exact (finite : x.isFinite = true) (same : scaled.exact = |x.exact|) :
    scaled.magnitude = x.magnitude := by
  rw [← Binary64.nearestMagnitude_quanta (Binary64.lt_infiniteMagnitude finite), magnitude]
  refine Binary64.nearestMagnitude_congr (Nat.pow_pos (by decide)) Nat.one_pos ?_
  rw [exact, Binary64.abs_exact, ten_zpow, ← mul_div_assoc,
    div_eq_div_iff (pow_ne_zero _ (by norm_num)) Binary64.quantaPerUnit_pos.ne'] at same
  rw [Nat.mul_one]
  exact_mod_cast same

end Scaled

namespace Numeral.Decimal

variable {numeral : Decimal}

theorem abs_exact : |numeral.exact| = Scaled.exact ⟨numeral.digits, numeral.exponent⟩ := by
  have nonneg : 0 ≤ Scaled.exact ⟨numeral.digits, numeral.exponent⟩ :=
    mul_nonneg (Nat.cast_nonneg _) (zpow_nonneg (by norm_num) _)
  rw [exact, abs_mul, abs_of_nonneg nonneg]
  split
  · rw [abs_neg, abs_one, one_mul]
  · rw [abs_one, one_mul]

/-- The real that a numeral is rounded to is the number it stands for just when that fits. -/
theorem fits_exact_iff : Fits numeral.exact ↔
    numeral.toBinary64.isFinite = true ∧ numeral.toBinary64.exact = numeral.exact := by
  refine ⟨fun fits => ?_, fun ⟨finite, same⟩ => same ▸ Binary64.fits_exact finite⟩
  obtain ⟨x, finite, same⟩ := fits.exists_real
  have size : Scaled.exact ⟨numeral.digits, numeral.exponent⟩ = |x.exact| := by
    rw [same, abs_exact]
  have bound := Binary64.lt_infiniteMagnitude finite
  rw [toBinary64_eq, Scaled.magnitude_of_exact finite size]
  refine ⟨?_, ?_⟩
  · rw [Binary64.isFinite, Binary64.magnitude_ofMagnitude Binary64.magnitude_lt]
    exact decide_eq_true bound
  · rw [Binary64.exact_eq, Binary64.negative_ofMagnitude Binary64.magnitude_lt, Binary64.quanta,
      Binary64.magnitude_ofMagnitude Binary64.magnitude_lt, exact, size, Binary64.abs_exact,
      Binary64.quanta]

end Numeral.Decimal

/-! ## Integers -/

/-- The numeral of an integer. -/
def Numeral.Decimal.ofInt (number : Int) : Decimal :=
  ⟨decide (number < 0), number.natAbs, 0⟩

namespace Numeral.Decimal

variable {number other : Int}

theorem exact_ofInt : (ofInt number).exact = number := by
  rw [exact, ofInt, Scaled.exact, zpow_zero, mul_one, cast_eq_sign_mul number]
  simp only [decide_eq_true_eq]

theorem toBinary64_ofInt : (ofInt number).toBinary64 = .ofInt number := by
  rw [toBinary64_eq, ofInt, Binary64.ofInt, Binary64.nearest, Scaled.magnitude]
  simp

end Numeral.Decimal

namespace Binary64

variable {number other : Int}

/-- An integer is the real that it rounds to just when it fits. -/
theorem fits_int_iff : Fits number ↔
    (ofInt number).isFinite = true ∧ (ofInt number).exact = number := by
  rw [← Numeral.Decimal.exact_ofInt, Numeral.Decimal.fits_exact_iff,
    Numeral.Decimal.toBinary64_ofInt]

theorem fits_of_le (small : number.natAbs ≤ 2 ^ 53) : Fits number := by
  by_cases short : number.natAbs < 2 ^ 53
  · exact ⟨number, 0, short, by decide, by decide, by rw [zpow_zero, mul_one]⟩
  · refine ⟨number / 2, 1, by omega, by decide, by decide, ?_⟩
    have even : number = number / 2 * 2 := by omega
    conv_lhs => rw [even]
    push_cast
    ring

/-- Only integers beyond 53 binary digits round to the same real as others. -/
theorem le_natAbs_of_rank_eq (same : (ofInt number).rank = (ofInt other).rank)
    (apart : number ≠ other) : 2 ^ 53 ≤ number.natAbs := by
  by_contra small
  -- The neighbour on the way to the other integer would round to the same real as well.
  have close (next : Int) (near : next.natAbs ≤ 2 ^ 53)
      (alike : (ofInt number).rank = (ofInt next).rank) : number = next := by
    have exact := exact_eq_of_rank_eq alike
    rw [(fits_int_iff.mp (fits_of_le (by omega : number.natAbs ≤ 2 ^ 53))).2,
      (fits_int_iff.mp (fits_of_le near)).2] at exact
    exact_mod_cast exact
  rcases Int.lt_or_gt_of_ne apart with below | above
  · have low := @rank_ofInt_mono number (number + 1) (by omega)
    have high := @rank_ofInt_mono (number + 1) other (by omega)
    have := close (number + 1) (by omega) (by omega)
    omega
  · have low := @rank_ofInt_mono other (number - 1) (by omega)
    have high := @rank_ofInt_mono (number - 1) number (by omega)
    have := close (number - 1) (by omega) (by omega)
    omega

end Binary64

end Coffer
