import Coffer.Proofs.Encoding
import Coffer.Proofs.Numeral
import Mathlib.Tactic.Ring

namespace Coffer

/-! # Reals read back

A number of quanta that is a real's own rounds to that real, and a numeral rounds as the
quotient it stands for, however large or small. The digits written for a real are chosen
among those that round to it, so they read back as the real.
-/

variable {numerator denominator scale : Nat}

theorem roundHalfEven_scaled (positive : 0 < scale) :
    roundHalfEven (scale * numerator) (scale * denominator) =
      roundHalfEven numerator denominator := by
  have twice : 2 * (scale * (numerator % denominator)) = scale * (2 * (numerator % denominator)) := by
    ring
  simp only [roundHalfEven, Nat.mul_div_mul_left _ _ positive, Nat.mul_mod_mul_left, twice,
    Nat.mul_lt_mul_left positive]

theorem roundHalfEven_exact (positive : 0 < denominator) :
    roundHalfEven (numerator * denominator) denominator = numerator := by
  simp only [roundHalfEven, Nat.mul_div_cancel _ positive, Nat.mul_mod_left, Nat.mul_zero, positive,
    if_true]

theorem div_le_roundHalfEven : numerator / denominator ≤ roundHalfEven numerator denominator := by
  simp only [roundHalfEven]
  split
  · exact Nat.le_refl _
  · split <;> omega

theorem roundHalfEven_le : roundHalfEven numerator denominator ≤ numerator / denominator + 1 := by
  simp only [roundHalfEven]
  split
  · omega
  · split <;> omega

theorem roundHalfEven_small (small : 2 * numerator < denominator) :
    roundHalfEven numerator denominator = 0 := by
  have below : numerator < denominator := by omega
  simp only [roundHalfEven, Nat.div_eq_of_lt below, Nat.mod_eq_of_lt below, small, if_true]

namespace Binary64

variable {magnitude whole : Nat} {x : Binary64}

theorem nearestMagnitude_scaled (positive : 0 < scale) :
    nearestMagnitude (scale * numerator) (scale * denominator) =
      nearestMagnitude numerator denominator := by
  simp only [nearestMagnitude, Nat.mul_div_mul_left _ _ positive, Nat.mul_assoc,
    roundHalfEven_scaled positive]

/-- Equal quotients round to the same magnitude. -/
theorem nearestMagnitude_congr {other divisor : Nat} (positive : 0 < denominator)
    (nonzero : 0 < divisor) (same : numerator * divisor = other * denominator) :
    nearestMagnitude numerator denominator = nearestMagnitude other divisor := by
  rw [← @nearestMagnitude_scaled numerator denominator divisor nonzero, Nat.mul_comm divisor, same,
    Nat.mul_comm divisor, ← @nearestMagnitude_scaled other divisor denominator positive,
    Nat.mul_comm other]

theorem binade_eq : binade = 2 ^ 52 := rfl

theorem quantaOfMagnitude_normal {exponent fraction : Nat} (small : fraction < binade) :
    quantaOfMagnitude ((exponent + 1) * binade + fraction) = (binade + fraction) * 2 ^ exponent := by
  have positive : 0 < binade := by decide
  have large : ¬ (exponent + 1) * binade + fraction < binade := by
    rw [Nat.add_mul]
    omega
  have place : ((exponent + 1) * binade + fraction) / binade = exponent + 1 := by
    rw [Nat.mul_comm, Nat.mul_add_div positive, Nat.div_eq_of_lt small, Nat.add_zero]
  have rest : ((exponent + 1) * binade + fraction) % binade = fraction := by
    rw [Nat.mul_comm, Nat.mul_add_mod, Nat.mod_eq_of_lt small]
  rw [quantaOfMagnitude, if_neg large, place, rest, Nat.add_sub_cancel]
  rfl

/-- A finite real is the nearest one to itself. -/
theorem nearestMagnitude_quanta (finite : magnitude < infiniteMagnitude) :
    nearestMagnitude (quantaOfMagnitude magnitude) 1 = magnitude := by
  by_cases small : magnitude < binade
  · have short : Nat.log2 magnitude - 52 = 0 := by
      by_cases zero : magnitude = 0
      · subst zero
        decide
      · have bound := (Nat.log2_lt zero).mpr small
        omega
    rw [quantaOfMagnitude, if_pos small, nearestMagnitude, Nat.div_one, short]
    have exact : roundHalfEven (magnitude * 1) 1 = magnitude := roundHalfEven_exact Nat.one_pos
    rw [Nat.mul_one] at exact
    have rounded : roundHalfEven magnitude (1 * Nat.pow 2 0) = magnitude := exact
    rw [rounded]
    omega
  · obtain ⟨exponent, fraction, room, rfl⟩ : ∃ exponent fraction, fraction < binade ∧
        magnitude = (exponent + 1) * binade + fraction := by
      refine ⟨magnitude / binade - 1, magnitude % binade, Nat.mod_lt _ (by decide), ?_⟩
      have some : 0 < magnitude / binade := Nat.div_pos (Nat.not_lt.mp small) (by decide)
      rw [Nat.sub_add_cancel some, Nat.mul_comm, Nat.div_add_mod]
    have leading : Nat.log2 ((binade + fraction) * 2 ^ exponent) = 52 + exponent := by
      have power : 0 < 2 ^ exponent := Nat.two_pow_pos exponent
      have low : 2 ^ 52 * 2 ^ exponent ≤ (binade + fraction) * 2 ^ exponent :=
        Nat.mul_le_mul_right _ (Nat.le_add_right _ _)
      have high : (binade + fraction) * 2 ^ exponent < 2 ^ 53 * 2 ^ exponent := by
        refine Nat.mul_lt_mul_of_pos_right ?_ power
        rw [binade_eq] at room ⊢
        omega
      refine (Nat.log2_eq_iff (by omega)).mpr ⟨?_, ?_⟩
      · rwa [Nat.pow_add]
      · rwa [Nat.add_right_comm, Nat.pow_add]
    rw [quantaOfMagnitude_normal room, nearestMagnitude, Nat.div_one, leading, Nat.add_sub_cancel_left]
    have rounded : roundHalfEven ((binade + fraction) * 2 ^ exponent) (1 * Nat.pow 2 exponent) =
        binade + fraction := by
      rw [Nat.one_mul]
      exact roundHalfEven_exact (Nat.two_pow_pos exponent)
    rw [rounded]
    rw [Nat.add_mul] at finite ⊢
    omega

/-- A quotient beyond the last binade. -/
theorem nearestMagnitude_large {bits : Nat} (beyond : 2098 ≤ bits) (positive : 0 < denominator)
    (large : 2 ^ bits * denominator ≤ numerator) :
    nearestMagnitude numerator denominator = infiniteMagnitude := by
  have quotient : 2 ^ bits ≤ numerator / denominator :=
    (Nat.le_div_iff_mul_le positive).mpr large
  have power : 0 < 2 ^ bits := Nat.two_pow_pos bits
  have some : numerator / denominator ≠ 0 := by omega
  have leading : bits ≤ Nat.log2 (numerator / denominator) := (Nat.le_log2 some).mpr quotient
  have whole : 2 ^ Nat.log2 (numerator / denominator) ≤ numerator / denominator :=
    Nat.log2_self_le some
  obtain ⟨shift, form⟩ : ∃ shift, Nat.log2 (numerator / denominator) = 52 + shift :=
    ⟨Nat.log2 (numerator / denominator) - 52, by omega⟩
  rw [form, Nat.pow_add] at whole
  have rounded : binade ≤ roundHalfEven numerator (denominator * Nat.pow 2 shift) := by
    refine Nat.le_trans ?_ div_le_roundHalfEven
    rw [← Nat.div_div_eq_div_mul]
    exact (Nat.le_div_iff_mul_le (Nat.two_pow_pos shift)).mpr whole
  have places : 2046 * binade ≤ shift * binade := Nat.mul_le_mul_right _ (by omega)
  have top : infiniteMagnitude = 2046 * binade + binade := rfl
  rw [nearestMagnitude, form, Nat.add_sub_cancel_left, top]
  exact Nat.min_eq_right (Nat.add_le_add places rounded)

/-- A number too close to zero for the least real. -/
theorem nearestMagnitude_small (small : 2 * numerator < denominator) :
    nearestMagnitude numerator denominator = 0 := by
  have below : numerator / denominator = 0 := Nat.div_eq_of_lt (by omega)
  have short : Nat.log2 0 - 52 = 0 := by decide
  have rounded : roundHalfEven numerator (denominator * Nat.pow 2 0) = 0 := by
    have one : Nat.pow 2 0 = 1 := rfl
    rw [one, Nat.mul_one]
    exact roundHalfEven_small small
  rw [nearestMagnitude, below, short, rounded]
  exact Nat.zero_min _

end Binary64

namespace Numeral

open Binary64

/-- A power of ten below a power of two, at the rate at which their exponents are compared. -/
theorem ten_pow_le_two_pow {bits places : Nat} (ratio : 10 * places ≤ 3 * bits) :
    10 ^ places ≤ 2 ^ bits := by
  refine (Nat.pow_le_pow_iff_left (show 10 ≠ 0 by decide)).mp ?_
  calc (10 ^ places) ^ 10 = 10 ^ (10 * places) := by rw [← Nat.pow_mul, Nat.mul_comm]
    _ ≤ 10 ^ (3 * bits) := Nat.pow_le_pow_right (by decide) ratio
    _ = (10 ^ 3) ^ bits := Nat.pow_mul _ _ _
    _ ≤ (2 ^ 10) ^ bits := Nat.pow_le_pow_left (by decide) bits
    _ = (2 ^ bits) ^ 10 := by rw [← Nat.pow_mul, ← Nat.pow_mul, Nat.mul_comm]

theorem two_pow_le_ten_pow {bits places : Nat} (ratio : 31 * bits ≤ 100 * places) :
    2 ^ bits ≤ 10 ^ places := by
  refine (Nat.pow_le_pow_iff_left (show 100 ≠ 0 by decide)).mp ?_
  calc (2 ^ bits) ^ 100 = (2 ^ 100) ^ bits := by rw [← Nat.pow_mul, ← Nat.pow_mul, Nat.mul_comm]
    _ ≤ (10 ^ 31) ^ bits := Nat.pow_le_pow_left (by decide) bits
    _ = 10 ^ (31 * bits) := (Nat.pow_mul _ _ _).symm
    _ ≤ 10 ^ (100 * places) := Nat.pow_le_pow_right (by decide) ratio
    _ = (10 ^ places) ^ 100 := by rw [← Nat.pow_mul, Nat.mul_comm]

theorem quanta_above : ∃ top, 2098 ≤ top ∧ 2 ^ top ≤ 10 ^ 401 * quantaPerUnit :=
  ⟨2098, Nat.le_refl _, by decide +kernel⟩

theorem quanta_below : ∃ room, room ≤ 400 ∧ 2 * quantaPerUnit ≤ 10 ^ room :=
  ⟨400, Nat.le_refl _, by decide +kernel⟩

section Shortcuts

variable {bits digits up down : Nat}

theorem magnitude_infinite (low : 2 ^ bits ≤ digits) (far : 401 + down ≤ bits * 3 / 10 + up) :
    nearestMagnitude (digits * Nat.pow 10 up * quantaPerUnit) (Nat.pow 10 down) =
      infiniteMagnitude := by
  have leading : 10 ^ (bits * 3 / 10) ≤ digits := Nat.le_trans (ten_pow_le_two_pow (by omega)) low
  obtain ⟨top, enough, above⟩ := quanta_above
  refine nearestMagnitude_large enough (Nat.pow_pos (by decide)) ?_
  calc 2 ^ top * 10 ^ down
      ≤ 10 ^ 401 * quantaPerUnit * 10 ^ down := Nat.mul_le_mul_right _ above
    _ = 10 ^ (401 + down) * quantaPerUnit := by rw [Nat.mul_right_comm, ← Nat.pow_add]
    _ ≤ 10 ^ (bits * 3 / 10 + up) * quantaPerUnit :=
        Nat.mul_le_mul_right _ (Nat.pow_le_pow_right (by decide) far)
    _ = 10 ^ (bits * 3 / 10) * 10 ^ up * quantaPerUnit := by rw [Nat.pow_add]
    _ ≤ digits * 10 ^ up * quantaPerUnit :=
        Nat.mul_le_mul_right _ (Nat.mul_le_mul_right _ leading)

theorem magnitude_zero (high : digits < 2 ^ bits) (far : bits * 31 / 100 + up + 401 ≤ down) :
    nearestMagnitude (digits * Nat.pow 10 up * quantaPerUnit) (Nat.pow 10 down) = 0 := by
  have leading : digits < 10 ^ (bits * 31 / 100 + 1) :=
    Nat.lt_of_lt_of_le high (two_pow_le_ten_pow (by omega))
  obtain ⟨room, enough, below⟩ := quanta_below
  refine nearestMagnitude_small ?_
  calc 2 * (digits * 10 ^ up * quantaPerUnit)
      = digits * 10 ^ up * (2 * quantaPerUnit) := by rw [Nat.mul_left_comm]
    _ ≤ digits * 10 ^ up * 10 ^ room := Nat.mul_le_mul_left _ below
    _ < 10 ^ (bits * 31 / 100 + 1) * 10 ^ up * 10 ^ room :=
        Nat.mul_lt_mul_of_pos_right
          (Nat.mul_lt_mul_of_pos_right leading (Nat.pow_pos (by decide))) (Nat.pow_pos (by decide))
    _ = 10 ^ (bits * 31 / 100 + 1 + up + room) := by rw [← Nat.pow_add, ← Nat.pow_add]
    _ ≤ 10 ^ down := Nat.pow_le_pow_right (by decide) (by omega)

end Shortcuts

/-- The answers given at once, for numerals far from the finite reals, are those that
rounding gives. -/
theorem toBinary64_eq (numeral : Decimal) :
    numeral.toBinary64 =
      .ofMagnitude numeral.negative (Scaled.magnitude ⟨numeral.digits, numeral.exponent⟩) := by
  obtain ⟨negative, digits, exponent⟩ := numeral
  rw [Decimal.toBinary64, Scaled.magnitude]
  by_cases zero : digits = 0
  · have none : nearestMagnitude 0 (Nat.pow 10 (-exponent).toNat) = 0 :=
      nearestMagnitude_small (Nat.pow_pos (by decide))
    rw [if_pos zero, zero, Nat.zero_mul, Nat.zero_mul, none]
  · rw [if_neg zero]
    have low : 2 ^ Nat.log2 digits ≤ digits := Nat.log2_self_le zero
    have high : digits < 2 ^ (Nat.log2 digits + 1) := Nat.lt_log2_self
    dsimp only
    split
    · rw [magnitude_infinite low (by omega)]
      rfl
    · split
      · rw [magnitude_zero high (by omega)]
      · rfl

end Numeral

namespace Binary64

variable {whole shift rounded unit leading : Nat}

/-- The quanta of a magnitude whose fraction may have been rounded up to a whole binade. -/
theorem quantaOfMagnitude_rounded (low : binade ≤ rounded) (high : rounded ≤ 2 * binade) :
    quantaOfMagnitude (shift * binade + rounded) = rounded * 2 ^ shift := by
  by_cases carried : rounded = 2 * binade
  · subst carried
    have form : shift * binade + 2 * binade = (shift + 1 + 1) * binade + 0 := by ring
    rw [form, quantaOfMagnitude_normal (by decide), Nat.pow_succ]
    ring
  · obtain ⟨fraction, rfl⟩ := Nat.exists_eq_add_of_le low
    have form : shift * binade + (binade + fraction) = (shift + 1) * binade + fraction := by ring
    rw [form, quantaOfMagnitude_normal (by omega)]

/-- Where a whole number is cut off by rounding, the units are not. -/
theorem roundHalfEven_whole (low : 2 ^ leading ≤ whole) (high : whole < 2 ^ (leading + 1)) :
    let rounded := roundHalfEven (whole * 2 ^ (52 + unit)) (2 ^ (leading + unit))
    binade ≤ rounded ∧ rounded ≤ 2 * binade ∧ 2 ^ (52 + unit) ∣ rounded * 2 ^ (leading + unit) := by
  intro rounded
  have power : 0 < 2 ^ (leading + unit) := Nat.two_pow_pos _
  have below : 2 ^ 52 ≤ whole * 2 ^ (52 + unit) / 2 ^ (leading + unit) := by
    refine (Nat.le_div_iff_mul_le power).mpr ?_
    calc 2 ^ 52 * 2 ^ (leading + unit) = 2 ^ leading * 2 ^ (52 + unit) := by ring
      _ ≤ whole * 2 ^ (52 + unit) := Nat.mul_le_mul_right _ low
  have above : whole * 2 ^ (52 + unit) / 2 ^ (leading + unit) < 2 ^ 53 := by
    refine (Nat.div_lt_iff_lt_mul power).mpr ?_
    calc whole * 2 ^ (52 + unit) < 2 ^ (leading + 1) * 2 ^ (52 + unit) :=
          Nat.mul_lt_mul_of_pos_right high (Nat.two_pow_pos _)
      _ = 2 ^ 53 * 2 ^ (leading + unit) := by ring
  have least : whole * 2 ^ (52 + unit) / 2 ^ (leading + unit) ≤ rounded := div_le_roundHalfEven
  have most : rounded ≤ whole * 2 ^ (52 + unit) / 2 ^ (leading + unit) + 1 := roundHalfEven_le
  refine ⟨?_, ?_, ?_⟩
  · rw [binade_eq]
    omega
  · rw [binade_eq]
    omega
  · by_cases long : 52 ≤ leading
    · exact Nat.dvd_mul_left_of_dvd (Nat.pow_dvd_pow 2 (by omega)) rounded
    · have form : whole * 2 ^ (52 + unit) = whole * 2 ^ (52 - leading) * 2 ^ (leading + unit) := by
        rw [Nat.mul_assoc, ← Nat.pow_add]
        congr 2
        omega
      have exact : rounded = whole * 2 ^ (52 - leading) := by
        simp only [rounded]
        rw [form, roundHalfEven_exact power]
      rw [exact, ← form]
      exact Nat.dvd_mul_left _ _

theorem exists_places : ∃ places, quantaPerUnit = 2 ^ places ∧ places = 1074 :=
  ⟨1074, by decide +kernel, rfl⟩

/-- A whole number rounds to a whole number. -/
theorem nearestMagnitude_whole
    (finite : nearestMagnitude (whole * quantaPerUnit) 1 < infiniteMagnitude) :
    quantaOfMagnitude (nearestMagnitude (whole * quantaPerUnit) 1) % quantaPerUnit = 0 := by
  by_cases zero : whole = 0
  · subst zero
    have none : quantaOfMagnitude 0 = 0 := rfl
    rw [Nat.zero_mul, nearestMagnitude_small (by decide), none, Nat.zero_mod]
  · obtain ⟨places, form, same⟩ := exists_places
    obtain ⟨unit, rfl⟩ : ∃ unit, places = 52 + unit := ⟨1022, same⟩
    have low : 2 ^ Nat.log2 whole ≤ whole := Nat.log2_self_le zero
    have high : whole < 2 ^ (Nat.log2 whole + 1) := Nat.lt_log2_self
    generalize Nat.log2 whole = leading at low high
    have log : Nat.log2 (whole * 2 ^ (52 + unit)) = 52 + (leading + unit) := by
      have power : 0 < 2 ^ (52 + unit) := Nat.two_pow_pos _
      have positive : 0 < whole * 2 ^ (52 + unit) := Nat.mul_pos (Nat.pos_of_ne_zero zero) power
      refine (Nat.log2_eq_iff (by omega)).mpr ⟨?_, ?_⟩
      · calc 2 ^ (52 + (leading + unit)) = 2 ^ leading * 2 ^ (52 + unit) := by ring
          _ ≤ whole * 2 ^ (52 + unit) := Nat.mul_le_mul_right _ low
      · calc whole * 2 ^ (52 + unit) < 2 ^ (leading + 1) * 2 ^ (52 + unit) :=
              Nat.mul_lt_mul_of_pos_right high power
          _ = 2 ^ (52 + (leading + unit) + 1) := by ring
    obtain ⟨least, most, units⟩ := @roundHalfEven_whole whole unit leading low high
    have nearest : nearestMagnitude (whole * quantaPerUnit) 1 = (leading + unit) * binade +
        roundHalfEven (whole * 2 ^ (52 + unit)) (2 ^ (leading + unit)) := by
      rw [nearestMagnitude, form, Nat.div_one, log, Nat.add_sub_cancel_left, Nat.one_mul] at finite ⊢
      exact Nat.min_eq_left (by omega)
    rw [nearest, quantaOfMagnitude_rounded least most, form]
    exact Nat.mod_eq_zero_of_dvd units

end Binary64

namespace Scaled

open Binary64

variable {scaled : Scaled}

theorem magnitude_tenth (tens : scaled.digits % 10 = 0) :
    magnitude ⟨scaled.digits / 10, scaled.exponent + 1⟩ = scaled.magnitude := by
  obtain ⟨digits, exponent⟩ := scaled
  obtain ⟨tenth, rfl⟩ : ∃ tenth, digits = 10 * tenth := ⟨digits / 10, by simp only at tens; omega⟩
  have power : ∀ places, Nat.pow 10 (places + 1) = Nat.pow 10 places * 10 := fun _ => rfl
  have positive : ∀ places, 0 < Nat.pow 10 places := fun _ => Nat.pow_pos (by decide)
  refine nearestMagnitude_congr (positive _) (positive _) ?_
  simp only [Nat.mul_div_cancel_left tenth (show 0 < 10 by decide)]
  by_cases above : 0 ≤ exponent
  · have up : (exponent + 1).toNat = exponent.toNat + 1 := by omega
    have down : (-(exponent + 1)).toNat = 0 := by omega
    have still : (-exponent).toNat = 0 := by omega
    rw [up, down, still, power]
    ring
  · have up : exponent.toNat = 0 := by omega
    have still : (exponent + 1).toNat = 0 := by omega
    have down : (-exponent).toNat = (-(exponent + 1)).toNat + 1 := by omega
    rw [up, down, still, power]
    ring

theorem magnitude_stripped : scaled.stripped.magnitude = scaled.magnitude := by
  have steps : ∀ limit scaled, (stripped.go limit scaled).magnitude = scaled.magnitude := by
    intro limit
    induction limit with
    | zero => intro scaled; rfl
    | succ limit ih =>
        intro scaled
        rw [stripped.go]
        split
        · rename_i tens
          rw [ih, magnitude_tenth tens]
        · rfl
  rw [stripped]
  split
  · rfl
  · exact steps _ _

end Scaled

namespace Binary64

variable {x : Binary64} {negative : Bool} {magnitude : Nat} {tie : Tie}

theorem magnitude_lt : x.magnitude < Nat.pow 2 63 :=
  Nat.mod_lt _ (by decide)

theorem ofMagnitude_self : ofMagnitude x.negative x.magnitude = x := by
  obtain ⟨bits⟩ := x
  have bound : bits.toNat < 2 ^ 64 := bits.toNat_lt
  rw [ofMagnitude, Binary64.negative, Binary64.magnitude]
  congr 1
  refine UInt64.toNat_inj.mp ?_
  rw [UInt64.toNat_ofNat']
  have power : Nat.pow 2 63 = 9223372036854775808 := rfl
  simp only [power, decide_eq_true_eq]
  split <;> omega

theorem magnitude_ofMagnitude (fits : magnitude < Nat.pow 2 63) :
    (ofMagnitude negative magnitude).magnitude = magnitude := by
  have power : Nat.pow 2 63 = 9223372036854775808 := rfl
  rw [ofMagnitude, Binary64.magnitude, UInt64.toNat_ofNat']
  rw [power] at fits ⊢
  split <;> omega

theorem negative_ofMagnitude (fits : magnitude < Nat.pow 2 63) :
    (ofMagnitude negative magnitude).negative = negative := by
  have power : Nat.pow 2 63 = 9223372036854775808 := rfl
  rw [ofMagnitude, Binary64.negative, UInt64.toNat_ofNat']
  rw [power] at fits ⊢
  cases negative with
  | false => exact decide_eq_false (by simp only [Bool.false_eq_true, if_false]; omega)
  | true => exact decide_eq_true (by simp only [if_true]; omega)

theorem lt_infiniteMagnitude (finite : x.isFinite = true) : x.magnitude < infiniteMagnitude :=
  of_decide_eq_true finite

/-- The exact expansion of a number of quanta. -/
theorem magnitude_expansion {quanta places : Nat} {exponent : Int}
    (unit : quantaPerUnit = 2 ^ places) (place : exponent = -(places : Int)) :
    Scaled.magnitude ⟨quanta * Nat.pow 5 places, exponent⟩ = nearestMagnitude quanta 1 := by
  have up : exponent.toNat = 0 := by omega
  have down : (-exponent).toNat = places := by omega
  rw [Scaled.magnitude, up, down, unit]
  refine nearestMagnitude_congr (Nat.pow_pos (by decide)) Nat.one_pos ?_
  have tens : Nat.pow 10 places = 5 ^ places * 2 ^ places := Nat.mul_pow 5 2 places
  rw [tens, Nat.pow_eq, Nat.pow_eq]
  ring

theorem magnitude_of_onGrid? {quanta : Nat} {place : Int} {candidate : Scaled}
    (found : onGrid? tie magnitude quanta place = some candidate) :
    candidate.magnitude = magnitude := by
  have reads := List.find?_some found
  exact beq_iff_eq.mp reads

/-- The digits of a finite real round to it. -/
theorem magnitude_shortest (finite : x.isFinite = true) :
    (x.shortest tie).magnitude = x.magnitude := by
  have exact : nearestMagnitude x.quanta 1 = x.magnitude :=
    nearestMagnitude_quanta (lt_infiniteMagnitude finite)
  rw [shortest]
  split
  · rename_i zero
    rw [← exact, zero, nearestMagnitude_small (by decide), Scaled.magnitude, Nat.zero_mul,
      Nat.zero_mul, nearestMagnitude_small (Nat.pow_pos (by decide))]
  · rw [Scaled.magnitude_stripped]
    cases search : (List.range 17).findSome? fun (length : Nat) =>
        onGrid? tie x.magnitude x.quanta (topPlace x.quanta - length) with
    | none =>
        obtain ⟨places, unit, same⟩ := exists_places
        rw [Option.getD_none, ← same, magnitude_expansion unit (by rw [same]; rfl)]
        exact exact
    | some candidate =>
        obtain ⟨length, -, found⟩ := List.exists_of_findSome?_eq_some search
        exact magnitude_of_onGrid? found

/-- A real that is not whole has digits after the point. -/
theorem shortest_exponent_neg (finite : x.isFinite = true) (fractional : x.isWhole = false) :
    (x.shortest tie).exponent < 0 := by
  by_contra above
  have down : (-(x.shortest tie).exponent).toNat = 0 := by omega
  have rounded : nearestMagnitude ((x.shortest tie).digits *
      Nat.pow 10 (x.shortest tie).exponent.toNat * quantaPerUnit) 1 = x.magnitude := by
    have same := @magnitude_shortest x tie finite
    rw [Scaled.magnitude, down] at same
    exact same
  have bound := lt_infiniteMagnitude finite
  rw [← rounded] at bound
  have whole := nearestMagnitude_whole bound
  rw [rounded] at whole
  have is : x.isWhole = true := by
    rw [isWhole, finite, quanta, whole]
    rfl
  rw [is] at fractional
  cases fractional

/-- The integer that a whole real is, in quanta. -/
theorem natAbs_truncated (whole : x.isWhole = true) :
    x.truncated.natAbs * quantaPerUnit = x.quanta := by
  simp only [isWhole, Bool.and_eq_true, beq_iff_eq] at whole
  have count : x.truncated.natAbs = x.quanta / quantaPerUnit := by
    simp only [truncated]
    generalize x.quanta / quantaPerUnit = count
    split <;> omega
  rw [count, Nat.mul_comm]
  exact Nat.mul_div_cancel' (Nat.dvd_of_mod_eq_zero whole.2)

end Binary64

namespace Numeral

variable {digits fraction : List Char} {negative : Bool}

/-- Digits on the two sides of a point. -/
structure Pointed (digits fraction : List Char) : Prop where
  nonempty : digits ≠ []
  before : ∀ digit ∈ digits, Text.isDigit digit = true
  after : ∀ digit ∈ fraction, Text.isDigit digit = true

/-- The number that digits on the two sides of a point stand for. -/
def pointedValue (digits fraction : List Char) : Scaled :=
  ⟨digitsValue (digits ++ fraction), -(fraction.length : Int)⟩

theorem unsigned?_pointed (pointed : Pointed digits fraction) :
    unsigned? negative (digits ++ '.' :: fraction) =
      some ⟨negative, digitsValue (digits ++ fraction), -(fraction.length : Int)⟩ := by
  have point : Stops Text.isDigit ('.' :: fraction) := by
    intro c head
    cases head
    rfl
  have stops : Stops Text.isDigit [] := nofun
  have some : digits.isEmpty = false := by simpa using pointed.nonempty
  have taken : fraction.takeWhile Text.isDigit = fraction := by
    simpa using takeWhile_run pointed.after stops
  have dropped : fraction.dropWhile Text.isDigit = [] := by
    simpa using dropWhile_run pointed.after stops
  rw [unsigned?, takeWhile_run pointed.before point, dropWhile_run pointed.before point]
  simp only [splitFraction, taken, dropped, some, exponent?, Bool.false_and, Bool.false_eq_true,
    if_false, Option.map_some, Int.zero_sub]

/-- No word starts with a digit. -/
theorem spells_digits {digit first : Char} {text word : List Char}
    (isDigit : Text.isDigit digit = true) (letter : Text.isDigit first = false) :
    spells (digit :: text) (first :: word) = false := by
  have code : 48 ≤ digit.toNat ∧ digit.toNat ≤ 57 := by
    simpa only [Text.isDigit, Bool.and_eq_true, decide_eq_true_eq] using isDigit
  have same : digit.toLower = digit := by
    refine dif_neg ?_
    rintro ⟨upper, -⟩
    have bound : 65 ≤ digit.toNat := UInt32.le_iff_toNat_le.mp upper
    omega
  have other : digit ≠ first := by
    rintro rfl
    exact Bool.false_ne_true (letter.symm.trans isDigit)
  simp [spells, same, other]

theorem real?_pointed (pointed : Pointed digits fraction) :
    real? (if negative then '-' :: (digits ++ '.' :: fraction) else digits ++ '.' :: fraction) =
      some (.ofMagnitude negative (pointedValue digits fraction).magnitude) := by
  have signed : splitSign
      (if negative then '-' :: (digits ++ '.' :: fraction) else digits ++ '.' :: fraction) =
      (negative, digits ++ '.' :: fraction) := by
    cases negative with
    | false => exact splitSign_digits pointed.nonempty pointed.before
    | true => rfl
  obtain ⟨digit, more, form⟩ := List.exists_cons_of_ne_nil pointed.nonempty
  have isDigit : Text.isDigit digit = true := pointed.before digit (form ▸ List.mem_cons_self)
  have noWord : ∀ first word, Text.isDigit first = false →
      spells (digits ++ '.' :: fraction) (first :: word) = false := by
    intro first word letter
    rw [form]
    exact spells_digits isDigit letter
  have noInf : spells (digits ++ '.' :: fraction) "inf".toList = false := noWord 'i' _ rfl
  have noInfinity : spells (digits ++ '.' :: fraction) "infinity".toList = false := noWord 'i' _ rfl
  have noNan : spells (digits ++ '.' :: fraction) "nan".toList = false := noWord 'n' _ rfl
  simp only [real?, signed, noInf, noInfinity, noNan, Bool.or_self, Bool.false_eq_true, if_false,
    unsigned?_pointed pointed, Option.map_some, toBinary64_eq, pointedValue]

/-- Digits are laid out around a point so that they stand for the number again. -/
theorem positionalText_pointed {scaled : Scaled} (below : scaled.exponent < 0) :
    ∃ digits fraction, Pointed digits fraction ∧ pointedValue digits fraction = scaled ∧
      RealLayout.positionalText 0 scaled = digits ++ '.' :: fraction := by
  obtain ⟨number, exponent⟩ := scaled
  obtain ⟨places, rfl⟩ : ∃ places : Nat, exponent = -((places + 1 : Nat) : Int) :=
    ⟨(-exponent).toNat - 1, by simp only at below; omega⟩
  have width : (- -((places + 1 : Nat) : Int)).toNat = places + 1 := by omega
  have power : 0 < 10 ^ (places + 1) := Nat.pow_pos (by decide)
  have short : (digitsOf (number % 10 ^ (places + 1))).length ≤ places + 1 :=
    (Nat.length_toDigits_le_iff (by decide) (Nat.succ_pos places)).mpr (Nat.mod_lt _ power)
  refine ⟨digitsOf (number / 10 ^ (places + 1)), List.replicate
    (places + 1 - (digitsOf (number % 10 ^ (places + 1))).length) '0' ++
      digitsOf (number % 10 ^ (places + 1)), ⟨digitsOf_ne_nil, isDigit_digitsOf, ?_⟩, ?_, ?_⟩
  · intro digit member
    rcases List.mem_append.mp member with zero | digit
    · rw [List.eq_of_mem_replicate zero]
      rfl
    · exact isDigit_digitsOf _ digit
  · generalize hrest : number % 10 ^ (places + 1) = rest at short ⊢
    have value : digitsValue (digitsOf (number / 10 ^ (places + 1)) ++
        (List.replicate (places + 1 - (digitsOf rest).length) '0' ++ digitsOf rest)) = number := by
      have leading : Nat.ofDigitChars 10 (digitsOf (number / 10 ^ (places + 1))) 0 =
          number / 10 ^ (places + 1) := digitsValue_digitsOf
      have trailing : Nat.ofDigitChars 10 (digitsOf rest) 0 = rest := digitsValue_digitsOf
      have padded : (digitsOf rest).length + (places + 1 - (digitsOf rest).length) = places + 1 := by
        omega
      change Nat.ofDigitChars 10 _ 0 = _
      rw [Nat.ofDigitChars_append, Nat.ofDigitChars_append, leading,
        Nat.ofDigitChars_replicate_zero, Nat.ofDigitChars_eq_ofDigitChars_zero, trailing,
        ← Nat.mul_assoc, ← Nat.pow_add, padded, ← hrest]
      exact Nat.div_add_mod _ _
    rw [pointedValue, value, List.length_append, List.length_replicate,
      Nat.sub_add_cancel short]
  · rw [RealLayout.positionalText, if_neg (by simp only; omega), width]
    rfl

end Numeral

namespace Language

open Binary64

variable {digits fraction : List Char} {x : Binary64}

theorem numberLiteral_pointed (finite : x.isFinite = true)
    (pointed : Numeral.Pointed digits fraction)
    (value : (Numeral.pointedValue digits fraction).magnitude = x.magnitude) :
    numberLiteral x.negative (String.ofList (digits ++ '.' :: fraction)) = .ok (.real x) := by
  have fractional : (digits ++ '.' :: fraction).all Text.isDigit = false := by
    refine List.all_eq_false.mpr ⟨'.', by simp, by decide⟩
  have read := @Numeral.real?_pointed digits fraction x.negative pointed
  rw [value, ofMagnitude_self] at read
  simp only [numberLiteral, String.toList_ofList, fractional, Bool.false_eq_true, if_false, read,
    finite, if_true]

/-- A finite real is written in digits that read back as the real, with its sign before
them. -/
theorem realMarks_finite (finite : x.isFinite = true) :
    ∃ digits fraction, Numeral.Pointed digits fraction ∧
      (Numeral.pointedValue digits fraction).magnitude = x.magnitude ∧
      realMarks x = signedNumber x.negative (String.ofList (digits ++ '.' :: fraction)) := by
  rw [realMarks]
  split
  · rename_i whole
    have size := natAbs_truncated whole
    have value : Numeral.digitsValue (digitsOf x.truncated.natAbs ++ ['0']) =
        10 * x.truncated.natAbs := by
      have leading : Nat.ofDigitChars 10 (digitsOf x.truncated.natAbs) 0 = x.truncated.natAbs :=
        Numeral.digitsValue_digitsOf
      change Nat.ofDigitChars 10 _ 0 = _
      rw [Nat.ofDigitChars_append, leading, Nat.ofDigitChars_cons, Nat.ofDigitChars_nil]
      rfl
    refine ⟨digitsOf x.truncated.natAbs, ['0'],
      ⟨digitsOf_ne_nil, isDigit_digitsOf, List.forall_mem_singleton.mpr rfl⟩, ?_, rfl⟩
    rw [← nearestMagnitude_quanta (lt_infiniteMagnitude finite), ← quanta, ← size,
      Numeral.pointedValue, value]
    refine nearestMagnitude_congr (Nat.pow_pos (by decide)) Nat.one_pos ?_
    change 10 * x.truncated.natAbs * 1 * quantaPerUnit * 1 =
      x.truncated.natAbs * quantaPerUnit * 10
    ring
  · rename_i fractional
    have same : (ofMagnitude false x.magnitude).magnitude = x.magnitude :=
      magnitude_ofMagnitude magnitude_lt
    have finiteSize : (ofMagnitude false x.magnitude).isFinite = true := by
      rw [isFinite, same]
      exact finite
    have number : (ofMagnitude false x.magnitude).isNan = false := by
      have bound := lt_infiniteMagnitude finite
      rw [isNan, same]
      exact decide_eq_false (by omega)
    have fractionalSize : (ofMagnitude false x.magnitude).isWhole = false := by
      rw [isWhole, finiteSize, quanta, same]
      simpa only [isWhole, finite, quanta, Bool.not_eq_true] using fractional
    obtain ⟨digits, fraction, pointed, value, layout⟩ :=
      Numeral.positionalText_pointed
        (@shortest_exponent_neg _ Tie.up finiteSize fractionalSize)
    refine ⟨digits, fraction, pointed, ?_, ?_⟩
    · rw [value, magnitude_shortest finiteSize, same]
    · have text : RealLayout.sql.text (ofMagnitude false x.magnitude) =
          String.ofList (RealLayout.positionalText 0 ((ofMagnitude false x.magnitude).shortest .up)) := by
        rw [RealLayout.text, number, finiteSize, negative_ofMagnitude magnitude_lt]
        rfl
      rw [text, layout]

end Language

end Coffer
