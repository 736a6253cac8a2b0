import Coffer.Proofs.KeyComparison

namespace Coffer

/-! # Coerced numbers

A column does not change the real that a number is compared by, but it may change the number: an
integer or a numeral that becomes a real is rounded, and a real that becomes text is written in the
fewest digits that stand for it, which need not be all.
-/

namespace Scaled

variable {scaled : Scaled} {steps : Nat}

theorem exact_tenth (tens : scaled.digits % 10 = 0) :
    Scaled.exact ⟨scaled.digits / 10, scaled.exponent + 1⟩ = scaled.exact := by
  obtain ⟨digits, exponent⟩ := scaled
  obtain ⟨tenth, rfl⟩ : ∃ tenth, digits = tenth * 10 := ⟨digits / 10, by simp only at tens; omega⟩
  simp only [exact, Nat.mul_div_cancel tenth (show 0 < 10 by decide)]
  rw [zpow_add_one₀ (by norm_num)]
  push_cast
  ring

/-- Digits lose their trailing zeros to the exponent. -/
theorem stripped_go : (stripped.go steps scaled).exact = scaled.exact ∧
    scaled.exponent ≤ (stripped.go steps scaled).exponent := by
  induction steps generalizing scaled with
  | zero => exact ⟨rfl, Int.le_refl _⟩
  | succ steps ih =>
      rw [stripped.go]
      split
      · rename_i tens
        obtain ⟨same, above⟩ := @ih ⟨scaled.digits / 10, scaled.exponent + 1⟩
        exact ⟨same.trans (exact_tenth tens), by simp only at above; omega⟩
      · exact ⟨rfl, Int.le_refl _⟩

theorem stripped_spec :
    scaled.stripped.exact = scaled.exact ∧ scaled.exponent ≤ scaled.stripped.exponent := by
  rw [stripped]
  split
  · exact ⟨rfl, Int.le_refl _⟩
  · exact stripped_go

/-- A positive exponent can be written out as zeros. -/
theorem exact_written : Scaled.exact ⟨scaled.digits * Nat.pow 10 scaled.exponent.toNat,
    min scaled.exponent 0⟩ = scaled.exact := by
  obtain ⟨digits, exponent⟩ := scaled
  simp only [exact]
  by_cases below : exponent < 0
  · rw [Int.min_eq_left (by omega), show exponent.toNat = 0 by omega, Nat.pow_eq, Nat.pow_zero,
      Nat.mul_one]
  · obtain ⟨places, rfl⟩ := Int.eq_ofNat_of_zero_le (Int.not_lt.mp below)
    rw [Int.min_eq_right (by omega), zpow_zero, mul_one, Int.toNat_natCast, zpow_natCast]
    push_cast [Nat.pow_eq]
    rfl

end Scaled

namespace Binary64

variable {x : Binary64} {tie : Tie} {place : Int} {candidate : Scaled} {digits : Nat}

theorem exponent_of_onGrid? {magnitude quanta : Nat}
    (found : onGrid? tie magnitude quanta place = some candidate) : candidate.exponent = place := by
  have member := List.mem_of_find?_eq_some found
  repeat' split at member
  all_goals rcases List.mem_pair.mp member with rfl | rfl <;> rfl

/-- A real on a grid is its own neighbour there. -/
theorem exact_of_onGrid? (finite : x.isFinite = true)
    (found : onGrid? tie x.magnitude x.quanta place = some candidate)
    (on : |x.exact| = digits * (10 : ℚ) ^ place) : candidate.exact = |x.exact| := by
  have units : x.quanta * Nat.pow 10 (-place).toNat =
      digits * (quantaPerUnit * Nat.pow 10 place.toNat) := by
    rw [abs_exact, ten_zpow, ← mul_div_assoc,
      div_eq_div_iff quantaPerUnit_pos.ne' (pow_ne_zero _ (by norm_num))] at on
    have same : x.quanta * 10 ^ (-place).toNat = digits * 10 ^ place.toNat * quantaPerUnit := by
      exact_mod_cast on
    rw [Nat.pow_eq, Nat.pow_eq, same, Nat.mul_assoc, Nat.mul_comm quantaPerUnit]
  have positive : 0 < quantaPerUnit * Nat.pow 10 place.toNat :=
    Nat.mul_pos (Nat.cast_pos.mp quantaPerUnit_pos) (Nat.pow_pos (by decide))
  have own : Scaled.exact ⟨digits, place⟩ = |x.exact| := by
    rw [Scaled.exact, on]
  have reads := Scaled.magnitude_of_exact finite own
  rw [onGrid?, units] at found
  generalize quantaPerUnit * Nat.pow 10 place.toNat = unit at found positive
  have differ : 2 * 0 ≠ unit := by omega
  simp only [Nat.mul_div_cancel _ positive, Nat.mul_mod_left, differ, if_false, Nat.mul_zero,
    Nat.not_lt_zero, decide_false, Bool.false_eq_true] at found
  have first : [Scaled.mk digits place, ⟨digits + 1, place⟩].find?
      (fun candidate => candidate.magnitude == x.magnitude) = some ⟨digits, place⟩ :=
    List.find?_cons_of_pos (beq_iff_eq.mpr reads)
  rw [← Option.some.inj (first.symm.trans found), own]

/-- The exact expansion of a number of quanta is the number. -/
theorem exact_expansion {quanta places : Nat} {exponent : Int}
    (unit : quantaPerUnit = 2 ^ places) (place : exponent = -(places : Int)) :
    Scaled.exact ⟨quanta * Nat.pow 5 places, exponent⟩ = quanta / (quantaPerUnit : ℚ) := by
  have tens : (10 : ℚ) ^ places = 5 ^ places * 2 ^ places := by
    rw [← mul_pow]
    norm_num
  have fives : (5 : ℚ) ^ places ≠ 0 := pow_ne_zero _ (by norm_num)
  rw [Scaled.exact, place, unit, zpow_neg, zpow_natCast, tens]
  push_cast [Nat.pow_eq]
  field_simp

/-- The digits of a finite real are exactly the real when it lies on the grid of their last one. -/
theorem exact_shortest_iff (finite : x.isFinite = true) :
    (x.shortest tie).exact = |x.exact| ↔
      ∃ digits : Nat, |x.exact| = digits * (10 : ℚ) ^ (x.shortest tie).exponent := by
  refine ⟨fun same => ⟨_, same.symm⟩, fun ⟨digits, on⟩ => ?_⟩
  rw [shortest] at on ⊢
  split
  · rename_i zero
    rw [abs_exact, zero, Scaled.exact, Nat.cast_zero, zero_mul, zero_div]
  · rename_i some
    rw [if_neg some] at on
    rw [Scaled.stripped_spec.1]
    cases search : (List.range 17).findSome? fun (length : Nat) =>
        onGrid? tie x.magnitude x.quanta (topPlace x.quanta - length) with
    | none =>
        obtain ⟨places, unit, same⟩ := exists_places
        rw [Option.getD_none, ← same, exact_expansion unit (by rw [same]; rfl), abs_exact]
    | some candidate =>
        obtain ⟨length, -, found⟩ := List.exists_of_findSome?_eq_some search
        dsimp only at on
        rw [search, Option.getD_some] at on
        obtain ⟨zeros, finer⟩ : ∃ zeros : Nat,
            candidate.stripped.exponent = zeros + (topPlace x.quanta - length) :=
          ⟨(candidate.stripped.exponent - candidate.exponent).toNat, by
            have above := @Scaled.stripped_spec candidate
            rw [exponent_of_onGrid? found] at above ⊢
            omega⟩
        have onFiner : |x.exact| =
            ((digits * 10 ^ zeros : Nat) : ℚ) * (10 : ℚ) ^ (topPlace x.quanta - length) := by
          rw [on, finer, zpow_add₀ (by norm_num), zpow_natCast]
          push_cast
          ring
        exact exact_of_onGrid? finite found onFiner

theorem exact_of_whole? {number : Int} (whole : x.whole? = some number) : x.exact = number := by
  rw [whole?] at whole
  split at whole
  · rename_i is
    cases whole
    simp only [isWhole, Bool.and_eq_true, beq_iff_eq] at is
    obtain ⟨count, size⟩ : ∃ count, x.quanta = count * quantaPerUnit :=
      ⟨_, (Nat.div_mul_cancel (Nat.dvd_of_mod_eq_zero is.2)).symm⟩
    have positive : 0 < quantaPerUnit := Nat.cast_pos.mp quantaPerUnit_pos
    rw [exact_eq, truncated, size, Nat.mul_div_cancel _ positive, Nat.cast_mul,
      mul_div_cancel_right₀ _ quantaPerUnit_pos.ne']
    cases x.negative <;> simp
  · cases whole

end Binary64

/-! ## Values -/

theorem Numeral.decimal?_integerText {number : Int} :
    decimal? (Text.trimmed (integerText number).toList) = some (.ofInt number) := by
  have read := @decimal?_trimmed (digitsOf number.natAbs) [] (decide (number < 0)) digitsOf_ne_nil
    isDigit_digitsOf (List.forall_mem_nil _)
  rw [List.append_nil, unsigned?_whole digitsOf_ne_nil isDigit_digitsOf,
    digitsValue_digitsOf] at read
  rw [integerText, String.toList_ofList]
  simpa only [Decimal.ofInt, decide_eq_true_eq] using read

namespace Value

/-- The number that a value is or spells, before any rounding. A text is one if it spells a finite
real. -/
def rational? : Value → Option ℚ
  | .null => none
  | .integer number => some number.toInt
  | .real x => if x.isFinite then some x.exact else none
  | .text content =>
    if (realOfText? content).isSome then
      (Numeral.decimal? (Text.trimmed content.toList)).map Numeral.Decimal.exact
    else none

variable {value : Value} {type : ColumnType} {content : String} {x : Binary64} {number : ℚ}
variable {numeral : Numeral.Decimal} {whole : Int64}

theorem rational?_real (finite : x.isFinite = true) : (Value.real x).rational? = some x.exact := by
  rw [rational?, if_pos finite]

/-- A text that spells a real is a numeral that is rounded to it. -/
theorem numeral_of_realOfText? (read : realOfText? content = some x) :
    ∃ numeral, Numeral.decimal? (Text.trimmed content.toList) = some numeral ∧
      x = numeral.toBinary64 ∧ (Value.text content).rational? = some numeral.exact := by
  have spelled := read
  rw [realOfText?_eq, Option.filter_eq_some_iff, Option.map_eq_some_iff] at spelled
  obtain ⟨⟨numeral, decimal, rfl⟩, -⟩ := spelled
  refine ⟨numeral, decimal, rfl, ?_⟩
  rw [rational?, read, decimal]
  rfl

theorem rational?_of_integerOfText? (spelled : integerOfText? content = some whole) :
    (Value.text content).rational? = some (whole.toInt : ℚ) := by
  obtain ⟨negative, digits, decimal, value⟩ := decimal?_of_integerOfText? spelled
  obtain ⟨x, read, -⟩ := realOfText?_of_integerOfText? spelled
  obtain ⟨numeral, same, -, counted⟩ := numeral_of_realOfText? read
  cases same.symm.trans decimal
  rw [counted, Numeral.Decimal.exact, Scaled.exact, value, zpow_zero, mul_one]
  cases negative <;> simp

/-- The integer that a real becomes is the real. -/
theorem whole?_of_integerOfReal? (is : integerOfReal? x = some whole) :
    x.whole? = some whole.toInt := by
  simp only [integerOfReal?] at is
  split at is
  · rename_i within
    cases is
    simp only [Bool.and_eq_true, decide_eq_true_eq] at within
    have bound : x.truncated.natAbs < 9223372036854775808 := within.2
    rw [Binary64.whole?, if_pos within.1, Int64.toInt_ofInt_of_le (by omega) (by omega)]
  · cases is

theorem rational?_integerText :
    (Value.text (integerText whole.toInt)).rational? = some (whole.toInt : ℚ) := by
  obtain ⟨numeral, decimal, -, counted⟩ := numeral_of_realOfText? (realOfText?_integerText whole)
  cases Numeral.decimal?_integerText.symm.trans decimal
  rw [counted, Numeral.Decimal.exact_ofInt]

/-- The text of a real is the number that its shortest digits are. -/
theorem rational?_realText (finite : x.isFinite = true) :
    (Value.text (RealLayout.sql.text x)).rational? =
      some ((if x.negative then -1 else 1) * (x.shortest .up).exact) := by
  obtain ⟨numeral, decimal, -, counted⟩ := numeral_of_realOfText? (realOfText?_realText finite)
  cases (decimal?_realText finite).symm.trans decimal
  rw [counted, Numeral.Decimal.exact]
  exact congrArg (fun size => some ((if x.negative then -1 else 1) * size)) Scaled.exact_written

/-- The text of a real is the real when it lies on the grid of the last digit that is written. -/
theorem rational?_realText_iff (finite : x.isFinite = true) :
    (Value.text (RealLayout.sql.text x)).rational? = some x.exact ↔
      ∃ digits : Nat, |x.exact| = digits * (10 : ℚ) ^ (x.shortest .up).exponent := by
  rw [← Binary64.exact_shortest_iff finite, rational?_realText finite, Option.some.injEq,
    Binary64.abs_exact, Binary64.exact_eq, mul_right_inj']
  split <;> norm_num

/-- A numeral is the real that it is rounded to just when it fits. -/
theorem rational?_toBinary64_iff (finite : numeral.toBinary64.isFinite = true) :
    (Value.real numeral.toBinary64).rational? = some numeral.exact ↔ Fits numeral.exact := by
  rw [rational?_real finite, Option.some.injEq, Numeral.Decimal.fits_exact_iff]
  exact ⟨fun same => ⟨finite, same⟩, And.right⟩

/-- A finite number has an exact one. -/
theorem rational?_of_number? (finite : value.Finite) (counted : value.number? = some x) :
    ∃ number, value.rational? = some number := by
  cases value with
  | null => cases counted
  | integer whole => exact ⟨_, rfl⟩
  | real own => exact ⟨_, rational?_real (finite own rfl)⟩
  | text content =>
      obtain ⟨numeral, -, -, exact⟩ := numeral_of_realOfText? counted
      exact ⟨_, exact⟩

/-- What a column of a type makes of a value. -/
inductive Coerced : ColumnType → Value → Value → Prop
  | kept {type : ColumnType} {value : Value} (unwritten : ∀ x, value = .real x → type ≠ .text) :
      Coerced type value value
  | whole {x : Binary64} {number : Int64} (same : x.whole? = some number.toInt) :
      Coerced .integer (.real x) (.integer number)
  | spelled {content : String} {number : Int64} (read : integerOfText? content = some number) :
      Coerced .integer (.text content) (.integer number)
  | read {type : ColumnType} {content : String} {x : Binary64}
      (read : realOfText? content = some x) : Coerced type (.text content) (.real x)
  | rounded {number : Int64} : Coerced .real (.integer number) (.real (.ofInt number.toInt))
  | writtenInteger {number : Int64} :
      Coerced .text (.integer number) (.text (integerText number.toInt))
  | writtenReal {x : Binary64} : Coerced .text (.real x) (.text (RealLayout.sql.text x))

theorem coerced_realOrText : Coerced type (.text content) (realOrText content) := by
  rw [realOrText]
  cases spelled : realOfText? content with
  | none => exact .kept (by simp)
  | some x => exact .read spelled

theorem coerced : Coerced type value (value.coerce type) := by
  cases value with
  | null => cases type <;> exact .kept (by simp)
  | integer number =>
      cases type with
      | real => exact .rounded
      | text => exact .writtenInteger
      | _ => exact .kept (by simp)
  | real x =>
      cases type with
      | text => exact .writtenReal
      | integer =>
          simp only [coerce]
          cases is : integerOfReal? x with
          | none => exact .kept (by simp)
          | some number => exact .whole (whole?_of_integerOfReal? is)
      | _ => exact .kept (by simp)
  | text content =>
      cases type with
      | real => exact coerced_realOrText
      | integer =>
          simp only [coerce]
          cases spelled : integerOfText? content with
          | none => exact coerced_realOrText
          | some number => exact .spelled spelled
      | _ => exact .kept (by simp)

namespace Coerced

variable {result : Value}

/-- The real that a value is compared by stays the same, up to the sign of zero. -/
theorem number? (coerced : Coerced type value result) (finite : value.Finite)
    (counted : value.number? = some x) : ∃ y, result.number? = some y ∧ y.rank = x.rank := by
  cases coerced with
  | kept _ => exact ⟨x, counted, rfl⟩
  | whole same =>
      cases counted
      exact ⟨_, rfl, (Binary64.rank_of_whole? same).symm⟩
  | spelled read =>
      obtain ⟨y, also, alike⟩ := realOfText?_of_integerOfText? read
      cases also.symm.trans counted
      exact ⟨_, rfl, alike.symm⟩
  | read read => exact ⟨_, read.symm.trans counted, rfl⟩
  | rounded => exact ⟨x, counted, rfl⟩
  | writtenInteger => exact ⟨x, (realOfText?_integerText _).trans counted, rfl⟩
  | writtenReal =>
      cases counted
      exact ⟨x, realOfText?_realText (finite x rfl), rfl⟩

/-- The number stays the same unless it becomes a real and does not fit, or is a real that is
written in fewer digits than it has. -/
theorem rational?_iff (coerced : Coerced type value result) (finite : value.Finite)
    (counted : value.rational? = some number) :
    result.rational? = some number ↔
      ((∃ y, result = .real y) → Fits number) ∧
      ∀ y, value = .real y → type = .text →
        ∃ digits : Nat, |number| = digits * (10 : ℚ) ^ (y.shortest .up).exponent := by
  cases coerced with
  | kept unwritten =>
      refine iff_of_true counted ⟨?_, fun y is text => absurd text (unwritten y is)⟩
      rintro ⟨y, rfl⟩
      cases (rational?_real (finite y rfl)).symm.trans counted
      exact Binary64.fits_exact (finite y rfl)
  | @whole x _ same =>
      cases (rational?_real (finite x rfl)).symm.trans counted
      rw [Binary64.exact_of_whole? same]
      exact iff_of_true rfl ⟨nofun, nofun⟩
  | spelled read =>
      cases (rational?_of_integerOfText? read).symm.trans counted
      exact iff_of_true rfl ⟨nofun, nofun⟩
  | read read =>
      obtain ⟨numeral, -, rfl, exact⟩ := numeral_of_realOfText? read
      cases exact.symm.trans counted
      rw [rational?_toBinary64_iff (Option.filter_eq_some_iff.mp read).2]
      exact ⟨fun fits => ⟨fun _ => fits, nofun⟩, fun kept => kept.1 ⟨_, rfl⟩⟩
  | @rounded whole =>
      cases counted
      have exact := @Numeral.Decimal.exact_ofInt whole.toInt
      have rounded := @Numeral.Decimal.toBinary64_ofInt whole.toInt
      rw [← exact, ← rounded, rational?_toBinary64_iff (rounded ▸ Binary64.ofInt_finite)]
      exact ⟨fun fits => ⟨fun _ => fits, nofun⟩, fun kept => kept.1 ⟨_, rfl⟩⟩
  | writtenInteger =>
      cases counted
      exact iff_of_true rational?_integerText ⟨nofun, nofun⟩
  | @writtenReal x =>
      cases (rational?_real (finite x rfl)).symm.trans counted
      rw [rational?_realText_iff (finite x rfl)]
      refine ⟨fun on => ⟨nofun, ?_⟩, fun kept => kept.2 x rfl rfl⟩
      rintro y same -
      cases same
      exact on

end Coerced

/-- A column keeps the real that a number is compared by. The number itself it keeps unless it makes
a real of a number that does not fit 53 binary digits, or writes a real in fewer digits than it has.
So an integer becomes equal to another one in a real column only if both have more than 53 binary
digits. -/
theorem coerce_keeps_number_iff (type : ColumnType) (finite : value.Finite)
    (counted : value.number? = some x) :
    (∃ number : ℚ, value.rational? = some number ∧
      (∃ y, (value.coerce type).number? = some y ∧ y.rank = x.rank) ∧
      ((value.coerce type).rational? = some number ↔
        ((∃ y, value.coerce type = .real y) → Fits number) ∧
        ∀ y, value = .real y → type = .text →
          ∃ digits : Nat, |number| = digits * (10 : ℚ) ^ (y.shortest .up).exponent)) ∧
    ∀ whole other : Int64, value = .integer whole → whole ≠ other →
      value.coerce .real = (Value.integer other).coerce .real →
        2 ^ 53 ≤ whole.toInt.natAbs ∧ 2 ^ 53 ≤ other.toInt.natAbs := by
  constructor
  · obtain ⟨number, exact⟩ := rational?_of_number? finite counted
    exact ⟨number, exact, coerced.number? finite counted, coerced.rational?_iff finite exact⟩
  · rintro whole other rfl apart same
    have alike := congrArg Binary64.rank (Value.real.inj same)
    have differ : whole.toInt ≠ other.toInt := fun same => apart (Int64.toInt_inj.mp same)
    exact ⟨Binary64.le_natAbs_of_rank_eq alike differ,
      Binary64.le_natAbs_of_rank_eq alike.symm differ.symm⟩

/-- An integer of 54 binary digits becomes equal to its neighbour, which fits. -/
theorem coerce_rounds_large_integer :
    let value := Value.integer 9007199254740993
    let other := Value.integer 9007199254740992
    value.Finite ∧ value.number? = some (.ofInt 9007199254740993) ∧
      value.rational? = some 9007199254740993 ∧ value.coerce .real = other.coerce .real ∧
      ¬ Fits 9007199254740993 ∧ (value.coerce .real).rational? = some 9007199254740992 ∧
      2 ^ 53 ≤ (9007199254740993 : Int64).toInt.natAbs := by
  intro value other
  have finite : value.Finite := nofun
  have whole : (9007199254740993 : Int64).toInt = 9007199254740993 := by decide +kernel
  have otherWhole : (9007199254740992 : Int64).toInt = 9007199254740992 := by decide +kernel
  have counted : value.number? = some (.ofInt 9007199254740993) := by
    rw [← whole]
    rfl
  have same : value.coerce .real = other.coerce .real := by decide +kernel
  obtain ⟨⟨number, exact, -, kept⟩, apart⟩ := coerce_keeps_number_iff .real finite counted
  obtain ⟨⟨neighbour, otherExact, -, otherKept⟩, -⟩ :=
    @coerce_keeps_number_iff other _ .real nofun rfl
  have size : value.rational? = some 9007199254740993 := by
    rw [rational?, whole]
    norm_num
  have otherSize : other.rational? = some 9007199254740992 := by
    rw [rational?, otherWhole]
    norm_num
  obtain rfl := Option.some.inj (exact.symm.trans size)
  obtain rfl := Option.some.inj (otherExact.symm.trans otherSize)
  have fits : Fits 9007199254740992 := by
    have := @Binary64.fits_of_le 9007199254740992 (by decide)
    exact_mod_cast this
  have rounded : (value.coerce .real).rational? = some 9007199254740992 := by
    rw [same]
    exact otherKept.mpr ⟨fun _ => fits, nofun⟩
  refine ⟨finite, counted, size, same, fun fits => ?_, rounded,
    (apart _ 9007199254740992 rfl (by decide) same).1⟩
  have unchanged := kept.mpr ⟨fun _ => fits, nofun⟩
  have equal := Option.some.inj (unchanged.symm.trans rounded)
  norm_num at equal

end Value

end Coffer
