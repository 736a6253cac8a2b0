import Coffer.Proofs.RoundedInteger

namespace Coffer

/-! # Numbers that texts spell

A text that spells an integer spells a real as well, the one that the integer rounds to, and the
text that is written for a finite real spells that real.
-/

namespace Numeral

variable {text digits : List Char} {negative : Bool} {limit start number : Nat} {whole : Int64}

/-- Only digits are read as a bounded number, and it is the one they stand for. -/
theorem digits_of_boundedDigits {beyond : IntegerFault}
    (read : boundedDigits limit beyond start digits = .ok number) :
    (∀ digit ∈ digits, Text.isDigit digit = true) ∧
      number = Nat.ofDigitChars 10 digits start := by
  induction digits generalizing start with
  | nil =>
      cases read
      exact ⟨nofun, rfl⟩
  | cons digit others ih =>
      simp only [boundedDigits] at read
      split at read
      · cases read
      · rename_i digital
        split at read
        · cases read
        · obtain ⟨all, value⟩ := ih read
          refine ⟨List.forall_mem_cons.mpr ⟨by simpa using digital, all⟩, ?_⟩
          rw [value, Nat.ofDigitChars_cons]
          rfl

/-- A text that spells a whole number is a sign and digits. -/
theorem digits_of_int64 (read : int64 text = .ok whole) :
    ∃ negative digits, splitSign text = (negative, digits) ∧ digits ≠ [] ∧
      (∀ digit ∈ digits, Text.isDigit digit = true) ∧
      whole.toInt = if negative then -(digitsValue digits : Int) else digitsValue digits := by
  obtain ⟨value, spelled, rfl⟩ := map_eq_ok_iff.mp read
  simp only [integer] at spelled
  split at spelled
  · cases spelled
  · cases signed : splitSign text with
    | mk negative digits =>
        simp only [signed] at spelled
        split at spelled
        · cases spelled
        · rename_i some
          refine ⟨negative, digits, rfl, by simpa using some, ?_⟩
          cases negative with
          | false =>
              obtain ⟨size, bounded, rfl⟩ := map_eq_ok_iff.mp spelled
              obtain ⟨all, same⟩ := digits_of_boundedDigits bounded
              have most := boundedDigits_le (Nat.zero_le _) bounded
              refine ⟨all, ?_⟩
              have bound : size ≤ 9223372036854775807 := most
              have fits : Int64.toInt (Int64.ofInt (Int.ofNat size)) = size :=
                Int64.toInt_ofInt_of_le (by simp) (by simp; omega)
              rw [fits, same]
              rfl
          | true =>
              obtain ⟨size, bounded, rfl⟩ := map_eq_ok_iff.mp spelled
              obtain ⟨all, same⟩ := digits_of_boundedDigits bounded
              have most := boundedDigits_le (Nat.zero_le _) bounded
              refine ⟨all, ?_⟩
              have bound : size ≤ 9223372036854775808 := most
              have fits : Int64.toInt (Int64.ofInt (-Int.ofNat size)) = -size :=
                Int64.toInt_ofInt_of_le (by simp; omega) (by simp; omega)
              rw [fits, same]
              rfl

theorem decimal?_signed (signed : splitSign text = (negative, digits)) (nonempty : digits ≠ [])
    (all : ∀ digit ∈ digits, Text.isDigit digit = true) :
    decimal? text = some ⟨negative, digitsValue digits, 0⟩ := by
  rw [decimal?, signed]
  exact unsigned?_whole nonempty all

/-- No word for a real is a decimal numeral. -/
theorem unsigned?_of_spells {first : Char} {word : List Char}
    (spelled : spells text (first :: word)) (letter : Text.isDigit first = false)
    (point : first ≠ '.') : unsigned? negative text = none := by
  cases text with
  | nil => rfl
  | cons head rest =>
      have notDigit : Text.isDigit head = false := by
        by_contra digit
        rw [spells_digits (by simpa using digit) letter] at spelled
        cases spelled
      have notPoint : head ≠ '.' := by
        rintro rfl
        simp only [spells, List.map_cons, beq_iff_eq, List.cons.injEq] at spelled
        exact point spelled.1.symm
      have whole : (head :: rest).takeWhile Text.isDigit = [] := by
        rw [List.takeWhile_cons, notDigit]
        rfl
      have left : (head :: rest).dropWhile Text.isDigit = head :: rest := by
        rw [List.dropWhile_cons, notDigit]
        rfl
      have bare : (splitFraction (head :: rest)).1 = [] := by
        rw [splitFraction]
        intro more same
        cases same
        exact notPoint rfl
      rw [unsigned?, whole, left, bare]
      rfl

end Numeral

namespace Value

variable {content : String} {x : Binary64} {number : Int64}

/-- The finite real that a text spells is that of its decimal numeral. -/
theorem realOfText?_eq : realOfText? content =
    ((Numeral.decimal? (Text.trimmed content.toList)).map Numeral.Decimal.toBinary64).filter
      Binary64.isFinite := by
  rw [realOfText?, Numeral.real?, Numeral.decimal?]
  generalize Numeral.splitSign (Text.trimmed content.toList) = signed
  have infinite : (Binary64.infinity signed.1).isFinite = false := by
    cases signed.1 <;> decide
  have undefined : (Binary64.nan signed.1).isFinite = false := by
    cases signed.1 <;> decide
  split
  · rename_i word
    have none : Numeral.unsigned? signed.1 signed.2 = none := by
      rcases (Bool.or_eq_true _ _).mp word with short | long
      · exact @Numeral.unsigned?_of_spells _ _ 'i' _ short rfl (by decide)
      · exact @Numeral.unsigned?_of_spells _ _ 'i' _ long rfl (by decide)
    rw [none, Option.filter_some, infinite]
    rfl
  · split
    · rename_i word
      rw [@Numeral.unsigned?_of_spells _ _ 'n' _ word rfl (by decide), Option.filter_some,
        undefined]
      rfl
    · rfl

theorem decimal?_of_integerOfText? (spelled : integerOfText? content = some number) :
    ∃ negative digits, Numeral.decimal? (Text.trimmed content.toList) =
        some ⟨negative, digits, 0⟩ ∧
      number.toInt = if negative then -(digits : Int) else digits := by
  rw [integerOfText?] at spelled
  cases read : Numeral.int64 (Text.trimmed content.toList) with
  | error fault =>
      rw [read] at spelled
      cases spelled
  | ok whole =>
      rw [read] at spelled
      cases spelled
      obtain ⟨negative, digits, signed, nonempty, all, value⟩ := Numeral.digits_of_int64 read
      exact ⟨negative, _, Numeral.decimal?_signed signed nonempty all, value⟩

/-- A text that spells an integer spells the real that the integer rounds to, up to the sign of
zero. -/
theorem realOfText?_of_integerOfText? (spelled : integerOfText? content = some number) :
    ∃ x, realOfText? content = some x ∧ x.rank = (Binary64.ofInt number.toInt).rank := by
  obtain ⟨negative, digits, read, value⟩ := decimal?_of_integerOfText? spelled
  have size : number.toInt.natAbs = digits := by
    rw [value]
    split <;> omega
  have magnitude : Scaled.magnitude ⟨digits, 0⟩ =
      Binary64.nearestMagnitude (number.toInt.natAbs * Binary64.quantaPerUnit) 1 := by
    simp only [Scaled.magnitude, size]
    simp
  have least := number.le_toInt
  have most := number.toInt_lt
  have finite := @Binary64.nearestMagnitude_lt number.toInt.natAbs
    (show _ ≤ 9223372036854775808 by omega)
  rw [← magnitude] at finite
  have fits : Binary64.infiniteMagnitude < Nat.pow 2 63 := by decide
  have within := Nat.lt_trans finite fits
  refine ⟨.ofMagnitude negative (Scaled.magnitude ⟨digits, 0⟩), ?_, ?_⟩
  · rw [realOfText?_eq, read, Option.map_some, Numeral.toBinary64_eq]
    refine Option.filter_some_pos (decide_eq_true ?_)
    rwa [Binary64.magnitude_ofMagnitude within]
  · rw [Binary64.rank, Binary64.magnitude_ofMagnitude within, Binary64.negative_ofMagnitude within,
      Binary64.rank_ofInt, ← magnitude, value]
    cases negative with
    | false =>
        rw [if_neg Bool.false_ne_true, if_neg Bool.false_ne_true, if_neg (by omega)]
    | true =>
        rw [if_pos rfl, if_pos rfl]
        split
        · rfl
        · have zero : number.toInt.natAbs = 0 := by omega
          rw [magnitude, zero, Nat.zero_mul, Binary64.nearestMagnitude_small (by decide)]
          rfl

end Value

/-! ## The text of a real -/

namespace Numeral

variable {digits rest : List Char} {negative : Bool}

/-- A sign and digits, with more behind them that is not blank, are read as they are. -/
theorem decimal?_trimmed (nonempty : digits ≠ [])
    (all : ∀ digit ∈ digits, Text.isDigit digit = true)
    (plain : ∀ character ∈ rest, Text.isBlank character = false) :
    decimal? (Text.trimmed (if negative then '-' :: (digits ++ rest) else digits ++ rest)) =
      unsigned? negative (digits ++ rest) := by
  have unblank : ∀ character ∈ digits ++ rest, Text.isBlank character = false := by
    intro character member
    rcases List.mem_append.mp member with digit | later
    · exact Text.isBlank_of_isDigit (all character digit)
    · exact plain character later
  cases negative with
  | false =>
      have signed : splitSign (digits ++ rest) = (false, digits ++ rest) :=
        splitSign_digits nonempty all
      rw [if_neg Bool.false_ne_true, Text.trimmed_of_not_isBlank unblank, decimal?, signed]
  | true =>
      rw [if_pos rfl, Text.trimmed_of_not_isBlank (List.forall_mem_cons.mpr ⟨by decide, unblank⟩)]
      rfl

end Numeral

namespace Value

variable {x : Binary64}

theorem toList_realText (finite : x.isFinite = true) :
    (RealLayout.sql.text x).toList = if x.negative
      then '-' :: RealLayout.positionalText 0 (x.shortest .up)
      else RealLayout.positionalText 0 (x.shortest .up) := by
  rw [RealLayout.text, Binary64.not_isNan_of_isFinite finite, if_neg Bool.false_ne_true,
    if_pos finite, String.toList_ofList]
  cases x.negative <;> rfl

/-- The text of a finite real is the decimal numeral of its digits. -/
theorem decimal?_realText (finite : x.isFinite = true) :
    Numeral.decimal? (Text.trimmed (RealLayout.sql.text x).toList) =
      some ⟨x.negative, (x.shortest .up).digits * Nat.pow 10 (x.shortest .up).exponent.toNat,
        min (x.shortest .up).exponent 0⟩ := by
  rw [toList_realText finite]
  generalize x.shortest .up = scaled
  by_cases below : scaled.exponent < 0
  · obtain ⟨digits, fraction, pointed, value, layout⟩ := Numeral.positionalText_pointed below
    have plain : ∀ character ∈ '.' :: fraction, Text.isBlank character = false :=
      List.forall_mem_cons.mpr ⟨by decide, fun character member =>
        Text.isBlank_of_isDigit (pointed.after character member)⟩
    have whole : Nat.pow 10 scaled.exponent.toNat = 1 := by
      rw [show scaled.exponent.toNat = 0 by omega, Nat.pow_eq, Nat.pow_zero]
    rw [layout, Numeral.decimal?_trimmed pointed.nonempty pointed.before plain,
      Numeral.unsigned?_pointed pointed, whole, Nat.mul_one, Int.min_eq_left (by omega), ← value]
    rfl
  · have layout : RealLayout.positionalText 0 scaled =
        digitsOf (scaled.digits * Nat.pow 10 scaled.exponent.toNat) ++ [] := by
      rw [RealLayout.positionalText, if_pos (by omega), if_pos rfl, List.append_nil]
    rw [layout, Numeral.decimal?_trimmed digitsOf_ne_nil isDigit_digitsOf (List.forall_mem_nil _),
      List.append_nil,
      Numeral.unsigned?_whole digitsOf_ne_nil isDigit_digitsOf, Numeral.digitsValue_digitsOf,
      Int.min_eq_right (by omega)]

/-- The text of a finite real spells it. -/
theorem realOfText?_realText (finite : x.isFinite = true) :
    realOfText? (RealLayout.sql.text x) = some x := by
  have same : Scaled.magnitude ⟨(x.shortest .up).digits *
        Nat.pow 10 (x.shortest .up).exponent.toNat, min (x.shortest .up).exponent 0⟩ =
      x.magnitude := by
    rw [← @Binary64.magnitude_shortest x .up finite]
    have up : Nat.pow 10 (min (x.shortest .up).exponent 0).toNat = 1 := by
      rw [show (min (x.shortest .up).exponent 0).toNat = 0 by omega, Nat.pow_eq, Nat.pow_zero]
    have down : (-min (x.shortest .up).exponent 0).toNat = (-(x.shortest .up).exponent).toNat := by
      omega
    simp only [Scaled.magnitude, up, down, Nat.mul_one]
  rw [realOfText?_eq, decimal?_realText finite, Option.map_some, Numeral.toBinary64_eq, same,
    Binary64.ofMagnitude_self]
  exact Option.filter_some_pos finite

end Value

end Coffer
