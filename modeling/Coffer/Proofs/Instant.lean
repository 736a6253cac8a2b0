import Coffer.Proofs.JsonNumber
import Coffer.Snapshot.Instant

namespace Coffer.Instant

/-! # Days and dates

Every day has a date, and the date counts back to the day.
-/

section Days

variable {year other day : Int} {month ordinal : Nat}

theorem daysBeforeYear_succ :
    daysBeforeYear (year + 1) =
      daysBeforeYear year + 365 + (if isLeapYear year then 1 else 0) := by
  simp only [daysBeforeYear, isLeapYear, Bool.and_eq_true, Bool.or_eq_true, beq_iff_eq,
    bne_iff_ne]
  split <;> omega

theorem daysBeforeYear_lt : daysBeforeYear year < daysBeforeYear (year + 1) := by
  rw [daysBeforeYear_succ]
  split <;> omega

/-- The first guess of the year of a day. -/
theorem yearOfDay_estimate {estimate : Int}
    (guess : estimate = (400 * (day - 366)) / 146097 + 1970) :
    daysBeforeYear estimate ≤ day ∧ day < daysBeforeYear (estimate + 3) := by
  simp only [daysBeforeYear]
  omega

/-- A day falls into its year. -/
theorem yearOfDay_spec :
    daysBeforeYear (yearOfDay day) ≤ day ∧ day < daysBeforeYear (yearOfDay day + 1) := by
  obtain ⟨early, late⟩ := @yearOfDay_estimate day _ rfl
  unfold yearOfDay
  generalize (400 * (day - 366)) / 146097 + 1970 = estimate at early late ⊢
  have first : daysBeforeYear estimate < daysBeforeYear (estimate + 1) := daysBeforeYear_lt
  have second : daysBeforeYear (estimate + 1) < daysBeforeYear (estimate + 2) := by
    have grows := @daysBeforeYear_lt (estimate + 1)
    rwa [Int.add_assoc] at grows
  have range : List.range 4 = [0, 1, 2, 3] := rfl
  have last : ¬ daysBeforeYear (estimate + 3) ≤ day := Int.not_le.mpr late
  by_cases one : daysBeforeYear (estimate + 1) ≤ day
  · by_cases two : daysBeforeYear (estimate + 2) ≤ day
    · simp [range, early, one, two, last, Int.add_assoc, late]
    · simp [range, early, one, two, last, Int.add_assoc]
      omega
  · have two : ¬ daysBeforeYear (estimate + 2) ≤ day := by omega
    simp [range, early, one, two, last]
    omega

theorem daysInMonth_le : daysInMonth year month ≤ 31 := by
  rw [daysInMonth]
  split
  · split <;> decide
  · split <;> decide

theorem daysInMonth_congr (same : isLeapYear year = isLeapYear other) :
    daysInMonth year month = daysInMonth other month := by
  rw [daysInMonth, daysInMonth, same]

theorem daysBeforeMonth_congr (same : isLeapYear year = isLeapYear other) :
    daysBeforeMonth year month = daysBeforeMonth other month := by
  simp only [daysBeforeMonth, daysInMonth_congr same]

theorem monthOfDay_congr (same : isLeapYear year = isLeapYear other) :
    monthOfDay year ordinal = monthOfDay other ordinal := by
  simp only [monthOfDay, daysBeforeMonth_congr same]

/-- Whether a day of a year falls into its month. -/
def IsInMonth (year : Int) (ordinal : Nat) : Prop :=
  let month := monthOfDay year ordinal
  1 ≤ month ∧ month ≤ 12 ∧ daysBeforeMonth year month ≤ ordinal ∧
    ordinal < daysBeforeMonth year month + daysInMonth year month

instance : Decidable (IsInMonth year ordinal) := inferInstanceAs (Decidable (_ ∧ _))

theorem isInMonth_congr (same : isLeapYear year = isLeapYear other) :
    IsInMonth year ordinal ↔ IsInMonth other ordinal := by
  simp only [IsInMonth, monthOfDay_congr same, daysBeforeMonth_congr same, daysInMonth_congr same]

/-- The months of all years are those of a leap year and of another one. -/
theorem isInMonth (within : ordinal < if isLeapYear year then 366 else 365) :
    IsInMonth year ordinal := by
  have leap : ∀ ordinal : Fin 366, IsInMonth 2000 ordinal := by decide +kernel
  have plain : ∀ ordinal : Fin 365, IsInMonth 2001 ordinal := by decide +kernel
  cases kind : isLeapYear year with
  | true =>
      rw [kind] at within
      exact (isInMonth_congr (kind.trans (by decide))).mpr (leap ⟨ordinal, within⟩)
  | false =>
      rw [kind] at within
      exact (isInMonth_congr (kind.trans (by decide))).mpr (plain ⟨ordinal, within⟩)

/-- The date of a day counts back to it, and is a date of its year and month. -/
theorem dateOfDay_spec :
    (dateOfDay day).days = day ∧ 1 ≤ (dateOfDay day).month ∧ (dateOfDay day).month ≤ 12 ∧
      1 ≤ (dateOfDay day).day ∧
      (dateOfDay day).day ≤ daysInMonth (dateOfDay day).year (dateOfDay day).month := by
  obtain ⟨early, late⟩ := @yearOfDay_spec day
  rw [daysBeforeYear_succ] at late
  have within : (day - daysBeforeYear (yearOfDay day)).toNat <
      if isLeapYear (yearOfDay day) then 366 else 365 := by
    split at late <;> split <;> simp_all <;> omega
  obtain ⟨least, most, before, after⟩ := isInMonth within
  simp only [dateOfDay, Date.days]
  omega

theorem isValid_dateOfDay (year : isYear (dateOfDay day).year = true) :
    (dateOfDay day).isValid = true := by
  obtain ⟨-, least, most, first, last⟩ := @dateOfDay_spec day
  simp only [Date.isValid, year, least, most, first, last, decide_true, Bool.and_self]

end Days

/-! # Instants as text

An instant is read from the text it is written as.
-/

variable {digits rest text : List Char} {character : Char} {number width most : Nat}
variable {instant : Instant}

/-- Digits from the first character on. -/
structure DigitRun (digits : List Char) : Prop where
  nonempty : digits ≠ []
  all : ∀ character ∈ digits, Text.isDigit character = true

theorem isDigit_of_isDigit (digit : character.isDigit = true) : Text.isDigit character = true := by
  obtain ⟨low, high⟩ := Json.toNat_of_digit digit
  simp [Text.isDigit, low, high]

/-- The number that digits stand for. -/
def valueOf (digits : List Char) : Nat :=
  digits.foldl (fun value digit => 10 * value + (digit.toNat - 48)) 0

theorem skipBlanks_digits (run : DigitRun digits) :
    skipBlanks (digits ++ rest) = digits ++ rest := by
  obtain ⟨first, others, rfl⟩ := List.exists_cons_of_ne_nil run.nonempty
  have solid := Text.isBlank_of_isDigit (run.all first List.mem_cons_self)
  rw [skipBlanks, List.cons_append, List.dropWhile_cons_of_neg (by simp [solid])]

theorem number?_append (run : DigitRun digits) (fits : digits.length ≤ most)
    (stops : Stops Text.isDigit rest) : number? most (digits ++ rest) = some (valueOf digits, rest) := by
  have taken : ((digits ++ rest).take most).takeWhile Text.isDigit = digits := by
    rw [List.take_append, List.take_of_length_le fits, takeWhile_run run.all stops.take]
  have nonempty : digits.isEmpty = false := by simpa using run.nonempty
  rw [number?]
  simp only [skipBlanks_digits run, taken, nonempty, Bool.false_eq_true, if_false,
    List.drop_left]
  rfl

/-- The digits of a number, filled up with zeros. -/
def paddedDigits (width number : Nat) : List Char :=
  List.replicate (width - (digitsOf number).length) '0' ++ digitsOf number

theorem toList_padded : (padded width number).toList = paddedDigits width number :=
  String.toList_ofList

theorem digitRun_paddedDigits : DigitRun (paddedDigits width number) := by
  refine ⟨by simp [paddedDigits, digitsOf, Nat.toDigits_ne_nil], fun character member => ?_⟩
  rcases List.mem_append.mp member with zero | digit
  · rw [List.eq_of_mem_replicate zero]
    rfl
  · exact isDigit_of_isDigit (Json.isDigit_digitsOf character digit)

theorem valueOf_paddedDigits : valueOf (paddedDigits width number) = number := by
  have value : valueOf (paddedDigits width number) =
      Nat.ofDigitChars 10 (paddedDigits width number) 0 := Nat.ofDigitChars_eq_foldl.symm
  rw [value, paddedDigits, Nat.ofDigitChars_append, Nat.ofDigitChars_replicate_zero, Nat.mul_zero]
  exact Nat.ofDigitChars_ten_toDigits

theorem length_paddedDigits (positive : 0 < width) (fits : number < Nat.pow 10 width) :
    (paddedDigits width number).length = width := by
  have short : (digitsOf number).length ≤ width :=
    (Nat.length_toDigits_le_iff (by decide) positive).mpr fits
  rw [paddedDigits, List.length_append, List.length_replicate]
  omega

theorem length_paddedDigits_le (narrow : width ≤ most) (positive : 0 < most)
    (fits : number < Nat.pow 10 most) : (paddedDigits width number).length ≤ most := by
  have short : (digitsOf number).length ≤ most :=
    (Nat.length_toDigits_le_iff (by decide) positive).mpr fits
  rw [paddedDigits, List.length_append, List.length_replicate]
  omega

/-- A number is read from its digits, however they are filled up. -/
theorem number?_padded (positive : 0 < width) (fits : number < Nat.pow 10 width)
    (stops : Stops Text.isDigit rest) :
    number? width (paddedDigits width number ++ rest) = some (number, rest) := by
  have length : (paddedDigits width number).length = width := length_paddedDigits positive fits
  rw [number?_append digitRun_paddedDigits (Nat.le_of_eq length) stops, valueOf_paddedDigits]

theorem stops_of_mark (plain : Text.isDigit character = false) :
    Stops Text.isDigit (character :: rest) := by
  intro first head
  rw [← Option.some.inj head]
  exact plain

theorem after?_mark (solid : Text.isBlank character = false) :
    after? character (character :: rest) = some rest := by
  rw [after?, skipBlanks, List.dropWhile_cons_of_neg (by simp [solid])]
  exact if_pos rfl

/-- The characters of a year. -/
def yearCharacters (year : Int) : List Char :=
  if 0 ≤ year ∧ year ≤ 9999 then paddedDigits 4 year.toNat
  else (if year < 0 then '-' else '+') :: paddedDigits 4 year.natAbs

theorem toList_yearText (year : Int) : (yearText year).toList = yearCharacters year := by
  rw [yearText, yearCharacters]
  split
  · exact toList_padded
  · split
    · rw [String.toList_append, toList_padded]
      rfl
    · rw [String.toList_append, toList_padded]
      rfl

/-- A signed year takes all digits there are. -/
theorem number?_signed (stops : Stops Text.isDigit rest) :
    ((paddedDigits 4 number ++ rest).head?.any Text.isDigit) = true ∧
      number? (paddedDigits 4 number ++ rest).length (paddedDigits 4 number ++ rest) =
        some (number, rest) := by
  have run : DigitRun (paddedDigits 4 number) := digitRun_paddedDigits
  constructor
  · obtain ⟨first, others, form⟩ := List.exists_cons_of_ne_nil run.nonempty
    rw [form]
    exact run.all first (form ▸ List.mem_cons_self)
  · have fits : (paddedDigits 4 number).length ≤ (paddedDigits 4 number ++ rest).length := by
      rw [List.length_append]
      exact Nat.le_add_right _ _
    rw [number?_append run fits stops, valueOf_paddedDigits]

theorem year?_append {year : Int} (stops : Stops Text.isDigit rest) :
    year? (yearCharacters year ++ rest) = some (year, rest) := by
  rw [yearCharacters]
  split
  · rename_i short
    have run : DigitRun (paddedDigits 4 year.toNat) := digitRun_paddedDigits
    have digit {sign : Char} (mark : Text.isDigit sign = false) :
        ∀ others, paddedDigits 4 year.toNat ++ rest ≠ sign :: others := by
      intro others same
      obtain ⟨first, more, form⟩ := List.exists_cons_of_ne_nil run.nonempty
      have found := run.all first (form ▸ List.mem_cons_self)
      rw [form] at same
      rw [(List.cons.inj same).1, mark] at found
      cases found
    have fits : year.toNat < Nat.pow 10 4 := by
      change year.toNat < 10000
      omega
    rw [year?, skipBlanks_digits run]
    split
    · rename_i same
      exact absurd same (digit (by decide) _)
    · rename_i same
      exact absurd same (digit (by decide) _)
    · rw [number?_padded (by decide) fits stops, Option.map_some, Int.toNat_of_nonneg short.1]
  · rename_i long
    obtain ⟨digit, found⟩ := @number?_signed rest year.natAbs stops
    split
    · rename_i negative
      have skipped : skipBlanks ('-' :: (paddedDigits 4 year.natAbs ++ rest)) =
          '-' :: (paddedDigits 4 year.natAbs ++ rest) := rfl
      have value : -(year.natAbs : Int) = year := by omega
      rw [List.cons_append, year?, skipped]
      simp only [digit, if_true, found, Option.map_some, value]
    · rename_i positive
      have skipped : skipBlanks ('+' :: (paddedDigits 4 year.natAbs ++ rest)) =
          '+' :: (paddedDigits 4 year.natAbs ++ rest) := rfl
      have value : (year.natAbs : Int) = year := by omega
      rw [List.cons_append, year?, skipped]
      simp only [digit, if_true, found, Option.map_some, value]

/-- The characters of a date. -/
def dateCharacters (date : Date) : List Char :=
  yearCharacters date.year ++ '-' :: (paddedDigits 2 date.month ++ '-' :: paddedDigits 2 date.day)

theorem date?_append {date : Date} (months : date.month < 100) (days : date.day < 100)
    (stops : Stops Text.isDigit rest) :
    date? (dateCharacters date ++ rest) = some (date, rest) := by
  have dash {others : List Char} : Stops Text.isDigit ('-' :: others) := stops_of_mark (by decide)
  have afterDash {others : List Char} : after? '-' ('-' :: others) = some others :=
    after?_mark (by decide)
  rw [dateCharacters]
  simp only [List.append_assoc, List.cons_append]
  rw [date?, year?_append dash]
  simp only [Option.bind_eq_bind, Option.bind_some, afterDash,
    number?_padded (by decide : 0 < 2) months dash, number?_padded (by decide : 0 < 2) days stops]

/-- Zeros that fill a fraction up to nine digits scale it. -/
theorem fraction?_padded {zeros : Nat} (run : width + zeros = 9) (positive : 0 < width)
    (fits : number < Nat.pow 10 width) (stops : Stops Text.isDigit rest) :
    fraction? ('.' :: (paddedDigits width number ++ rest)) =
      some (Nat.pow 10 zeros * number, rest) := by
  have digits : DigitRun (paddedDigits width number) := digitRun_paddedDigits
  have length : (paddedDigits width number).length = width := length_paddedDigits positive fits
  have nonempty : (paddedDigits width number).isEmpty = false := by simpa using digits.nonempty
  have kept : (paddedDigits width number ++ List.replicate 9 '0').take 9 =
      paddedDigits width number ++ List.replicate zeros '0' := by
    rw [List.take_append, List.take_of_length_le (by omega), List.take_replicate, length]
    congr 2
    omega
  have value : valueOf (paddedDigits width number ++ List.replicate zeros '0') =
      Nat.pow 10 zeros * number := by
    have read : valueOf (paddedDigits width number ++ List.replicate zeros '0') =
        Nat.ofDigitChars 10 (paddedDigits width number ++ List.replicate zeros '0') 0 :=
      Nat.ofDigitChars_eq_foldl.symm
    have padded : Nat.ofDigitChars 10 (paddedDigits width number) 0 = number :=
      Nat.ofDigitChars_eq_foldl.trans valueOf_paddedDigits
    rw [read, Nat.ofDigitChars_append, padded, Nat.ofDigitChars_replicate_zero]
    rfl
  rw [fraction?]
  simp only [takeWhile_run digits.all stops, dropWhile_run digits.all stops, nonempty,
    Bool.false_eq_true, if_false, kept]
  exact congrArg (fun found => some (found, rest)) value

theorem fraction?_scaled {nanoseconds zeros : Nat} (run : width + zeros = 9) (positive : 0 < width)
    (fits : nanoseconds < Nat.pow 10 9) (whole : nanoseconds % Nat.pow 10 zeros = 0)
    (stops : Stops Text.isDigit rest) :
    fraction? (("." ++ padded width (nanoseconds / Nat.pow 10 zeros)).toList ++ rest) =
      some (nanoseconds, rest) := by
  have room : Nat.pow 10 9 = Nat.pow 10 zeros * Nat.pow 10 width := by
    rw [← run]
    exact (Nat.pow_add 10 width zeros).trans (Nat.mul_comm _ _)
  have small : nanoseconds / Nat.pow 10 zeros < Nat.pow 10 width :=
    Nat.div_lt_of_lt_mul (room ▸ fits)
  have dotted : ("." ++ padded width (nanoseconds / Nat.pow 10 zeros)).toList ++ rest =
      '.' :: (paddedDigits width (nanoseconds / Nat.pow 10 zeros) ++ rest) := by
    rw [String.toList_append, toList_padded]
    rfl
  rw [dotted, fraction?_padded run positive small stops,
    Nat.mul_div_cancel' (Nat.dvd_of_mod_eq_zero whole)]

theorem fraction?_append {nanoseconds : Nat} (fits : nanoseconds < Nat.pow 10 9) :
    fraction? ((fractionText nanoseconds).toList ++ ['Z']) = some (nanoseconds, ['Z']) := by
  have stops : Stops Text.isDigit ['Z'] := stops_of_mark (by decide)
  rw [fractionText]
  split
  · rename_i zero
    subst zero
    rfl
  split
  · rename_i millions
    exact fraction?_scaled rfl (by decide) fits millions stops
  split
  · rename_i thousands
    exact fraction?_scaled rfl (by decide) fits thousands stops
  · have scaled := @fraction?_scaled ['Z'] 9 nanoseconds 0 rfl (by decide) fits (Nat.mod_one _) stops
    rwa [show Nat.pow 10 0 = 1 from rfl, Nat.div_one] at scaled

/-- The characters of a time of day up to its fraction. -/
def timeCharacters (hour minute second : Nat) : List Char :=
  paddedDigits 2 hour ++ ':' :: (paddedDigits 2 minute ++ ':' :: paddedDigits 2 second)

theorem stops_fractionText {nanoseconds : Nat} :
    Stops Text.isDigit ((fractionText nanoseconds).toList ++ ['Z']) := by
  have dotted {text : String} : Stops Text.isDigit (("." ++ text).toList ++ ['Z']) := by
    rw [String.toList_append]
    exact stops_of_mark (by decide)
  rw [fractionText]
  split
  · exact stops_of_mark (by decide)
  split
  · exact dotted
  split
  · exact dotted
  · exact dotted

theorem time?_append {hour minute second nanoseconds : Nat} (hours : hour < 24)
    (minutes : minute < 60) (seconds : second < 61) (fits : nanoseconds < Nat.pow 10 9) :
    time? (timeCharacters hour minute second ++ ((fractionText nanoseconds).toList ++ ['Z'])) =
      if second = 60 then some (3600 * hour + 60 * minute + 59, nanoseconds + Nat.pow 10 9, ['Z'])
      else some (3600 * hour + 60 * minute + second, nanoseconds, ['Z']) := by
  have two {number : Nat} (small : number < 61) : number < Nat.pow 10 2 :=
    Nat.lt_trans small (by decide)
  have colon {others : List Char} : Stops Text.isDigit (':' :: others) := stops_of_mark (by decide)
  have afterColon {others : List Char} : after? ':' (':' :: others) = some others :=
    after?_mark (by decide)
  have valid : ¬ (24 ≤ hour ∨ 60 ≤ minute ∨ 61 ≤ second) := by omega
  rw [timeCharacters]
  simp only [List.append_assoc, List.cons_append]
  rw [time?, number?_padded (by decide) (two (by omega)) colon]
  simp only [Option.bind_eq_bind, Option.bind_some, afterColon,
    number?_padded (by decide : 0 < 2) (two (by omega : minute < 61)) colon,
    number?_padded (by decide : 0 < 2) (two seconds) stops_fractionText, fraction?_append fits,
    valid, if_false]

/-- An instant with a year that can be written. A leap second goes past the last second of a
minute. -/
structure Valid (instant : Instant) : Prop where
  year : isYear (dateOfDay (instant.seconds / 86400)).year = true
  leap : Nat.pow 10 9 ≤ instant.nanoseconds →
    instant.nanoseconds < 2 * Nat.pow 10 9 ∧ instant.seconds % 60 = 59

/-- The characters of an instant. -/
theorem toList_toText :
    instant.toText.toList =
      dateCharacters (dateOfDay (instant.seconds / 86400)) ++ 'T' ::
        (timeCharacters ((instant.seconds % 86400).toNat / 3600)
          ((instant.seconds % 86400).toNat / 60 % 60)
          ((instant.seconds % 86400).toNat % 60 +
            if Nat.pow 10 9 ≤ instant.nanoseconds then 1 else 0) ++
          ((fractionText (instant.nanoseconds % Nat.pow 10 9)).toList ++ ['Z'])) := by
  have three {separator first second third : String} :
      separator.intercalate [first, second, third] =
        first ++ separator ++ second ++ separator ++ third := rfl
  simp only [toText, three, String.toList_append, toList_padded, toList_yearText, dateCharacters,
    timeCharacters, List.append_assoc, List.cons_append]
  rfl

/-- A time of day is read from its characters, those of a leap second included. -/
theorem time?_characters {time nanoseconds : Nat} (within : time < 86400)
    (leap : Nat.pow 10 9 ≤ nanoseconds → nanoseconds < 2 * Nat.pow 10 9 ∧ time % 60 = 59) :
    time? (timeCharacters (time / 3600) (time / 60 % 60)
      (time % 60 + if Nat.pow 10 9 ≤ nanoseconds then 1 else 0) ++
        ((fractionText (nanoseconds % Nat.pow 10 9)).toList ++ ['Z'])) =
      some (time, nanoseconds, ['Z']) := by
  have sum : 3600 * (time / 3600) + 60 * (time / 60 % 60) + time % 60 = time := by omega
  rw [time?_append (by omega) (by omega) (by split <;> omega) (Nat.mod_lt _ (by decide))]
  by_cases late : Nat.pow 10 9 ≤ nanoseconds
  · obtain ⟨below, last⟩ := leap late
    have kept : nanoseconds % Nat.pow 10 9 + Nat.pow 10 9 = nanoseconds := by
      rw [Nat.mod_eq_sub_mod late, Nat.mod_eq_of_lt (by omega)]
      omega
    rw [if_pos late, if_pos (by omega), kept, ← last, sum]
  · rw [if_neg late, if_neg (by omega), Nat.add_zero, sum,
      Nat.mod_eq_of_lt (Nat.lt_of_not_le late)]

/-- An instant is read from its text. -/
theorem ofText?_toText (valid : instant.Valid) : ofText? instant.toText = some instant := by
  obtain ⟨seconds, nanoseconds⟩ := instant
  obtain ⟨year, leap⟩ := valid
  simp only at year leap
  obtain ⟨back, -, months, -, days⟩ := @dateOfDay_spec (seconds / 86400)
  have shortMonth := @daysInMonth_le (dateOfDay (seconds / 86400)).year
    (dateOfDay (seconds / 86400)).month
  have dated {others : List Char} :
      date? (dateCharacters (dateOfDay (seconds / 86400)) ++ 'T' :: others) =
        some (dateOfDay (seconds / 86400), 'T' :: others) :=
    date?_append (by omega) (by omega) (stops_of_mark (by decide))
  obtain ⟨time, clock⟩ := Int.eq_ofNat_of_zero_le (show 0 ≤ seconds % 86400 by omega)
  have timed := @time?_characters time nanoseconds (by omega) (fun late => by
    obtain ⟨below, last⟩ := leap late
    omega)
  have separator : ¬ ('T' ≠ 'T' ∧ 'T' ≠ 't' ∧ 'T' ≠ ' ') := by decide
  have utc : offset? (skipBlanks ['Z']) = some (0, []) := rfl
  have total : 86400 * (dateOfDay (seconds / 86400)).days + (time : Int) - 0 = seconds := by
    rw [back, ← clock]
    omega
  have whole : (skipBlanks []).isEmpty = true := rfl
  rw [ofText?, toList_toText]
  simp only [clock, Int.toNat_natCast, dated, Option.bind_eq_bind, Option.bind_some,
    List.head?_cons, separator, if_false, List.drop_succ_cons, List.drop_zero, timed, utc, total,
    isValid_dateOfDay year, year, whole, Bool.and_self, if_true]

theorem length_yearCharacters_le {year : Int} (valid : isYear year = true) :
    (yearCharacters year).length ≤ 7 := by
  simp only [isYear, Bool.and_eq_true, decide_eq_true_eq] at valid
  have million : Nat.pow 10 6 = 1000000 := rfl
  rw [yearCharacters]
  split
  · have short := @length_paddedDigits_le year.toNat 4 6 (by decide) (by decide) (by omega)
    omega
  · have short := @length_paddedDigits_le year.natAbs 4 6 (by decide) (by decide) (by omega)
    rw [List.length_cons]
    omega

theorem length_fractionText_le {nanoseconds : Nat} (fits : nanoseconds < Nat.pow 10 9) :
    (fractionText nanoseconds).toList.length ≤ 10 := by
  have dotted {width number : Nat} (narrow : width ≤ 9) (small : number < Nat.pow 10 9) :
      ("." ++ padded width number).toList.length ≤ 10 := by
    have short := length_paddedDigits_le narrow (by decide) small
    rw [String.toList_append, List.length_append, toList_padded]
    exact Nat.add_le_add_left short 1
  rw [fractionText]
  split
  · exact Nat.zero_le _
  split
  · exact dotted (by decide) (Nat.lt_of_le_of_lt (Nat.div_le_self _ _) fits)
  split
  · exact dotted (by decide) (Nat.lt_of_le_of_lt (Nat.div_le_self _ _) fits)
  · exact dotted (by decide) fits

/-- The text of an instant is short. -/
theorem length_toText_le (valid : instant.Valid) : instant.toText.toList.length ≤ 64 := by
  obtain ⟨-, -, months, -, days⟩ := @dateOfDay_spec (instant.seconds / 86400)
  have shortMonth := @daysInMonth_le (dateOfDay (instant.seconds / 86400)).year
    (dateOfDay (instant.seconds / 86400)).month
  have year := length_yearCharacters_le valid.year
  have fraction := length_fractionText_le
    (Nat.mod_lt instant.nanoseconds (by decide : 0 < Nat.pow 10 9))
  rw [toList_toText, dateCharacters, timeCharacters]
  generalize dateOfDay (instant.seconds / 86400) = date at months days shortMonth year ⊢
  have within : (instant.seconds % 86400).toNat < 86400 := by omega
  generalize (instant.seconds % 86400).toNat = time at within ⊢
  have pair {number : Nat} (small : number < 100) : (paddedDigits 2 number).length = 2 :=
    length_paddedDigits (by decide) small
  have month := pair (show date.month < 100 by omega)
  have day := pair (show date.day < 100 by omega)
  have hour := pair (show time / 3600 < 100 by omega)
  have minute := pair (show time / 60 % 60 < 100 by omega)
  have second : (paddedDigits 2
      (time % 60 + if Nat.pow 10 9 ≤ instant.nanoseconds then 1 else 0)).length = 2 :=
    pair (by split <;> omega)
  simp only [List.length_append, List.length_cons, List.length_nil, month, day, hour, minute,
    second]
  omega

end Coffer.Instant
