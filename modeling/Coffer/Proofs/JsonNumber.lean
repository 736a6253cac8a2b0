import Coffer.Json.Content
import Coffer.Proofs.Encoding

namespace Coffer.Json

/-! # Numbers in documents

Numbers are spelled in digits, perhaps with a fraction and an exponent. A reader takes all of
them off, since what follows a number in a document is none of their bytes.
-/

variable {bytes rest digits whole fraction exponent : Bytes} {characters : List Char}
variable {start number : Nat}

/-- What follows a number in a document: a mark, or nothing. -/
def Ends (rest : Bytes) : Prop :=
  ∀ byte ∈ rest.head?, byte = 44 ∨ byte = 93 ∨ byte = 125

/-- Digits, of which there is at least one. -/
structure Digits (bytes : Bytes) : Prop where
  nonempty : bytes ≠ []
  all : ∀ byte ∈ bytes, isDigit byte = true

theorem Ends.stops (ends : Ends rest) : Stops isDigit rest := by
  intro byte head
  rcases ends byte head with rfl | rfl | rfl <;> rfl

theorem readDigits_append (valid : Digits digits) (stops : Stops isDigit rest) :
    readDigits (digits ++ rest) = some (digits, rest) := by
  have some : digits.isEmpty = false := by simpa using valid.nonempty
  simp only [readDigits, takeWhile_run valid.all stops, dropWhile_run valid.all stops, some,
    Bool.false_eq_true, if_false]

/-- Digits that start with a zero only if they are one zero. -/
structure Whole (bytes : Bytes) : Prop extends Digits bytes where
  unpadded : bytes.head? = some 48 → bytes = [48]

theorem readWhole_append (valid : Whole whole) (stops : Stops isDigit rest) :
    readWhole (whole ++ rest) = some (whole, rest) := by
  rw [readWhole, readDigits_append valid.toDigits stops]
  split
  · rename_i second more _ found
    obtain ⟨padded, -⟩ := Prod.mk.inj (Option.some.inj found)
    have zero := valid.unpadded (by rw [padded]; rfl)
    rw [padded] at zero
    cases zero
  · rfl

/-- The fraction of a number, which may be missing. -/
inductive Fraction : Bytes → Prop where
  | none : Fraction []
  | some {digits : Bytes} (valid : Digits digits) : Fraction (46 :: digits)

/-- The exponent of a number, which may be missing. -/
inductive Power : Bytes → Prop where
  | none : Power []
  | some {sign : UInt8} {digits : Bytes} (signed : sign = 43 ∨ sign = 45)
      (valid : Digits digits) : Power (101 :: sign :: digits)

theorem Power.stops (power : Power exponent) (ends : Ends rest) : Stops isDigit (exponent ++ rest) := by
  cases power with
  | none => exact ends.stops
  | some signed valid =>
      intro byte head
      cases head
      rfl

theorem Fraction.stops (valid : Fraction fraction) (stops : Stops isDigit rest) :
    Stops isDigit (fraction ++ rest) := by
  cases valid with
  | none => exact stops
  | some valid =>
      intro byte head
      cases head
      rfl

theorem readFraction_append (valid : Fraction fraction) (power : Power exponent)
    (ends : Ends rest) :
    readFraction (fraction ++ (exponent ++ rest)) = some (fraction, exponent ++ rest) := by
  cases valid with
  | none =>
      have pointless : ∀ more, exponent ++ rest ≠ 46 :: more := by
        intro more same
        cases power with
        | none =>
            have head : rest.head? = some 46 := congrArg List.head? same
            exact absurd (ends 46 head) (by decide)
        | some signed digits => cases same
      rw [List.nil_append, readFraction]
      exact pointless
  | some valid =>
      rw [List.cons_append, readFraction, readDigits_append valid (power.stops ends)]
      rfl

theorem readSign_digits {sign : UInt8} (signed : sign = 43 ∨ sign = 45) :
    readSign (sign :: bytes) = ([sign], bytes) := by
  rcases signed with rfl | rfl <;> rfl

theorem readExponent_append (power : Power exponent) (ends : Ends rest) :
    readExponent (exponent ++ rest) = some (exponent, rest) := by
  cases power with
  | none =>
      cases rest with
      | nil => rfl
      | cons byte more =>
          have unmarked : (byte == 101 || byte == 69) = false := by
            rcases ends byte rfl with rfl | rfl | rfl <;> rfl
          rw [List.nil_append, readExponent, unmarked]
          rfl
  | some signed valid =>
      rw [List.cons_append, List.cons_append, readExponent]
      simp only [readSign_digits signed, readDigits_append valid ends.stops]
      rfl

/-- A number without its sign. -/
inductive Unsigned : Bytes → Prop where
  | parts {whole fraction exponent : Bytes} (valid : Whole whole) (fractional : Fraction fraction)
      (power : Power exponent) : Unsigned (whole ++ (fraction ++ exponent))

theorem readUnsigned_append (valid : Unsigned bytes) (ends : Ends rest) :
    readUnsigned (bytes ++ rest) = some (bytes, rest) := by
  cases valid with
  | @parts whole fraction exponent valid fractional power =>
      rw [List.append_assoc, List.append_assoc, readUnsigned,
        readWhole_append valid (fractional.stops (power.stops ends))]
      simp only [Option.bind_eq_bind, Option.bind_some, readFraction_append fractional power ends,
        readExponent_append power ends]

/-- A number as documents spell it. -/
inductive Numeric : Bytes → Prop where
  | positive {bytes : Bytes} (valid : Unsigned bytes) : Numeric bytes
  | negative {bytes : Bytes} (valid : Unsigned bytes) : Numeric (45 :: bytes)

theorem Unsigned.head_digit (valid : Unsigned bytes) :
    ∃ byte more, bytes = byte :: more ∧ isDigit byte = true := by
  cases valid with
  | parts valid fractional power =>
      obtain ⟨byte, more, rfl⟩ := List.exists_cons_of_ne_nil valid.nonempty
      exact ⟨byte, _, List.cons_append, valid.all byte List.mem_cons_self⟩

theorem readNumber_append (valid : Numeric bytes) (ends : Ends rest) :
    readNumber (bytes ++ rest) = some (bytes, rest) := by
  cases valid with
  | positive valid =>
      obtain ⟨byte, more, rfl, digit⟩ := valid.head_digit
      have unsigned : ∀ other, (byte :: more) ++ rest ≠ 45 :: other := by
        intro other same
        obtain ⟨rfl, -⟩ := List.cons.inj same
        cases digit
      rw [readNumber, readUnsigned_append valid ends]
      exact unsigned
  | negative valid =>
      rw [List.cons_append, readNumber, readUnsigned_append valid ends]
      rfl

/-- The bytes of characters in UTF-8. -/
def bytesOf (characters : List Char) : Bytes :=
  characters.flatMap String.utf8EncodeChar

theorem bytesOf_append {others : List Char} :
    bytesOf (characters ++ others) = bytesOf characters ++ bytesOf others :=
  List.flatMap_append

theorem toNat_of_digit {character : Char} (digit : character.isDigit = true) :
    48 ≤ character.toNat ∧ character.toNat ≤ 57 := by
  simpa [Char.isDigit, UInt32.le_iff_toNat_le] using digit

theorem digit_of_isDigit {character : Char} (digit : character.isDigit = true) :
    isDigit (UInt8.ofNat character.toNat) = true ∧
      (UInt8.ofNat character.toNat).toNat = character.toNat := by
  obtain ⟨low, high⟩ := toNat_of_digit digit
  have value : (UInt8.ofNat character.toNat).toNat = character.toNat := by
    rw [UInt8.toNat_ofNat']
    omega
  refine ⟨?_, value⟩
  simp only [isDigit, Bool.and_eq_true, decide_eq_true_eq, UInt8.le_iff_toNat_le, value]
  exact ⟨low, high⟩

theorem bytesOf_digits (all : ∀ character ∈ characters, character.isDigit = true) :
    bytesOf characters = characters.map fun character => UInt8.ofNat character.toNat := by
  rw [bytesOf, ← Bytes.ofText_ofList, Bytes.ofText_ascii]
  intro character member
  obtain ⟨-, high⟩ := toNat_of_digit (all character member)
  omega

theorem isDigit_digitsOf : ∀ character ∈ digitsOf number, character.isDigit = true :=
  fun _ member => Nat.isDigit_of_mem_toDigits (by decide) (by decide) member

theorem digits_of_isDigit (nonempty : characters ≠ [])
    (all : ∀ character ∈ characters, character.isDigit = true) : Digits (bytesOf characters) := by
  rw [bytesOf_digits all]
  refine ⟨by simpa using nonempty, fun byte member => ?_⟩
  obtain ⟨character, among, rfl⟩ := List.mem_map.mp member
  exact (digit_of_isDigit (all character among)).1

theorem digits_digitsOf : Digits (bytesOf (digitsOf number)) :=
  digits_of_isDigit Nat.toDigits_ne_nil isDigit_digitsOf

/-- Only the digits of zero start with a zero. -/
theorem eq_zero_of_head (head : (digitsOf number).head? = some '0') : number = 0 := by
  induction number using Nat.strongRecOn with
  | ind number ih =>
      rw [digitsOf, Nat.toDigits_eq_if (by decide)] at head
      split at head
      · rename_i small
        have code := congrArg Char.toNat (Option.some.inj head)
        rw [Nat.toNat_digitChar_of_lt_ten small] at code
        exact Nat.add_left_cancel code
      · rename_i large
        have nonempty : digitsOf (number / 10) ≠ [] := Nat.toDigits_ne_nil
        have leading : (digitsOf (number / 10)).head? = some '0' := by
          change (digitsOf (number / 10) ++ _).head? = _ at head
          obtain ⟨first, more, form⟩ := List.exists_cons_of_ne_nil nonempty
          rw [form] at head ⊢
          exact head
        have zero := ih (number / 10) (by omega) leading
        omega

theorem whole_digitsOf : Whole (bytesOf (digitsOf number)) := by
  refine ⟨digits_digitsOf, fun head => ?_⟩
  have zero : number = 0 := by
    refine eq_zero_of_head ?_
    rw [bytesOf_digits isDigit_digitsOf, List.head?_map] at head
    obtain ⟨character, first, code⟩ := Option.map_eq_some_iff.mp head
    obtain ⟨-, value⟩ := digit_of_isDigit (isDigit_digitsOf _ (List.mem_of_head? first))
    rw [code] at value
    rw [first, Char.toNat_inj.mp (value.symm.trans (by rfl) : character.toNat = '0'.toNat)]
  subst zero
  rfl

theorem ofText_integerText (number : Int) :
    Bytes.ofText (integerText number) =
      if number < 0 then 45 :: bytesOf (digitsOf number.natAbs)
      else bytesOf (digitsOf number.natAbs) := by
  rw [integerText, Bytes.ofText_ofList]
  split <;> rfl

theorem unsigned_whole (valid : Whole bytes) : Unsigned bytes := by
  simpa using Unsigned.parts valid .none .none

theorem numeric_integerText (number : Int) : Numeric (Bytes.ofText (integerText number)) := by
  rw [ofText_integerText]
  split
  · exact .negative (unsigned_whole whole_digitsOf)
  · exact .positive (unsigned_whole whole_digitsOf)

theorem fraction_of_isDigit (nonempty : characters ≠ [])
    (all : ∀ character ∈ characters, character.isDigit = true) :
    Fraction (46 :: bytesOf characters) :=
  .some (digits_of_isDigit nonempty all)

/-- Digits, a point, and more digits. -/
theorem unsigned_fraction (nonempty : characters ≠ [])
    (all : ∀ character ∈ characters, character.isDigit = true) :
    Unsigned (bytesOf (digitsOf number ++ '.' :: characters)) := by
  have parts : Unsigned (bytesOf (digitsOf number) ++ ((46 :: bytesOf characters) ++ [])) :=
    .parts whole_digitsOf (fraction_of_isDigit nonempty all) .none
  rw [List.append_nil] at parts
  rw [bytesOf, List.flatMap_append]
  exact parts

theorem isDigit_zeros {count : Nat} :
    ∀ character ∈ List.replicate count '0', character.isDigit = true := by
  intro character member
  rw [List.eq_of_mem_replicate member]
  rfl

theorem unsigned_positionalText {scaled : Scaled} {places : Nat} (positive : places ≠ 0) :
    Unsigned (bytesOf (RealLayout.positionalText places scaled)) := by
  rw [RealLayout.positionalText]
  split
  · exact unsigned_fraction (by simpa using positive) isDigit_zeros
  · refine unsigned_fraction ?_ (List.forall_mem_append.mpr ⟨isDigit_zeros, isDigit_digitsOf⟩)
    simp [digitsOf, Nat.toDigits_ne_nil]

theorem power_digitsOf {place : Int} :
    Power (bytesOf ('e' :: (if place < 0 then '-' else '+') :: digitsOf place.natAbs)) := by
  split
  · exact .some (.inr rfl) digits_digitsOf
  · exact .some (.inl rfl) digits_digitsOf

theorem whole_of_digit {character : Char} (digit : character.isDigit = true) :
    Whole (bytesOf [character]) := by
  refine ⟨digits_of_isDigit (by simp) (by simpa using digit), fun head => ?_⟩
  rw [bytesOf_digits (by simpa using digit), List.map_singleton] at head ⊢
  rw [Option.some.inj head]

theorem unsigned_exponentText {scaled : Scaled} :
    Unsigned (bytesOf (RealLayout.exponentText scaled)) := by
  have all : ∀ character ∈ digitsOf scaled.digits, character.isDigit = true := isDigit_digitsOf
  have nonempty : digitsOf scaled.digits ≠ [] := Nat.toDigits_ne_nil
  rw [RealLayout.exponentText]
  generalize digitsOf scaled.digits = digits at all nonempty ⊢
  match digits with
  | [] => exact absurd rfl nonempty
  | [digit] =>
      have parts := Unsigned.parts (whole_of_digit (all digit List.mem_cons_self)) .none
        (@power_digitsOf (scaled.exponent + [digit].length - 1))
      rw [bytesOf_append]
      exact parts
  | digit :: second :: more =>
      obtain ⟨first, others⟩ := List.forall_mem_cons.mp all
      have parts := Unsigned.parts (whole_of_digit first)
        (fraction_of_isDigit (List.cons_ne_nil _ _) others)
        (@power_digitsOf (scaled.exponent + (digit :: second :: more).length - 1))
      have mantissa : bytesOf (digit :: '.' :: second :: more) =
          bytesOf [digit] ++ 46 :: bytesOf (second :: more) := by
        rw [← List.singleton_append, bytesOf_append]
        rfl
      rw [← List.append_assoc, ← mantissa, ← bytesOf_append] at parts
      exact parts

theorem unsigned_numberText {scaled : Scaled} :
    Unsigned (bytesOf (RealLayout.document.numberText scaled)) := by
  simp only [RealLayout.numberText, RealLayout.document]
  split
  · exact unsigned_positionalText (by decide)
  · exact unsigned_exponentText

/-- A finite real is spelled as a number. -/
theorem numeric_document {x : Binary64} (finite : x.isFinite = true) :
    Numeric (Bytes.ofText (RealLayout.document.text x)) := by
  have number : x.isNan = false := by
    simp only [Binary64.isFinite, Binary64.isNan, decide_eq_true_eq, decide_eq_false_iff_not] at *
    omega
  rw [RealLayout.text, number, if_neg (by simp), finite, if_pos rfl, Bytes.ofText_ofList]
  cases x.negative with
  | true => exact .negative unsigned_numberText
  | false => exact .positive unsigned_numberText

/-- The number that digits stand for, read onto a number before them. -/
def valueFrom (start : Nat) (digits : Bytes) : Nat :=
  digits.foldl (fun value digit => 10 * value + (digit.toNat - 48)) start

theorem le_valueFrom : start ≤ valueFrom start digits := by
  induction digits generalizing start with
  | nil => exact Nat.le_refl _
  | cons digit others ih =>
      have grown : 10 * start + (digit.toNat - 48) ≤ valueFrom start (digit :: others) := ih
      omega

/-- Digits are taken in one after another while the number they make fits. -/
theorem takeDigits_eq (fits : valueFrom start digits < Nat.pow 2 64) :
    takeDigits start digits = ⟨valueFrom start digits, digits.length, 0⟩ := by
  induction digits generalizing start with
  | nil => rfl
  | cons digit others ih =>
      have next : 10 * start + (digit.toNat - 48) < Nat.pow 2 64 :=
        Nat.lt_of_le_of_lt le_valueFrom fits
      rw [takeDigits, if_pos next, ih fits]
      rfl

theorem valueFrom_bytesOf (all : ∀ character ∈ characters, character.isDigit = true) :
    valueFrom start (bytesOf characters) = Nat.ofDigitChars 10 characters start := by
  rw [bytesOf_digits all]
  induction characters generalizing start with
  | nil => rfl
  | cons character others ih =>
      obtain ⟨digit, digits⟩ := List.forall_mem_cons.mp all
      have value : (UInt8.ofNat character.toNat).toNat = character.toNat :=
        (digit_of_isDigit digit).2
      rw [Nat.ofDigitChars_cons, ← ih digits, List.map_cons, valueFrom, List.foldl_cons, value]
      rfl

theorem valueFrom_digitsOf : valueFrom 0 (bytesOf (digitsOf number)) = number := by
  rw [valueFrom_bytesOf isDigit_digitsOf]
  exact Nat.ofDigitChars_ten_toDigits

theorem unsignedOf?_digitsOf (fits : number < Nat.pow 2 64) (negative : Bool) :
    unsignedOf? negative (bytesOf (digitsOf number)) =
      if !negative then some (.natural number)
      else if number = 0 || Nat.pow 2 63 < number then
        some (.real (Binary64.neg (.ofInt number)))
      else some (.negative (Int64.ofInt (-(number : Int)))) := by
  have digits : ∀ byte ∈ bytesOf (digitsOf number), isDigit byte = true := digits_digitsOf.all
  have stops : Stops isDigit [] := nofun
  have taken : (bytesOf (digitsOf number)).takeWhile isDigit = bytesOf (digitsOf number) := by
    simpa using takeWhile_run digits stops
  have dropped : (bytesOf (digitsOf number)).dropWhile isDigit = [] := by
    simpa using dropWhile_run digits stops
  have value : valueFrom 0 (bytesOf (digitsOf number)) = number := valueFrom_digitsOf
  rw [← value] at fits
  rw [unsignedOf?, taken, dropped, takeDigits_eq fits, value]
  simp [readFraction]

/-- A whole number without sign is told by its digits. -/
theorem numberOf?_natural (fits : number < Nat.pow 2 64) :
    numberOf? (Bytes.ofText (integerText number)) = some (.natural number) := by
  rw [ofText_integerText, if_neg (by omega), Int.natAbs_natCast]
  have unsigned : ∀ others, bytesOf (digitsOf number) ≠ 45 :: others := by
    intro others same
    have digit := digits_digitsOf.all 45 (same ▸ List.mem_cons_self)
    cases digit
  rw [numberOf?]
  · rw [unsignedOf?_digitsOf fits]
    rfl
  · exact unsigned

theorem numberOf?_negative (positive : 0 < number) (fits : number ≤ Nat.pow 2 63) :
    numberOf? (Bytes.ofText (integerText (-(number : Int)))) =
      some (.negative (Int64.ofInt (-(number : Int)))) := by
  have room : number < Nat.pow 2 64 := Nat.lt_of_le_of_lt fits (by decide)
  have negative : -(number : Int) < 0 := by omega
  have inside : (decide (number = 0) || decide (Nat.pow 2 63 < number)) = false := by
    simp only [Bool.or_eq_false_iff, decide_eq_false_iff_not]
    omega
  rw [ofText_integerText, if_pos negative, Int.natAbs_neg, Int.natAbs_natCast, numberOf?,
    unsignedOf?_digitsOf room, inside]
  rfl

/-- A whole number of 64 bits is told by its digits and sign. -/
theorem numberOf?_integer (number : Int64) :
    numberOf? (Bytes.ofText (integerText number.toInt)) =
      some (if 0 ≤ number.toInt then .natural number.toInt.toNat else .negative number) := by
  have low : -Nat.pow 2 63 ≤ number.toInt := number.le_toInt
  have high : number.toInt < Nat.pow 2 63 := number.toInt_lt
  split
  · rename_i nonnegative
    obtain ⟨size, form⟩ := Int.eq_ofNat_of_zero_le nonnegative
    have fits : size < Nat.pow 2 64 := by
      rw [form] at high
      exact Nat.lt_trans (Int.ofNat_lt.mp high) (by decide)
    rw [form, Int.toNat_natCast, numberOf?_natural fits]
  · rename_i negative
    obtain ⟨size, form⟩ := Int.eq_ofNat_of_zero_le (show 0 ≤ -number.toInt by omega)
    have value : number.toInt = -(size : Int) := by omega
    rw [value, numberOf?_negative (by omega) (by omega), ← value, Int64.ofInt_toInt]

theorem int64?_ofInt (number : Int64) : int64? (ofInt number.toInt) = some number := by
  have high : number.toInt < Nat.pow 2 63 := number.toInt_lt
  rw [ofInt, int64?, numberOf?_integer]
  by_cases nonnegative : 0 ≤ number.toInt
  · have fits : number.toInt.toNat < Nat.pow 2 63 := by omega
    simp only [nonnegative, if_true, if_pos fits, Int.toNat_of_nonneg nonnegative,
      Int64.ofInt_toInt]
  · simp only [nonnegative, if_false]

theorem natural?_ofInt {bound : Nat} (fits : number < Nat.pow 2 64) (below : number < bound) :
    natural? bound (ofInt number) = some number := by
  rw [ofInt, natural?, numberOf?_natural fits]
  exact if_pos below

end Coffer.Json
