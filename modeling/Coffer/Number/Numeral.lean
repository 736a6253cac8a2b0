import Coffer.Number.Binary64
import Coffer.Text.Ranges

namespace Coffer

/-! # Decimal numerals

Reading numbers from text: signed whole numbers within bounds, and signed decimal
numerals with an optional fraction and exponent, rounded once to a real.
-/

namespace Numeral

/-- The number a run of digits stands for. -/
def digitsValue (digits : List Char) : Nat :=
  digits.foldl (fun value digit => 10 * value + (digit.toNat - 48)) 0

/-- A decimal numeral: sign, digits and the power of ten they are scaled by. -/
structure Decimal where
  negative : Bool
  digits : Nat
  exponent : Int
  deriving DecidableEq, Repr

/-- A sign at the head of a text, if there is one, and the rest. -/
def splitSign : List Char → Bool × List Char
  | '-' :: rest => (true, rest)
  | '+' :: rest => (false, rest)
  | text => (false, text)

/-- The exponent part at the end of a numeral; an absent one stands for zero. -/
def exponent? : List Char → Option Int
  | [] => some 0
  | mark :: rest =>
    let signed := splitSign rest
    if (mark == 'e' || mark == 'E') && !signed.2.isEmpty && signed.2.all Text.isDigit then
      let size : Int := digitsValue signed.2
      some (if signed.1 then -size else size)
    else none

/-- The fraction digits after a point, if there is one, and the rest. -/
def splitFraction : List Char → List Char × List Char
  | '.' :: rest => (rest.takeWhile Text.isDigit, rest.dropWhile Text.isDigit)
  | text => ([], text)

/-- Reads digits with an optional fraction and exponent. At least one digit has to
stand before the exponent, on either side of the point. -/
def unsigned? (negative : Bool) (text : List Char) : Option Decimal :=
  let whole := text.takeWhile Text.isDigit
  let parts := splitFraction (text.dropWhile Text.isDigit)
  if whole.isEmpty && parts.1.isEmpty then none
  else
    (exponent? parts.2).map fun exponent =>
      { negative
        digits := digitsValue (whole ++ parts.1)
        exponent := exponent - parts.1.length }

/-- Reads a signed decimal numeral. -/
def decimal? (text : List Char) : Option Decimal :=
  let signed := splitSign text
  unsigned? signed.1 signed.2

/-- The real nearest to a decimal numeral. Beyond four hundred places on either side
of the point the answer is infinite or zero whatever the digits are. -/
def Decimal.toBinary64 (numeral : Decimal) : Binary64 :=
  if numeral.digits = 0 then .ofMagnitude numeral.negative 0
  else
    let bits := Nat.log2 numeral.digits
    if 400 < (bits * 3 / 10 : Nat) + numeral.exponent then .infinity numeral.negative
    else if ((bits + 1) * 31 / 100 : Nat) + numeral.exponent < -400 then
      .ofMagnitude numeral.negative 0
    else
      .nearest numeral.negative
        (numeral.digits * Nat.pow 10 numeral.exponent.toNat * Binary64.quantaPerUnit)
        (Nat.pow 10 (-numeral.exponent).toNat)

/-- Whether a text spells a word of ASCII letters, in any case. -/
def spells (text word : List Char) : Bool :=
  text.map Char.toLower == word

/-- Reads a real: a decimal numeral, or a word for infinity or for an undefined real,
after an optional sign. -/
def real? (text : List Char) : Option Binary64 :=
  let signed := splitSign text
  if spells signed.2 "inf".toList || spells signed.2 "infinity".toList then
    some (.infinity signed.1)
  else if spells signed.2 "nan".toList then some (.nan signed.1)
  else (unsigned? signed.1 signed.2).map Decimal.toBinary64

/-- Why a text is no whole number within given bounds. -/
inductive IntegerFault
  | empty
  | invalidDigit
  | tooLarge
  | tooSmall
  deriving DecidableEq, Repr

/-- Reads digits onto a number already read, up to a limit. The first character that is
no digit or leads beyond the limit decides the fault. -/
def boundedDigits (limit : Nat) (beyond : IntegerFault) (number : Nat) :
    List Char → Except IntegerFault Nat
  | [] => .ok number
  | digit :: rest =>
    if !Text.isDigit digit then .error .invalidDigit
    else
      let next := 10 * number + (digit.toNat - 48)
      if limit < next then .error beyond else boundedDigits limit beyond next rest

/-- Reads a signed whole number between two bounds, one at most and one at least zero. -/
def integer (low high : Int) (text : List Char) : Except IntegerFault Int :=
  if text.isEmpty then .error .empty
  else
    let signed := splitSign text
    if signed.2.isEmpty then .error .invalidDigit
    else if !signed.1 then (boundedDigits high.toNat .tooLarge 0 signed.2).map Int.ofNat
    else if 0 ≤ low then .error .invalidDigit
    else
      (boundedDigits (-low).toNat .tooSmall 0 signed.2).map fun size => -Int.ofNat size

/-- Reads a whole number of 64 bits with a sign. -/
def int64 (text : List Char) : Except IntegerFault Int64 :=
  (integer (-(Nat.pow 2 63)) (Nat.pow 2 63 - 1) text).map Int64.ofInt

/-- Reads a whole number of 64 bits without a sign bit. -/
def natural64 (text : List Char) : Except IntegerFault Nat :=
  (integer 0 (Nat.pow 2 64 - 1) text).map Int.toNat

end Numeral

end Coffer
