import Coffer.Number.Shortest

namespace Coffer

/-! # Reals as text

Reals are written in two layouts. SQL text is always positional and drops the
fraction of whole numbers; the snapshot and wire format keeps one fraction digit and
turns to an exponent outside of sixteen places before and five after the point.
-/

def digitsOf (number : Nat) : List Char :=
  Nat.toDigits 10 number

/-- How the digits of a real are laid out. -/
structure RealLayout where
  tie : Tie
  /-- The fewest digits written after the point. -/
  leastFraction : Nat
  /-- The places of the leading digit that are written without exponent, if limited. -/
  positional : Option (Int × Int)
  /-- The text of an undefined real. -/
  undefined : String
  infinite : String
  negativeInfinite : String

namespace RealLayout

def sql : RealLayout :=
  { tie := .up, leastFraction := 0, positional := none, undefined := "NaN"
    infinite := "inf", negativeInfinite := "-inf" }

/-- The layout of reals in documents, where only numbers can be written. -/
def document : RealLayout :=
  { tie := .toEven, leastFraction := 1, positional := some (-5, 15)
    undefined := "null", infinite := "null", negativeInfinite := "null" }

/-- Digits laid out around the point. -/
def positionalText (leastFraction : Nat) (number : Scaled) : List Char :=
  if 0 ≤ number.exponent then
    let whole := digitsOf (number.digits * Nat.pow 10 number.exponent.toNat)
    if leastFraction = 0 then whole else whole ++ '.' :: List.replicate leastFraction '0'
  else
    let places := (-number.exponent).toNat
    let fraction := digitsOf (number.digits % Nat.pow 10 places)
    digitsOf (number.digits / Nat.pow 10 places) ++
      '.' :: (List.replicate (places - fraction.length) '0' ++ fraction)

/-- Digits with one place before the point, and the exponent with its sign. -/
def exponentText (number : Scaled) : List Char :=
  let digits := digitsOf number.digits
  let place : Int := number.exponent + digits.length - 1
  let mantissa := match digits with
    | [] => []
    | [digit] => [digit]
    | digit :: rest => digit :: '.' :: rest
  mantissa ++ 'e' :: (if place < 0 then '-' else '+') :: digitsOf place.natAbs

def numberText (layout : RealLayout) (number : Scaled) : List Char :=
  let place : Int := number.exponent + (digitsOf number.digits).length - 1
  match layout.positional with
  | none => positionalText layout.leastFraction number
  | some (low, high) =>
    if number.digits = 0 || (low ≤ place && place ≤ high) then
      positionalText layout.leastFraction number
    else exponentText number

def text (layout : RealLayout) (x : Binary64) : String :=
  if x.isNan then layout.undefined
  else if x.isFinite then
    String.ofList ((if x.negative then ['-'] else []) ++ layout.numberText (x.shortest layout.tie))
  else if x.negative then layout.negativeInfinite
  else layout.infinite

end RealLayout

/-- The text of a whole number with its sign. -/
def integerText (number : Int) : String :=
  String.ofList (if number < 0 then '-' :: digitsOf number.natAbs else digitsOf number.natAbs)

end Coffer
