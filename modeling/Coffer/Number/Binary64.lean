namespace Coffer

/-! # Double precision reals

A real is its 64 bits: a sign and a magnitude of 63 bits. Read as natural numbers,
magnitudes are in the order of the numbers they stand for, so comparison needs no
arithmetic. Every finite magnitude is a whole number of quanta, the least positive
double `2 ^ -1074`; rounding and arithmetic are exact computations on quanta, followed
by one rounding to the nearest magnitude, ties to the even one.
-/

/-- The quotient rounded to the nearest whole number, ties to the even one. -/
def roundHalfEven (numerator denominator : Nat) : Nat :=
  let quotient := numerator / denominator
  let rest := 2 * (numerator % denominator)
  if rest < denominator then quotient
  else if denominator < rest then quotient + 1
  else quotient + quotient % 2

/-- An IEEE 754 double. -/
structure Binary64 where
  bits : UInt64
  deriving DecidableEq, Repr, Inhabited

namespace Binary64

/-- The number of magnitudes that share one exponent. -/
def binade : Nat := Nat.pow 2 52

/-- The magnitude of infinity; every larger one is no number. -/
def infiniteMagnitude : Nat := 2047 * binade

def quantaPerUnit : Nat := Nat.pow 2 1074

/-- The real with the given sign and magnitude. -/
def ofMagnitude (negative : Bool) (magnitude : Nat) : Binary64 :=
  ⟨UInt64.ofNat (if negative then Nat.pow 2 63 + magnitude else magnitude)⟩

/-- Whether the sign bit is set. -/
def negative (x : Binary64) : Bool :=
  decide (Nat.pow 2 63 ≤ x.bits.toNat)

/-- The bits below the sign. -/
def magnitude (x : Binary64) : Nat :=
  x.bits.toNat % Nat.pow 2 63

/-- Whether the real is a number: neither infinite nor undefined. -/
def isFinite (x : Binary64) : Bool :=
  decide (x.magnitude < infiniteMagnitude)

/-- Whether the real is undefined. -/
def isNan (x : Binary64) : Bool :=
  decide (infiniteMagnitude < x.magnitude)

def quantaOfMagnitude (magnitude : Nat) : Nat :=
  if magnitude < binade then magnitude
  else (binade + magnitude % binade) * Nat.pow 2 (magnitude / binade - 1)

/-- The size of a finite real, in quanta. -/
def quanta (x : Binary64) : Nat :=
  quantaOfMagnitude x.magnitude

/-- A finite real, in quanta. -/
def signedQuanta (x : Binary64) : Int :=
  if x.negative then -(x.quanta : Int) else x.quanta

/-- The magnitude nearest to a quotient of quanta; infinite past the last binade. -/
def nearestMagnitude (numerator denominator : Nat) : Nat :=
  let shift := Nat.log2 (numerator / denominator) - 52
  min (shift * binade + roundHalfEven numerator (denominator * Nat.pow 2 shift)) infiniteMagnitude

/-- The real nearest to a quotient of quanta, with the given sign. -/
def nearest (negative : Bool) (numerator denominator : Nat) : Binary64 :=
  ofMagnitude negative (nearestMagnitude numerator denominator)

def zero : Binary64 := ⟨0⟩

def infinity (negative : Bool) : Binary64 :=
  ofMagnitude negative infiniteMagnitude

def nan (negative : Bool) : Binary64 :=
  ofMagnitude negative (infiniteMagnitude + Nat.pow 2 51)

/-- The real nearest to a whole number. -/
def ofInt (number : Int) : Binary64 :=
  nearest (decide (number < 0)) (number.natAbs * quantaPerUnit) 1

def isWhole (x : Binary64) : Bool :=
  x.isFinite && x.quanta % quantaPerUnit == 0

/-- A finite real without its fraction. -/
def truncated (x : Binary64) : Int :=
  let size : Int := (x.quanta / quantaPerUnit : Nat)
  if x.negative then -size else size

/-- The place of a real in the order of reals; both zeros have the same one. -/
def rank (x : Binary64) : Int :=
  if x.negative then -(x.magnitude : Int) else x.magnitude

/-- The order of two reals, which an undefined one is not part of. -/
def compare? (x y : Binary64) : Option Ordering :=
  if x.isNan || y.isNan then none else some (compare x.rank y.rank)

/-- Numeric equality: the zeros are equal, and an undefined real equals nothing. -/
def equals (x y : Binary64) : Bool :=
  x.compare? y == some .eq

/-- The real with the opposite sign. -/
def neg (x : Binary64) : Binary64 :=
  ofMagnitude (!x.negative) x.magnitude

/-- The sum, rounded once. A sum of zero is negative only when both terms are. -/
def add (x y : Binary64) : Binary64 :=
  if x.isNan then x
  else if y.isNan then y
  else if !x.isFinite then
    if !y.isFinite && x.negative != y.negative then nan true else x
  else if !y.isFinite then y
  else
    let sum := x.signedQuanta + y.signedQuanta
    if sum = 0 then ofMagnitude (x.negative && y.negative) 0
    else nearest (decide (sum < 0)) sum.natAbs 1

/-- The product, rounded once. -/
def mul (x y : Binary64) : Binary64 :=
  let negative := x.negative != y.negative
  if x.isNan then x
  else if y.isNan then y
  else if !x.isFinite || !y.isFinite then
    if (x.isFinite && x.quanta == 0) || (y.isFinite && y.quanta == 0) then nan true
    else infinity negative
  else nearest negative (x.quanta * y.quanta) quantaPerUnit

/-- The quotient, rounded once. -/
def div (x y : Binary64) : Binary64 :=
  let negative := x.negative != y.negative
  if x.isNan then x
  else if y.isNan then y
  else if !x.isFinite then
    if !y.isFinite then nan true else infinity negative
  else if !y.isFinite then ofMagnitude negative 0
  else if y.quanta = 0 then
    if x.quanta = 0 then nan true else infinity negative
  else nearest negative (x.quanta * quantaPerUnit) y.quanta

end Binary64

end Coffer
