import Coffer.Number.Numeral

namespace Coffer

/-! # Shortest decimal digits

The digits of a finite real: the fewest that read back as the same real and, of
those, the nearest to it. Candidates are tried in order of length and accepted only
when they read back; the exact expansion, which always does, ends the search.
-/

/-- Which of two equally near digit strings is taken. -/
inductive Tie
  | up
  | toEven
  deriving DecidableEq, Repr

/-- A nonnegative number as digits scaled by a power of ten. -/
structure Scaled where
  digits : Nat
  exponent : Int
  deriving DecidableEq, Repr

namespace Scaled

/-- The same number without trailing zeros among its digits. -/
def stripped (number : Scaled) : Scaled :=
  if number.digits = 0 then number else go (Nat.log2 number.digits) number
where
  go : Nat → Scaled → Scaled
    | 0, number => number
    | steps + 1, number =>
      if number.digits % 10 = 0 then go steps ⟨number.digits / 10, number.exponent + 1⟩
      else number

/-- The magnitude of the real nearest to the number. -/
def magnitude (number : Scaled) : Nat :=
  Binary64.nearestMagnitude
    (number.digits * Nat.pow 10 number.exponent.toNat * Binary64.quantaPerUnit)
    (Nat.pow 10 (-number.exponent).toNat)

end Scaled

namespace Binary64

/-- A power of ten near the leading digit of a positive number of quanta, not above
its true place by more than one and not below it by more than two. -/
def leadingPlace (quanta : Nat) : Int :=
  ((Nat.log2 quanta : Int) - 1074) * 30103 / 100000

/-- Whether a number of quanta is at least a power of ten. -/
def atLeastPower (quanta : Nat) (place : Int) : Bool :=
  decide (Nat.pow 10 place.toNat * quantaPerUnit ≤ quanta * Nat.pow 10 (-place).toNat)

/-- The place of the leading digit of a positive number of quanta. -/
def topPlace (quanta : Nat) : Int :=
  let guess := leadingPlace quanta
  if atLeastPower quanta (guess + 1) then guess + 1
  else if atLeastPower quanta guess then guess
  else guess - 1

/-- The better of the two neighbours of a real on the grid of the given place, if one
of them reads back. -/
def onGrid? (tie : Tie) (magnitude quanta : Nat) (place : Int) : Option Scaled :=
  let numerator := quanta * Nat.pow 10 (-place).toNat
  let denominator := quantaPerUnit * Nat.pow 10 place.toNat
  let below : Scaled := ⟨numerator / denominator, place⟩
  let above : Scaled := ⟨numerator / denominator + 1, place⟩
  let rest := 2 * (numerator % denominator)
  let aboveFirst :=
    if rest = denominator then tie = .up || below.digits % 2 = 1 else decide (denominator < rest)
  let order := if aboveFirst then [above, below] else [below, above]
  order.find? fun candidate => candidate.magnitude == magnitude

/-- The shortest digits of a finite real, without its sign. -/
def shortest (tie : Tie) (x : Binary64) : Scaled :=
  if x.quanta = 0 then ⟨0, 0⟩
  else
    let top := topPlace x.quanta
    let found := (List.range 17).findSome? fun (length : Nat) =>
      onGrid? tie x.magnitude x.quanta (top - length)
    (found.getD ⟨x.quanta * Nat.pow 5 1074, -1074⟩).stripped

end Binary64

end Coffer
