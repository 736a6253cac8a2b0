import Coffer.Value.Basic

namespace Coffer

/-! # Comparing values

Values compare as numbers where both are numbers or spell one, and as text otherwise.
Unique columns tell values apart by their keys, and orderings place nulls first.
-/

namespace Value

/-- The order of two values; a null has no place in it. -/
def compare? : Value → Value → Option Ordering
  | .null, _ => none
  | _, .null => none
  | .integer first, .integer second => some (compare first.toInt second.toInt)
  | first, second =>
    match first.number?, second.number? with
    | some x, some y => x.compare? y
    | _, _ => some (compare first.written second.written)

/-- The order of sorted rows, where nulls come first. -/
def sortOrder : Value → Value → Ordering
  | .null, .null => .eq
  | .null, _ => .lt
  | _, .null => .gt
  | first, second => (first.compare? second).getD .eq

end Value

/-- What tells values apart in a unique column. -/
inductive Key where
  | integer (number : Int64)
  | real (number : Binary64)
  | text (content : String)
  deriving DecidableEq, Repr

namespace Key

/-- The key of a real: that of an integer, where it is one. -/
def ofReal (x : Binary64) : Key :=
  if x.isWhole && decide (-(Nat.pow 2 63) ≤ x.truncated) && decide (x.truncated < Nat.pow 2 63) then
    .integer (Int64.ofInt x.truncated)
  else .real x

/-- The key of a text: that of the number it spells, if it spells one. -/
def ofText (content : String) : Key :=
  match Value.integerOfText? content with
  | some number => .integer number
  | none =>
    match Value.realOfText? content with
    | some x => ofReal x
    | none => .text content

end Key

def Value.key? : Value → Option Key
  | .null => none
  | .integer number => some (.integer number)
  | .real number => some (.ofReal number)
  | .text content => some (.ofText content)

end Coffer
