import Coffer.Value.Basic

namespace Coffer.Value

/-! # Column affinity

A value put into a column takes the form that the type of the column prefers, where it
has such a form, and stays as it is otherwise.
-/

/-- The integer a real is equal to, between the bounds of 64 bits. -/
def integerOfReal? (x : Binary64) : Option Int64 :=
  if x.isWhole && decide (x.truncated.natAbs < Nat.pow 2 63) then some (Int64.ofInt x.truncated)
  else none

def realOrText (content : String) : Value :=
  match realOfText? content with
  | some x => .real x
  | none => .text content

/-- The form of a value in a column of a type. -/
def coerce (type : ColumnType) (value : Value) : Value :=
  match type, value with
  | .integer, .real x =>
    match integerOfReal? x with
    | some number => .integer number
    | none => .real x
  | .integer, .text content =>
    match integerOfText? content with
    | some number => .integer number
    | none => realOrText content
  | .real, .integer number => .real (.ofInt number.toInt)
  | .real, .text content => realOrText content
  | .text, .integer number => .text (written (.integer number))
  | .text, .real x => .text (written (.real x))
  | _, value => value

end Coffer.Value
