import Coffer.Predicate.Pattern
import Coffer.Value.Comparison

namespace Coffer

/-! # Truth in three values -/

/-- True, false, or unknown where there is no value. -/
abbrev Truth := Option Bool

namespace Truth

/-- False where either side is false, whatever the other one. -/
def and : Truth → Truth → Truth
  | some false, _ => some false
  | _, some false => some false
  | some true, some true => some true
  | _, _ => none

/-- True where either side is true, whatever the other one. -/
def or : Truth → Truth → Truth
  | some true, _ => some true
  | _, some true => some true
  | some false, some false => some false
  | _, _ => none

def not : Truth → Truth
  | some truth => some !truth
  | none => none

end Truth

/-! # Predicates

A predicate is a condition made ready for the tuples of one source: its columns are
positions in the tuple, and its constants are values.
-/

/-- A tuple: the values of a row, by position. -/
abbrev Tuple := List Value

/-- A position in a tuple, or a value that is the same for all of them. -/
inductive Operand where
  | column (position : Nat)
  | constant (value : Value)
  deriving DecidableEq, Repr

namespace Operand

/-- The value of an operand; a position past the end of the tuple holds a null. -/
def value (tuple : Tuple) : Operand → Value
  | .column position => tuple.getD position .null
  | .constant value => value

/-- Equality by value. -/
def same : Operand → Operand → Bool
  | .column position, .column position' => position == position'
  | .constant value, .constant value' => value.same value'
  | _, _ => false

end Operand

inductive Comparison where
  | equal | notEqual | greater | greaterOrEqual | less | lessOrEqual
  deriving DecidableEq, Repr

/-- Whether the comparison holds of values in a given order. -/
def Comparison.holds : Comparison → Ordering → Bool
  | .equal, order => order == .eq
  | .notEqual, order => order != .eq
  | .greater, order => order == .gt
  | .greaterOrEqual, order => order != .lt
  | .less, order => order == .lt
  | .lessOrEqual, order => order != .gt

inductive Predicate where
  | constant (truth : Truth)
  /-- A column taken as a condition. -/
  | truthy (operand : Operand)
  | compare (comparison : Comparison) (left right : Operand)
  | and (left right : Predicate)
  | or (left right : Predicate)
  | not (predicate : Predicate)
  | like (operand : Operand) (pattern : Pattern)
  | isIn (operand : Operand) (items : List Operand)
  | between (operand low high : Operand)
  | isNull (operand : Operand)
  deriving DecidableEq, Repr

namespace Value

/-- The truth of a value taken as a condition: numbers other than zero are true, and a
null is unknown. -/
def truth (value : Value) : Truth :=
  match value with
  | .null => none
  | value => some (value.number?.any fun x => !x.equals .zero)

/-- Whether a comparison holds between two values. -/
def compares (comparison : Comparison) (left right : Value) : Truth :=
  (left.compare? right).map comparison.holds

/-- Whether a value is equal to one of a list. If it is not, then it is unknown whether
it is, as soon as a comparison is. -/
def isAmong (value : Value) (items : List Value) : Truth :=
  if value.isNull then none
  else
    let orders := items.map value.compare?
    if orders.contains (some .eq) then some true
    else if orders.contains none then none
    else some false

end Value

namespace Predicate

def evaluate (tuple : Tuple) : Predicate → Truth
  | .constant truth => truth
  | .truthy operand => (operand.value tuple).truth
  | .compare comparison left right =>
    (left.value tuple).compares comparison (right.value tuple)
  | .and left right => Truth.and (left.evaluate tuple) (right.evaluate tuple)
  | .or left right => Truth.or (left.evaluate tuple) (right.evaluate tuple)
  | .not predicate => Truth.not (predicate.evaluate tuple)
  | .like operand pattern =>
    match operand.value tuple with
    | .null => none
    | value => some (pattern.covers value.written)
  | .isIn operand items => (operand.value tuple).isAmong (items.map (Operand.value tuple))
  | .between operand low high =>
    let value := operand.value tuple
    Truth.and (value.compares .greaterOrEqual (low.value tuple))
      (value.compares .lessOrEqual (high.value tuple))
  | .isNull operand => some (operand.value tuple).isNull

/-- Whether a tuple passes: unknown is not enough. -/
def test (predicate : Predicate) (tuple : Tuple) : Bool :=
  predicate.evaluate tuple == some true

end Predicate

end Coffer
