import Coffer.Language.Rendering
import Coffer.Predicate.Basic

namespace Coffer

/-! # Aggregate functions

An aggregate combines the values of an operand over the rows of a group, one value after
another. All of them pass over nulls, except for the one that counts rows.
-/

inductive Aggregate where
  /-- Counts rows. -/
  | rows
  /-- Counts values. -/
  | count
  | sum
  | average
  | least
  | greatest
  deriving DecidableEq, Repr

namespace Aggregate

def name : Aggregate → String
  | .rows => "COUNT"
  | .count => "COUNT"
  | .sum => "SUM"
  | .average => "AVG"
  | .least => "MIN"
  | .greatest => "MAX"

/-- The aggregate that a call of an aggregate function stands for. -/
def ofCall (function : String) (arguments : List Language.Expression) :
    Except Error Aggregate :=
  match function, arguments with
  | "COUNT", [.star] => .ok .rows
  | "COUNT", [_] => .ok .count
  | "SUM", [_] => .ok .sum
  | "AVG", [_] => .ok .average
  | "MIN", [_] => .ok .least
  | "MAX", [_] => .ok .greatest
  | function, _ => .error (.aggregateArguments function)

end Aggregate

/-- The sum of two integers, unless it is out of bounds. -/
def checkedSum (first second : Int64) : Option Int64 :=
  let sum := first.toInt + second.toInt
  if -(Nat.pow 2 63) ≤ sum ∧ sum < Nat.pow 2 63 then some (Int64.ofInt sum) else none

/-- A sum in the making: the whole one while it stays in bounds, and the real one. -/
structure RunningSum where
  whole : Option Int64
  real : Binary64
  allWhole : Bool
  seen : Bool
  deriving DecidableEq, Repr

namespace RunningSum

def start : RunningSum := ⟨some 0, .zero, true, false⟩

/-- The real that a value adds to a sum; text that spells no number adds nothing. -/
def term (value : Value) : Binary64 :=
  value.number?.getD .zero

def add (sum : RunningSum) (value : Value) : RunningSum :=
  let real := sum.real.add (term value)
  match value with
  | .integer number =>
    { sum with whole := sum.whole.bind fun whole => checkedSum whole number, real, seen := true }
  | _ => { sum with allWhole := false, real, seen := true }

/-- The whole sum where all values and all sums on the way were whole, and else the real
one. -/
def finish (sum : RunningSum) : Value :=
  if !sum.seen then .null
  else
    match sum.allWhole, sum.whole with
    | true, some whole => .integer whole
    | _, _ => .real sum.real

end RunningSum

def mean (values : List Value) : Value :=
  if values.isEmpty then .null
  else
    let sum := values.foldl (fun sum value => sum.add (RunningSum.term value)) Binary64.zero
    .real (sum.div (.ofInt values.length))

/-- The first value that comes before or after all others, as the order asks. -/
def extreme (wanted : Ordering) (values : List Value) : Value :=
  values.foldl
    (fun found value =>
      if found.isNull || value.compare? found == some wanted then value else found)
    .null

/-- The value of an aggregate over the values of its operand. -/
def Aggregate.value (aggregate : Aggregate) (values : List Value) : Value :=
  let known := values.filter fun value => !value.isNull
  match aggregate with
  | .rows => .integer (Int64.ofNat values.length)
  | .count => .integer (Int64.ofNat known.length)
  | .sum => (known.foldl RunningSum.add RunningSum.start).finish
  | .average => mean known
  | .least => extreme .lt known
  | .greatest => extreme .gt known

end Coffer
