import Coffer.Language.Statement
import Coffer.Predicate.Basic

namespace Coffer

/-! # Joining rows

A join pairs every row of one side with every row of the other and keeps the pairs that
pass. A side that is preserved keeps its rows without a partner too, next to nulls.
-/

def passes (predicate : Option Predicate) (tuple : Tuple) : Bool :=
  predicate.all fun predicate => predicate.test tuple

def blank (width : Nat) : Tuple :=
  List.replicate width .null

/-- The pairs that pass, in the order of the left rows. -/
def innerJoin (predicate : Option Predicate) (left right : List Tuple) : List Tuple :=
  left.flatMap fun l => (right.map fun r => l ++ r).filter (passes predicate)

/-- The pairs that pass; a left row in none of them stands next to nulls. -/
def leftJoin (predicate : Option Predicate) (rightWidth : Nat) (left right : List Tuple) :
    List Tuple :=
  left.flatMap fun l =>
    match (right.map fun r => l ++ r).filter (passes predicate) with
    | [] => [l ++ blank rightWidth]
    | found => found

/-- The pairs that pass, in the order of the right rows; a right row in none of them
stands next to nulls. -/
def rightJoin (predicate : Option Predicate) (leftWidth : Nat) (left right : List Tuple) :
    List Tuple :=
  right.flatMap fun r =>
    match (left.map fun l => l ++ r).filter (passes predicate) with
    | [] => [blank leftWidth ++ r]
    | found => found

/-- Joins the rows of two sources of given widths. -/
def joinRows (kind : Language.JoinKind) (predicate : Option Predicate)
    (leftWidth rightWidth : Nat) (left right : List Tuple) : List Tuple :=
  match kind with
  | .inner => innerJoin predicate left right
  | .cross => innerJoin predicate left right
  | .left => leftJoin predicate rightWidth left right
  | .right => rightJoin predicate leftWidth left right

end Coffer
