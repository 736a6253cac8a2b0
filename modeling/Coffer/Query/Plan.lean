import Coffer.Language.Statement
import Coffer.Query.Aggregate

namespace Coffer

/-! # Query plans

A plan is a tree of operations on rows. The names of the statement are resolved in it:
operands are positions in the tuples of the operation below, or constants.
-/

inductive QueryPlan where
  /-- A single row without columns. -/
  | nothing
  | values (rows : List Tuple)
  | scan (table : String) (asName : Option String)
  | filter (predicate : Predicate) (source : QueryPlan)
  | join (kind : Language.JoinKind) (predicate : Option Predicate) (left right : QueryPlan)
  | aggregation (keys : List Operand) (aggregates : List (Aggregate × Operand))
      (source : QueryPlan)
  /-- Operands with the labels of the columns they make. -/
  | projection (columns : List (Operand × String)) (source : QueryPlan)
  /-- Positions to sort by, and whether in descending order. -/
  | order (terms : List (Nat × Bool)) (source : QueryPlan)
  | distinct (source : QueryPlan)
  | offset (count : Nat) (source : QueryPlan)
  | limit (count : Nat) (source : QueryPlan)
  deriving Repr

end Coffer
