import Coffer.Query.Aggregate

namespace Coffer

/-! # Groups

Rows with equal keys form a group. Groups stand in the order in which their keys first
appear, and without keys all rows form one group, even where there are none.
-/

/-- Equality of tuples by value. -/
def sameTuple (first second : Tuple) : Bool :=
  first.length == second.length &&
    (first.zip second).all fun pair => pair.1.same pair.2

/-- Rows with a common key. -/
structure Group where
  key : Tuple
  rows : List Tuple
  deriving DecidableEq, Repr

/-- Adds a row to the group of its key, or to a new one behind all others. -/
def addToGroup (key row : Tuple) : List Group → List Group
  | [] => [⟨key, [row]⟩]
  | group :: rest =>
    if sameTuple group.key key then ⟨group.key, group.rows ++ [row]⟩ :: rest
    else group :: addToGroup key row rest

def groupKey (keys : List Operand) (row : Tuple) : Tuple :=
  keys.map fun key => key.value row

def groupsOf (keys : List Operand) (rows : List Tuple) : List Group :=
  let start : List Group := if keys.isEmpty then [⟨[], []⟩] else []
  rows.foldl (fun groups row => addToGroup (groupKey keys row) row groups) start

def groupRow (aggregates : List (Aggregate × Operand)) (group : Group) : Tuple :=
  group.key ++ aggregates.map fun aggregate =>
    aggregate.1.value (group.rows.map fun row => aggregate.2.value row)

def aggregateRows (keys : List Operand) (aggregates : List (Aggregate × Operand))
    (rows : List Tuple) : List Tuple :=
  (groupsOf keys rows).map (groupRow aggregates)

/-- The first of each set of equal rows. -/
def distinctRows (rows : List Tuple) : List Tuple :=
  rows.foldl
    (fun found row => if found.any fun other => sameTuple other row then found else found ++ [row])
    []

end Coffer
