import Coffer.Change.Staging
import Coffer.Value.Affinity

namespace Coffer

/-! # Updating and deleting rows -/

open Coffer.Language (Resolution)

/-- The tuple with assigned columns, all computed from the tuple as it was. -/
def assignTuple (table : Table) (assignments : List (Nat × Operand)) (tuple : Tuple) : Tuple :=
  assignments.foldl
    (fun changed assignment =>
      match table.columns[assignment.1]? with
      | some column =>
        changed.set assignment.1 ((assignment.2.value tuple).coerce column.type)
      | none => changed)
    tuple

/-- Updates the row at a position, if it is still there and passes. -/
def updateRow (filter : Option Predicate) (assignments : List (Nat × Operand))
    (resolution : Resolution) (staged : Staged) (row : Nat × Tuple) : Except Error Staged := do
  if staged.removed.contains row.1 || !passes filter row.2 then return staged
  let changed := assignTuple staged.relation.schema assignments row.2
  staged.relation.schema.checkTuple changed
  match ← staged.accept changed (some row.1) resolution with
  | some accepted => return accepted.stage row.1 changed
  | none => return staged

/-- Writes staged tuples over stored rows, and then removes rows. Positions shift when
rows are removed, so that comes last. -/
def writeUpdate (staged : Staged) : Except Error Relation := do
  let schema := staged.relation.schema
  let written ← staged.tuples.foldlM
    (fun relation entry => relation.update entry.1 (schema.row entry.2)) staged.relation
  return written.delete staged.removed

/-- The rows of a relation with their positions, in the order of its columns. -/
def Relation.numberedTuples (relation : Relation) : List (Nat × Tuple) :=
  (List.range relation.rows.length).zip relation.tuples

/-- Stages new values for the rows that pass, unless one of them fails. -/
def Relation.stageUpdate (relation : Relation) (filter : Option Predicate)
    (assignments : List (Nat × Operand)) (resolution : Resolution) : Except Error Staged :=
  relation.numberedTuples.foldlM (updateRow filter assignments resolution) (.start relation)

/-- Updates the rows that pass: all of them, or none where one fails. Gives the number of
updated rows that are left. -/
def Relation.updateAll (relation : Relation) (filter : Option Predicate)
    (assignments : List (Nat × Operand)) (resolution : Resolution) :
    Except Error (Relation × Nat) := do
  let staged ← relation.stageUpdate filter assignments resolution
  return (← writeUpdate staged, staged.tuples.length)

def Relation.passingPositions (relation : Relation) (filter : Option Predicate) : List Nat :=
  (relation.numberedTuples.filter fun row => passes filter row.2).map Prod.fst

/-- Deletes the rows that pass, and gives their number. -/
def Relation.deleteAll (relation : Relation) (filter : Option Predicate) : Relation × Nat :=
  let positions := relation.passingPositions filter
  (relation.delete positions, positions.length)

end Coffer
