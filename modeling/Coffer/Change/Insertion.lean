import Coffer.Change.Staging
import Coffer.Value.Affinity

namespace Coffer

/-! # Inserting rows -/

open Coffer.Language (Resolution)

def Table.countedPosition? (table : Table) : Option Nat :=
  table.counted?.bind fun column => table.position? column.name

/-- The positions that values of a given number go to. Without target columns they fill
the whole row, or all of it but the counted column. -/
def insertTargets (table : Table) (columns : Option (List String)) (width : Nat) :
    Except Error (List Nat) :=
  let all := List.range table.columns.length
  match columns with
  | some columns =>
    if columns.length ≠ width then .error (.columnCount columns.length width)
    else columns.mapM table.position
  | none =>
    if width = table.columns.length then .ok all
    else
      match table.countedPosition? with
      | some counted =>
        if width + 1 = table.columns.length then
          .ok (all.filter fun position => position != counted)
        else .error (.columnCount table.columns.length width)
      | none => .error (.columnCount table.columns.length width)

/-- The tuple that holds values at their targets and defaults elsewhere, each in the form
its column prefers. -/
def insertTuple (table : Table) (targets : List Nat) (values : List Value) : Tuple :=
  let defaults := table.columns.map fun column => column.default.getD .null
  let filled := (targets.zip values).foldl (fun tuple pair => tuple.set pair.1 pair.2) defaults
  (filled.zip table.columns).map fun pair => pair.1.coerce pair.2.type

/-- Gives a tuple its number, and moves the counter past the numbers in use. -/
def numberTuple (counted : Option Nat) (nextId : Int64) (tuple : Tuple) : Tuple × Int64 :=
  match counted with
  | none => (tuple, nextId)
  | some position =>
    match tuple.getD position .null with
    | .null => (tuple.set position (.integer nextId), nextId + 1)
    | .integer id => (tuple, max nextId (followingId id))
    | _ => (tuple, nextId)

/-- An insertion on its way: the rows staged so far, and the counter. -/
structure Inserting where
  staged : Staged
  nextId : Int64

def insertValues (columns : Option (List String)) (resolution : Resolution)
    (state : Inserting) (values : List Value) : Except Error Inserting := do
  let table := state.staged.relation.schema
  let targets ← insertTargets table columns values.length
  let (tuple, nextId) :=
    numberTuple table.countedPosition? state.nextId (insertTuple table targets values)
  table.checkTuple tuple
  match ← state.staged.accept tuple none resolution with
  | some staged => return { staged := staged.append tuple, nextId }
  | none => return { state with nextId }

/-- What an insertion leaves: the relation, the number of new rows, and the key of the last
of them where that is an integer. -/
structure Inserted where
  relation : Relation
  count : Nat
  lastId : Option Int64

/-- The key of the last of new rows, at the position of the primary key, where it is an
integer. -/
def lastId? (tuples : List Tuple) (position : Nat) : Option Int64 := do
  let tuple ← tuples.getLast?
  match ← tuple[position]? with
  | .integer id => some id
  | _ => none

/-- Writes staged rows behind the stored ones that stay. -/
def writeInsertion (staged : Staged) : Inserted :=
  let schema := staged.relation.schema
  let tuples := staged.tuples.map Prod.snd
  let kept := staged.relation.delete staged.removed
  { relation := tuples.foldl (fun relation tuple => relation.insert (schema.row tuple)) kept
    count := tuples.length
    lastId := schema.primaryKeyPosition?.bind (lastId? tuples) }

/-- Stages rows of values, unless one of them fails. -/
def Relation.stageInsertion (relation : Relation) (columns : Option (List String))
    (resolution : Resolution) (rows : List (List Value)) : Except Error Staged := do
  let start : Inserting := { staged := .start relation, nextId := relation.nextId }
  let finished ← rows.foldlM (insertValues columns resolution) start
  return finished.staged

/-- Inserts rows of values into a relation: all of them, or none where one fails. -/
def Relation.insertAll (relation : Relation) (columns : Option (List String))
    (resolution : Resolution) (rows : List (List Value)) : Except Error Inserted := do
  return writeInsertion (← relation.stageInsertion columns resolution rows)

end Coffer
