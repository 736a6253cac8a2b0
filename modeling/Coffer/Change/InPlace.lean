import Coffer.Change.Execution

namespace Coffer

/-! # Statements in place

A store is written to by one call after another. A call that fails has no effect, but
those before it have had theirs: what a statement leaves when it fails is the store as it
is then.
-/

/-- A statement on its way: what it gives, or how it fails, and the store it leaves. -/
abbrev Writing (α : Type) := ExceptT Error (StateM Store) α

namespace Writing

def read (view : Store → Except Error α) : Writing α := fun store => (view store, store)

def write (call : Write) : Writing Unit := fun store =>
  match store.write call with
  | .ok after => (.ok (), after)
  | .error error => (.error error, store)

/-- Makes calls one after another. -/
def writeAll : List Write → Writing Unit
  | [] => return ()
  | call :: rest => do
    write call
    writeAll rest

/-- Fails unless there is a result. -/
def ensure (result : Except Error α) : Writing α := read fun _ => result

end Writing

open Writing

/-- Replaces all rows of a table by others, from a position on. -/
def replaceRows (table : String) : (position : Nat) → List Row → List Write
  | _, [] => []
  | position, row :: rest => .update table position row :: replaceRows table (position + 1) rest

/-- Adds an index in place. -/
def performCreateIndex (name : String) (index : Index) (ifNotExists : Bool) :
    Writing Outcome := do
  let owner ← read fun store => .ok (store.indexOwner? index.name)
  if owner.isSome then
    if ifNotExists then return .indexCreated index.name false
    throw (.indexExists index.name)
  let relation ← read fun store => store.relation name
  let columns ← ensure (index.columns.mapM relation.schema.position)
  if index.unique && !relation.areUnique columns then
    throw (.notUnique relation.schema.name (", ".intercalate index.columns))
  write (.alter name (relation.schema.addIndex index))
  return .indexCreated index.name true

/-- Changes the schema of a table in place: first the schema, then row after row. -/
def performAlteration (name : String) (alteration : Alteration) : Writing Outcome := do
  let relation ← read fun store => store.relation name
  let table := relation.schema
  match alteration with
  | .addColumn column =>
    if (table.position? column.name).isSome then
      throw (.duplicateColumn column.name table.name)
    if column.primaryKey || column.unique then throw (.addedUniqueColumn column.name)
    let value := column.default.getD .null
    if !relation.rows.isEmpty then ensure (column.checkValue table.name value)
    let schema := table.addColumn column
    ensure schema.check
    write (.alter name schema)
    writeAll (replaceRows name 0 (relation.rows.map fun row => row.set column.name value))
  | .renameTable target =>
    let present ← read fun store => .ok (store.table? target).isSome
    if present then throw (.tableExists target)
    write (.alter name { table with name := target })
  | .renameColumn source target =>
    let _ ← ensure (table.position source)
    if (table.position? target).isSome then throw (.duplicateColumn target table.name)
    write (.alter name (table.renameColumn source target))
    writeAll (replaceRows name 0 (relation.rows.map fun row => row.rename source target))
  return .tableAltered name

/-- Inserts rows in place: rows that give way are removed first, and the key of the last
new row is looked up before any is appended. -/
def performInsert (name : String) (columns : Option (List String))
    (resolution : Language.Resolution) (source : QueryPlan) : Writing Outcome := do
  let relation ← read fun store => store.relation name
  let table := relation.schema
  let set ← read source.run
  let staged ← ensure (relation.stageInsertion columns resolution set.rows)
  let tuples := staged.tuples.map Prod.snd
  write (.delete table.name staged.removed)
  let key ← ensure table.primaryKeyPosition
  writeAll (tuples.map fun tuple => .insert table.name (table.row tuple))
  return .inserted tuples.length (lastId? tuples key)

/-- Updates rows in place. Positions shift when rows are removed, so that comes last. -/
def performUpdate (name : String) (filter : Option Predicate)
    (assignments : List (Nat × Operand)) (resolution : Language.Resolution) :
    Writing Outcome := do
  let relation ← read fun store => store.relation name
  let table := relation.schema
  let staged ← ensure (relation.stageUpdate filter assignments resolution)
  writeAll (staged.tuples.map fun entry => .update table.name entry.1 (table.row entry.2))
  write (.delete table.name staged.removed)
  return .updated staged.tuples.length

/-- Runs a plan in place. -/
def Plan.perform : Plan → Writing Outcome
  | .createTable schema ifNotExists => do
    let present ← read fun store => .ok (store.table? schema.name).isSome
    if ifNotExists && present then return .tableCreated schema.name false
    write (.create schema)
    return .tableCreated schema.name true
  | .dropTable table ifExists => do
    let present ← read fun store => .ok (store.table? table).isSome
    if ifExists && !present then return .tableDropped table false
    write (.drop table)
    return .tableDropped table true
  | .createIndex table index ifNotExists => performCreateIndex table index ifNotExists
  | .dropIndex index ifExists => do
    match ← read fun store => .ok (store.indexOwner? index) with
    | some table =>
      write (.alter table.name (table.removeIndex index))
      return .indexDropped index true
    | none =>
      if ifExists then return .indexDropped index false
      throw (.indexNotFound index)
  | .alterTable table alteration => performAlteration table alteration
  | .insert table columns resolution source => performInsert table columns resolution source
  | .update table filter assignments resolution =>
    performUpdate table filter assignments resolution
  | .delete table filter => do
    let relation ← read fun store => store.relation table
    let positions := relation.passingPositions filter
    write (.delete relation.schema.name positions)
    return .deleted positions.length
  | .query plan => do
    let set ← read plan.run
    return .rows set

end Coffer
