import Coffer.Change.Insertion
import Coffer.Change.Schema
import Coffer.Change.Update

namespace Coffer

/-! # Running plans -/

/-- What a statement reports. -/
inductive Outcome where
  | begun
  | committed
  | rolledBack
  | inserted (count : Nat) (lastId : Option Int64)
  | updated (count : Nat)
  | deleted (count : Nat)
  | rows (set : RowSet)
  /-- Whether the table was created now, or had been there. -/
  | tableCreated (table : String) (created : Bool)
  | tableDropped (table : String) (existed : Bool)
  | indexCreated (index : String) (created : Bool)
  | indexDropped (index : String) (existed : Bool)
  | tableAltered (table : String)
  | granted (grantee : String)
  | revoked (grantee : String)
  deriving DecidableEq, Repr

namespace Outcome

/-- The number of rows that a statement changed. -/
def changes? : Outcome → Option Nat
  | .inserted count _ => some count
  | .updated count => some count
  | .deleted count => some count
  | _ => none

/-- The rows of a query, which the outcome has to be one of. -/
def rowSet : Outcome → Except Error RowSet
  | .rows set => .ok set
  | _ => .error .notQueryResult

/-- The rows of a query, with the names of their columns. -/
def namedRows (outcome : Outcome) : Except Error (List Row) :=
  outcome.rowSet.map fun set => set.rows.map fun tuple => .ofFields (set.columns.zip tuple)

/-- The first value of the first row of a query. -/
def value (outcome : Outcome) : Except Error Value := do
  let set ← outcome.rowSet
  match set.rows.head?.bind List.head? with
  | some value => return value
  | none => throw .noValue

end Outcome

/-- Runs a plan: gives the store after it, and what it reports. -/
def Plan.run (store : Store) : Plan → Except Error (Store × Outcome)
  | .createTable schema ifNotExists => do
    if ifNotExists && (store.table? schema.name).isSome then
      return (store, .tableCreated schema.name false)
    return (← store.create schema, .tableCreated schema.name true)
  | .dropTable table ifExists => do
    if ifExists && (store.table? table).isNone then return (store, .tableDropped table false)
    return (← store.drop table, .tableDropped table true)
  | .createIndex table index ifNotExists => do
    if (store.indexOwner? index.name).isSome then
      if ifNotExists then return (store, .indexCreated index.name false)
      throw (.indexExists index.name)
    return (← store.createIndex table index, .indexCreated index.name true)
  | .dropIndex index ifExists => do
    match store.indexOwner? index with
    | some table =>
      return (← store.alter table.name (table.removeIndex index), .indexDropped index true)
    | none =>
      if ifExists then return (store, .indexDropped index false)
      throw (.indexNotFound index)
  | .alterTable table alteration =>
    return (← store.alterTable table alteration, .tableAltered table)
  | .insert table columns resolution source => do
    let relation ← store.relation table
    let set ← source.run store
    let inserted ← relation.insertAll columns resolution set.rows
    return (store.replace table inserted.relation, .inserted inserted.count inserted.lastId)
  | .update table filter assignments resolution => do
    let relation ← store.relation table
    let (updated, count) ← relation.updateAll filter assignments resolution
    return (store.replace table updated, .updated count)
  | .delete table filter => do
    let relation ← store.relation table
    let (kept, count) := relation.deleteAll filter
    return (store.replace table kept, .deleted count)
  | .query plan => return (store, .rows (← plan.run store))

end Coffer
