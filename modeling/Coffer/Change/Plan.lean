import Coffer.Query.Planning
import Coffer.Value.Affinity

namespace Coffer

/-! # Plans of statements

A plan is what a statement asks of a store once its names are resolved and its
placeholders have values. Transactions and privileges are no business of the store.
-/

open Coffer.Language (Resolution)

/-- A change of a table's schema. -/
inductive Alteration where
  | addColumn (column : Column)
  | renameTable (name : String)
  | renameColumn (source target : String)
  deriving DecidableEq, Repr

inductive Plan where
  | createTable (schema : Table) (ifNotExists : Bool)
  | dropTable (table : String) (ifExists : Bool)
  | createIndex (table : String) (index : Index) (ifNotExists : Bool)
  | dropIndex (index : String) (ifExists : Bool)
  | alterTable (table : String) (alteration : Alteration)
  /-- Without target columns, values stand in the order of the table's columns. -/
  | insert (table : String) (columns : Option (List String)) (resolution : Resolution)
      (source : QueryPlan)
  /-- The positions of the columns that are set, with their new values. -/
  | update (table : String) (filter : Option Predicate) (assignments : List (Nat × Operand))
      (resolution : Resolution)
  | delete (table : String) (filter : Option Predicate)
  | query (plan : QueryPlan)
  deriving Repr

/-- The column that a definition asks for. An integer primary key is counted, and a
primary key holds no null unless the definition says so. -/
def planColumn (context : PlanContext) (definition : Language.ColumnDefinition) :
    Except Error Column := do
  let default ← definition.default.mapM context.constant
  return {
    name := definition.name
    type := definition.type
    primaryKey := definition.primaryKey
    autoincrement := definition.autoincrement ||
      (definition.primaryKey && definition.type == .integer)
    nullable := definition.nullable.getD !definition.primaryKey
    default := default.map (Value.coerce definition.type)
    unique := definition.unique
    references := definition.references.map Language.Reference.table }

def planCreate (context : PlanContext) (create : Language.Create) : Except Error Plan := do
  match create.definition with
  | .table definitions =>
    let columns ← definitions.mapM (planColumn context)
    return .createTable (← Table.declare create.name columns) create.ifNotExists
  | .index table columns unique =>
    return .createIndex table { name := create.name, columns, unique } create.ifNotExists
  | other => throw (.unsupportedCreate other.kind.name)

def planDrop (drop : Language.Drop) : Except Error Plan :=
  match drop.kind with
  | .table => .ok (.dropTable drop.name drop.ifExists)
  | .index => .ok (.dropIndex drop.name drop.ifExists)
  | kind => .error (.unsupportedDrop kind.name)

def planAlter (context : PlanContext) (alter : Language.Alter) : Except Error Plan := do
  match alter.action with
  | .addColumn definition =>
    let column ← planColumn context definition
    if column.primaryKey then throw (.addedPrimaryKey column.name)
    return .alterTable alter.table (.addColumn column)
  | .renameTable name => return .alterTable alter.table (.renameTable name)
  | .renameColumn source target => return .alterTable alter.table (.renameColumn source target)

/-- Checks that target columns are in the table, and each given once. -/
def checkTargets (table : Table) (earlier : List String) : List String → Except Error Unit
  | [] => .ok ()
  | column :: rest => do
    let _ ← table.position column
    if earlier.contains column then throw (.columnGivenTwice column)
    checkTargets table (column :: earlier) rest

def planInsert (context : PlanContext) (insert : Language.Insert) : Except Error Plan := do
  let table ← context.store.table insert.table
  checkTargets table [] (insert.columns.getD [])
  let source ←
    match insert.source with
    | .values rows => QueryPlan.values <$> rows.mapM fun row => row.mapM context.constant
    | .query select => planSelect context select
  return .insert table.name insert.columns (insert.resolution.getD .abort) source

def planAssignment (context : PlanContext) (table : Table) (scope : Scope)
    (assignment : String × Language.Expression) : Except Error (Nat × Operand) := do
  let position ← table.position assignment.1
  return (position, ← context.operand scope assignment.2)

def planUpdate (context : PlanContext) (update : Language.Update) : Except Error Plan := do
  let table ← context.store.table update.table
  let scope := Scope.ofTable table none
  let filter ← context.predicate? scope update.condition
  let assignments ← update.assignments.mapM (planAssignment context table scope)
  return .update table.name filter assignments (update.resolution.getD .abort)

def planDelete (context : PlanContext) (delete : Language.Delete) : Except Error Plan := do
  let table ← context.store.table delete.table
  return .delete table.name (← context.predicate? (.ofTable table none) delete.condition)

def planStatement (context : PlanContext) (statement : Language.Statement) :
    Except Error Plan :=
  match statement with
  | .create create => planCreate context create
  | .drop drop => planDrop drop
  | .alter alter => planAlter context alter
  | .insert insert => planInsert context insert
  | .update update => planUpdate context update
  | .delete delete => planDelete context delete
  | .select select => (planSelect context select).map .query
  | other => .error (.unplannedStatement other.type.name)

end Coffer
