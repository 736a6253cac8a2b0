import Coffer.Change.Plan

namespace Coffer

/-! # Changing schemas -/

namespace Relation

/-- Replaces rows one after another, from a position on. -/
def updateFrom (relation : Relation) : (position : Nat) → List Row → Except Error Relation
  | _, [] => .ok relation
  | position, row :: rest => do
    let updated ← relation.update position row
    updated.updateFrom (position + 1) rest

/-- The relation under another schema, with every row rewritten then. -/
def rewrite (relation : Relation) (schema : Table) (change : Row → Row) :
    Except Error Relation :=
  (relation.alter schema).updateFrom 0 (relation.rows.map change)

/-- Whether no two rows have the same keys in all given columns. Rows with a null in one of
them share their keys with none. -/
def areUnique (relation : Relation) (columns : List Nat) : Bool :=
  let keys := relation.rows.filterMap fun row =>
    columns.mapM fun column => keyOf relation.schema row column
  decide keys.Nodup

end Relation

def Table.addIndex (table : Table) (index : Index) : Table :=
  { table with indexes := table.indexes ++ [index] }

/-- A schema with a column added behind the others. -/
def Table.addColumn (table : Table) (column : Column) : Table :=
  { table with columns := table.columns ++ [column] }

def Table.removeIndex (table : Table) (index : String) : Table :=
  { table with indexes := table.indexes.filter fun other => other.name != index }

/-- Another name in the place of one. -/
def renamed (source target name : String) : String :=
  if name = source then target else name

/-- A schema with a column renamed, in its indexes too. -/
def Table.renameColumn (table : Table) (source target : String) : Table :=
  { table with
    columns := table.columns.map fun column =>
      { column with name := renamed source target column.name }
    indexes := table.indexes.map fun index =>
      { index with columns := index.columns.map (renamed source target) } }

namespace Store

/-- Adds an index to a table. A unique one asks that the rows do not clash already. -/
def createIndex (store : Store) (name : String) (index : Index) : Except Error Store := do
  let relation ← store.relation name
  let columns ← index.columns.mapM relation.schema.position
  if index.unique && !relation.areUnique columns then
    throw (.notUnique relation.schema.name (", ".intercalate index.columns))
  store.alter name (relation.schema.addIndex index)

/-- Replaces the relation of a table by one that may have another name. -/
def replace (store : Store) (name : String) (relation : Relation) : Store :=
  (Store.mk (store.relations.erase name)).put relation

/-- Adds a column to a table; its rows take the default. -/
def addColumn (store : Store) (name : String) (column : Column) : Except Error Store := do
  let relation ← store.relation name
  let table := relation.schema
  if (table.position? column.name).isSome then
    throw (.duplicateColumn column.name table.name)
  if column.primaryKey || column.unique then throw (.addedUniqueColumn column.name)
  let value := column.default.getD .null
  if !relation.rows.isEmpty then column.checkValue table.name value
  let schema := table.addColumn column
  schema.check
  return store.replace name (← relation.rewrite schema fun row => row.set column.name value)

/-- Gives a table another name, which has to be free. -/
def renameTable (store : Store) (name target : String) : Except Error Store := do
  let table ← store.table name
  if (store.table? target).isSome then throw (.tableExists target)
  store.alter name { table with name := target }

/-- Gives a column another name, which the table must not have yet. -/
def renameColumn (store : Store) (name source target : String) : Except Error Store := do
  let relation ← store.relation name
  let table := relation.schema
  let _ ← table.position source
  if (table.position? target).isSome then throw (.duplicateColumn target table.name)
  return store.replace name
    (← relation.rewrite (table.renameColumn source target) fun row => row.rename source target)

/-- Changes the schema of a table. -/
def alterTable (store : Store) (name : String) : Alteration → Except Error Store
  | .addColumn column => store.addColumn name column
  | .renameTable target => store.renameTable name target
  | .renameColumn source target => store.renameColumn name source target

end Store

end Coffer
