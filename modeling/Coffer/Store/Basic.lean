import Coffer.Store.Directory
import Coffer.Store.Relation

namespace Coffer

/-! # Stores -/

/-- A store: relations under the names of their tables. -/
structure Store where
  relations : Directory Relation
  deriving DecidableEq

/-- A call that writes to a store. -/
inductive Write where
  | create (table : Table)
  | drop (table : String)
  /-- Another schema for a table, and with it perhaps another name. -/
  | alter (table : String) (schema : Table)
  | insert (table : String) (row : Row)
  | update (table : String) (position : Nat) (row : Row)
  | delete (table : String) (positions : List Nat)
  deriving DecidableEq, Repr

namespace Store

def empty : Store := ⟨.empty⟩

instance : Inhabited Store := ⟨empty⟩

def tableNames (store : Store) : List String :=
  store.relations.names

def table? (store : Store) (name : String) : Option Table :=
  (store.relations.get? name).map Relation.schema

/-- The relation of a table, which has to be there. -/
def relation (store : Store) (name : String) : Except Error Relation :=
  match store.relations.get? name with
  | some relation => .ok relation
  | none => .error (.tableNotFound name)

def table (store : Store) (name : String) : Except Error Table :=
  (store.relation name).map Relation.schema

/-- The schemas of all tables, in the order of their names. -/
def tables (store : Store) : List Table :=
  store.relations.entries.map fun entry => entry.2.schema

def indexOwner? (store : Store) (index : String) : Option Table :=
  store.tables.find? fun table => table.indexes.any fun other => other.name == index

/-- Puts a relation under the name of its table. -/
def put (store : Store) (relation : Relation) : Store :=
  ⟨store.relations.insert relation.schema.name relation⟩

/-- Adds a table without rows. -/
def create (store : Store) (table : Table) : Except Error Store :=
  if store.relations.contains table.name then .error (.tableExists table.name)
  else .ok (store.put (.new table))

/-- Removes a table with its rows. -/
def drop (store : Store) (name : String) : Except Error Store := do
  let _ ← store.relation name
  return ⟨store.relations.erase name⟩

/-- Replaces the schema of a table, and with it perhaps the name. -/
def alter (store : Store) (name : String) (table : Table) : Except Error Store := do
  if table.name ≠ name && store.relations.contains table.name then
    throw (.tableExists table.name)
  let relation ← store.relation name
  return (Store.mk (store.relations.erase name)).put (relation.alter table)

/-- Changes the relation of a table, which keeps its name. -/
def change (store : Store) (name : String) (step : Relation → Except Error Relation) :
    Except Error Store := do
  let relation ← store.relation name
  let changed ← step relation
  return ⟨store.relations.insert name changed⟩

/-- Appends a row to a table. -/
def insert (store : Store) (name : String) (row : Row) : Except Error Store :=
  store.change name fun relation => .ok (relation.insert row)

def update (store : Store) (name : String) (position : Nat) (row : Row) : Except Error Store :=
  store.change name fun relation => relation.update position row

/-- Removes the rows at the given positions. -/
def delete (store : Store) (name : String) (positions : List Nat) : Except Error Store :=
  store.change name fun relation => .ok (relation.delete positions)

def write (store : Store) : Write → Except Error Store
  | .create table => store.create table
  | .drop table => store.drop table
  | .alter table schema => store.alter table schema
  | .insert table row => store.insert table row
  | .update table position row => store.update table position row
  | .delete table positions => store.delete table positions

/-- The rows of a table, in order. -/
def rows (store : Store) (name : String) : Except Error (List Row) :=
  (store.relation name).map Relation.rows

/-- The positions of the rows of a table with the same key in a column as a value. -/
def lookup (store : Store) (name : String) (column : Nat) (value : Value) :
    Except Error (List Nat) :=
  (store.relation name).map fun relation => relation.lookup column value

/-- Restores relations one after another, in the order of their names. -/
def restoreAll : List (String × Relation) → Except Error (List (String × Relation))
  | [] => .ok []
  | entry :: rest => do
    let restored ← entry.2.restore entry.1
    let others ← restoreAll rest
    return (entry.1, restored) :: others

/-- Checks all relations and builds their key indexes. -/
def restore (store : Store) : Except Error Store := do
  return ⟨.ofList (← restoreAll store.relations.entries)⟩

/-- Equality of content, with values compared as values. -/
def same (first second : Store) : Bool :=
  first.tableNames == second.tableNames &&
    (first.relations.entries.zip second.relations.entries).all fun pair =>
      pair.1.2.same pair.2.2

end Store

end Coffer
