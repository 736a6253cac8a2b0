import Coffer.Schema.Column
import Coffer.Value.Row

namespace Coffer

/-! # Tables

The schema of a table: its columns, in order, and its indexes. A table has exactly one
primary key; one declared without gets a counted column of its own.
-/

/-- A secondary index. A unique one over a single column makes that column unique. -/
structure Index where
  name : String
  columns : List String
  unique : Bool
  deriving DecidableEq, Repr, Inhabited

structure Table where
  name : String
  columns : List Column
  indexes : List Index
  deriving DecidableEq, Repr, Inhabited

namespace Table

/-- The name of the column added to a table without a primary key. -/
def implicitKeyName : String := "id"

/-- The column added to a table without a primary key. -/
def implicitKey : Column :=
  { Column.plain implicitKeyName .integer with
    primaryKey := true, autoincrement := true, nullable := false }

/-- Checks columns one after another, given the names of those before. -/
def checkColumns (table : String) (earlier : List String) : List Column → Except Error Unit
  | [] => .ok ()
  | column :: rest => do
    if earlier.contains column.name then throw (.duplicateColumn column.name table)
    column.check table
    checkColumns table (column.name :: earlier) rest

/-- Checks that the schema is well-formed. -/
def check (table : Table) : Except Error Unit := do
  if table.columns.isEmpty then throw (.tableWithoutColumns table.name)
  match table.columns.countP Column.primaryKey with
  | 0 => throw (.noPrimaryKey table.name)
  | 1 => checkColumns table.name [] table.columns
  | _ => throw (.severalPrimaryKeys table.name)

/-- The columns of a new table: those declared, after a key column where none is. -/
def withKey (name : String) (columns : List Column) : Except Error (List Column) :=
  if columns.isEmpty || columns.any Column.primaryKey then .ok columns
  else if columns.any fun column => column.name == implicitKeyName then
    .error (.reservedColumn name implicitKeyName)
  else .ok (implicitKey :: columns)

def declare (name : String) (columns : List Column) : Except Error Table := do
  let table : Table := { name, columns := ← withKey name columns, indexes := [] }
  table.check
  return table

def columnNames (table : Table) : List String :=
  table.columns.map Column.name

def position? (table : Table) (column : String) : Option Nat :=
  table.columnNames.idxOf? column

def position (table : Table) (column : String) : Except Error Nat :=
  match table.position? column with
  | some position => .ok position
  | none => .error (.columnNotFound s!"{table.name}.{column}")

def primaryKeyPosition? (table : Table) : Option Nat :=
  table.columns.findIdx? Column.primaryKey

def primaryKeyPosition (table : Table) : Except Error Nat :=
  match table.primaryKeyPosition? with
  | some position => .ok position
  | none => .error (.missingPrimaryKey table.name)

def counted? (table : Table) : Option Column :=
  table.columns.find? Column.autoincrement

/-- The positions of the columns declared unique, as the primary key is. -/
def declaredUnique (table : Table) : List Nat :=
  (List.range table.columns.length).filter fun position =>
    (table.columns[position]?).any fun column => column.primaryKey || column.unique

/-- The column a unique index over a single column makes unique. -/
def uniqueColumnOf? (index : Index) : Option String :=
  match index.unique, index.columns with
  | true, [column] => some column
  | _, _ => none

/-- The positions of the columns in which no two rows may share a key: those declared
unique, then those that an index makes so. -/
def uniqueColumns (table : Table) : List Nat :=
  (table.indexes.filterMap fun index => (uniqueColumnOf? index).bind table.position?).foldl
    (fun found position => if found.contains position then found else found ++ [position])
    table.declaredUnique

/-- The values of a row in the order of the columns; a missing one is null. -/
def tuple (table : Table) (row : Row) : List Value :=
  table.columnNames.map fun column => (row.get? column).getD .null

/-- The row of values in the order of the columns. -/
def row (table : Table) (tuple : List Value) : Row :=
  .ofFields (table.columnNames.zip tuple)

/-- Checks each value against the column at its place. -/
def checkValues (table : String) : List Column → List Value → Except Error Unit
  | column :: columns, value :: values => do
    column.checkValue table value
    checkValues table columns values
  | _, _ => .ok ()

def checkTuple (table : Table) (tuple : List Value) : Except Error Unit := do
  if tuple.length ≠ table.columns.length then
    throw (.columnCount table.columns.length tuple.length)
  checkValues table.name table.columns tuple

/-- Equality of schemas, with defaults compared by value. -/
def same (first second : Table) : Bool :=
  first.name == second.name && first.indexes == second.indexes &&
    first.columns.length == second.columns.length &&
    (first.columns.zip second.columns).all fun pair => pair.1.same pair.2

end Table

end Coffer
