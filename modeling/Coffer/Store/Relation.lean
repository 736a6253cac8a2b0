import Coffer.Schema.Table
import Coffer.Store.KeyIndex

namespace Coffer

/-! # Relations

A table with its rows and the counter of its counted column. For each unique column the
positions of the rows are kept by key, and follow every change of the rows.
-/

/-- The number after another one, if there is room for it. -/
def followingId (id : Int64) : Int64 :=
  if id.toInt = Nat.pow 2 63 - 1 then id else id + 1

structure Relation where
  schema : Table
  rows : List Row
  /-- The number that the counted column takes next. -/
  nextId : Int64
  /-- The positions of the rows by key, for each unique column. -/
  keys : List (Nat × KeyIndex)
  deriving DecidableEq, Repr

namespace Relation

def keyOf (schema : Table) (row : Row) (column : Nat) : Option Key :=
  (schema.tuple row)[column]?.bind Value.key?

def enter (schema : Table) (position : Nat) (row : Row) (keys : List (Nat × KeyIndex)) :
    List (Nat × KeyIndex) :=
  keys.map fun entry =>
    match keyOf schema row entry.1 with
    | some key => (entry.1, entry.2.add key position)
    | none => entry

def withdraw (schema : Table) (position : Nat) (row : Row) (keys : List (Nat × KeyIndex)) :
    List (Nat × KeyIndex) :=
  keys.map fun entry =>
    match keyOf schema row entry.1 with
    | some key => (entry.1, entry.2.remove key position)
    | none => entry

def enterAll (schema : Table) : (position : Nat) → List Row → List (Nat × KeyIndex) →
    List (Nat × KeyIndex)
  | _, [], keys => keys
  | position, row :: rest, keys =>
    enterAll schema (position + 1) rest (enter schema position row keys)

def keysOf (schema : Table) (rows : List Row) : List (Nat × KeyIndex) :=
  enterAll schema 0 rows (schema.uniqueColumns.map fun column => (column, .empty))

/-- The relation of given rows, with its key indexes built anew. -/
def build (schema : Table) (rows : List Row) (nextId : Int64) : Relation :=
  { schema, rows, nextId, keys := keysOf schema rows }

def new (schema : Table) : Relation :=
  build schema [] 1

/-- The counter after a row was stored: past the number in its counted column. -/
def counterAfter (relation : Relation) (row : Row) : Int64 :=
  match relation.schema.counted?.bind fun column => row.get? column.name with
  | some (.integer id) => max relation.nextId (followingId id)
  | _ => relation.nextId

/-- The positions of the rows with a key in a column. -/
def positionsOf (relation : Relation) (column : Nat) (key : Key) : List Nat :=
  match relation.keys.lookup column with
  | some index => index.positions key
  | none =>
    (List.range relation.rows.length).filter fun position =>
      (relation.rows[position]?.bind fun row => keyOf relation.schema row column) == some key

/-- The positions of the rows with the same key in a column as a value. -/
def lookup (relation : Relation) (column : Nat) (value : Value) : List Nat :=
  match value.key? with
  | some key => relation.positionsOf column key
  | none => []

def insert (relation : Relation) (row : Row) : Relation :=
  { relation with
    rows := relation.rows ++ [row]
    nextId := relation.counterAfter row
    keys := enter relation.schema relation.rows.length row relation.keys }

def update (relation : Relation) (position : Nat) (row : Row) : Except Error Relation :=
  match relation.rows[position]? with
  | none => .error (.noRow position relation.schema.name)
  | some former =>
    let keys := withdraw relation.schema position former relation.keys
    .ok { relation with
      rows := relation.rows.set position row
      nextId := relation.counterAfter row
      keys := enter relation.schema position row keys }

def rowsOutside (positions : List Nat) : (position : Nat) → List Row → List Row
  | _, [] => []
  | position, row :: rest =>
    if positions.contains position then rowsOutside positions (position + 1) rest
    else row :: rowsOutside positions (position + 1) rest

def delete (relation : Relation) (positions : List Nat) : Relation :=
  let kept := rowsOutside positions 0 relation.rows
  if kept.length = relation.rows.length then relation
  else build relation.schema kept relation.nextId

def alter (relation : Relation) (schema : Table) : Relation :=
  build schema relation.rows relation.nextId

/-- The first column of a row that the table does not have. -/
def unknownColumn? (relation : Relation) (row : Row) : Option String :=
  row.columns.find? fun column => (relation.schema.position? column).isNone

/-- Checks that the table can hold a row. -/
def checkRow (name : String) (relation : Relation) (row : Row) : Except Error Unit := do
  if let some column := relation.unknownColumn? row then throw (.unknownRowColumn name column)
  match relation.schema.checkTuple (relation.schema.tuple row) with
  | .ok () => return ()
  | .error error => throw (.invalidRow name error.message)

/-- The first unique column in which rows share a key. -/
def sharedColumn? (relation : Relation) : Option String :=
  (relation.keys.find? fun entry => entry.2.hasShared).map fun entry =>
    (relation.schema.columnNames[entry.1]?).getD ""

/-- Checks that rows conform to the schema they are held under, and builds the key
indexes. -/
def restore (name : String) (relation : Relation) : Except Error Relation := do
  if name ≠ relation.schema.name then throw (.foreignSchema name relation.schema.name)
  relation.schema.check
  relation.rows.forM (relation.checkRow name)
  let restored := build relation.schema relation.rows relation.nextId
  match restored.sharedColumn? with
  | some column => throw (.sharedKey name column)
  | none => return restored

/-- Equality of content, with values compared as values. -/
def same (first second : Relation) : Bool :=
  first.schema.same second.schema && first.nextId == second.nextId &&
    first.rows.length == second.rows.length &&
    (first.rows.zip second.rows).all fun pair => pair.1.same pair.2

end Relation

end Coffer
