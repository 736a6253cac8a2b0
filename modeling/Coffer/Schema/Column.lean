import Coffer.Error
import Coffer.Value.Basic

namespace Coffer

/-! # Columns -/

structure Column where
  name : String
  type : ColumnType
  primaryKey : Bool
  /-- Whether the table's counter gives the value where none is given. -/
  autoincrement : Bool
  nullable : Bool
  default : Option Value
  unique : Bool
  /-- The table the column refers to. -/
  references : Option String
  deriving DecidableEq, Repr, Inhabited

namespace Column

/-- A column of a type, with nothing else said about it. -/
def plain (name : String) (type : ColumnType) : Column :=
  { name, type, primaryKey := false, autoincrement := false, nullable := true, default := none
    unique := false, references := none }

/-- Checks that the properties of a column fit together. -/
def check (table : String) (column : Column) : Except Error Unit := do
  if column.primaryKey && column.nullable then throw (.nullablePrimaryKey column.name)
  if column.autoincrement && !(column.primaryKey && column.type == .integer) then
    throw (.autoincrementType column.name table)
  if column.default == some .null && !column.nullable then throw (.nullDefault column.name)

def checkValue (table : String) (column : Column) (value : Value) : Except Error Unit := do
  if value.isNull && !column.nullable then throw (.notNull table column.name)
  match value with
  | .real number =>
    if number.isFinite then return () else throw (.notFinite number table column.name)
  | _ => return ()

/-- Equality of columns, with defaults compared by value. -/
def same (first second : Column) : Bool :=
  { first with default := none } == { second with default := none } &&
    match first.default, second.default with
    | none, none => true
    | some value, some value' => value.same value'
    | _, _ => false

end Column

end Coffer
