import Coffer.Value.Basic

namespace Coffer

/-! # Rows -/

/-- A row: values by column, in the order in which the columns were first set. -/
structure Row where
  fields : List (String × Value)
  deriving DecidableEq, Repr, Inhabited

namespace Row

def empty : Row := ⟨[]⟩

def columns (row : Row) : List String :=
  row.fields.map Prod.fst

def values (row : Row) : List Value :=
  row.fields.map Prod.snd

def get? (row : Row) (column : String) : Option Value :=
  (row.fields.find? fun field => field.1 == column).map Prod.snd

/-- Replaces the first field of a name, or appends a field. -/
def setField (column : String) (value : Value) : List (String × Value) → List (String × Value)
  | [] => [(column, value)]
  | field :: rest =>
    if field.1 = column then (column, value) :: rest else field :: setField column value rest

/-- Sets the value of a column. A column that is already there keeps its place. -/
def set (row : Row) (column : String) (value : Value) : Row :=
  ⟨setField column value row.fields⟩

def ofFields (fields : List (String × Value)) : Row :=
  fields.foldl (fun row field => row.set field.1 field.2) empty

def renameField (source target : String) : List (String × Value) → List (String × Value)
  | [] => []
  | field :: rest =>
    if field.1 = source then (target, field.2) :: rest
    else field :: renameField source target rest

/-- Renames a column in its place. -/
def rename (row : Row) (source target : String) : Row :=
  ⟨renameField source target row.fields⟩

/-- Equality of rows by value: the same columns, and equal values in them. -/
def same (first second : Row) : Bool :=
  first.columns == second.columns &&
    (first.values.zip second.values).all fun pair => pair.1.same pair.2

end Row

end Coffer
