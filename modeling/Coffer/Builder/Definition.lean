import Coffer.Builder.Condition

namespace Coffer.Builder

/-! # Building definitions

Definitions take no placeholders: a default is written out as a literal.
-/

open Coffer.Language (ColumnDefinition ObjectKind)

def literal : Value → Language.Literal
  | .null => .null
  | .integer number => .integer number
  | .real number => .real number
  | .text content => .string content

def withDefault (column : ColumnDefinition) (value : Value) : ColumnDefinition :=
  { column with default := some (.literal (literal value)) }

def createTable (name : String) (ifNotExists : Bool) (columns : List ColumnDefinition) :
    Prepared :=
  ⟨.create { name, ifNotExists, temporary := false, definition := .table columns }, []⟩

def createIndex (name table : String) (columns : List String) (unique ifNotExists : Bool) :
    Prepared :=
  ⟨.create { name, ifNotExists, temporary := false
             definition := .index table columns unique }, []⟩

/-- The removal of a table or an index. -/
def drop (kind : ObjectKind) (name : String) (ifExists : Bool) : Prepared :=
  ⟨.drop { kind, name, ifExists }, []⟩

end Coffer.Builder
