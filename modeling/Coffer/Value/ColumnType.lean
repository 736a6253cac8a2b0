import Coffer.Text.UpperCase

namespace Coffer

/-! # Column types -/

inductive ColumnType where
  | integer | real | text | blob
  deriving DecidableEq, Repr, Inhabited

namespace ColumnType

/-- The names that declare each type, in upper case. -/
def names : ColumnType → List String
  | .integer => ["INT", "INTEGER", "BIGINT", "SMALLINT", "TINYINT", "BOOL", "BOOLEAN"]
  | .real => ["REAL", "FLOAT", "DOUBLE", "NUMERIC", "DECIMAL"]
  | .text => ["TEXT", "STRING", "VARCHAR", "CHAR", "CLOB", "DATE", "DATETIME"]
  | .blob => ["BLOB"]

/-- The type a name declares, whatever its case. -/
def ofName? (name : String) : Option ColumnType :=
  let spelled := Text.upperCase name
  [ColumnType.integer, .real, .text, .blob].find? fun type => type.names.contains spelled

/-- The name under which the type is written back. -/
def name : ColumnType → String
  | .integer => "INTEGER"
  | .real => "REAL"
  | .text => "TEXT"
  | .blob => "BLOB"

end ColumnType

end Coffer
