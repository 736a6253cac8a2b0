import Coffer.Access.Basic
import Coffer.Json.Content
import Coffer.Store.Basic

namespace Coffer

/-! # Stored state

What of a database a snapshot keeps, as a document: the relations, the roles and the
users.
-/

structure State where
  store : Store
  access : Access
  deriving DecidableEq

namespace Value

/-- Booleans and everything nested are no values. -/
def ofJson? : Json → Option Value
  | .null => some .null
  | .number spelling =>
    (Json.numberOf? spelling).map fun number =>
      match number with
      | .natural found =>
        if found < Nat.pow 2 63 then .integer (Int64.ofInt found) else .real (.ofInt found)
      | .negative found => .integer found
      | .real found => .real found
  | .string spelling => (Json.textOf? spelling).map .text
  | _ => none

def toJson : Value → Json
  | .null => .null
  | .integer number => .ofInt number.toInt
  | .real number => .ofReal number
  | .text content => .ofText content

end Value

namespace ColumnType

def word : ColumnType → String
  | .integer => "Integer"
  | .real => "Real"
  | .text => "Text"
  | .blob => "Blob"

def ofJson? (document : Json) : Option ColumnType :=
  document.word?.bind fun word =>
    [ColumnType.integer, .real, .text, .blob].find? fun type => type.word == word

end ColumnType

namespace Column

def fieldNames : List String :=
  ["name", "type", "isPrimaryKey", "isAutoIncrement", "isNullable", "default", "isUnique",
    "references"]

def ofJson? (document : Json) : Option Column := do
  let record ← Json.Record.ofJson? fieldNames document
  let name ← record.required "name" Json.text?
  let type ← record.required "type" ColumnType.ofJson?
  let primaryKey ← record.required "isPrimaryKey" Json.boolean?
  let autoincrement ← record.required "isAutoIncrement" Json.boolean?
  let nullable ← record.required "isNullable" Json.boolean?
  let default ← record.optional "default" Value.ofJson?
  let unique ← record.required "isUnique" Json.boolean?
  let references ← record.optional "references" Json.text?
  some { name, type, primaryKey, autoincrement, nullable, default, unique, references }

def toJson (column : Column) : Json :=
  .ofMembers [
    ("name", .ofText column.name),
    ("type", .ofText column.type.word),
    ("isPrimaryKey", .boolean column.primaryKey),
    ("isAutoIncrement", .boolean column.autoincrement),
    ("isNullable", .boolean column.nullable),
    ("default", .ofOption Value.toJson column.default),
    ("isUnique", .boolean column.unique),
    ("references", .ofOption .ofText column.references)]

end Column

namespace Index

def ofJson? (document : Json) : Option Index := do
  let record ← Json.Record.ofJson? ["name", "columns", "unique"] document
  let name ← record.required "name" Json.text?
  let columns ← record.required "columns" (Json.list? Json.text?)
  let unique ← record.required "unique" Json.boolean?
  some { name, columns, unique }

def toJson (index : Index) : Json :=
  .ofMembers [
    ("name", .ofText index.name),
    ("columns", .ofList .ofText index.columns),
    ("unique", .boolean index.unique)]

end Index

namespace Table

def ofJson? (document : Json) : Option Table := do
  let record ← Json.Record.ofJson? ["name", "columns", "indexes"] document
  let name ← record.required "name" Json.text?
  let columns ← record.required "columns" (Json.list? Column.ofJson?)
  let indexes ← record.orElse "indexes" (Json.list? Index.ofJson?) []
  some { name, columns, indexes }

def toJson (table : Table) : Json :=
  .ofMembers [
    ("name", .ofText table.name),
    ("columns", .ofList Column.toJson table.columns),
    ("indexes", .ofList Index.toJson table.indexes)]

end Table

namespace Row

def ofJson? (document : Json) : Option Row :=
  (Json.entries? Value.ofJson? document).map ofFields

def toJson (row : Row) : Json :=
  .ofMembers (row.fields.map fun field => (field.1, field.2.toJson))

end Row

namespace Relation

/-- The relation that a document holds. Its key indexes are left to be built. -/
def ofJson? (document : Json) : Option Relation := do
  let record ← Json.Record.ofJson? ["schema", "rows", "nextId"] document
  let schema ← record.required "schema" Table.ofJson?
  let rows ← record.required "rows" (Json.list? Row.ofJson?)
  let nextId ← record.required "nextId" Json.int64?
  some { schema, rows, nextId, keys := [] }

def toJson (relation : Relation) : Json :=
  .ofMembers [
    ("schema", relation.schema.toJson),
    ("rows", .ofList Row.toJson relation.rows),
    ("nextId", .ofInt relation.nextId.toInt)]

end Relation

namespace Permission

def ofJson? (document : Json) : Option Permission :=
  document.word?.bind ofName?

end Permission

namespace User

def ofJson? (document : Json) : Option User := do
  let record ← Json.Record.ofJson? ["passwordHash", "role"] document
  let passwordHash ← record.optional "passwordHash" Json.text?
  let role ← record.required "role" Json.text?
  some { passwordHash, role }

def toJson (user : User) : Json :=
  .ofMembers [
    ("passwordHash", .ofOption .ofText user.passwordHash),
    ("role", .ofText user.role)]

end User

namespace Directory

variable {α : Type}

/-- A directory from the members of an object; of two with one name the last one counts. -/
def ofJson? (decode : Json → Option α) (document : Json) : Option (Directory α) :=
  (Json.entries? decode document).map ofList

def toJson (encode : α → Json) (directory : Directory α) : Json :=
  .ofMembers (directory.entries.map fun entry => (entry.1, encode entry.2))

end Directory

namespace State

def ofJson? (document : Json) : Option State := do
  let record ← Json.Record.ofJson? ["tables", "roles", "users"] document
  let relations ← record.required "tables" (Directory.ofJson? Relation.ofJson?)
  let roles ← record.required "roles" (Directory.ofJson? fun field =>
    (Json.list? Permission.ofJson? field).map Permission.listed)
  let users ← record.required "users" (Directory.ofJson? User.ofJson?)
  some { store := { relations }, access := { roles, users } }

def toJson (state : State) : Json :=
  .ofMembers [
    ("tables", state.store.relations.toJson Relation.toJson),
    ("roles", state.access.roles.toJson
      (.ofList fun (permission : Permission) => .ofText permission.name)),
    ("users", state.access.users.toJson User.toJson)]

/-- The role of a user that is none of the roles. -/
def strayRole? (state : State) : Option String :=
  (state.access.users.entries.find? fun entry =>
    !state.access.roles.contains entry.2.role).map fun entry => entry.2.role

/-- Checks a state that was read, and builds what follows from it. -/
def restore (state : State) : Except Error State := do
  let store ← state.store.restore
  match state.strayRole? with
  | some role => throw (.userRole role)
  | none => return { state with store }

/-- Equality of content, with values compared as values. -/
def same (first second : State) : Bool :=
  first.store.same second.store && first.access == second.access

end State

end Coffer
