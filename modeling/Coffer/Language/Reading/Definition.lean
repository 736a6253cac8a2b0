import Coffer.Language.Reading.Select

namespace Coffer.Language

/-! # Reading definitions of tables and other objects -/

/-- Reads the optional length or precision after a type name, which has no effect. -/
def typeModifiers : Reader Unit := do
  if ← Reader.acceptSymbol .openParen then
    let _ ← Reader.separated (do
      match ← Reader.next with
      | .number text => return text
      | token => throw (.expectedNumber token))
    Reader.expectSymbol .closeParen

/-- Reads the type of a column; a column without one holds text. -/
def columnType : Reader ColumnType := do
  match ← Reader.name? with
  | none => return .text
  | some name =>
    match ColumnType.ofName? name with
    | none => throw (.unknownType name)
    | some type =>
      typeModifiers
      return type

def reference : Reader Reference := do
  let table ← Reader.name
  if ← Reader.acceptSymbol .openParen then
    let column ← Reader.name
    Reader.expectSymbol .closeParen
    return { table, column := some column }
  else return { table, column := none }

/-- Reads the rest of a column option after its keyword. A default is a number with
its signs, or another atom, so that a following NOT NULL is not read as a test. -/
def columnOption (column : ColumnDefinition) : Keyword → Reader ColumnDefinition
  | .primary => do
    Reader.expectWord .key
    let _ ← Reader.takeIf fun token => token == .keyword .asc || token == .keyword .desc
    return { column with primaryKey := true }
  | .autoincrement => return { column with autoincrement := true }
  | .null =>
    if column.nullable = some false then throw (.contradictoryNull column.name)
    else return { column with nullable := some true }
  | .not => do
    Reader.expectWord .null
    if column.nullable = some true then throw (.contradictoryNull column.name)
    else return { column with nullable := some false }
  | .default => do
    let value ← expressionAbove (signPrecedence - 2)
    return { column with default := some value }
  | .unique => return { column with unique := true }
  | .references => do
    let target ← reference
    return { column with references := some target }
  | keyword => throw (.unexpectedKeyword keyword)

/-- Reads the options of a column, at most the given number. -/
def columnOptionsWithin : Nat → ColumnDefinition → Reader ColumnDefinition
  | 0, column => return column
  | more + 1, column => do
    match ← Reader.takeIf Reader.isKeyword with
    | some (.keyword keyword) =>
      let further ← columnOption column keyword
      columnOptionsWithin more further
    | _ => return column

def columnDefinition : Reader ColumnDefinition := do
  let name ← Reader.name
  let type ← columnType
  let options : Reader ColumnDefinition := fun cursor =>
    columnOptionsWithin cursor.tokens.length (.plain name type) cursor
  options

def adjustColumn (name : String) (change : ColumnDefinition → ColumnDefinition) :
    List ColumnDefinition → Except Error (List ColumnDefinition)
  | [] => .error (.columnNotFound name)
  | column :: rest =>
    if column.name = name then .ok (change column :: rest)
    else (adjustColumn name change rest).map (column :: ·)

/-- Reads a table constraint or a column, given the columns before it. Constraints
apply to columns that stand before them. -/
def tableElement (columns : List ColumnDefinition) : Reader (List ColumnDefinition) := do
  match ← Reader.peek with
  | some (.keyword .primary) =>
    let _ ← Reader.next
    Reader.expectWord .key
    match ← Reader.names with
    | [key] => adjustColumn key (fun column => { column with primaryKey := true }) columns
    | _ => throw .compositeKey
  | some (.keyword .unique) =>
    let _ ← Reader.next
    let keys ← Reader.names
    keys.foldlM (fun columns key =>
      adjustColumn key (fun column => { column with unique := true }) columns) columns
  | _ =>
    let column ← columnDefinition
    return columns ++ [column]

/-- Reads the elements of a table, at most one more than the given number. -/
def tableElementsWithin : Nat → List ColumnDefinition → Reader (List ColumnDefinition)
  | 0, columns => tableElement columns
  | more + 1, columns => do
    let further ← tableElement columns
    if ← Reader.acceptSymbol .comma then tableElementsWithin more further
    else return further

/-- Reads the columns of a table. An empty list is read, and refused later. -/
def tableColumns : Reader (List ColumnDefinition) := do
  Reader.expectSymbol .openParen
  if ← Reader.acceptSymbol .closeParen then return []
  let elements : Reader (List ColumnDefinition) := fun cursor =>
    tableElementsWithin cursor.tokens.length [] cursor
  let columns ← elements
  Reader.expectSymbol .closeParen
  return columns

def objectKind (token : Token) : Except Error ObjectKind :=
  match token with
  | .keyword .table => .ok .table
  | .keyword .index => .ok .index
  | .keyword .view => .ok .view
  | .keyword .trigger => .ok .trigger
  | _ => .error (.unexpectedToken token.text)

def ifNotExists : Reader Bool := do
  if ← Reader.acceptWord .«if» then
    Reader.expectWord .not
    Reader.expectWord .exists
    return true
  else return false

def ifExists : Reader Bool := do
  if ← Reader.acceptWord .«if» then
    Reader.expectWord .exists
    return true
  else return false

/-- Reads all that is left, as text with a space between tokens. -/
def remainingText : Reader String := fun cursor =>
  match cursor.fault with
  | some fault => .error (.lexical fault)
  | none => .ok (" ".intercalate (cursor.tokens.map Token.text), { cursor with tokens := [] })

/-- Reads the content of a CREATE statement of the given kind. -/
def definition (unique : Bool) : ObjectKind → Reader Definition
  | .table => do
    let columns ← tableColumns
    return .table columns
  | .index => do
    Reader.expectWord .on
    let table ← Reader.name
    let columns ← Reader.names
    return .index table columns unique
  | .view => do
    Reader.expectWord .as
    let query ← select
    return .view query
  | .trigger => do
    let body ← remainingText
    return .trigger body

/-- Reads a CREATE statement after its keyword. -/
def create : Reader Create := do
  let temporary ← Reader.takeIf fun token =>
    token == .keyword .temp || token == .keyword .temporary
  let unique ← Reader.acceptWord .unique
  let kind ← objectKind (← Reader.next)
  if unique ∧ kind ≠ .index then throw (.uniqueObject kind.name)
  let ifNotExists ← ifNotExists
  let name ← Reader.name
  let definition ← definition unique kind
  return { name, ifNotExists, temporary := temporary.isSome, definition }

/-- Reads a DROP statement after its keyword. -/
def drop : Reader Drop := do
  let kind ← objectKind (← Reader.next)
  let ifExists ← ifExists
  let name ← Reader.name
  return { kind, name, ifExists }

/-- Reads what an ALTER TABLE statement does to the table. -/
def alterAction : Reader AlterAction := do
  match ← Reader.next with
  | .keyword .add =>
    let _ ← Reader.acceptWord .column
    let column ← columnDefinition
    return .addColumn column
  | .keyword .rename =>
    if ← Reader.acceptWord .to then
      let name ← Reader.name
      return .renameTable name
    else
      let _ ← Reader.acceptWord .column
      let source ← Reader.name
      Reader.expectWord .to
      let target ← Reader.name
      return .renameColumn source target
  | token => throw (.unexpectedToken token.text)

/-- Reads an ALTER statement after its keyword. -/
def alter : Reader Alter := do
  Reader.expectWord .table
  let table ← Reader.name
  let action ← alterAction
  return { table, action }

end Coffer.Language
