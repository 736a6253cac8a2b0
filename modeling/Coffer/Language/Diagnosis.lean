import Coffer.Language.Reading.Statement
import Coffer.Language.Rendering

namespace Coffer.Language

/-! # Diagnosis

Faults of a statement that its form alone shows, without any table at hand. Errors keep
it from running; warnings only come along with its result.
-/

/-- What is wrong with a statement, and what is worth a remark. -/
structure Diagnosis where
  errors : List Error
  warnings : List String
  deriving DecidableEq, Repr

namespace Diagnosis

/-- Nothing to remark. -/
def clean : Diagnosis := ⟨[], []⟩

def error (error : Error) : Diagnosis := ⟨[error], []⟩

def warning (text : String) : Diagnosis := ⟨[], [text]⟩

def onlyIf (condition : Bool) (diagnosis : Diagnosis) : Diagnosis :=
  if condition then diagnosis else clean

def and (first second : Diagnosis) : Diagnosis :=
  ⟨first.errors ++ second.errors, first.warnings ++ second.warnings⟩

def all (diagnoses : List Diagnosis) : Diagnosis :=
  diagnoses.foldr and clean

/-- Whether the statement may run. -/
def isValid (diagnosis : Diagnosis) : Bool :=
  diagnosis.errors.isEmpty

/-- Passes a statement without errors, and otherwise reports the first one. -/
def check (diagnosis : Diagnosis) : Except Error Unit :=
  match diagnosis.errors with
  | [] => .ok ()
  | first :: _ => .error first

end Diagnosis

def SelectItem.isEvery : SelectItem → Bool
  | .every => true
  | _ => false

def SelectItem.isExpression : SelectItem → Bool
  | .expression .. => true
  | _ => false

/-- Whether an item can only be answered from a table. -/
def SelectItem.needsTable : SelectItem → Bool
  | .expression value _ => value.containsField
  | _ => true

def Select.diagnosis (select : Select) : Diagnosis :=
  let needsTable := select.items.any SelectItem.needsTable ||
    select.condition.any Expression.containsField
  .all [
    .onlyIf (select.items.any SelectItem.isEvery)
      (.warning "SELECT * fetches every column; consider naming the columns"),
    .onlyIf (select.source.isNone && needsTable) (.error .missingTable),
    .onlyIf (select.having.isSome && !select.isAggregate) (.error .strayHaving)]

def Insert.diagnosis (insert : Insert) : Diagnosis :=
  match insert.columns, insert.source with
  | some [], _ => .error .emptyColumnList
  | some columns, .values rows =>
    match rows.find? fun row => row.length != columns.length with
    | some row => .error (.columnCount columns.length row.length)
    | none => .clean
  | some columns, .query select =>
    .onlyIf (select.items.all SelectItem.isExpression && select.items.length != columns.length)
      (.error (.columnCount columns.length select.items.length))
  | none, .values [] => .clean
  | none, .values (first :: rest) =>
    .onlyIf (rest.any fun row => row.length != first.length) (.error .unevenRows)
  | none, .query _ => .clean

/-- The faults of a column, given the names of the columns before it. -/
def ColumnDefinition.diagnosis (earlier : List String) (column : ColumnDefinition) : Diagnosis :=
  .all [
    .onlyIf (earlier.contains column.name) (.error (.repeatedColumn column.name)),
    .onlyIf (column.autoincrement && !(column.primaryKey && column.type == .integer))
      (.error (.misplacedAutoincrement column.name))]

/-- The faults of columns, after the ones with the given names. -/
def columnsDiagnosis (earlier : List String) : List ColumnDefinition → Diagnosis
  | [] => .clean
  | column :: rest =>
    (column.diagnosis earlier).and (columnsDiagnosis (column.name :: earlier) rest)

/-- Remarks on the number of primary keys of a table. -/
def primaryKeyDiagnosis (table : String) (columns : List ColumnDefinition) : Diagnosis :=
  match columns.countP ColumnDefinition.primaryKey with
  | 0 =>
    .onlyIf (!columns.isEmpty)
      (.warning s!"Table {table} has no primary key; an id column will be added")
  | 1 => .clean
  | _ => .error (.severalPrimaryKeys table)

def Create.diagnosis (create : Create) : Diagnosis :=
  match create.definition with
  | .table columns =>
    .all [
      .onlyIf columns.isEmpty (.error (.tableWithoutColumns create.name)),
      columnsDiagnosis [] columns,
      primaryKeyDiagnosis create.name columns]
  | .index _ [] _ => .error (.indexWithoutColumns create.name)
  | _ => .clean

/-- The faults and remarks that the form of a statement gives rise to. -/
def Statement.diagnosis : Statement → Diagnosis
  | .select body => body.diagnosis
  | .insert body => body.diagnosis
  | .update body =>
    .onlyIf body.condition.isNone
      (.warning s!"UPDATE without WHERE modifies every row of {body.table}")
  | .delete body =>
    .onlyIf body.condition.isNone
      (.warning s!"DELETE without WHERE removes every row of {body.table}")
  | .create body => body.diagnosis
  | _ => .clean

structure ParsedStatement where
  /-- The text without the blanks around it. -/
  sql : String
  statement : Statement
  /-- The number of placeholders. -/
  parameters : Nat
  diagnosis : Diagnosis

/-- Reads one statement and looks for its faults. -/
def parse (sql : String) : Except Error ParsedStatement := do
  let (statement, parameters) ← parseStatement sql
  return { sql := Text.trim sql, statement, parameters, diagnosis := statement.diagnosis }

/-- The statement with a bound on the rows of a query that has none; any other text is
left as it is. -/
def optimize (sql : String) (limit : Nat) : Except Error String := do
  match (← parseStatement sql).1 with
  | .select select =>
    if select.limit.isNone then return { select with limit := some limit }.render
    else return Text.trim sql
  | _ => return Text.trim sql

/-- The bound on rows where none is configured. -/
def defaultSelectLimit : Nat := 1000

end Coffer.Language
