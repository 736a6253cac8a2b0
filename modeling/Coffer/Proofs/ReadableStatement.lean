import Coffer.Proofs.Readable

namespace Coffer.Language

/-! # Statements that can be read

The expressions of a statement in the order in which they stand in its text, and what else
the statements have in common that come out of the reader.
-/

/-- The expressions of a select list item. -/
def SelectItem.expressions : SelectItem → List Expression
  | .expression value _ => [value]
  | _ => []

/-- A qualified star is read as such, not as a column. -/
def SelectItem.Readable (item : SelectItem) : Prop :=
  ∀ relation asName, item ≠ .expression (.field (some relation) "*") asName

def Select.expressions (select : Select) : List Expression :=
  select.items.flatMap SelectItem.expressions ++
    ((select.joins.flatMap fun join => join.condition.toList) ++
      (select.condition.toList ++ (select.grouping ++ (select.having.toList ++
        select.ordering.map OrderTerm.key))))

/-- What the reader sees to in a query: there is something to select, a table to join others
to, a condition for every join but a cross join, and bounds of 64 bits. -/
structure Select.Readable (select : Select) : Prop where
  listed : select.items ≠ []
  items : ∀ item ∈ select.items, item.Readable
  unjoined : select.source = none → select.joins = []
  joins : ∀ join ∈ select.joins, join.kind = .cross ↔ join.condition = none
  limit : ∀ count ∈ select.limit, count < Nat.pow 2 64
  offset : ∀ count ∈ select.offset, count < Nat.pow 2 64

def InsertSource.expressions : InsertSource → List Expression
  | .values rows => rows.flatten
  | .query select => select.expressions

def InsertSource.Readable : InsertSource → Prop
  | .values rows => rows ≠ [] ∧ ∀ row ∈ rows, row ≠ []
  | .query select => select.Readable

def Update.expressions (update : Update) : List Expression :=
  update.assignments.map Prod.snd ++ update.condition.toList

structure Update.Readable (update : Update) : Prop where
  assigned : update.assignments ≠ []
  distinct : (update.assignments.map Prod.fst).Nodup

def ColumnDefinition.expressions (column : ColumnDefinition) : List Expression :=
  column.default.toList

/-- A column is read back whose default is written without operators. -/
def ColumnDefinition.Faithful (column : ColumnDefinition) : Prop :=
  ∀ value ∈ column.default.toList, value.Faithful ∧ value.precedence = 10

def Definition.expressions : Definition → List Expression
  | .table columns => columns.flatMap ColumnDefinition.expressions
  | .view query => query.expressions
  | _ => []

def Definition.Readable : Definition → Prop
  | .view query => query.Readable
  | .trigger _ => False
  | _ => True

def AlterAction.expressions : AlterAction → List Expression
  | .addColumn column => column.expressions
  | _ => []

def Privileges.Readable : Privileges → Prop
  | .listed permissions => permissions ≠ []
  | .every => True

def Statement.expressions : Statement → List Expression
  | .create body => body.definition.expressions
  | .alter body => body.action.expressions
  | .select body => body.expressions
  | .insert body => body.source.expressions
  | .update body => body.expressions
  | .delete body => body.condition.toList
  | _ => []

/-- The form of the statements that come out of the reader, except for triggers, of which
only a text is kept. -/
def Statement.Readable : Statement → Prop
  | .create body => body.definition.Readable
  | .select body => body.Readable
  | .insert body => body.source.Readable
  | .update body => body.Readable
  | .grant privilege | .revoke privilege => privilege.privileges.Readable
  | _ => True

/-- The columns a statement defines. -/
def Statement.columns : Statement → List ColumnDefinition
  | .create { definition := .table columns, .. } => columns
  | .alter { action := .addColumn column, .. } => [column]
  | _ => []

/-- The numbers of the placeholders in a statement, in the order in which they stand. -/
def Statement.placeholders (statement : Statement) : List Nat :=
  statement.expressions.flatMap Expression.placeholders

/-- A statement that is read back from its rendering. -/
structure Statement.Faithful (statement : Statement) : Prop where
  readable : statement.Readable
  expressions : ∀ expression ∈ statement.expressions, expression.Faithful
  columns : ∀ column ∈ statement.columns, column.Faithful

end Coffer.Language
