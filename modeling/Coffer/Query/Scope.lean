import Coffer.Predicate.Compilation
import Coffer.Schema.Table

namespace Coffer

/-! # Scopes

The names that expressions of a query can use, and the positions they stand for.
-/

/-- A column as it can be named: by its label, and by the table it comes from. -/
structure ScopeColumn where
  relation : Option String
  label : String
  deriving DecidableEq, Repr

structure Scope where
  columns : List ScopeColumn
  /-- The names that the tables go by. -/
  tables : List String
  /-- The positions of aggregate calls by their text, the last one added first. -/
  aggregates : List (String × Nat)
  deriving DecidableEq, Repr

namespace Scope

/-- The scope of a query without tables. -/
def empty : Scope := ⟨[], [], []⟩

/-- The scope of a table under its alias, or else under its own name. -/
def ofTable (table : Table) (asName : Option String) : Scope :=
  let name := asName.getD table.name
  ⟨table.columnNames.map fun column => ⟨some name, column⟩, [name], []⟩

/-- The scope of two sources side by side. -/
def merge (left right : Scope) : Except Error Scope :=
  match right.tables.find? left.tables.contains with
  | some table => .error (.duplicateTable table)
  | none => .ok ⟨left.columns ++ right.columns, left.tables ++ right.tables, left.aggregates⟩

/-- Finds the position of a column that a bare name stands for, and for which no other
one does. -/
def resolveBare (scope : Scope) (name : String) : Except Error Nat :=
  let named := (List.range scope.columns.length).filter fun position =>
    (scope.columns[position]?).any fun column => column.label == name
  match named with
  | [] => .error (.columnNotFound name)
  | [position] => .ok position
  | _ => .error (.ambiguousColumn name)

/-- Finds the position of a column of a table. -/
def resolveQualified (scope : Scope) (relation name : String) : Except Error Nat :=
  if !scope.tables.contains relation then .error (.tableNotFound relation)
  else
    match scope.columns.findIdx? fun column => column == ⟨some relation, name⟩ with
    | some position => .ok position
    | none => .error (.columnNotFound s!"{relation}.{name}")

/-- Finds the position that a field or an aggregate call stands for. -/
def resolve (scope : Scope) : Resolver
  | .field (some relation) name => scope.resolveQualified relation name
  | .field none name => scope.resolveBare name
  | .call function arguments =>
    let text := (Language.Expression.call function arguments).render
    if Language.aggregateNames.contains function then
      match scope.aggregates.lookup text with
      | some position => .ok position
      | none => .error (.aggregateNotAllowed text)
    else .error (.unknownFunction function)
  | expression => .error (.unresolvable expression.render)

def column? (scope : Scope) (position : Nat) : Option ScopeColumn :=
  scope.columns[position]?

def positionsOf (scope : Scope) (relation : String) : List Nat :=
  (List.range scope.columns.length).filter fun position =>
    (scope.columns[position]?).any fun column => column.relation == some relation

end Scope

end Coffer
