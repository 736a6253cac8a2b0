import Coffer.Builder.Query

namespace Coffer.Builder

/-! # Building changes of rows -/

open Coffer.Language (Resolution)

/-- An insertion in the making. A query as its source goes before rows. -/
structure Insert where
  table : String
  columns : Option (List String)
  rows : List (List Value)
  query : Option Query
  resolution : Option Resolution

namespace Insert

def into (table : String) : Insert :=
  { table, columns := none, rows := [], query := none, resolution := none }

def addRow (insert : Insert) (row : List Value) : Insert :=
  { insert with rows := insert.rows ++ [row] }

def prepare (insert : Insert) : Prepared :=
  let source : Language.InsertSource × List Value := match insert.query with
    | some query => (.query query.toSelect, query.values)
    | none => (.values (insert.rows.map fun row => row.map fun _ => placeholder),
        insert.rows.flatten)
  ⟨.insert { resolution := insert.resolution, table := insert.table, columns := insert.columns
             source := source.1 }, source.2⟩

end Insert

structure Update where
  table : String
  assignments : List (String × Value)
  filter : Option Condition
  resolution : Option Resolution

namespace Update

def of (table : String) : Update :=
  { table, assignments := [], filter := none, resolution := none }

def assign (update : Update) (name : String) (value : Value) : Update :=
  { update with assignments := update.assignments ++ [(name, value)] }

def addFilter (update : Update) (condition : Condition) : Update :=
  { update with filter := condition.onTopOf update.filter }

def prepare (update : Update) : Prepared :=
  ⟨.update { resolution := update.resolution, table := update.table
             assignments := update.assignments.map fun pair => (pair.1, placeholder)
             condition := expression? update.filter },
    update.assignments.map Prod.snd ++ valuesOf update.filter⟩

end Update

structure Delete where
  table : String
  filter : Option Condition

namespace Delete

def «from» (table : String) : Delete :=
  { table, filter := none }

def addFilter (delete : Delete) (condition : Condition) : Delete :=
  { delete with filter := condition.onTopOf delete.filter }

def prepare (delete : Delete) : Prepared :=
  ⟨.delete { table := delete.table, condition := expression? delete.filter },
    valuesOf delete.filter⟩

end Delete

end Coffer.Builder
