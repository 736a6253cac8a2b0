import Coffer.Builder.Condition

namespace Coffer.Builder

/-! # Building queries -/

open Coffer.Language (Expression JoinKind SelectItem TableReference)

/-- A joined table with its condition. -/
structure BoundJoin where
  kind : JoinKind
  table : TableReference
  condition : Option Condition

/-- A query in the making. The conditions are kept aside with their values. -/
structure Query where
  select : Language.Select
  joins : List BoundJoin
  filter : Option Condition
  having : Option Condition

namespace Query

/-- The item of a select list for a column name, or for the star. -/
def item (name : String) : SelectItem :=
  if name = "*" then .every else .expression (column name) none

/-- A query for columns; an empty list of them stands for all. -/
def ofColumns (columns : List String) : Query :=
  { select :=
      { distinct := false, items := if columns.isEmpty then [.every] else columns.map item
        source := none, joins := [], condition := none, grouping := [], having := none
        ordering := [], limit := none, offset := none }
    joins := [], filter := none, having := none }

def source (query : Query) (table : TableReference) : Query :=
  { query with select := { query.select with source := some table } }

def distinct (query : Query) : Query :=
  { query with select := { query.select with distinct := true } }

def addItem (query : Query) (item : SelectItem) : Query :=
  { query with select := { query.select with items := query.select.items ++ [item] } }

def columnAs (query : Query) (name asName : String) : Query :=
  query.addItem (.expression (column name) (some asName))

/-- Adds a call of an aggregate function on a column or on the star. -/
def aggregate (query : Query) (function name : String) (asName : Option String) : Query :=
  let argument := if name = "*" then .star else column name
  query.addItem (.expression (.call (Text.upperCase function) [argument]) asName)

def join (query : Query) (join : BoundJoin) : Query :=
  { query with joins := query.joins ++ [join] }

/-- Adds a condition on the rows, on top of those before. -/
def addFilter (query : Query) (condition : Condition) : Query :=
  { query with filter := condition.onTopOf query.filter }

/-- Adds a condition on the groups, on top of those before. -/
def addHaving (query : Query) (condition : Condition) : Query :=
  { query with having := condition.onTopOf query.having }

def groupBy (query : Query) (name : String) : Query :=
  let grouping := query.select.grouping ++ [column name]
  { query with select := { query.select with grouping } }

def orderBy (query : Query) (name : String) (descending : Bool) : Query :=
  let ordering := query.select.ordering ++ [{ key := column name, descending }]
  { query with select := { query.select with ordering } }

def limit (query : Query) (count : Nat) : Query :=
  { query with select := { query.select with limit := some count } }

def offset (query : Query) (count : Nat) : Query :=
  { query with select := { query.select with offset := some count } }

/-- The query with its conditions in their places. -/
def toSelect (query : Query) : Language.Select :=
  { query.select with
    joins := query.joins.map fun join =>
      { kind := join.kind, table := join.table, condition := expression? join.condition }
    condition := expression? query.filter
    having := expression? query.having }

def values (query : Query) : List Value :=
  query.joins.flatMap (fun join => valuesOf join.condition) ++
    (valuesOf query.filter ++ valuesOf query.having)

def prepare (query : Query) : Prepared :=
  ⟨.select query.toSelect, query.values⟩

end Query

end Coffer.Builder
