import Coffer.Query.Plan
import Coffer.Query.Scope
import Coffer.Store.Basic

namespace Coffer

/-! # Planning queries

A query becomes a plan from the inside out: tables, joins, the condition on rows, groups,
the condition on groups, the select list, the ordering, and what is left of the rows.
-/

open Coffer.Language (Expression Select SelectItem)

/-- What a statement is planned against: the tables, and the values of its placeholders. -/
structure PlanContext where
  store : Store
  parameters : List Value

namespace PlanContext

variable (context : PlanContext)

def operand (scope : Scope) (expression : Expression) : Except Error Operand :=
  Operand.ofExpression context.parameters scope.resolve expression

def predicate (scope : Scope) (expression : Expression) : Except Error Predicate :=
  Predicate.ofExpression context.parameters scope.resolve expression

/-- The predicate of an optional condition. -/
def predicate? (scope : Scope) : Option Expression → Except Error (Option Predicate)
  | none => .ok none
  | some condition => (context.predicate scope condition).map some

def constant (expression : Expression) : Except Error Value := do
  let found ← Operand.ofExpression context.parameters
    (fun expression => .error (.notConstant expression.render)) expression
  return found.value []

end PlanContext

/-- A plan together with the names of its columns. -/
structure Scoped where
  plan : QueryPlan
  scope : Scope

def planTable (context : PlanContext) (reference : Language.TableReference) :
    Except Error Scoped := do
  let table ← context.store.table reference.name
  return ⟨.scan table.name reference.asName, .ofTable table reference.asName⟩

/-- Joins a table to the rows before it. -/
def planJoin (context : PlanContext) (left : Scoped) (join : Language.Join) :
    Except Error Scoped := do
  let right ← planTable context join.table
  let scope ← left.scope.merge right.scope
  let predicate ← context.predicate? scope join.condition
  return ⟨.join join.kind predicate left.plan right.plan, scope⟩

/-- The rows of all tables of a query. -/
def planSources (context : PlanContext) (select : Select) : Except Error Scoped := do
  let first ←
    match select.source with
    | some reference => planTable context reference
    | none => pure ⟨.nothing, .empty⟩
  select.joins.foldlM (planJoin context) first

/-- The rows that pass the condition of a query. -/
def planCondition (context : PlanContext) (source : Scoped) :
    Option Expression → Except Error Scoped
  | none => .ok source
  | some condition => do
    if condition.containsAggregate then throw .aggregateInWhere
    let predicate ← context.predicate source.scope condition
    return { source with plan := .filter predicate source.plan }

/-- One key to group by, and the column it makes. -/
def planGroupKey (context : PlanContext) (scope : Scope) (expression : Expression) :
    Except Error (Operand × ScopeColumn) := do
  if expression.containsAggregate then throw (.groupByAggregate expression.render)
  let operand ← context.operand scope expression
  let unnamed : ScopeColumn := ⟨none, expression.render⟩
  match operand, expression with
  | .column position, .field .. => return (operand, (scope.column? position).getD unnamed)
  | _, _ => return (operand, unnamed)

/-- Drops the expressions that are equal to an earlier one. -/
def withoutRepeats (expressions : List Expression) : List Expression :=
  expressions.foldl
    (fun found expression =>
      if found.any fun other => other.same expression then found else found ++ [expression])
    []

def itemExpressions : SelectItem → List Expression
  | .expression value _ => [value]
  | _ => []

/-- The aggregate calls of a query, each once. -/
def aggregateCalls (select : Select) : List Expression :=
  let written := select.items.flatMap itemExpressions ++ select.having.toList ++
    select.ordering.map Language.OrderTerm.key
  withoutRepeats ((written.flatMap Expression.parts).filter Expression.isAggregateCall)

/-- The aggregate that a call stands for, and its operand. -/
def planAggregate (context : PlanContext) (scope : Scope) (call : Expression) :
    Except Error (Aggregate × Operand) := do
  match call with
  | .call function arguments =>
    let aggregate ← Aggregate.ofCall function arguments
    match aggregate, arguments with
    | .rows, _ => return (aggregate, .constant (.integer 1))
    | _, argument :: _ =>
      if argument.containsAggregate then throw (.nestedAggregate call.render)
      return (aggregate, ← context.operand scope argument)
    | _, [] => throw (.aggregateArguments function)
  | other => throw (.unresolvable other.render)

/-- The groups of a query. Their columns are the keys, and then the aggregates. -/
def planGroups (context : PlanContext) (select : Select) (source : Scoped) :
    Except Error Scoped := do
  let keys ← select.grouping.mapM (planGroupKey context source.scope)
  let calls := aggregateCalls select
  let aggregates ← calls.mapM (planAggregate context source.scope)
  let texts := calls.map Expression.render
  let positions := (List.range texts.length).map fun place => keys.length + place
  return {
    plan := .aggregation (keys.map Prod.fst) aggregates source.plan
    scope := {
      columns := keys.map Prod.snd ++ texts.map fun text => ⟨none, text⟩
      tables := source.scope.tables
      aggregates := (texts.zip positions).reverse } }

/-- A column of the select list, with the table that may qualify its label. -/
structure Labelled where
  operand : Operand
  label : String
  relation : Option String

/-- Columns of the scope, each under its own label. -/
def scopeColumns (scope : Scope) (positions : List Nat) : List Labelled :=
  positions.filterMap fun position =>
    (scope.column? position).map fun column =>
      ⟨.column position, column.label, column.relation⟩

/-- The columns of one item of the select list. -/
def planItem (context : PlanContext) (select : Select) (grouped : Bool) (scope : Scope)
    (item : SelectItem) : Except Error (List Labelled) := do
  match item with
  | .every =>
    if grouped then throw .starInAggregate
    if select.source.isNone then throw .starWithoutTable
    return scopeColumns scope (List.range scope.columns.length)
  | .everyOf relation =>
    if grouped then throw .starInAggregate
    if !scope.tables.contains relation then throw (.tableNotFound relation)
    return scopeColumns scope (scope.positionsOf relation)
  | .expression value asName =>
    let operand ← context.operand scope value
    match asName, value, operand with
    | some asName, _, _ => return [⟨operand, asName, none⟩]
    | none, .field _ name, .column position =>
      return [⟨operand, name, (scope.column? position).bind ScopeColumn.relation⟩]
    | none, _, _ => return [⟨operand, value.render, none⟩]

/-- The label of a column of which the given number of columns before have the same one:
qualified by its table, or else numbered. -/
def distinctLabel (column : Labelled) : Nat → String
  | 0 => column.label
  | earlier + 1 =>
    match column.relation with
    | some relation => s!"{relation}.{column.label}"
    | none => s!"{column.label}:{integerText (earlier + 1 : Nat)}"

/-- Labels the columns of the select list, given the labels of those before. -/
def labelled (earlier : List String) : List Labelled → List (Operand × String)
  | [] => []
  | column :: rest =>
    (column.operand, distinctLabel column (earlier.count column.label)) ::
      labelled (column.label :: earlier) rest

/-- A position of the select list, counted from one. -/
def listPosition (visible : Nat) (number : Int64) : Except Error Nat :=
  if 1 ≤ number.toInt ∧ number.toInt ≤ visible then .ok (number.toInt.toNat - 1)
  else .error (.orderPosition number)

/-- The output column whose label a sort key is. -/
def labelPosition? (labels : List String) : Expression → Option Nat
  | .field none name => labels.idxOf? name
  | _ => none

/-- The position of a sort key among the columns: a number or label of the select list,
or an operand that is added behind the columns if it is none of them. -/
def planSortKey (context : PlanContext) (scope : Scope) (visible : Nat)
    (columns : List (Operand × String)) (key : Expression) :
    Except Error (Nat × List (Operand × String)) := do
  match key with
  | .literal (.integer number) => return (← listPosition visible number, columns)
  | _ =>
    match labelPosition? ((columns.take visible).map Prod.snd) key with
    | some position => return (position, columns)
    | none =>
      let operand ← context.operand scope key
      match columns.findIdx? fun column => column.1.same operand with
      | some position => return (position, columns)
      | none => return (columns.length, columns ++ [(operand, "")])

/-- The terms of an ordering, and the columns with those added for it. -/
def planOrdering (context : PlanContext) (scope : Scope) (visible : Nat)
    (columns : List (Operand × String)) : List Language.OrderTerm →
    Except Error (List (Nat × Bool) × List (Operand × String))
  | [] => .ok ([], columns)
  | term :: rest => do
    let (position, extended) ← planSortKey context scope visible columns term.key
    let (positions, all) ← planOrdering context scope visible extended rest
    return ((position, term.descending) :: positions, all)

/-- Projects onto the columns, sorts, and takes hidden columns away again. -/
def planOutput (visible : Nat) (columns : List (Operand × String)) (terms : List (Nat × Bool))
    (source : QueryPlan) : QueryPlan :=
  let projected := QueryPlan.projection columns source
  let sorted := if terms.isEmpty then projected else .order terms projected
  if visible < columns.length then
    let labels := (columns.take visible).map Prod.snd
    .projection (((List.range visible).map Operand.column).zip labels) sorted
  else sorted

/-- Drops repeated rows, the first rows and the last ones, as a query asks. -/
def planBounds (select : Select) (source : QueryPlan) : QueryPlan :=
  let distinct := if select.distinct then source.distinct else source
  let skipped := match select.offset with
    | some count => distinct.offset count
    | none => distinct
  match select.limit with
  | some count => skipped.limit count
  | none => skipped

def planSelect (context : PlanContext) (select : Select) : Except Error QueryPlan := do
  let sources ← planSources context select
  let passed ← planCondition context sources select.condition
  let grouped := select.isAggregate || select.having.isSome
  let rows ← if grouped then planGroups context select passed else pure passed
  let having ← context.predicate? rows.scope select.having
  let source := match having with
    | some predicate => QueryPlan.filter predicate rows.plan
    | none => rows.plan
  let items ← select.items.mapM (planItem context select grouped rows.scope)
  let columns := labelled [] items.flatten
  let (terms, all) ← planOrdering context rows.scope columns.length columns select.ordering
  return planBounds select (planOutput columns.length all terms source)

end Coffer
