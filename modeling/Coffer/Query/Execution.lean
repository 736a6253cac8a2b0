import Coffer.Query.Grouping
import Coffer.Query.Join
import Coffer.Query.Ordering
import Coffer.Query.Plan
import Coffer.Store.Basic

namespace Coffer

/-! # Running queries -/

structure RowSet where
  columns : List String
  rows : List Tuple
  deriving DecidableEq, Repr

namespace RowSet

/-- The same columns with changed rows. -/
def mapRows (set : RowSet) (change : List Tuple → List Tuple) : RowSet :=
  { set with rows := change set.rows }

/-- Rows side by side. -/
def join (kind : Language.JoinKind) (predicate : Option Predicate) (left right : RowSet) :
    RowSet :=
  { columns := left.columns ++ right.columns
    rows := joinRows kind predicate left.columns.length right.columns.length
      left.rows right.rows }

def project (columns : List (Operand × String)) (set : RowSet) : RowSet :=
  { columns := columns.map Prod.snd
    rows := set.rows.map fun row => columns.map fun column => column.1.value row }

/-- One row for each group, under labels that no query shows. -/
def aggregate (keys : List Operand) (aggregates : List (Aggregate × Operand)) (set : RowSet) :
    RowSet :=
  { columns := keys.map (fun _ => "") ++ aggregates.map fun aggregate => aggregate.1.name
    rows := aggregateRows keys aggregates set.rows }

end RowSet

/-- The rows of a relation in the order of its columns. -/
def Relation.tuples (relation : Relation) : List Tuple :=
  relation.rows.map relation.schema.tuple

def QueryPlan.run (store : Store) : QueryPlan → Except Error RowSet
  | .nothing => .ok ⟨[], [[]]⟩
  | .values rows => .ok ⟨[], rows⟩
  | .scan table _ =>
    (store.relation table).map fun relation => ⟨relation.schema.columnNames, relation.tuples⟩
  | .filter predicate source =>
    (source.run store).map fun set => set.mapRows fun rows => rows.filter predicate.test
  | .join kind predicate left right => do
    let leftSet ← left.run store
    let rightSet ← right.run store
    return .join kind predicate leftSet rightSet
  | .aggregation keys aggregates source =>
    (source.run store).map (.aggregate keys aggregates)
  | .projection columns source => (source.run store).map (.project columns)
  | .order terms source => (source.run store).map fun set => set.mapRows (sortRows terms)
  | .distinct source => (source.run store).map fun set => set.mapRows distinctRows
  | .offset count source => (source.run store).map fun set => set.mapRows (List.drop count)
  | .limit count source => (source.run store).map fun set => set.mapRows (List.take count)

end Coffer
