import Coffer.Change.InPlace
import Coffer.Proofs.Store

namespace Coffer

/-! # Statements in place against their whole effect

A statement in place writes call by call. All that may fail comes before the first call,
so it has the whole effect or none.
-/

open Writing
open Coffer.Language (Resolution)

/-- What a run in place comes to that has the given effect, or fails and has none. -/
def whole (store : Store) : Except Error (Store × α) → Except Error α × Store
  | .ok (after, found) => (.ok found, after)
  | .error error => (.error error, store)

namespace Writing

variable {store after : Store} {α β : Type} {call : Write} {calls others : List Write}

theorem read_bind {view : Store → Except Error α} {rest : α → Writing β} :
    (read view >>= rest) store =
      match view store with
      | .ok found => rest found store
      | .error error => (.error error, store) := by
  cases found : view store with
  | error error =>
      simp [read, bind, ExceptT.bind, ExceptT.mk, ExceptT.bindCont, StateT.bind, found]
      rfl
  | ok result => simp [read, bind, ExceptT.bind, ExceptT.mk, ExceptT.bindCont, StateT.bind, found]

theorem ensure_bind {result : Except Error α} {rest : α → Writing β} :
    (ensure result >>= rest) store =
      match result with
      | .ok found => rest found store
      | .error error => (.error error, store) :=
  read_bind

theorem write_bind {rest : Unit → Writing β} :
    (write call >>= rest) store =
      match store.write call with
      | .ok after => rest () after
      | .error error => (.error error, store) := by
  cases written : store.write call with
  | error error =>
      simp [write, bind, ExceptT.bind, ExceptT.mk, ExceptT.bindCont, StateT.bind, written]
      rfl
  | ok changed =>
      simp [write, bind, ExceptT.bind, ExceptT.mk, ExceptT.bindCont, StateT.bind, written]

theorem writeAll_run (written : calls.foldlM Store.write store = .ok after) :
    writeAll calls store = (.ok (), after) := by
  induction calls generalizing store with
  | nil =>
      cases pure_eq_ok_iff.mp written
      rfl
  | cons call rest ih =>
      rw [List.foldlM_cons, bind_eq_ok_iff] at written
      obtain ⟨next, first, written⟩ := written
      rw [writeAll, write_bind, first]
      exact ih written

theorem writeAll_bind {rest : Unit → Writing β}
    (written : calls.foldlM Store.write store = .ok after) :
    (writeAll calls >>= rest) store = rest () after := by
  simp [bind, ExceptT.bind, ExceptT.mk, ExceptT.bindCont, StateT.bind, writeAll_run written]

end Writing

namespace Store

variable {store : Store} {relation changed : Relation} {name : String} {schema : Table}

/-- A store in which a table has a given relation. -/
def holding (store : Store) (name : String) (relation : Relation) : Store :=
  ⟨store.relations.insert name relation⟩

theorem relation_holding : (store.holding name relation).relation name = .ok relation := by
  rw [Store.relation, holding, Directory.get?_insert_self]

theorem holding_holding :
    (store.holding name relation).holding name changed = store.holding name changed := by
  rw [holding, holding, Directory.insert_insert, holding]

theorem holding_self (found : store.relation name = .ok relation) :
    store.holding name relation = store := by
  rw [holding, Directory.insert_of_mem (relation_eq_ok_iff.mp found)]

theorem replace_eq_holding (named : changed.schema.name = name) :
    store.replace name changed = store.holding name changed := by
  rw [replace, put, named, Directory.insert_erase, holding]

theorem change_holding {step : Relation → Except Error Relation} :
    (store.holding name relation).change name step =
      (step relation).map (store.holding name) := by
  rw [change, relation_holding]
  change (step relation >>= fun changed =>
    pure ((store.holding name relation).holding name changed)) = _
  simp only [holding_holding]
  cases step relation <;> rfl

theorem write_delete {positions : List Nat} (found : store.relation name = .ok relation) :
    store.write (.delete name positions) = .ok (store.holding name (relation.delete positions)) := by
  rw [← holding_self found, Store.write, delete, change_holding, holding_self found]
  rfl

theorem write_inserts (store : Store) (name : String) (relation : Relation) (schema : Table)
    (tuples : List Tuple) :
    (tuples.map fun tuple => Write.insert name (schema.row tuple)).foldlM Store.write
        (store.holding name relation) =
      .ok (store.holding name
        (tuples.foldl (fun relation tuple => relation.insert (schema.row tuple)) relation)) := by
  induction tuples generalizing relation with
  | nil => rfl
  | cons tuple rest ih =>
      rw [List.map_cons, List.foldlM_cons, Store.write, insert, change_holding]
      exact ih _

theorem write_updates {tuples : List (Nat × Tuple)} :
    (tuples.map fun entry => Write.update name entry.1 (schema.row entry.2)).foldlM Store.write
        (store.holding name relation) =
      (tuples.foldlM
        (fun (relation : Relation) entry => relation.update entry.1 (schema.row entry.2))
        relation).map (store.holding name) := by
  induction tuples generalizing relation with
  | nil => rfl
  | cons entry rest ih =>
      rw [List.map_cons, List.foldlM_cons, Store.write, update, change_holding, List.foldlM_cons]
      cases relation.update entry.1 (schema.row entry.2) with
      | error error => rfl
      | ok next => exact ih

theorem write_replaceRows {position : Nat} {rows : List Row} :
    (replaceRows name position rows).foldlM Store.write (store.holding name relation) =
      (relation.updateFrom position rows).map (store.holding name) := by
  induction rows generalizing relation position with
  | nil => rfl
  | cons row rest ih =>
      rw [replaceRows, List.foldlM_cons, Store.write, update, change_holding, Relation.updateFrom]
      cases relation.update position row with
      | error error => rfl
      | ok next => exact ih

end Store

namespace Plan

variable {store : Store} {relation : Relation} {name : String}

theorem performCreateIndex_eq {index : Index} {ifNotExists : Bool} :
    performCreateIndex name index ifNotExists store =
      whole store (Plan.run store (.createIndex name index ifNotExists)) := by
  simp only [performCreateIndex, Plan.run, read_bind, Store.createIndex]
  split
  · split <;> rfl
  · simp only [read_bind, ensure_bind]
    cases store.relation name with
    | error error => rfl
    | ok relation =>
        simp only [ok_bind]
        cases index.columns.mapM relation.schema.position with
        | error error => rfl
        | ok positions =>
            simp only [ok_bind]
            split
            · rfl
            · simp only [write_bind, Store.write]
              cases store.alter name (relation.schema.addIndex index) <;> rfl

/-- A schema that keeps the name of its table can be given to it. -/
theorem write_alter {schema : Table} (found : store.relation name = .ok relation)
    (named : schema.name = name) :
    store.write (.alter name schema) = .ok (store.holding name (relation.alter schema)) := by
  refine Store.alter_eq_ok_iff.mpr ⟨fun different => absurd named different, relation, found, ?_⟩
  exact (Store.replace_eq_holding named).symm

/-- Rows are rewritten in place under a schema that was changed first. -/
theorem rewrite_in_place {schema : Table} {change : Row → Row} {outcome : Outcome}
    (found : store.relation name = .ok relation) (named : schema.name = name) :
    (write (.alter name schema) >>= fun _ =>
        writeAll (replaceRows name 0 (relation.rows.map change)) >>= fun _ =>
          (pure outcome : Writing Outcome)) store =
      whole store (relation.rewrite schema change >>= fun changed =>
        pure (store.replace name changed, outcome)) := by
  obtain ⟨changed, rewritten, sameSchema, -⟩ :=
    Relation.rewrite_exists relation schema change
  have written : (replaceRows name 0 (relation.rows.map change)).foldlM Store.write
      (store.holding name (relation.alter schema)) = .ok (store.holding name changed) := by
    rw [Store.write_replaceRows]
    exact congrArg (Except.map (store.holding name)) rewritten
  simp only [write_bind, write_alter found named]
  rw [writeAll_bind written, rewritten, ok_bind,
    Store.replace_eq_holding (by rw [sameSchema, named])]
  rfl

theorem performAlteration_eq {alteration : Alteration} (wellFormed : store.WellFormed) :
    performAlteration name alteration store =
      whole store (Plan.run store (.alterTable name alteration)) := by
  simp only [performAlteration, Plan.run, read_bind]
  cases found : store.relation name with
  | error error =>
      cases alteration <;>
        simp only [Store.alterTable, Store.addColumn, Store.renameTable, Store.renameColumn,
          Store.table, found, Except.map, error_bind, whole]
  | ok relation =>
      have named := wellFormed.named _ (Store.relation_eq_ok_iff.mp found)
      cases alteration with
      | addColumn column =>
          have rest : (ensure (relation.schema.addColumn column).check >>= fun _ =>
                write (.alter name (relation.schema.addColumn column)) >>= fun _ =>
                writeAll (replaceRows name 0 (relation.rows.map fun row =>
                  row.set column.name (column.default.getD .null))) >>= fun _ =>
                (pure (.tableAltered name) : Writing Outcome)) store =
              whole store (((relation.schema.addColumn column).check >>= fun _ =>
                relation.rewrite (relation.schema.addColumn column)
                  (fun row => row.set column.name (column.default.getD .null)) >>= fun changed =>
                pure (store.replace name changed)) >>= fun after =>
                pure (after, .tableAltered name)) := by
            rw [ensure_bind]
            cases (relation.schema.addColumn column).check with
            | error error => rfl
            | ok _ =>
                simp only [ok_bind, bind_assoc, pure_bind]
                exact rewrite_in_place found named
          simp only [Store.alterTable, Store.addColumn, found, ok_bind]
          split
          · rfl
          · split
            · rfl
            · split
              · rw [ensure_bind]
                cases column.checkValue relation.schema.name (column.default.getD .null) with
                | error error => rfl
                | ok _ => exact rest
              · exact rest
      | renameTable target =>
          simp only [Store.alterTable, Store.renameTable, Store.table, found, Except.map, ok_bind,
            read_bind]
          split
          · rfl
          · rw [write_bind, Store.write]
            cases store.alter name { relation.schema with name := target } <;> rfl
      | renameColumn source target =>
          simp only [Store.alterTable, Store.renameColumn, found, ok_bind, ensure_bind]
          cases relation.schema.position source with
          | error error => rfl
          | ok _ =>
              simp only [ok_bind]
              split
              · rfl
              · simp only [bind_assoc, pure_bind]
                exact rewrite_in_place found named

/-- Every table has a primary key to look up. -/
theorem primaryKeyPosition_eq {table : Table} (valid : table.check = .ok ()) :
    ∃ key, table.primaryKeyPosition = .ok key ∧ table.primaryKeyPosition? = some key := by
  have single := (Table.check_eq_ok_iff.mp valid).1
  cases found : table.primaryKeyPosition? with
  | some key => exact ⟨key, by rw [Table.primaryKeyPosition, found], rfl⟩
  | none =>
      have none := List.findIdx?_eq_none_iff.mp found
      have zero : table.columns.countP Column.primaryKey = 0 :=
        List.countP_eq_zero.mpr fun column member => by simp [none column member]
      omega

theorem performInsert_eq {columns : Option (List String)} {resolution : Resolution}
    {source : QueryPlan} (wellFormed : store.WellFormed) :
    performInsert name columns resolution source store =
      whole store (Plan.run store (.insert name columns resolution source)) := by
  simp only [performInsert, Plan.run, Relation.insertAll, read_bind, ensure_bind]
  cases found : store.relation name with
  | error error => rfl
  | ok relation =>
      have present := Store.relation_eq_ok_iff.mp found
      have named : relation.schema.name = name := wellFormed.named _ present
      have valid := wellFormed.relations _ present
      simp only [ok_bind]
      cases source.run store with
      | error error => rfl
      | ok set =>
          simp only [ok_bind]
          cases stages : relation.stageInsertion columns resolution set.rows with
          | error error => rfl
          | ok staged =>
              obtain ⟨rfl, sound, behind⟩ := stageInsertion_sound valid stages
              obtain ⟨key, ensured, located⟩ := primaryKeyPosition_eq valid.schemaValid
              have inserted := Store.write_inserts store name
                (staged.relation.delete staged.removed) staged.relation.schema
                (staged.tuples.map Prod.snd)
              simp only [ok_bind, named, write_bind, Store.write_delete found, ensure_bind, ensured]
              rw [writeAll_bind inserted]
              simp only [pure_bind, writeInsertion, located, Option.bind_some]
              rw [Store.replace_eq_holding]
              · rfl
              · rw [Staged.schema_foldl_insert, Relation.schema_delete, named]

theorem performUpdate_eq {filter : Option Predicate} {assignments : List (Nat × Operand)}
    {resolution : Resolution} (wellFormed : store.WellFormed) :
    performUpdate name filter assignments resolution store =
      whole store (Plan.run store (.update name filter assignments resolution)) := by
  simp only [performUpdate, Plan.run, Relation.updateAll, read_bind, ensure_bind]
  cases found : store.relation name with
  | error error => rfl
  | ok relation =>
      have present := Store.relation_eq_ok_iff.mp found
      have named : relation.schema.name = name := wellFormed.named _ present
      have valid := wellFormed.relations _ present
      simp only [ok_bind]
      cases stages : relation.stageUpdate filter assignments resolution with
      | error error => rfl
      | ok staged =>
          obtain ⟨rfl, sound, covering⟩ := stageUpdate_sound valid stages
          obtain ⟨written, run, sameSchema, -⟩ := Staged.foldlM_update_exists
            staged.relation.schema sound.ascending covering
          have updated : (staged.tuples.map fun entry =>
                Write.update name entry.1 (staged.relation.schema.row entry.2)).foldlM Store.write
              store = .ok (store.holding name written) := by
            rw [← Store.holding_self found, Store.write_updates, run, Store.holding_self found]
            rfl
          simp only [ok_bind, named, writeUpdate, run, pure_bind]
          rw [writeAll_bind updated]
          simp only [write_bind, Store.write, Store.delete, Store.change_holding, Except.map]
          rw [Store.replace_eq_holding]
          · rfl
          · rw [Relation.schema_delete, sameSchema, named]

/-- A plan run in place has its whole effect, or fails and has none. -/
theorem perform_eq_whole {plan : Plan} (wellFormed : store.WellFormed) :
    plan.perform store = whole store (plan.run store) := by
  cases plan with
  | createTable schema ifNotExists =>
      simp only [Plan.perform, Plan.run, read_bind]
      split
      · rfl
      · rw [write_bind, Store.write]
        cases store.create schema <;> rfl
  | dropTable table ifExists =>
      simp only [Plan.perform, Plan.run, read_bind, Option.not_isSome]
      split
      · rfl
      · rw [write_bind, Store.write]
        cases store.drop table <;> rfl
  | createIndex table index ifNotExists => exact performCreateIndex_eq
  | dropIndex index ifExists =>
      simp only [Plan.perform, Plan.run, read_bind]
      cases store.indexOwner? index with
      | none =>
          simp only
          split <;> rfl
      | some table =>
          simp only [write_bind, Store.write]
          cases store.alter table.name (table.removeIndex index) <;> rfl
  | alterTable table alteration => exact performAlteration_eq wellFormed
  | insert table columns resolution source => exact performInsert_eq wellFormed
  | update table filter assignments resolution => exact performUpdate_eq wellFormed
  | delete table filter =>
      simp only [Plan.perform, Plan.run, read_bind, Relation.deleteAll]
      cases found : store.relation table with
      | error error => rfl
      | ok relation =>
          have named : relation.schema.name = table :=
            wellFormed.named _ (Store.relation_eq_ok_iff.mp found)
          simp only [ok_bind, named, write_bind, Store.write_delete found]
          rw [Store.replace_eq_holding (by rw [Relation.schema_delete, named])]
          rfl
  | query plan =>
      simp only [Plan.perform, Plan.run, read_bind]
      cases plan.run store <;> rfl

end Plan

end Coffer
