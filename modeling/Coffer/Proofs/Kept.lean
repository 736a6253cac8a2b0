import Coffer.Proofs.Defaults
import Coffer.Proofs.Lookup
import Coffer.Proofs.Restoring

namespace Coffer

/-! # Relations as they are kept

A snapshot keeps of a relation its rows, its counter, and its schema but for defaults that are
null. Changes of rows come to the same in a relation and in what is kept of it: the key indexes
tell the same, and a default that is null is as good as none.
-/

open Coffer.Language (Resolution)

namespace Column

variable {column : Column}

theorem kept_kept : column.kept.kept = column.kept := by
  simp [kept, Option.filter_filter]

theorem getD_kept (finite : column.FiniteDefault) :
    column.kept.default.getD .null = column.default.getD .null := by
  cases given : column.default with
  | none => simp [kept, given]
  | some value =>
      cases isKept : value.isKept with
      | true => simp [kept, given, Option.filter_some, isKept]
      | false =>
          have null : value = .null := by
            cases value with
            | null => rfl
            | real x =>
                have bounded := finite _ given x rfl
                rw [Value.isKept, bounded] at isKept
                cases isKept
            | _ => cases isKept
          rw [kept, given, null]
          rfl

end Column

namespace Table

variable {table : Table} {column : String} {tuple : List Value} {row : Row}

theorem kept_kept : table.kept.kept = table.kept := by
  simp [kept, Column.kept_kept]

theorem position?_kept : table.kept.position? = table.position? := by
  funext column
  rw [position?, columnNames_kept, position?]

theorem position_kept : table.kept.position = table.position := by
  funext column
  rw [position, position?_kept, position]
  rfl

theorem length_columns_kept : table.kept.columns.length = table.columns.length := by
  rw [kept, List.length_map]

theorem getElem?_kept {position : Nat} :
    table.kept.columns[position]? = table.columns[position]?.map Column.kept := by
  rw [kept, List.getElem?_map]

theorem counted?_kept : table.kept.counted? = table.counted?.map Column.kept := by
  rw [counted?, kept, List.find?_map]
  rfl

theorem primaryKeyPosition?_kept : table.kept.primaryKeyPosition? = table.primaryKeyPosition? := by
  rw [primaryKeyPosition?, kept, List.findIdx?_map]
  rfl

theorem countedPosition?_kept : table.kept.countedPosition? = table.countedPosition? := by
  rw [countedPosition?, counted?_kept, position?_kept, countedPosition?, Option.bind_map]
  rfl

theorem row_kept : table.kept.row = table.row := by
  funext tuple
  rw [Table.row, columnNames_kept, Table.row]

theorem checkValues_kept {name : String} {columns : List Column} :
    checkValues name (columns.map Column.kept) tuple = checkValues name columns tuple := by
  induction columns generalizing tuple with
  | nil => rfl
  | cons column others ih =>
      cases tuple with
      | nil => rfl
      | cons value rest =>
          rw [List.map_cons, checkValues, checkValues, ih]
          rfl

/-- A tuple passes the same check, or fails it for the same reason. -/
theorem checkTuple_eq_kept : table.kept.checkTuple tuple = table.checkTuple tuple := by
  have values : checkValues table.kept.name table.kept.columns tuple =
      checkValues table.name table.columns tuple := checkValues_kept
  rw [checkTuple, values, length_columns_kept, checkTuple]

theorem insertTargets_kept {columns : Option (List String)} {width : Nat} :
    insertTargets table.kept columns width = insertTargets table columns width := by
  simp only [insertTargets, length_columns_kept, position_kept, countedPosition?_kept]

theorem insertTuple_kept {targets : List Nat} (finite : table.FiniteDefaults) :
    insertTuple table.kept targets tuple = insertTuple table targets tuple := by
  have defaults : (table.kept.columns.map fun column => column.default.getD .null) =
      table.columns.map fun column => column.default.getD .null := by
    rw [kept, List.map_map]
    exact List.map_congr_left fun column member => Column.getD_kept (finite column member)
  simp only [insertTuple, defaults]
  rw [kept, List.zip_map_right, List.map_map]
  rfl

theorem assignTuple_kept {assignments : List (Nat × Operand)} :
    assignTuple table.kept assignments tuple = assignTuple table assignments tuple := by
  refine congrArg (fun step => assignments.foldl step tuple) ?_
  funext changed assignment
  rw [getElem?_kept]
  cases table.columns[assignment.1]? <;> rfl

end Table

namespace Relation

variable {relation first second : Relation} {row : Row} {column position : Nat} {key : Key}
variable {positions : List Nat} {schema : Table}

/-- What is kept of a relation is told by its schema, its rows and its counter. -/
theorem kept_eq_kept_iff :
    first.kept = second.kept ↔
      first.schema.kept = second.schema.kept ∧ first.rows = second.rows ∧
        first.nextId = second.nextId := by
  constructor
  · intro same
    have schema := congrArg Relation.schema same
    have rows := congrArg Relation.rows same
    have nextId := congrArg Relation.nextId same
    exact ⟨schema, rows, nextId⟩
  · rintro ⟨schema, rows, nextId⟩
    rw [kept, schema, rows, nextId, kept]

theorem kept_kept : relation.kept.kept = relation.kept :=
  kept_eq_kept_iff.mpr ⟨Table.kept_kept, rfl, rfl⟩

theorem tuples_kept : relation.kept.tuples = relation.tuples :=
  List.map_congr_left fun _ _ => Table.tuple_kept

theorem keyAt_kept : relation.kept.keyAt = relation.keyAt := by
  funext column position
  have same : (fun row => keyOf relation.schema.kept row column) =
      fun row => keyOf relation.schema row column := funext fun _ => keyOf_kept
  exact congrArg relation.rows[position]?.bind same

/-- The indexes that are built anew tell the same as those that were there. -/
theorem positionsOf_kept (indexed : relation.Indexed) :
    relation.kept.positionsOf column key = relation.positionsOf column key := by
  have rebuilt : relation.kept.Indexed := build_indexed
  refine (positionsOf_ascending rebuilt).eq_of_mem_iff (positionsOf_ascending indexed) fun place => ?_
  rw [mem_positionsOf rebuilt, mem_positionsOf indexed, keyAt_kept]

theorem counterAfter_kept : relation.kept.counterAfter row = relation.counterAfter row := by
  have number : (relation.kept.schema.counted?.bind fun column => row.get? column.name) =
      relation.schema.counted?.bind fun column => row.get? column.name := by
    rw [show relation.kept.schema = relation.schema.kept from rfl, Table.counted?_kept,
      Option.bind_map]
    rfl
  rw [counterAfter, number]
  rfl

section

variable (same : first.kept = second.kept)
include same

theorem counterAfter_congr : first.counterAfter row = second.counterAfter row := by
  rw [← counterAfter_kept, same, counterAfter_kept]

theorem insert_congr : (first.insert row).kept = (second.insert row).kept := by
  obtain ⟨schema, rows, -⟩ := kept_eq_kept_iff.mp same
  exact kept_eq_kept_iff.mpr ⟨schema, congrArg (· ++ [row]) rows, counterAfter_congr same⟩

theorem update_congr :
    (first.update position row).map kept = (second.update position row).map kept := by
  obtain ⟨schema, rows, -⟩ := kept_eq_kept_iff.mp same
  have name : first.schema.name = second.schema.name := by
    simpa [Table.kept] using congrArg Table.name schema
  rw [update, update, rows]
  cases second.rows[position]? with
  | none => rw [name]
  | some former =>
      exact congrArg Except.ok (kept_eq_kept_iff.mpr ⟨schema, rfl, counterAfter_congr same⟩)

theorem delete_congr : (first.delete positions).kept = (second.delete positions).kept := by
  obtain ⟨schema, rows, nextId⟩ := kept_eq_kept_iff.mp same
  have counter {relation : Relation} : (relation.delete positions).nextId = relation.nextId := by
    simp only [delete]
    split <;> rfl
  refine kept_eq_kept_iff.mpr ⟨?_, ?_, ?_⟩
  · rw [schema_delete, schema_delete, schema]
  · rw [rows_delete, rows_delete, rows]
  · rw [counter, counter, nextId]

theorem foldl_insert_congr {rows : List Row} :
    (rows.foldl insert first).kept = (rows.foldl insert second).kept := by
  induction rows generalizing first second with
  | nil => exact same
  | cons row others ih => exact ih (insert_congr same)

theorem foldlM_update_congr {changes : List (Nat × Row)} :
    (changes.foldlM (fun found change => Relation.update found change.1 change.2) first).map kept =
      (changes.foldlM (fun found change => Relation.update found change.1 change.2) second).map
        kept := by
  induction changes generalizing first second with
  | nil => exact congrArg Except.ok same
  | cons change others ih =>
      rw [List.foldlM_cons, List.foldlM_cons]
      exact bind_map_congr (update_congr same) fun _ _ alike => ih alike

theorem updateFrom_congr {rows : List Row} :
    (first.updateFrom position rows).map kept = (second.updateFrom position rows).map kept := by
  induction rows generalizing first second position with
  | nil => exact congrArg Except.ok same
  | cons row others ih =>
      rw [updateFrom, updateFrom]
      exact bind_map_congr (update_congr same) fun _ _ alike => ih alike

end

/-- Rows are rewritten alike under schemas that differ in what is not kept of them. -/
theorem rewrite_kept {wanted : Table} {change : Row → Row} (same : wanted.kept = schema.kept) :
    (relation.kept.rewrite wanted change).map kept = (relation.rewrite schema change).map kept := by
  have altered : (relation.kept.alter wanted).kept = (relation.alter schema).kept :=
    kept_eq_kept_iff.mpr ⟨same, rfl, rfl⟩
  exact updateFrom_congr altered

theorem areUnique_kept {columns : List Nat} :
    relation.kept.areUnique columns = relation.areUnique columns := by
  have keys : (fun row => columns.mapM fun column => keyOf relation.kept.schema row column) =
      fun row => columns.mapM fun column => keyOf relation.schema row column := by
    funext row
    exact congrArg (fun key => columns.mapM key) (funext fun column => keyOf_kept)
  rw [areUnique, keys]
  rfl

end Relation

/-! ## Staging -/

namespace Staged

variable {staged : Staged} {tuple : Tuple} {own : Option Nat} {column position : Nat}
variable {resolution : Resolution}

/-- The same changes, staged for what is kept of the relation. -/
def kept (staged : Staged) : Staged :=
  { staged with relation := staged.relation.kept }

theorem start_kept {relation : Relation} : start relation.kept = (start relation).kept := by
  have unique : relation.kept.schema.uniqueColumns = relation.schema.uniqueColumns :=
    Table.uniqueColumns_kept
  rw [start, unique]
  rfl

theorem unstage_kept : staged.kept.unstage position = (staged.unstage position).kept := by
  have listed : staged.kept.tuples = staged.tuples := rfl
  rw [unstage, unstage, listed]
  cases staged.tuples.lookup position <;> rfl

theorem stage_kept : staged.kept.stage position tuple = (staged.stage position tuple).kept := by
  rw [stage, unstage_kept, stage]
  rfl

theorem append_kept : staged.kept.append tuple = (staged.append tuple).kept :=
  stage_kept

theorem remove_kept : staged.kept.remove position = (staged.remove position).kept := by
  rw [remove, unstage_kept, remove]
  have rows : (staged.unstage position).kept.relation.rows =
      (staged.unstage position).relation.rows := rfl
  rw [rows]
  split <;> rfl

theorem foldl_remove_kept {positions : List Nat} :
    positions.foldl remove staged.kept = (positions.foldl remove staged).kept := by
  induction positions generalizing staged with
  | nil => rfl
  | cons position others ih => rw [List.foldl_cons, remove_kept, ih, List.foldl_cons]

theorem clashes_kept (indexed : staged.relation.Indexed) :
    staged.kept.clashes tuple own column = staged.clashes tuple own column := by
  rw [clashes, clashes]
  cases (tuple.getD column .null).key? with
  | none => rfl
  | some key =>
      have stored : staged.kept.relation.positionsOf column key =
          staged.relation.positionsOf column key := Relation.positionsOf_kept indexed
      dsimp only
      rw [stored]
      rfl

theorem displace_kept (indexed : staged.relation.Indexed) :
    staged.kept.displace tuple own column = (staged.displace tuple own column).kept := by
  rw [displace, clashes_kept indexed, foldl_remove_kept, displace]

theorem displaceAll_kept {columns : List Nat} (indexed : staged.relation.Indexed) :
    columns.foldl (fun staged column => staged.displace tuple own column) staged.kept =
      (columns.foldl (fun staged column => staged.displace tuple own column) staged).kept := by
  induction columns generalizing staged with
  | nil => rfl
  | cons column others ih =>
      have same : (staged.displace tuple own column).relation = staged.relation :=
        relation_foldl_remove
      rw [List.foldl_cons, displace_kept indexed, ih (same ▸ indexed), List.foldl_cons]

theorem firstClash?_kept (indexed : staged.relation.Indexed) :
    staged.kept.firstClash? tuple own = staged.firstClash? tuple own := by
  have same : staged.kept.clashes tuple own = staged.clashes tuple own :=
    funext fun column => clashes_kept indexed
  rw [firstClash?, same]
  rfl

theorem accept_kept (indexed : staged.relation.Indexed) :
    staged.kept.accept tuple own resolution =
      (staged.accept tuple own resolution).map (Option.map kept) := by
  rw [accept, firstClash?_kept indexed, accept]
  cases staged.firstClash? tuple own with
  | none => rfl
  | some clash =>
      have names : staged.kept.relation.schema.columnNames = staged.relation.schema.columnNames :=
        Table.columnNames_kept
      cases resolution with
      | ignore => rfl
      | replace =>
          have displaced := @displaceAll_kept staged tuple own staged.uniqueColumns indexed
          exact congrArg (fun found => Except.ok (some found)) displaced
      | _ =>
          dsimp only
          rw [names]
          rfl

end Staged

/-! ## Insertions -/

section Inserting

variable {relation : Relation} {columns : Option (List String)} {resolution : Resolution}

/-- The same insertion into what is kept of the relation. -/
def Inserting.kept (state : Inserting) : Inserting :=
  { state with staged := state.staged.kept }

def Inserted.kept (inserted : Inserted) : Inserted :=
  { inserted with relation := inserted.relation.kept }

theorem insertValues_kept {state : Inserting} {values : List Value}
    (finite : state.staged.relation.schema.FiniteDefaults)
    (indexed : state.staged.relation.Indexed) :
    insertValues columns resolution state.kept values =
      (insertValues columns resolution state values).map Inserting.kept := by
  have staged : state.kept.staged = state.staged.kept := rfl
  have counter : state.kept.nextId = state.nextId := rfl
  have schema : state.staged.kept.relation.schema = state.staged.relation.schema.kept := rfl
  rw [insertValues, insertValues]
  simp only [staged, counter, schema, Table.insertTargets_kept]
  cases insertTargets state.staged.relation.schema columns values.length with
  | error error => rfl
  | ok targets =>
      simp only [ok_bind, Table.countedPosition?_kept, Table.insertTuple_kept finite,
        Table.checkTuple_eq_kept, Staged.accept_kept indexed]
      cases numberTuple state.staged.relation.schema.countedPosition? state.nextId
          (insertTuple state.staged.relation.schema targets values) with
      | mk tuple nextId =>
          dsimp only
          cases state.staged.relation.schema.checkTuple tuple with
          | error error => rfl
          | ok _ =>
              simp only [ok_bind]
              cases state.staged.accept tuple none resolution with
              | error error => rfl
              | ok accepted =>
                  cases accepted with
                  | none => rfl
                  | some cleared =>
                      have appended := @Staged.append_kept cleared tuple
                      exact congrArg (fun found => Except.ok (Inserting.mk found nextId)) appended

theorem stageInsertion_kept {rows : List (List Value)} (wellFormed : relation.WellFormed)
    (finite : relation.schema.FiniteDefaults) :
    relation.kept.stageInsertion columns resolution rows =
      (relation.stageInsertion columns resolution rows).map Staged.kept := by
  have run {state : Inserting} (sound : state.Sound relation) :
      rows.foldlM (insertValues columns resolution) state.kept =
        (rows.foldlM (insertValues columns resolution) state).map Inserting.kept := by
    induction rows generalizing state with
    | nil => rfl
    | cons values others ih =>
        have same := sound.relation_eq
        rw [List.foldlM_cons, List.foldlM_cons,
          insertValues_kept (same ▸ finite) (same ▸ wellFormed.indexed)]
        cases inserted : insertValues columns resolution state values with
        | error error => rfl
        | ok next => exact ih (insertValues_sound sound inserted)
  have started : Inserting.Sound ⟨.start relation, relation.nextId⟩ relation :=
    ⟨rfl, Staged.start_sound wellFormed, by simp [Staged.Behind, Staged.start]⟩
  have start : (⟨.start relation.kept, relation.kept.nextId⟩ : Inserting) =
      Inserting.kept ⟨.start relation, relation.nextId⟩ := by
    rw [Staged.start_kept]
    rfl
  rw [Relation.stageInsertion, start, run started, Relation.stageInsertion]
  cases rows.foldlM (insertValues columns resolution) ⟨.start relation, relation.nextId⟩ <;> rfl

theorem writeInsertion_kept {staged : Staged} :
    (writeInsertion staged.kept).kept = (writeInsertion staged).kept := by
  have row : staged.kept.relation.schema.row = staged.relation.schema.row := Table.row_kept
  have key : staged.kept.relation.schema.primaryKeyPosition? =
      staged.relation.schema.primaryKeyPosition? := Table.primaryKeyPosition?_kept
  have written {tuples : List Tuple} {first second : Relation} (same : first.kept = second.kept) :
      (tuples.foldl (fun relation tuple =>
        relation.insert (staged.relation.schema.row tuple)) first).kept =
      (tuples.foldl (fun relation tuple =>
        relation.insert (staged.relation.schema.row tuple)) second).kept := by
    have inserted := @Relation.foldl_insert_congr _ _ same (tuples.map staged.relation.schema.row)
    simpa only [List.foldl_map] using inserted
  simp only [writeInsertion, row, key, Inserted.kept]
  refine congrArg (fun relation => Inserted.mk relation _ _) (written ?_)
  exact Relation.delete_congr Relation.kept_kept

theorem insertAll_kept {rows : List (List Value)} (wellFormed : relation.WellFormed)
    (finite : relation.schema.FiniteDefaults) :
    (relation.kept.insertAll columns resolution rows).map Inserted.kept =
      (relation.insertAll columns resolution rows).map Inserted.kept := by
  rw [Relation.insertAll, stageInsertion_kept wellFormed finite, Relation.insertAll]
  cases relation.stageInsertion columns resolution rows with
  | error error => rfl
  | ok staged => exact congrArg Except.ok writeInsertion_kept

end Inserting

/-! ## Updates and deletions -/

section Updating

variable {relation : Relation} {filter : Option Predicate} {resolution : Resolution}
variable {assignments : List (Nat × Operand)}

theorem updateRow_kept {staged : Staged} {row : Nat × Tuple} (indexed : staged.relation.Indexed) :
    updateRow filter assignments resolution staged.kept row =
      (updateRow filter assignments resolution staged row).map Staged.kept := by
  have schema : staged.kept.relation.schema = staged.relation.schema.kept := rfl
  have removed : staged.kept.removed = staged.removed := rfl
  simp only [updateRow, schema, removed, Table.assignTuple_kept, Table.checkTuple_eq_kept,
    Staged.accept_kept indexed]
  split
  · rfl
  · cases staged.relation.schema.checkTuple
        (assignTuple staged.relation.schema assignments row.2) with
    | error error => rfl
    | ok _ =>
        simp only [ok_bind]
        cases staged.accept (assignTuple staged.relation.schema assignments row.2) (some row.1)
            resolution with
        | error error => rfl
        | ok accepted =>
            cases accepted with
            | none => rfl
            | some cleared => exact congrArg Except.ok Staged.stage_kept

theorem numberedTuples_kept : relation.kept.numberedTuples = relation.numberedTuples := by
  rw [Relation.numberedTuples, Relation.tuples_kept, Relation.numberedTuples]
  rfl

theorem stageUpdate_kept (wellFormed : relation.WellFormed) :
    relation.kept.stageUpdate filter assignments resolution =
      (relation.stageUpdate filter assignments resolution).map Staged.kept := by
  have run {rows : List (Nat × Tuple)} {staged : Staged}
      (within : ∀ row ∈ rows, row.1 < relation.rows.length) (same : staged.relation = relation)
      (sound : staged.Sound) (covering : staged.Covering) :
      rows.foldlM (updateRow filter assignments resolution) staged.kept =
        (rows.foldlM (updateRow filter assignments resolution) staged).map Staged.kept := by
    induction rows generalizing staged with
    | nil => rfl
    | cons row others ih =>
        obtain ⟨first, rest⟩ := List.forall_mem_cons.mp within
        rw [List.foldlM_cons, List.foldlM_cons, updateRow_kept (same ▸ wellFormed.indexed)]
        cases updated : updateRow filter assignments resolution staged row with
        | error error => rfl
        | ok next =>
            obtain ⟨kept, nextSound, nextCovering⟩ :=
              updateRow_sound (same ▸ first) sound covering updated
            exact ih rest (kept.trans same) nextSound nextCovering
  rw [Relation.stageUpdate, numberedTuples_kept, Staged.start_kept, Relation.stageUpdate]
  refine run (fun row member => ?_) rfl (Staged.start_sound wellFormed)
    (by simp [Staged.Covering, Staged.start])
  exact List.mem_range.mp (List.of_mem_zip member).1

theorem writeUpdate_kept {staged : Staged} :
    (writeUpdate staged.kept).map Relation.kept = (writeUpdate staged).map Relation.kept := by
  have row : staged.kept.relation.schema.row = staged.relation.schema.row := Table.row_kept
  have written : (staged.tuples.foldlM (fun (found : Relation) entry =>
        found.update entry.1 (staged.relation.schema.row entry.2)) staged.relation.kept).map
          Relation.kept =
      (staged.tuples.foldlM (fun (found : Relation) entry =>
        found.update entry.1 (staged.relation.schema.row entry.2)) staged.relation).map
          Relation.kept := by
    have changed := @Relation.foldlM_update_congr _ _ (@Relation.kept_kept staged.relation)
      (staged.tuples.map fun entry => (entry.1, staged.relation.schema.row entry.2))
    simpa only [List.foldlM_map] using changed
  simp only [writeUpdate, row]
  exact bind_map_congr written fun _ _ same => congrArg Except.ok (Relation.delete_congr same)

theorem updateAll_kept (wellFormed : relation.WellFormed) :
    (relation.kept.updateAll filter assignments resolution).map (Prod.map Relation.kept id) =
      (relation.updateAll filter assignments resolution).map (Prod.map Relation.kept id) := by
  rw [Relation.updateAll, stageUpdate_kept wellFormed, Relation.updateAll]
  cases relation.stageUpdate filter assignments resolution with
  | error error => rfl
  | ok staged =>
      have mapped : (Except.ok staged : Except Error Staged).map Staged.kept = .ok staged.kept := rfl
      rw [mapped, ok_bind, ok_bind]
      refine bind_map_congr writeUpdate_kept fun _ _ same => ?_
      exact congrArg (fun relation => Except.ok (relation, staged.tuples.length)) same

theorem deleteAll_kept :
    Prod.map Relation.kept id (relation.kept.deleteAll filter) =
      Prod.map Relation.kept id (relation.deleteAll filter) := by
  have passing : relation.kept.passingPositions filter = relation.passingPositions filter := by
    rw [Relation.passingPositions, numberedTuples_kept, Relation.passingPositions]
  rw [Relation.deleteAll, passing, Relation.deleteAll]
  exact congrArg (·, _) (Relation.delete_congr Relation.kept_kept)

end Updating

end Coffer
