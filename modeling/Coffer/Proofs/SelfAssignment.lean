import Coffer.Proofs.Defaults
import Coffer.Proofs.SelectedRows
import Coffer.Proofs.StoredForm

namespace Coffer

/-! # Columns set to themselves

An update that sets a column to itself puts each value into its column once more. That leaves the
keys of all rows as they are, so it always goes well. It leaves the values as they are, too, but for
reals in an integer column that an integer is equal to.
-/

open Coffer.Language (Resolution)

/-- The statement that sets a column to itself in all rows of a table. -/
def selfAssignment (table column : String) (resolution : Option Resolution) : Language.Statement :=
  .update {
    resolution, table, condition := none
    assignments := [(column, .field none column)] }

namespace Value.InForm

variable {value : Value} {type : ColumnType}

/-- A value that goes into its column once more keeps its key. -/
theorem key?_coerce (inForm : value.InForm type) : (value.coerce type).key? = value.key? := by
  by_cases fixed : value.coerce type = value
  · rw [fixed]
  · obtain ⟨rfl, x, number, rfl, whole⟩ := not_not.mp (mt inForm.coerce_eq_iff.mpr fixed)
    simp only [coerce, whole, key?, Key.ofReal]
    simp only [integerOfReal?] at whole
    split at whole
    · rename_i within
      cases whole
      simp only [Bool.and_eq_true, decide_eq_true_eq] at within
      obtain ⟨is, bound⟩ := within
      rw [if_pos]
      simp only [Bool.and_eq_true, decide_eq_true_eq]
      exact ⟨⟨is, by omega⟩, by omega⟩
    · cases whole

end Value.InForm

theorem Value.coerce_eq_null_iff {value : Value} {type : ColumnType} :
    value.coerce type = .null ↔ value = .null := by
  cases value with
  | null => cases type <;> simp [coerce]
  | integer number => cases type <;> simp [coerce]
  | real x =>
      cases type with
      | integer => cases whole : integerOfReal? x <;> simp [coerce, whole]
      | _ => simp [coerce]
  | text content =>
      cases read : realOfText? content <;> cases type with
      | integer => cases spelled : integerOfText? content <;> simp [coerce, spelled, realOrText, read]
      | _ => simp [coerce, realOrText, read]

theorem Column.checkValue_coerce {column : Column} {table : String} {value : Value}
    (checked : column.checkValue table value = .ok ()) :
    column.checkValue table (value.coerce column.type) = .ok () := by
  obtain ⟨filled, finite⟩ := checkValue_eq_ok_iff.mp checked
  exact checkValue_eq_ok_iff.mpr
    ⟨fun missing => filled (Value.coerce_eq_null_iff.mp missing), Value.coerce_finite finite⟩

/-! ## Updates that keep all keys -/

section

variable {table : Table} {assignments : List (Nat × Operand)} {resolution : Resolution}
variable {relation : Relation} {tuple other : Tuple} {position : Nat} {column : Column}

theorem tuples_apart (wellFormed : relation.WellFormed) :
    relation.tuples.Pairwise fun first second =>
      ∀ position ∈ relation.schema.uniqueColumns, sharesKeyIn position first second = false := by
  rw [Relation.tuples, List.pairwise_map, List.pairwise_iff_getElem]
  intro first second firstWithin secondWithin before position unique
  rw [Bool.eq_false_iff, Ne, sharesKeyIn_eq_true_iff]
  rintro ⟨key, firstKey, secondKey⟩
  have apart := List.pairwise_iff_getElem.mp (wellFormed.keysDistinct position unique)
    first second firstWithin secondWithin before key
  have held (row : Row)
      (rowKey : ((relation.schema.tuple row).getD position .null).key? = some key) :
      Relation.keyOf relation.schema row position = some key := by
    rw [List.getD_eq_getElem?_getD] at rowKey
    rw [Relation.keyOf]
    cases found : (relation.schema.tuple row)[position]? with
    | none =>
        rw [found] at rowKey
        cases rowKey
    | some value =>
        rw [found] at rowKey
        exact rowKey
  exact apart (held _ firstKey) (held _ secondKey)

/-- Whether assignments give a tuple that may be stored, with the keys that it has. -/
structure Table.KeepsKeys (table : Table) (assignments : List (Nat × Operand)) (tuple : Tuple) :
    Prop where
  checked : table.checkTuple (table.assigned assignments tuple) = .ok ()
  keys : ∀ position ∈ table.uniqueColumns,
    ((table.assigned assignments tuple).getD position .null).key? =
      (tuple.getD position .null).key?

theorem sharesKeyIn_congr {first second renewed changed : Tuple}
    (firstKeys : (renewed.getD position .null).key? = (first.getD position .null).key?)
    (secondKeys : (changed.getD position .null).key? = (second.getD position .null).key?) :
    sharesKeyIn position renewed changed = sharesKeyIn position first second := by
  rw [Bool.eq_iff_iff, sharesKeyIn_eq_true_iff, sharesKeyIn_eq_true_iff, firstKeys, secondKeys]

theorem sharesKeyIn_comm {first second : Tuple} :
    sharesKeyIn position first second = sharesKeyIn position second first := by
  rw [Bool.eq_iff_iff, sharesKeyIn_eq_true_iff, sharesKeyIn_eq_true_iff]
  exact exists_congr fun key => and_comm

theorem visit_keeping {done rest : List (Option Seat)} (keeps : table.KeepsKeys assignments tuple)
    (clear : ∀ seat, some seat ∈ done ++ rest → ∀ position ∈ table.uniqueColumns,
      sharesKeyIn position seat.tuple tuple = false) :
    table.visit none assignments resolution (done ++ some ⟨tuple, false⟩ :: rest)
        (done.length, tuple) =
      .ok (done ++ some ⟨table.assigned assignments tuple, true⟩ :: rest) := by
  have free : (table.uniqueColumns.find? fun position =>
      (othersThan done.length (done ++ some ⟨tuple, false⟩ :: rest)).any fun other =>
        sharesKeyIn position (table.assigned assignments tuple) other.tuple) = none := by
    refine List.find?_eq_none.mpr fun position unique => ?_
    rw [Bool.not_eq_true, List.any_eq_false]
    intro seat member
    rw [othersThan, List.eraseIdx_append_of_length_le (Nat.le_refl _), Nat.sub_self,
      List.eraseIdx_cons_zero] at member
    rw [Bool.not_eq_true, sharesKeyIn_congr (keeps.keys position unique) rfl, sharesKeyIn_comm]
    exact clear seat (by simpa using member) position unique
  rw [Table.visit]
  simp only [List.getElem?_append_right (Nat.le_refl _), Nat.sub_self, List.getElem?_cons_zero,
    passes, keeps.checked, ok_bind, Table.seated, free]
  simp

/-- Where all rows keep their keys, none of them is in the way of another. -/
theorem foldlM_visit_keeping {done : List (Option Seat)} {rest : List Tuple}
    (keeps : ∀ tuple ∈ rest, table.KeepsKeys assignments tuple)
    (apart : rest.Pairwise fun first second =>
      ∀ position ∈ table.uniqueColumns, sharesKeyIn position first second = false)
    (clear : ∀ seat, some seat ∈ done → ∀ tuple ∈ rest, ∀ position ∈ table.uniqueColumns,
      sharesKeyIn position seat.tuple tuple = false) :
    ((List.range' done.length rest.length).zip rest).foldlM
        (table.visit none assignments resolution)
        (done ++ rest.map fun tuple => some ⟨tuple, false⟩) =
      .ok (done ++ rest.map fun tuple => some ⟨table.assigned assignments tuple, true⟩) := by
  induction rest generalizing done with
  | nil => rfl
  | cons tuple rest ih =>
      obtain ⟨own, others⟩ := List.forall_mem_cons.mp keeps
      obtain ⟨first, apart⟩ := List.pairwise_cons.mp apart
      have stands : ∀ seat, some seat ∈ done ++ rest.map (fun tuple => some ⟨tuple, false⟩) →
          ∀ position ∈ table.uniqueColumns, sharesKeyIn position seat.tuple tuple = false := by
        intro seat member position unique
        rcases List.mem_append.mp member with before | after
        · exact clear seat before tuple List.mem_cons_self position unique
        · obtain ⟨other, listed, same⟩ := List.mem_map.mp after
          cases same
          rw [sharesKeyIn_comm]
          exact first other listed position unique
      rw [List.length_cons, List.range'_succ, List.zip_cons_cons, List.foldlM_cons, List.map_cons,
        visit_keeping own stands, ok_bind]
      -- The seat that was taken counts among those that are done.
      have length : done.length + 1 =
          (done ++ [some (Seat.mk (table.assigned assignments tuple) true)]).length := by
        rw [List.length_append, List.length_singleton]
      rw [List.append_cons, length, ih others apart, List.map_cons, ← List.append_cons]
      intro seat member other listed position unique
      rcases List.mem_append.mp member with before | added
      · exact clear seat before other (List.mem_cons_of_mem _ listed) position unique
      · cases List.mem_singleton.mp added
        rw [sharesKeyIn_congr (own.keys position unique) rfl]
        exact first other listed position unique

/-- An update of all rows that keeps the keys of each of them goes well, whatever is asked for
clashes. -/
theorem updateInOrder_keeping (wellFormed : relation.WellFormed)
    (keeps : ∀ tuple ∈ relation.tuples, relation.schema.KeepsKeys assignments tuple) :
    relation.updateInOrder none assignments resolution =
      .ok (relation.tuples.map fun tuple => ⟨relation.schema.assigned assignments tuple, true⟩) := by
  have length : relation.rows.length = relation.tuples.length := (List.length_map _).symm
  have walked := @foldlM_visit_keeping relation.schema assignments resolution [] relation.tuples
    keeps (tuples_apart wellFormed) nofun
  rw [Relation.updateInOrder, Relation.numberedTuples, List.range_eq_range', length]
  change Except.map _ (((List.range' ([] : List (Option Seat)).length _).zip _).foldlM _
    ([] ++ _)) = _
  rw [walked, List.nil_append]
  refine congrArg Except.ok ?_
  change List.filterMap id (List.map _ _) = _
  rw [List.filterMap_map]
  exact congrFun List.filterMap_eq_map _

/-! ## The value in its column -/

theorem assigned_self (located : table.columns[position]? = some column) :
    table.assigned [(position, .column position)] tuple =
      tuple.modify position (Value.coerce column.type) := by
  refine List.ext_getElem? fun place => ?_
  rw [Table.assigned, List.getElem?_mapIdx, List.getElem?_modify]
  cases held : tuple[place]? with
  | none => split <;> rfl
  | some value =>
      by_cases here : position = place
      · subst here
        simp [Table.assignedValue, located, Operand.value, List.getD_eq_getElem?_getD, held]
      · cases table.columns[place]? <;> simp [Table.assignedValue, here]

/-- A tuple in the form of its columns stays allowed when a column is set to itself. -/
theorem keepsKeys_self (located : table.columns[position]? = some column)
    (inForm : table.InForm tuple) (checked : table.checkTuple tuple = .ok ()) :
    table.KeepsKeys [(position, .column position)] tuple := by
  have again : table.assigned [(position, .column position)] tuple =
      tuple.modify position (Value.coerce column.type) := assigned_self located
  obtain ⟨wide, each⟩ := Table.checkTuple_eq_ok_iff.mp checked
  constructor
  · rw [again, Table.checkTuple_eq_ok_iff]
    refine ⟨(List.length_modify ..).trans wide, fun pair member => ?_⟩
    obtain ⟨place, found⟩ := List.mem_iff_getElem?.mp member
    obtain ⟨placed, modified⟩ := List.getElem?_zip_eq_some.mp found
    rw [List.getElem?_modify] at modified
    obtain ⟨value, held, changed⟩ := Option.map_eq_some_iff.mp modified
    have allowed := each (pair.1, value)
      (List.mem_iff_getElem?.mpr ⟨place, List.getElem?_zip_eq_some.mpr ⟨placed, held⟩⟩)
    rw [← changed]
    split
    · rename_i here
      subst here
      cases located.symm.trans placed
      exact Column.checkValue_coerce allowed
    · exact allowed
  · intro place _
    rw [again, List.getD_eq_getElem?_getD, List.getD_eq_getElem?_getD, List.getElem?_modify]
    cases held : tuple[place]? with
    | none => rfl
    | some value =>
        rw [Option.map_eq_map, Option.map_some, Option.getD_some, Option.getD_some]
        split
        · rename_i here
          subst here
          exact (inForm position column value located held).key?_coerce
        · rfl

theorem modify_coerce_eq_iff (located : table.columns[position]? = some column)
    (inForm : table.InForm tuple) :
    tuple.modify position (Value.coerce column.type) = tuple ↔
      ¬ (column.type = .integer ∧ ∃ x number, tuple.getD position .null = .real x ∧
        Value.integerOfReal? x = some number) := by
  have fixed : tuple.modify position (Value.coerce column.type) = tuple ↔
      (tuple.getD position .null).coerce column.type = tuple.getD position .null := by
    rw [List.getD_eq_getElem?_getD]
    constructor
    · intro same
      have there := congrArg (·[position]?) same
      simp only [List.getElem?_modify, if_true] at there
      cases held : tuple[position]? with
      | none => cases column.type <;> rfl
      | some value =>
          rw [held] at there
          exact Option.some.inj there
    · intro same
      refine List.ext_getElem? fun place => ?_
      rw [List.getElem?_modify]
      cases held : tuple[place]? with
      | none => rfl
      | some value =>
          by_cases here : position = place
          · subst here
            rw [held, Option.getD_some] at same
            rw [Option.map_eq_map, Option.map_some, if_pos rfl, same]
          · rw [Option.map_eq_map, Option.map_some, if_neg here]
  have formed : (tuple.getD position .null).InForm column.type := by
    rw [List.getD_eq_getElem?_getD]
    cases held : tuple[position]? with
    | none => exact Value.null_inForm
    | some value => exact inForm position column value located held
  rw [fixed, formed.coerce_eq_iff]

theorem getD_tuple {row : Row} (located : table.columns[position]? = some column) :
    (table.tuple row).getD position .null = (row.get? column.name).getD .null := by
  rw [List.getD_eq_getElem?_getD, Table.tuple, List.getElem?_map, Table.columnNames,
    List.getElem?_map, located]
  rfl

/-- A row stays as it is when a column is set to itself, unless the column is an integer one and the
row holds a real there that is an integer. -/
theorem row_assigned_self_iff {row : Row} (wellFormed : relation.WellFormed)
    (inForm : relation.InForm) (located : relation.schema.columns[position]? = some column)
    (stored : row ∈ relation.rows) :
    relation.schema.row (relation.schema.assigned [(position, .column position)]
      (relation.schema.tuple row)) = row ↔
    ¬ (column.type = .integer ∧ ∃ x number,
      row.get? column.name = some (.real x) ∧ Value.integerOfReal? x = some number) := by
  have kept := Table.row_tuple (wellFormed.rowsHeld row stored).columns wellFormed.distinct
  have back : relation.schema.row (relation.schema.assigned [(position, .column position)]
        (relation.schema.tuple row)) = row ↔
      relation.schema.assigned [(position, .column position)] (relation.schema.tuple row) =
        relation.schema.tuple row := by
    refine ⟨fun same => ?_, fun same => by rw [same, kept]⟩
    have wide : (relation.schema.assigned [(position, .column position)]
        (relation.schema.tuple row)).length = relation.schema.columns.length := by
      rw [Table.assigned, List.length_mapIdx, Table.length_tuple]
    rw [← Table.tuple_row wellFormed.distinct wide, same]
  rw [back, assigned_self located,
    modify_coerce_eq_iff located (inForm _ (List.mem_map_of_mem stored)), getD_tuple located]
  cases row.get? column.name with
  | none => simp
  | some value => simp

/-- All rows stay as they are just when each does. -/
theorem rows_assigned_self_iff (wellFormed : relation.WellFormed) (inForm : relation.InForm)
    (located : relation.schema.columns[position]? = some column) :
    (relation.rows.map fun row => relation.schema.row (relation.schema.assigned
        [(position, .column position)] (relation.schema.tuple row))) = relation.rows ↔
      ¬ (column.type = .integer ∧ ∃ row ∈ relation.rows, ∃ x number,
        row.get? column.name = some (.real x) ∧ Value.integerOfReal? x = some number) := by
  conv_lhs => rhs; rw [← List.map_id relation.rows]
  rw [List.map_inj_left]
  constructor
  · rintro fixed ⟨integral, row, stored, real⟩
    exact (row_assigned_self_iff wellFormed inForm located stored).mp (fixed row stored)
      ⟨integral, real⟩
  · intro none row stored
    exact (row_assigned_self_iff wellFormed inForm located stored).mpr fun moved =>
      none ⟨moved.1, row, stored, moved.2⟩

end

/-! ## The statement -/

namespace Scope

variable {table : Table} {position : Nat} {column : Column}

/-- The name of a column stands for it in the rows of its table. -/
theorem resolve_column (distinct : table.columnNames.Nodup)
    (located : table.columns[position]? = some column) :
    (ofTable table none).resolve (.field none column.name) = .ok position := by
  have named : table.columnNames[position]? = some column.name := by
    rw [Table.columnNames, List.getElem?_map, located, Option.map_some]
  have only : ((List.range (ofTable table none).columns.length).filter fun place =>
      ((ofTable table none).columns[place]?).any fun other => other.label == column.name) =
      [position] := by
    refine (List.pairwise_lt_range.filter _).eq_of_mem_iff (List.pairwise_singleton _ _)
      fun place => ?_
    simp only [ofTable, List.mem_filter, List.mem_range, List.length_map, List.getElem?_map,
      Option.any_map, List.mem_singleton, Option.any_eq_true, beq_iff_eq]
    constructor
    · rintro ⟨-, name, found, rfl⟩
      obtain ⟨within, same⟩ := List.getElem?_eq_some_iff.mp found
      obtain ⟨positionWithin, also⟩ := List.getElem?_eq_some_iff.mp named
      exact distinct.getElem_inj_iff.mp (same.trans also.symm)
    · rintro rfl
      exact ⟨(List.getElem?_eq_some_iff.mp named).1, _, named, rfl⟩
  rw [resolve, resolveBare, only]

end Scope

namespace Database

variable {database : Database} {relation : Relation} {name : String} {column : Column}
variable {position : Nat} {resolution : Option Resolution} {parameters : List Value}

theorem planStatement_selfAssignment (reached : database.Reachable)
    (found : database.state.store.relation name = .ok relation)
    (located : relation.schema.columns[position]? = some column) :
    planStatement { store := database.state.store, parameters }
        (selfAssignment name column.name resolution) =
      .ok (.update name none [(position, .column position)] (resolution.getD .abort)) := by
  have formed := reached.wellFormed.current.store.relations _ (Store.relation_eq_ok_iff.mp found)
  have placed : relation.schema.position column.name = .ok position := by
    rw [Table.position_eq_ok_iff, Table.position?_eq_some_iff formed.distinct, Table.columnNames,
      List.getElem?_map, located, Option.map_some]
  simp only [planStatement, selfAssignment, planUpdate, Store.table_of_relation found, ok_bind,
    PlanContext.predicate?, List.mapM_cons, List.mapM_nil, planAssignment, placed,
    PlanContext.operand, Operand.ofExpression, Scope.resolve_column formed.distinct located,
    name_of_relation reached found]
  rfl

/-- A value that was put into a column is left as it is when it is put there again, unless it was a
text that spells an integer as a real. So an update that sets a column to itself, which always goes
well, leaves all rows as they are unless the column is an integer one that holds a real to which an
integer is equal. -/
theorem self_assignment_keeps_iff (reached : database.Reachable)
    (found : database.state.store.relation name = .ok relation)
    (located : relation.schema.columns[position]? = some column) :
    (∀ (type : ColumnType) (value : Value), (value.coerce type).coerce type = value.coerce type ↔
      ¬ (type = .integer ∧ ∃ content, value = .text content ∧ Value.SpellsWholeReal content)) ∧
    ∀ resolution parameters, ∃ renewed,
      database.run (selfAssignment name column.name resolution) parameters =
        (database.withStore (database.state.store.holding name renewed),
          .ok (.updated relation.rows.length)) ∧
      renewed.schema = relation.schema ∧
      (renewed.rows = relation.rows ↔
        ¬ (column.type = .integer ∧ ∃ row ∈ relation.rows, ∃ x number,
          row.get? column.name = some (.real x) ∧ Value.integerOfReal? x = some number)) := by
  refine ⟨fun type value => Value.coerce_coerce_iff, fun resolution parameters => ?_⟩
  have formed := reached.wellFormed.current.store.relations _ (Store.relation_eq_ok_iff.mp found)
  have inForm : relation.InForm := reached.inForm found
  have walked := @updateInOrder_keeping [(position, .column position)] (resolution.getD .abort)
    relation formed fun tuple member => by
      obtain ⟨row, stored, rfl⟩ := List.mem_map.mp member
      exact keepsKeys_self located (inForm _ member) (formed.rowsHeld row stored).values
  have agrees := update_in_order none [(position, .column position)] (resolution.getD .abort)
    reached found
  rw [walked] at agrees
  obtain ⟨renewed, ran, schema, rows⟩ := agrees
  refine ⟨renewed, ?_, schema, ?_⟩
  · have planned := @planStatement_selfAssignment _ _ _ _ _ resolution parameters reached found
      located
    change database.runPlanned (selfAssignment name column.name resolution) parameters = _
    rw [runPlanned, planned]
    refine ran.trans ?_
    have all : (relation.tuples.map fun tuple => Seat.mk (relation.schema.assigned
        [(position, .column position)] tuple) true).countP Seat.updated = relation.rows.length := by
      rw [List.countP_map]
      exact (congrFun List.countP_true _).trans (List.length_map _)
    rw [all]
  · have same : renewed.rows = relation.rows.map fun row => relation.schema.row
        (relation.schema.assigned [(position, .column position)] (relation.schema.tuple row)) := by
      rw [rows, Relation.tuples, List.map_map, List.map_map]
      rfl
    rw [same]
    exact rows_assigned_self_iff formed inForm located

/-- The text of a whole real was stored as that real, and becomes an integer when its column is set
to itself. -/
theorem self_assignment_changes_whole_real :
    let database := fromTexts ["CREATE TABLE t (a INTEGER)", "INSERT INTO t (a) VALUES ('1.0')"]
    ∃ relation column renewed, database.state.store.relation "t" = .ok relation ∧
      relation.schema.columns[1]? = some column ∧ column.type = .integer ∧
      database.run (selfAssignment "t" column.name none) [] =
        (database.withStore (database.state.store.holding "t" renewed), .ok (.updated 1)) ∧
      relation.tuples = [[.integer 1, .real (.ofInt 1)]] ∧ renewed.rows ≠ relation.rows ∧
      ((Value.text "1.0").coerce .integer).coerce .integer ≠ (Value.text "1.0").coerce .integer := by
  intro database
  have reached : database.Reachable := fromTexts_reachable
  have facts : (database.state.store.relation "t").map (fun relation =>
        (relation.tuples, relation.schema.columns[1]?, relation.rows.map fun row => row.get? "a")) =
      .ok ([[.integer 1, .real (.ofInt 1)]], some (Column.plain "a" .integer),
        [some (.real (.ofInt 1))]) := by decide +kernel
  obtain ⟨relation, found, facts⟩ := map_eq_ok_iff.mp facts
  simp only [Prod.mk.injEq] at facts
  obtain ⟨tuples, located, held⟩ := facts
  obtain ⟨row, single, value⟩ := List.map_eq_singleton_iff.mp held
  obtain ⟨forms, keeps⟩ := self_assignment_keeps_iff reached found located
  obtain ⟨renewed, ran, -, same⟩ := keeps none []
  have whole : Value.integerOfReal? (.ofInt 1) = some 1 := by decide +kernel
  rw [single] at ran
  refine ⟨relation, _, renewed, found, located, rfl, ran, tuples, fun kept => ?_, fun fixed => ?_⟩
  · exact same.mp kept
      ⟨rfl, row, by rw [single]; exact List.mem_singleton_self _, _, 1, value, whole⟩
  · refine (forms _ _).mp fixed ⟨rfl, "1.0", rfl, by decide +kernel, .ofInt 1, 1, ?_, whole⟩
    decide +kernel

end Database

end Coffer
